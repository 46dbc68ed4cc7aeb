import TransferServer.Lib.OrderedSet
import TransferServer.Net.ThreadConfinement

/-! The map `connections_` of the server: what it holds, and the order in which the dispatcher goes
through it. -/

set_option autoImplicit false

namespace TransferServer.Net.TcpServer

open Base Lib

variable {handshake : Handshake} {server before after : TcpServer} {conn other : ConnId}

theorem connName_inj (same : connName conn = connName other) : conn = other := by
  have read := congrArg (Nat.ofDigitChars 10 · 0) same
  simpa only [connName, Nat.ofDigitChars_ten_toDigits] using read

/-- The keys, in the order of the map. -/
def keys (server : TcpServer) : List (List Char) := server.connections.map connName

theorem mem_keys : connName conn ∈ server.keys ↔ conn ∈ server.connections := by
  constructor
  · intro listed
    obtain ⟨other, there, same⟩ := List.mem_map.mp listed
    exact connName_inj same ▸ there
  · exact List.mem_map_of_mem

theorem keys_admitted {sockfd : Int} {peerAddr : Bytes} : (server.admitted sockfd peerAddr).keys =
    server.keys.orderedInsert (· ≤ ·) (connName server.nextConnId) :=
  List.map_orderedInsert _ _ connName server.connections server.nextConnId (fun _ _ => Iff.rfl)
    fun _ _ => Iff.rfl

theorem Anchored.ascending (anchored : before.Anchored after)
    (ascending : before.keys.Pairwise (· < ·)) : after.keys.Pairwise (· < ·) :=
  ascending.sublist (anchored.connections.map connName)

/-- Everything but an admission leaves the map alone or takes entries out. -/
theorem Takes.ascending {action : Action} (formed : before.WellFormed)
    (takes : before.Takes handshake action after) (ascending : before.keys.Pairwise (· < ·)) :
    after.keys.Pairwise (· < ·) := by
  rcases takes.anchored with anchored | ⟨middle, sockfd, peerAddr, earlier, _, _, later⟩
  · exact anchored.ascending ascending
  · apply later.ascending
    rw [keys_admitted]
    apply OrderedSet.ascending_orderedInsert (earlier.ascending ascending)
    intro listed
    have there := earlier.connections.subset (mem_keys.mp listed)
    rw [earlier.nextConnId] at there
    exact (formed.known before.nextConnId formed.unborn).1 there

structure Tabled (server : TcpServer) : Prop where
  homely : server.Homely
  ascending : server.keys.Pairwise (· < ·)

/-- In every run, `connections_` holds exactly the connections that have been made and not erased,
each under a key of its own, in the order of the keys. -/
theorem connections_exact {numThreads : Nat} {wakeupFd : LoopId → Int} {acceptFd : Int}
    {actions : List Action}
    (run : Execution (step handshake) anyAction (start numThreads wakeupFd acceptFd) actions server) :
    (∀ conn, conn ∈ server.connections ↔ server.conns conn ≠ none ∧ .erased conn ∉ server.trace) ∧
      server.keys.Pairwise (· < ·) := by
  obtain ⟨⟨upheld, -⟩, ascending⟩ : server.Tabled := by
    apply run.invariant ⟨start_homely, .nil⟩
    intro before action after ⟨homely, ascending⟩ _ stepped
    exact ⟨step_homely homely stepped, (homely.takes stepped).ascending homely.upheld.formed ascending⟩
  refine ⟨fun conn => ?_, ascending⟩
  cases found : server.conns conn with
  | none =>
      have missing : server.standing conn = none := by rw [standing, found, Option.map_none]
      have absent := (upheld.formed.known conn missing).1
      exact ⟨fun listed => absurd listed absent, fun made => absurd rfl made.1⟩
  | some object =>
      obtain ⟨life, alive, _⟩ := life_of_standing (standing_of_conns found)
      obtain ⟨entries, _, erasures, _⟩ := counts_of_life alive
      have once := (upheld.valid conn life alive).listed
      rw [entries, erasures] at once
      rw [← List.count_pos_iff, ← List.count_eq_zero]
      constructor
      · intro listed
        exact ⟨Option.some_ne_none object, by omega⟩
      · rintro ⟨_, unerased⟩
        omega

/-- The theorem past the tenth connection, whose key is the second of all. -/
theorem connections_exact_ten : ∃ server : TcpServer,
    server.connections = [1, 10, 2, 3, 4, 5, 6, 7, 8, 9] ∧ server.keys.Pairwise (· < ·) := by
  let actions : List Action := (List.range 10).flatMap fun index =>
    iteration 0 [0, 1] [.nothing, ⟨some (20 + index, [1]), .ok [], 0⟩] []
  have replayed : (replay (step ⟨some, fun _ => true⟩) anyAction .impossible
      (start 1 (fun loop => 4 + loop) 3) actions).toOption.any (fun server =>
        decide (server.connections = [1, 10, 2, 3, 4, 5, 6, 7, 8, 9])) = true := by
    decide +kernel
  obtain ⟨server, run, tested⟩ := Execution.exists_of_replay replayed
  exact ⟨server, of_decide_eq_true tested, (connections_exact run).2⟩

end TransferServer.Net.TcpServer
