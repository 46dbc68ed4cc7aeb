import TransferServer.Net.Handshake
import TransferServer.Net.Removal

/-! The teardown of a connection that is asked to leave once. The close callback, the end of the
stream, a refused packet and an eviction each ask by themselves, so one connection may be asked
twice; then `assert(n == 1)` (TcpServer.cpp) fails. -/

set_option autoImplicit false

namespace TransferServer.Net.TcpServer

open Base Lib

variable {timely : Prop} {handshake : Handshake} {before server after : TcpServer} {conn : ConnId}
variable {action : Action} {actions later : List Action}

/-- The connections that the steps ask to leave, in order: those whose close callback is called, whose
read returns 0, whose second packet is refused, or which a dispatcher finds without an entry. -/
def asked (handshake : Handshake) : TcpServer → List Action → List ConnId
  | _, [] => []
  | server, action :: actions =>
      (server.removal handshake action).toList ++
        match step handshake server action with
        | .ok after => asked handshake after actions
        | .error _ => []

theorem asked_append (run : Execution (step handshake) anyAction before actions server) :
    asked handshake before (actions ++ later) =
      asked handshake before actions ++ asked handshake server later := by
  induction run generalizing later with
  | nil => rfl
  | @snoc actions middle last action _ _ stepped ih =>
      have first : asked handshake middle (action :: later) =
          (middle.removal handshake action).toList ++ asked handshake last later := by
        simp only [asked, stepped]
      have alone : asked handshake middle [action] = (middle.removal handshake action).toList := by
        simp [asked, stepped]
      rw [List.append_assoc, List.singleton_append, ih, ih, first, alone, List.append_assoc]

theorem asked_snoc (run : Execution (step handshake) anyAction before actions server) :
    asked handshake before (actions ++ [action]) =
      asked handshake before actions ++ (server.removal handshake action).toList := by
  rw [asked_append run]
  congr 1
  simp only [asked]
  split <;> exact List.append_nil _

/-- Only connections that there are can be asked to leave. -/
theorem standing_of_removal (formed : server.WellFormed)
    (asks : server.removal handshake action = some conn) :
    ∃ standing, server.standing conn = some standing := by
  cases action with
  | handle loop input =>
      obtain ⟨task, head, asks⟩ := Option.bind_eq_some_iff.mp asks
      have waits : task ∈ server.todo loop := List.mem_of_head? head
      have scheduled {other : ConnId} (named : task.conn = some other) :
          ∃ standing, server.standing other = some standing := by
        obtain ⟨standing, there, _⟩ := formed.scheduled loop task other waits named
        exact ⟨standing, there⟩
      unfold removalBy at asks
      split at asks
      · cases asks
        exact scheduled rfl
      · split at asks
        · cases asks
          exact scheduled rfl
        · cases asks
      · split at asks
        · cases asks
        · next found =>
            split at asks
            · cases asks
              exact ⟨_, standing_of_conns found⟩
            · cases asks
      · cases asks
  | _ => cases asks

/-- A connection that has not been asked to leave is on the list. -/
theorem Upheld.punctual (upheld : server.Upheld timely)
    (fresh : ∀ conn, server.removal handshake action = some conn → server.departures conn = 0) :
    server.Timely handshake action := by
  intro conn asks
  obtain ⟨standing, there⟩ := standing_of_removal upheld.formed asks
  obtain ⟨life, alive, _⟩ := life_of_standing there
  obtain ⟨entries, _, erasures, _⟩ := counts_of_life alive
  have once := (upheld.valid conn life alive).listed
  have kept := departures_eq_zero.mp (fresh conn asks)
  have unerased : server.trace.count (.erased conn) = 0 :=
    List.count_eq_zero.mpr fun erased => kept (.inl erased)
  refine ⟨?_, fun waits => kept (.inr waits)⟩
  rw [← List.count_pos_iff, ← entries]
  omega

section Runs

variable {numThreads : Nat} {wakeupFd : LoopId → Int} {acceptFd : Int}

/-- Everything that was asked for has been granted, or waits. -/
theorem run_asked
    (run : Execution (step handshake) anyAction (start numThreads wakeupFd acceptFd) actions server) :
    server.Homely ∧ ∀ conn,
      (asked handshake (start numThreads wakeupFd acceptFd) actions).count conn =
        server.departures conn := by
  induction run with
  | nil =>
      refine ⟨start_homely, fun conn => ?_⟩
      simp [asked, departures, start, agenda, EventLoop.construct]
  | snoc run _ stepped ih =>
      obtain ⟨homely, counted⟩ := ih
      refine ⟨step_homely homely stepped, fun conn => ?_⟩
      rw [asked_snoc run, List.count_append, counted,
        step_departs homely.upheld homely.based stepped]
      congr 1
      cases removal _ _ _ <;> simp [List.count_singleton]

theorem fresh_of_nodup
    (run : Execution (step handshake) anyAction (start numThreads wakeupFd acceptFd) actions server)
    (once : (asked handshake (start numThreads wakeupFd acceptFd) (actions ++ [action])).Nodup)
    (asks : server.removal handshake action = some conn) : server.departures conn = 0 := by
  rw [asked_snoc run, asks] at once
  have apart := (List.nodup_append.mp once).2.2
  rw [← (run_asked run).2 conn, List.count_eq_zero]
  exact fun earlier => apart conn earlier conn (List.mem_singleton.mpr rfl) rfl

theorem run_upheld_of_nodup
    (run : Execution (step handshake) anyAction (start numThreads wakeupFd acceptFd) actions server)
    (once : (asked handshake (start numThreads wakeupFd acceptFd) actions).Nodup) :
    server.Upheld True := by
  induction run with
  | nil => exact start_upheld
  | snoc run _ stepped ih =>
      have upheld := ih ((asked_snoc run ▸ once).of_append_left)
      have time := upheld.punctual fun conn asks => fresh_of_nodup run once asks
      exact (step_upheld upheld fun _ => time).of_ok stepped

/-- While no connection is asked to leave twice, each is erased at most once and destroyed at most
once, and no assertion on its teardown fails. -/
theorem teardown_once
    (run : Execution (step handshake) anyAction (start numThreads wakeupFd acceptFd) actions server)
    (once : (asked handshake (start numThreads wakeupFd acceptFd) actions).Nodup) :
    (∀ conn, server.trace.count (.erased conn) ≤ 1 ∧ server.trace.count (.destroyed conn) ≤ 1) ∧
      ∀ action, (asked handshake (start numThreads wakeupFd acceptFd) (actions ++ [action])).Nodup →
        step handshake server action ≠ .error (.assertion .removeConnectionInLoop) ∧
        step handshake server action ≠ .error (.assertion .handleClose) ∧
        step handshake server action ≠ .error (.assertion .connectDestroyed) := by
  have upheld := run_upheld_of_nodup run once
  refine ⟨upheld.once, fun action once => ?_⟩
  have time := upheld.punctual fun conn asks => fresh_of_nodup run once asks
  have ensured : Ensures (Halt.Tolerated True) (step handshake server action) (Upheld True) :=
    step_upheld upheld fun _ => time
  exact ⟨fun stopped => (ensured.of_error stopped).2.2 trivial rfl,
    fun stopped => (ensured.of_error stopped).1 rfl, fun stopped => (ensured.of_error stopped).2.1 rfl⟩

/-- The theorem at a peer that closes a connection of an I/O loop. -/
theorem teardown_once_remote : ∃ (handshake : Handshake) (actions : List Action) (server : TcpServer),
    (server.trace.count (.erased 1) = 1 ∧ server.trace.count (.destroyed 1) = 1) ∧
      ∀ action, (asked handshake (start 1 (fun loop => 4 + loop) 3) (actions ++ [action])).Nodup →
        step handshake server action ≠ .error (.assertion .removeConnectionInLoop) := by
  let handshake : Handshake := ⟨Handshake.ofPackets.firstReply, fun data => data = [7]⟩
  let actions : List Action :=
    iteration 0 [0, 1] [.nothing, ⟨some (6, [1]), .ok [], 0⟩] [] ++
    iteration 1 [1] [.nothing, .nothing] [⟨none, .ok [], 21⟩] ++
    iteration 1 [0, 1] [.nothing, .nothing] [] ++
    iteration 0 [1, 0] [.nothing, .nothing] [.nothing] ++
    iteration 1 [1, 0] [.nothing, .nothing] [.nothing]
  have once : (asked handshake (start 1 (fun loop => 4 + loop) 3) actions).Nodup := by
    decide +kernel
  have replayed : (replay (step handshake) anyAction .impossible
      (start 1 (fun loop => 4 + loop) 3) actions).toOption.any (fun server =>
        decide (server.trace.count (.erased 1) = 1 ∧ server.trace.count (.destroyed 1) = 1)) = true := by
    decide +kernel
  obtain ⟨server, run, ended⟩ := Execution.exists_of_replay replayed
  exact ⟨handshake, actions, server, of_decide_eq_true ended, fun action fresh =>
    ((teardown_once run once).2 action fresh).1⟩

/-- A broadcast evicts a silent peer in the very round in which the close of that peer is handled. -/
theorem teardown_not_once : ∃ (actions : List Action) (server : TcpServer) (action : Action),
    Execution (step ⟨Handshake.ofPackets.firstReply, fun data => data = [7]⟩) anyAction
      (start 0 (fun loop => 4 + loop) 3) actions server ∧
    step ⟨Handshake.ofPackets.firstReply, fun data => data = [7]⟩ server action =
      .error (.assertion .removeConnectionInLoop) := by
  let handshake : Handshake := ⟨Handshake.ofPackets.firstReply, fun data => data = [7]⟩
  let actions : List Action :=
    iteration 0 [0, 1] [.nothing, ⟨some (5, [1]), .ok [], 21⟩] [] ++
    iteration 0 [0, 1, 0] [.nothing, ⟨some (6, [2]), .ok [], 21⟩] [] ++
    iteration 0 [0, 0, 1, 0] [.nothing, ⟨none, .ok Handshake.firstMessage, 0⟩] [] ++
    iteration 0 [0, 0, 1, 0] [.nothing, ⟨none, .ok [7], 0⟩] [] ++
    [.poll 0 (some [0, 0, 1, 1]), .handle 0 .nothing, .handle 0 ⟨none, .ok [8], 0⟩,
      .handle 0 .nothing, .handle 0 .nothing, .handle 0 .nothing]
  have replayed : (replay (step handshake) anyAction .impossible
      (start 0 (fun loop => 4 + loop) 3) actions).toOption.any (fun server =>
        stopsWith (step handshake server (.handle 0 .nothing)) (.assertion .removeConnectionInLoop)) =
          true := by
    decide +kernel
  obtain ⟨server, run, failed⟩ := Execution.exists_of_replay replayed
  exact ⟨actions, server, .handle 0 .nothing, run, eq_error_of_stopsWith failed⟩

/-- The condition leaves nothing out: where a run goes on and no removal waits in the base loop any
more, nobody was asked to leave twice. -/
theorem nodup_of_granted
    (run : Execution (step handshake) anyAction (start numThreads wakeupFd acceptFd) actions server)
    (granted : ∀ conn, .removeConnectionInLoop conn ∉ server.agenda baseLoop) :
    (asked handshake (start numThreads wakeupFd acceptFd) actions).Nodup := by
  obtain ⟨⟨upheld, _⟩, counted⟩ := run_asked run
  refine List.nodup_iff_count_le_one.mpr fun conn => ?_
  rw [counted, departures, List.count_eq_zero.mpr (granted conn), Nat.add_zero]
  exact (upheld.once conn).1

end Runs

end TransferServer.Net.TcpServer
