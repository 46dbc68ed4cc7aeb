import Mathlib.Data.Int.CardIntervalMod
import TransferServer.Net.ThreadConfinement

/-! The loops that connections are given to (`EventLoopThreadPool::getNextLoop`). The threads of a
pool are taken in turn, whatever happens to the connections in between. -/

set_option autoImplicit false

namespace TransferServer.Net.TcpServer

open Base Lib

variable {handshake : Handshake} {server before after : TcpServer} {numThreads : Nat}

/-- The loop of the connection that was accepted after `index` others. -/
def assigned (numThreads index : Nat) : LoopId :=
  if numThreads = 0 then baseLoop else index % numThreads + 1

/-- How many connections have been accepted. -/
def acceptedCount (server : TcpServer) : Nat := Nat.pred server.nextConnId

/-- `next_` goes round as connections are numbered, and each has the loop it was given. -/
structure Dealt (numThreads : Nat) (server : TcpServer) : Prop where
  threads : server.numThreads = numThreads
  numbered : server.nextConnId = server.acceptedCount + 1
  next : numThreads ≠ 0 → server.next = server.acceptedCount % numThreads
  known : ∀ index < server.acceptedCount, server.standing (index + 1) ≠ none
  placed : ∀ index standing, server.standing (index + 1) = some standing →
    standing.loop = assigned numThreads index

theorem start_dealt {wakeupFd : LoopId → Int} {acceptFd : Int} :
    (start numThreads wakeupFd acceptFd).Dealt numThreads where
  threads := rfl
  numbered := rfl
  next := fun _ => (Nat.zero_mod numThreads).symm
  known := nofun
  placed := nofun

theorem Anchored.dealt (anchored : before.Anchored after) (dealt : before.Dealt numThreads) :
    after.Dealt numThreads := by
  obtain ⟨threads, numbered, next, known, placed⟩ := dealt
  have same : after.acceptedCount = before.acceptedCount := congrArg Nat.pred anchored.nextConnId
  refine ⟨anchored.numThreads.trans threads, ?_, ?_, fun index early unknown => ?_,
    fun index standing there => ?_⟩
  · rw [anchored.nextConnId, same]
    exact numbered
  · rw [anchored.next, same]
    exact next
  · apply known index (same ▸ early)
    rw [standing, Option.map_eq_none_iff] at unknown ⊢
    exact (anchored.known (index + 1)).mp unknown
  · obtain ⟨earlier, there, loop⟩ := anchored.place (index + 1) standing there
    rw [← loop]
    exact placed index earlier there

theorem next_turn {turn count : Nat} (some : count ≠ 0) :
    (if count ≤ turn % count + 1 then 0 else turn % count + 1) = (turn + 1) % count := by
  have small := Nat.mod_lt turn (Nat.pos_of_ne_zero some)
  rw [← Nat.mod_add_mod]
  split
  · next last =>
      have whole : turn % count + 1 = count := by omega
      rw [whole, Nat.mod_self]
  · next more => rw [Nat.mod_eq_of_lt (Nat.not_le.mp more)]

theorem admitted_dealt {sockfd : Int} {peerAddr : Bytes} (dealt : server.Dealt numThreads) :
    (server.admitted sockfd peerAddr).Dealt numThreads := by
  obtain ⟨threads, numbered, next, known, placed⟩ := dealt
  have more : (server.admitted sockfd peerAddr).acceptedCount = server.acceptedCount + 1 := numbered
  refine ⟨threads, ?_, fun some => ?_, fun index early => ?_, fun index standing there => ?_⟩
  · rw [more]
    exact congrArg Nat.succ numbered
  · rw [more]
    change server.getNextLoop.2 = _
    rw [getNextLoop, threads, if_neg some, ← next_turn some, ← next some]
  · rw [standing_admitted, Function.update_apply]
    split
    · exact Option.some_ne_none _
    · next other =>
        rw [more] at early
        refine known index (Nat.lt_of_le_of_ne (Nat.le_of_lt_succ early) fun last => other ?_)
        rw [last]
        exact numbered.symm
  · rw [standing_admitted, Function.update_apply] at there
    split at there
    · next same =>
        cases there
        have last : index = server.acceptedCount := Nat.succ.inj (same.trans numbered)
        unfold assigned getNextLoop
        rw [threads]
        split
        · rfl
        · next some => rw [last, ← next some]
    · exact placed index standing there

theorem Takes.dealt {action : Action} (takes : before.Takes handshake action after)
    (dealt : before.Dealt numThreads) : after.Dealt numThreads := by
  rcases takes.anchored with anchored | ⟨middle, sockfd, peerAddr, earlier, _, _, later⟩
  · exact anchored.dealt dealt
  · exact later.dealt (admitted_dealt (earlier.dealt dealt))

theorem Takes.nextConnId {action : Action} (takes : before.Takes handshake action after) :
    after.nextConnId ≤ before.nextConnId + 1 := by
  rcases takes.anchored with anchored | ⟨middle, sockfd, peerAddr, earlier, _, _, later⟩
  · rw [anchored.nextConnId]
    exact Nat.le_succ before.nextConnId
  · rw [later.nextConnId, ← earlier.nextConnId]
    exact Nat.le_refl (middle.nextConnId + 1)

/-- The number of the next connection does not pass the number of steps by more than one, so that an
`int` holds it in runs of fewer than 2^31 - 1 steps. -/
theorem run_nextConnId {wakeupFd : LoopId → Int} {acceptFd : Int} {actions : List Action}
    (run : Execution (step handshake) anyAction (start numThreads wakeupFd acceptFd) actions server) :
    server.Homely ∧ server.nextConnId ≤ actions.length + 1 := by
  induction run with
  | nil => exact ⟨start_homely, Nat.le_refl 1⟩
  | snoc _ _ stepped ih =>
      obtain ⟨homely, bounded⟩ := ih
      refine ⟨step_homely homely stepped, ?_⟩
      rw [List.length_append, List.length_singleton]
      exact (homely.takes stepped).nextConnId.trans (Nat.succ_le_succ bounded)

/-- How many of the connections accepted so far were given to the loop. -/
def load (server : TcpServer) (loop : LoopId) : Nat :=
  server.acceptedCount.count fun index =>
    (server.standing (index + 1)).any fun standing => standing.loop = loop

theorem Dealt.load_eq (dealt : server.Dealt numThreads) {index : Nat} (inside : index < numThreads) :
    server.load (index + 1) = server.acceptedCount / numThreads +
      if index < server.acceptedCount % numThreads then 1 else 0 := by
  have some : 0 < numThreads := Nat.zero_lt_of_lt inside
  have turns : server.load (index + 1) = server.acceptedCount.count (· ≡ index [MOD numThreads]) := by
    unfold load Nat.count
    refine List.countP_congr fun other early => ?_
    obtain ⟨standing, there⟩ := Option.ne_none_iff_exists'.mp
      (dealt.known other (List.mem_range.mp early))
    have loop : standing.loop = other % numThreads + 1 :=
      (dealt.placed other standing there).trans (if_neg (Nat.ne_of_gt some))
    rw [decide_eq_true_iff, decide_eq_true_iff]
    dsimp only
    rw [there, Option.any_some, decide_eq_true_iff, loop, Nat.ModEq, Nat.mod_eq_of_lt inside]
    exact Nat.succ_inj
  rw [turns, Nat.count_modEq_card server.acceptedCount some, Nat.mod_eq_of_lt inside]

/-- In every run the connections are dealt to the threads of the pool in the order in which they
are accepted, so no thread has been given two connections more than another. -/
theorem connections_dealt {wakeupFd : LoopId → Int} {acceptFd : Int} {actions : List Action}
    (run : Execution (step handshake) anyAction (start numThreads wakeupFd acceptFd) actions server) :
    (∀ index standing, server.standing (index + 1) = some standing →
      standing.loop = assigned numThreads index) ∧
        ∀ first < numThreads, ∀ second < numThreads,
          server.load (first + 1) ≤ server.load (second + 1) + 1 := by
  obtain ⟨-, dealt⟩ : server.Homely ∧ server.Dealt numThreads := by
    apply run.invariant ⟨start_homely, start_dealt⟩
    intro before action after ⟨homely, dealt⟩ _ stepped
    exact ⟨step_homely homely stepped, (homely.takes stepped).dealt dealt⟩
  refine ⟨dealt.placed, fun first inside second inside' => ?_⟩
  rw [dealt.load_eq inside, dealt.load_eq inside']
  split <;> split <;> omega

/-- The theorem at three connections to a server with two threads. -/
theorem connections_dealt_three : ∃ (server : TcpServer) (standing : Standing),
    server.nextConnId = 4 ∧ server.standing 3 = some standing ∧ standing.loop = 1 ∧
      server.load 1 ≤ server.load 2 + 1 := by
  let actions : List Action := [6, 7, 8].flatMap fun sockfd =>
    iteration 0 [0, 1] [.nothing, ⟨some (sockfd, [1]), .ok [], 0⟩] []
  have replayed : (replay (step ⟨some, fun _ => true⟩) anyAction .impossible
      (start 2 (fun loop => 10 + loop) 3) actions).toOption.any (fun server =>
        decide (server.nextConnId = 4 ∧ (server.standing 3).isSome)) = true := by
    decide +kernel
  obtain ⟨server, run, tested⟩ := Execution.exists_of_replay replayed
  obtain ⟨accepted, known⟩ := of_decide_eq_true tested
  obtain ⟨standing, there⟩ := Option.isSome_iff_exists.mp known
  obtain ⟨placed, loads⟩ := connections_dealt run
  exact ⟨server, standing, accepted, there, placed 2 standing there,
    loads 0 (by decide) 1 (by decide)⟩

end TransferServer.Net.TcpServer
