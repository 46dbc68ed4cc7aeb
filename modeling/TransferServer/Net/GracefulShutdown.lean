import TransferServer.Net.SendOrder
import TransferServer.Net.TcpConnectionStanding

/-! `shutdown` from several threads: which messages a half-close may leave behind. A queued
`shutdownInLoop` waits its turn behind the messages; one that runs on the spot, or from
`handleWrite`, does not. -/

set_option autoImplicit false

namespace TransferServer.Net.SharedConnection

open Lib LoopSystem

variable {τ κ : Type} [DecidableEq τ] {before after system : SharedConnection τ κ}

/-- `sendInLoop` has taken every message that was accepted before `shutdown` was called. -/
def Settled (system : SharedConnection τ κ) : Prop :=
  ∀ sender, system.ledger.due sender ≤ (system.ledger.taken sender).length

/-- The messages of a thread that are on their way to the queue. -/
def inHand (system : SharedConnection τ κ) (sender : τ) : List Bytes :=
  sendsOf sender (held (system.calls.status sender))

/-- The messages of a thread for which a functor waits, in the queue or in its hand. -/
def waiting (system : SharedConnection τ κ) (sender : τ) : List Bytes :=
  sendsOf sender (system.calls.loop.functors ++ system.calls.loop.pendingFunctors) ++
    system.inHand sender

/-- The messages were accepted after the call of `shutdown`. -/
def Later (system : SharedConnection τ κ) (messages : τ → List Bytes) : Prop :=
  ∀ sender, messages sender <:+ (system.ledger.accepted sender).drop (system.ledger.due sender)

/-- Where the half-close does not wait its turn, no functor of an earlier message waits; where its
own functor is pushed, none is in hand. -/
def Orderly (system : SharedConnection τ κ) : SharedAction τ κ → Prop
  | .disconnect caller => caller = system.calls.loop.threadId →
      system.conn.channel.isWriting = false → system.Later system.waiting
  | .handleWrite returned => system.conn.channel.isWriting = true →
      system.conn.state = .kDisconnecting → returned = system.conn.outputBuffer.readableBytes →
        system.Later system.waiting
  | .advance (.push caller) => held (system.calls.status caller) = [.shutdownInLoop] →
      system.Later system.inHand
  | _ => True

instance [Fintype τ] (system : SharedConnection τ κ) (action : SharedAction τ κ) :
    Decidable (system.Orderly action) := by
  induction action using SharedAction.casesOn with
  | advance action =>
      induction action using LoopAction.casesOn <;> dsimp only [Orderly, Later] <;> infer_instance
  | _ => dsimp only [Orderly, Later]; infer_instance

/-- Neither before nor during the time in which messages are accepted. -/
def Ending (system : SharedConnection τ κ) : Prop :=
  system.conn.state ≠ .kConnecting ∧ system.conn.state ≠ .kConnected

/-- A functor of `shutdown` stands behind the messages it has to wait for. -/
structure Graceful (system : SharedConnection τ κ) : Prop where
  reached : ∀ sender, system.ledger.due sender ≤ (system.ledger.accepted sender).length
  testing : ∀ caller, system.closing caller = true → system.conn.state ≠ .kConnecting
  inHand : ∀ caller, .shutdownInLoop ∈ held (system.calls.status caller) → system.Ending
  pushed : .shutdownInLoop ∈ system.calls.pushes.map Prod.snd → system.Ending
  behind : ∀ (place : Nat) caller, system.calls.pushes[place]? = some (caller, .shutdownInLoop) →
    ∀ sender, sender ≠ system.calls.loop.threadId → system.ledger.due sender ≤
      (sendsOf sender ((system.calls.pushes.take place).map Prod.snd)).length

/-- No functor of `shutdown` was taken in hand or pushed. -/
structure Unasked (before after : LoopSystem τ (Job τ)) : Prop where
  threadId : after.loop.threadId = before.loop.threadId
  inHand : ∀ caller, .shutdownInLoop ∈ held (after.status caller) →
    .shutdownInLoop ∈ held (before.status caller)
  pushes : ∃ extra, after.pushes = before.pushes ++ extra ∧
    ∀ push ∈ extra, Prod.snd push ≠ Job.shutdownInLoop

section

variable {before after : LoopSystem τ (Job τ)} {caller : τ} {job : Job τ}

theorem Unasked.notes (notes : before.Notes after) : Unasked before after := by
  obtain ⟨extra, pushes, silent⟩ := notes.pushes
  refine ⟨notes.threadId, fun caller there => notes.held caller ▸ there, extra, pushes, ?_⟩
  intro push there same
  rw [silent push there] at same
  cases same

theorem Unasked.call {entry : EntryPoint} (called : before.step (.call caller entry job) = .ok after)
    (queued : entry = .queueInLoop ∨ caller ≠ before.loop.threadId) (other : job ≠ .shutdownInLoop) :
    Unasked before after := by
  obtain ⟨_, loop, pushes, _, status⟩ := call_eq_ok called queued
  refine ⟨by rw [loop], fun thread there => ?_, [], by simp [pushes], by simp⟩
  rw [status, Function.update_apply] at there
  split at there
  · exact absurd (List.mem_singleton.mp there).symm other
  · exact there

theorem Unasked.push (stepped : before.step (.push caller) = .ok after)
    (other : held (before.status caller) ≠ [.shutdownInLoop]) : Unasked before after := by
  obtain ⟨job, locking, rfl⟩ := push_eq_ok stepped
  refine ⟨rfl, fun thread there => ?_, [(caller, job)], rfl, fun push there same => ?_⟩
  · by_cases mine : thread = caller
    · subst mine
      simp [LoopSystem.setStatus, held] at there
    · simpa [LoopSystem.setStatus, mine] using there
  · rw [List.mem_singleton.mp there] at same
    exact other (by rw [locking, ← same]; rfl)

theorem Unasked.start (started : before.step .start = .ok after) : Unasked before after := by
  obtain ⟨_, _, _, loop, pushes, _, status⟩ := start_step_eq_ok started
  exact ⟨by rw [loop], fun thread there => by rwa [status] at there, [], by simp [pushes], by simp⟩

end

/-- A step that is none of `shutdown` may still establish the connection. -/
theorem Graceful.keep (graceful : before.Graceful) (unasked : Unasked before.calls after.calls)
    (due : after.ledger.due = before.ledger.due)
    (grown : ∀ sender, before.ledger.accepted sender <+: after.ledger.accepted sender)
    (closing : after.closing = before.closing)
    (state : after.conn.state = before.conn.state ∨
      before.conn.state = .kConnecting ∧ after.conn.state = .kConnected) : after.Graceful := by
  have ending (ended : before.Ending) : after.Ending := by
    rcases state with same | ⟨connecting, _⟩
    · rw [Ending, same]
      exact ended
    · exact absurd connecting ended.1
  obtain ⟨extra, pushes, foreign⟩ := unasked.pushes
  refine ⟨?_, ?_, fun caller there => ending (graceful.inHand caller (unasked.inHand caller there)), ?_, ?_⟩
  · intro sender
    rw [due]
    exact (graceful.reached sender).trans (grown sender).length_le
  · intro caller testing
    rw [closing] at testing
    rcases state with same | ⟨_, connected⟩
    · rw [same]
      exact graceful.testing caller testing
    · rw [connected]
      exact nofun
  · intro there
    rw [pushes, List.map_append, List.mem_append] at there
    rcases there with earlier | new
    · exact ending (graceful.pushed earlier)
    · obtain ⟨push, new, same⟩ := List.mem_map.mp new
      exact absurd same (foreign push new)
  · intro place caller found sender apart
    rw [unasked.threadId] at apart
    rw [pushes] at found ⊢
    rw [due]
    by_cases earlier : place < before.calls.pushes.length
    · rw [List.getElem?_append_left earlier] at found
      rw [List.take_append_of_le_length (Nat.le_of_lt earlier)]
      exact graceful.behind place caller found sender apart
    · rw [List.getElem?_append_right (Nat.le_of_not_lt earlier)] at found
      exact absurd rfl (foreign _ (List.mem_of_getElem? found))

/-- The call of `shutdown` comes after everything accepted so far; no functor of an earlier
call can be about, since messages are still accepted. -/
theorem shutdown_graceful (graceful : before.Graceful) (caller : τ) :
    (before.shutdown caller).Graceful := by
  unfold shutdown
  split
  · next connected =>
      refine ⟨fun sender => Nat.le_refl _, fun _ _ => ?_, graceful.inHand, graceful.pushed, ?_⟩
      · rw [connected]
        exact nofun
      · intro place thread found
        have there := List.mem_map_of_mem (f := Prod.snd) (List.mem_of_getElem? found)
        exact absurd connected (graceful.pushed there).2
  · exact graceful

theorem Graceful.serves (graceful : before.Graceful) (serves : before.Serves after) :
    after.Graceful := by
  obtain ⟨frame, notes⟩ := serves
  rw [frame]
  exact graceful.keep (.notes notes) rfl (fun _ => List.prefix_refl _) rfl (.inl rfl)

theorem disconnect_graceful (graceful : before.Graceful) {caller : τ}
    (disconnected : before.disconnect caller = .ok after) : after.Graceful := by
  obtain ⟨calls, loop, pushes, moved⟩ := disconnect_eq_ok disconnected
  have ended : after.Ending ∧ after.ledger = before.ledger ∧ after.calls = calls := by
    rcases moved with ⟨_, _, rfl⟩ | ⟨_, _, rfl⟩
    · exact ⟨by simp [Ending], rfl, rfl⟩
    · exact ⟨by simp [Ending], rfl, rfl⟩
  obtain ⟨ended, ledger, same⟩ := ended
  refine ⟨?_, fun _ _ => ended.1, fun _ _ => ended, fun _ => ended, ?_⟩
  · rw [ledger]
    exact graceful.reached
  · rw [ledger, same, loop, pushes]
    exact graceful.behind

/-- A functor of `shutdown` is pushed behind all the messages it has to wait for. -/
theorem push_graceful (graceful : before.Graceful) (records : before.ledger.Records before.calls)
    {caller : τ} {calls : LoopSystem τ (Job τ)}
    (later : held (before.calls.status caller) = [.shutdownInLoop] → before.Later before.inHand)
    (stepped : before.calls.step (.push caller) = .ok calls) : { before with calls }.Graceful := by
  by_cases other : held (before.calls.status caller) ≠ [.shutdownInLoop]
  · exact graceful.keep (.push stepped other) rfl (fun _ => List.prefix_refl _) rfl (.inl rfl)
  · have mine : held (before.calls.status caller) = [.shutdownInLoop] := not_not.mp other
    have ended : before.Ending := graceful.inHand caller (by simp [mine])
    obtain ⟨job, locking, rfl⟩ := push_eq_ok stepped
    rw [locking] at mine
    cases mine
    refine ⟨graceful.reached, graceful.testing, fun _ _ => ended, fun _ => ended, ?_⟩
    intro place thread found sender apart
    dsimp only at found ⊢
    by_cases earlier : place < before.calls.pushes.length
    · rw [List.getElem?_append_left earlier] at found
      rw [List.take_append_of_le_length (Nat.le_of_lt earlier)]
      exact graceful.behind place thread found sender apart
    · have room := (later (by rw [locking]; rfl) sender).length_le
      have reached := graceful.reached sender
      rw [List.length_drop] at room
      rw [← records.pushed sender apart, List.length_append] at room reached
      unfold inHand at room
      have last : place = before.calls.pushes.length := by
        have inside := (List.getElem?_eq_some_iff.mp found).1
        rw [List.length_append, List.length_singleton] at inside
        omega
      rw [last, List.take_left]
      omega

variable [DecidableEq κ]

theorem send_graceful (graceful : before.Graceful) (whole : before.Whole) {caller : τ} {message : Bytes}
    {returned : Int} (sent : before.send caller message returned = .ok after) : after.Graceful := by
  have grown : ∀ sender, before.ledger.accepted sender <+:
      (before.accept caller message).ledger.accepted sender := by
    intro sender
    simp only [accept, Function.update_apply]
    split
    · next same =>
        subst same
        exact List.prefix_append _ _
    · exact List.prefix_refl _
  rcases send_eq_ok sent with ⟨_, rfl⟩ | ⟨_, _, sent⟩ | ⟨_, outside, calls, called, rfl⟩
  · exact graceful
  · obtain ⟨conn, requests, sent, serves⟩ := sendInLoop_eq_ok sent
    obtain ⟨_, _, state⟩ := TcpConnection.sendInLoop_eq_ok whole.flowing sent
    refine Graceful.serves ?_ serves
    exact graceful.keep (.notes (.refl _)) rfl grown rfl (.inl state)
  · exact graceful.keep (.call called (.inr outside) fun pushed => by cases pushed) rfl grown rfl (.inl rfl)

theorem runJob_graceful {job : Job τ} {calls : LoopSystem τ (Job τ)} {returned : Int}
    (graceful : before.Graceful) (whole : before.Whole) (alive : job ≠ .connectDestroyed)
    (started : before.calls.step .start = .ok calls)
    (ran : { before with
      calls
      holders := { before.holders with called := before.holders.called ++ [job] } }.run
        job returned = .ok after) : after.Graceful := by
  obtain ⟨_, ran⟩ := Lib.require_bind_eq_ok.mp ran
  have kept : Graceful { before with
      calls
      holders := { before.holders with called := before.holders.called ++ [job] } } :=
    graceful.keep (.start started) rfl (fun _ => List.prefix_refl _) rfl (.inl rfl)
  have unasked : Unasked calls calls := .notes (.refl _)
  cases job with
  | sendInLoop sender message =>
      obtain ⟨conn, requests, sent, serves⟩ := sendInLoop_eq_ok ran
      obtain ⟨_, _, state⟩ := TcpConnection.sendInLoop_eq_ok whole.flowing sent
      refine Graceful.serves ?_ serves
      exact kept.keep unasked rfl (fun _ => List.prefix_refl _) rfl (.inl state)
  | shutdownInLoop =>
      cases ran
      have state := (TcpConnection.shutdownInLoop_spec whole.flowing).2.2
      exact kept.keep unasked rfl (fun _ => List.prefix_refl _) rfl (.inl state)
  | connectDestroyed => exact absurd rfl alive
  | writeComplete =>
      cases ran
      exact kept

theorem step_graceful {action : SharedAction τ κ} (graceful : before.Graceful) (whole : before.Whole)
    (admitted : before.Open action) (orderly : before.Orderly action)
    (stepped : before.step action = .ok after) : after.Graceful := by
  have still : Unasked before.calls before.calls := .notes (.refl _)
  cases step_moves stepped with
  | established established performed =>
      obtain ⟨connecting, established⟩ := assert_bind_eq_ok.mp established
      cases established
      have kept : (before.setConn { before.conn with
          state := .kConnected
          channel := before.conn.channel.enableReading }).Graceful :=
        graceful.keep still rfl (fun _ => List.prefix_refl _) rfl (.inr ⟨connecting, rfl⟩)
      exact kept.serves (perform_serves performed)
  | rested notes =>
      exact graceful.keep (.notes notes) rfl (fun _ => List.prefix_refl _) rfl (.inl rfl)
  | sent sent => exact send_graceful graceful whole sent
  | tested => exact shutdown_graceful graceful _
  | disconnected _ disconnected => exact disconnect_graceful graceful disconnected
  | @written _ result _ _ handled performed =>
      have state := (TcpConnection.handleWrite_shutdowns whole.flowing handled).1
      have kept : (before.setConn result.1).Graceful :=
        graceful.keep still rfl (fun _ => List.prefix_refl _) rfl (.inl state)
      exact kept.serves (perform_serves performed)
  | closed => exact absurd admitted id
  | erased erases =>
      rw [erases.frame]
      exact graceful.keep (.call erases.called (.inl rfl) nofun) rfl (fun _ => List.prefix_refl _) rfl
        (.inl rfl)
  | others => exact graceful.keep still rfl (fun _ => List.prefix_refl _) rfl (.inl rfl)
  | started batch started ran =>
      refine runJob_graceful graceful whole ?_ started ran
      rintro rfl
      exact admitted (by rw [batch]; rfl)
  | pushed pushed => exact push_graceful graceful whole.records orderly pushed

omit [DecidableEq κ] in
/-- A functor of `shutdown` that starts finds everything it has to wait for taken. -/
theorem Graceful.settled (graceful : before.Graceful) (records : before.ledger.Records before.calls)
    {functors : List (Job τ)} (batch : before.calls.loop.functors = .shutdownInLoop :: functors) :
    before.Settled := by
  obtain ⟨⟨caller, found⟩, started⟩ := records.ordered.head batch
  intro sender
  by_cases own : sender = before.calls.loop.threadId
  · rw [own, records.direct]
    exact graceful.reached _
  · have behind := graceful.behind _ caller found sender own
    rw [started] at behind
    rw [records.started sender own]
    exact behind

omit [DecidableEq κ] in
/-- What has not been taken waits, so all is settled exactly if nothing earlier waits. -/
theorem Graceful.settled_iff (graceful : before.Graceful) (whole : before.Whole) :
    before.Settled ↔ before.Later before.waiting := by
  have parts (sender : τ) :
      before.ledger.taken sender ++ before.waiting sender = before.ledger.accepted sender := by
    rw [waiting, SharedConnection.inHand, ← List.append_assoc]
    exact whole.accepted sender
  refine forall_congr' fun sender => ?_
  rw [← parts sender]
  constructor
  · intro settled
    rw [List.drop_append_of_le_length settled]
    exact List.suffix_append _ _
  · intro later
    have room := later.length_le
    have reached := graceful.reached sender
    rw [← parts sender, List.length_append] at reached
    rw [List.length_drop, List.length_append] at room
    omega

theorem step_shutdowns {action : SharedAction τ κ} (graceful : before.Graceful) (whole : before.Whole)
    (admitted : before.Open action) (orderly : before.Orderly action)
    (stepped : before.step action = .ok after)
    (shut : after.conn.socket.shutdowns ≠ before.conn.socket.shutdowns) :
    after.conn.channel.isWriting = false ∧ after.Settled := by
  have silent {middle : SharedConnection τ κ} (serves : middle.Serves after)
      (same : middle.conn.socket.shutdowns = before.conn.socket.shutdowns) : False := by
    rw [serves.frame] at shut
    exact shut same
  cases step_moves stepped with
  | disconnected _ disconnected =>
      obtain ⟨calls, _, _, ⟨own, _, rfl⟩ | ⟨_, _, rfl⟩⟩ := disconnect_eq_ok disconnected
      · obtain ⟨idle, idle'⟩ := TcpConnection.shutdownInLoop_shutdowns shut
        exact ⟨idle', (graceful.settled_iff whole).mpr (orderly own idle)⟩
      · exact absurd rfl shut
  | written _ handled performed =>
      have serves := perform_serves performed
      have half := (TcpConnection.handleWrite_shutdowns whole.flowing handled).2
      rw [serves.frame] at shut ⊢
      obtain ⟨writing, disconnecting, all, idle⟩ := half shut
      exact ⟨idle, (graceful.settled_iff whole).mpr (orderly writing disconnecting all)⟩
  | @started _ job _ _ _ batch _ ran =>
      obtain ⟨_, ran⟩ := Lib.require_bind_eq_ok.mp ran
      cases job with
      | sendInLoop sender message =>
          obtain ⟨conn, requests, sent, serves⟩ := sendInLoop_eq_ok ran
          exact (silent serves (TcpConnection.sendInLoop_shutdowns sent)).elim
      | shutdownInLoop =>
          cases ran
          obtain ⟨_, idle⟩ := TcpConnection.shutdownInLoop_shutdowns shut
          exact ⟨idle, graceful.settled whole.records batch⟩
      | connectDestroyed => exact absurd (by rw [batch]; rfl) admitted
      | writeComplete => cases ran; exact absurd rfl shut
  | established established performed =>
      obtain ⟨_, established⟩ := assert_bind_eq_ok.mp established
      cases established
      exact (silent (perform_serves performed) rfl).elim
  | sent sent =>
      rcases send_eq_ok sent with ⟨_, rfl⟩ | ⟨_, _, sent⟩ | ⟨_, _, _, _, rfl⟩
      · exact absurd rfl shut
      · obtain ⟨conn, requests, sent, serves⟩ := sendInLoop_eq_ok sent
        exact (silent serves (TcpConnection.sendInLoop_shutdowns sent)).elim
      · exact absurd rfl shut
  | tested =>
      unfold shutdown at shut
      split at shut <;> exact absurd rfl shut
  | closed => exact absurd admitted id
  | erased erases =>
      rw [erases.frame] at shut
      exact absurd rfl shut
  | rested => exact absurd rfl shut
  | others => exact absurd rfl shut
  | pushed => exact absurd rfl shut

variable {threadId base : τ} {key : κ} {fd : κ → Int} {loop : Nat} {peerAddr : Bytes}
variable {writeCompleteCallback : Bool} {actions : List (SharedAction τ κ)}

theorem run_graceful
    (run : Execution step (fun system action => system.Open action ∧ system.Orderly action)
      (construct threadId base key fd loop peerAddr writeCompleteCallback) actions system) :
    system.Whole ∧ system.Graceful := by
  induction run with
  | nil => exact ⟨construct_whole, fun _ => Nat.le_refl _, nofun, nofun, nofun, nofun⟩
  | snoc _ admitted stepped ih =>
      obtain ⟨whole, graceful⟩ := ih
      exact ⟨step_whole whole admitted.1 stepped,
        step_graceful graceful whole admitted.1 admitted.2 stepped⟩

/-- Where a half-close on the spot finds no functor of an earlier message waiting, and no `send` that
a call of `shutdown` came after is overtaken by it on the way to the queue, a half-close finds
everything that was accepted before the call handed to the kernel. -/
theorem shutdownWrite_after_sends
    (run : Execution step (fun system action => system.Open action ∧ system.Orderly action)
      (construct threadId base key fd loop peerAddr writeCompleteCallback) actions before)
    {action : SharedAction τ κ} (admitted : before.Open action) (orderly : before.Orderly action)
    (stepped : before.step action = .ok after)
    (shut : after.conn.socket.shutdowns ≠ before.conn.socket.shutdowns) :
    after.conn.outputBuffer.readable = [] ∧
      after.conn.socket.accepted = (after.ledger.order.map Prod.snd).flatten ∧
      ∀ sender, (after.ledger.accepted sender).take (after.ledger.due sender) <+:
        after.ledger.taken sender := by
  obtain ⟨whole, graceful⟩ := run_graceful run
  obtain ⟨idle, settled⟩ := step_shutdowns graceful whole admitted orderly stepped shut
  have whole' := step_whole whole admitted stepped
  have empty := whole'.flowing.not_isWriting.mp idle
  have joined := whole'.joined
  rw [TcpConnection.stream, empty, List.append_nil] at joined
  refine ⟨empty, joined, fun sender => ?_⟩
  rw [← whole'.accepted sender, List.append_assoc, List.take_append_of_le_length (settled sender)]
  exact List.take_prefix _ _

/-- The theorem at a call of `shutdown` from another thread that finds a message in the queue and
one half written. -/
theorem shutdownWrite_after_sends_queued : ∃ after : SharedConnection (Fin 3) Nat,
    after.conn.socket.shutdowns = [[]] ∧ after.conn.outputBuffer.readable = [] ∧
      after.conn.socket.accepted = [5, 6, 1, 2] := by
  let actions : List (SharedAction (Fin 3) Nat) := [
    .advance .enter, .advance .test, .advance .poll, .connectEstablished, .acquire 0, .acquire 1,
    .acquire 2, .send 0 [5, 6] 1, .send 2 [1, 2] 0, .advance (.push 2), .shutdown 1, .disconnect 1,
    .advance (.push 1), .advance .prepare, .advance .swap, .start 0, .start 0, .finish,
    .advance .test, .advance .poll]
  let start : SharedConnection (Fin 3) Nat :=
    construct 0 1 7 (fun key => (key : Int)) 0 [] false
  have replayed : (replay step (fun system action => system.Open action ∧ system.Orderly action)
      .impossible start actions).toOption.any (fun before => decide
        (before.Orderly (.handleWrite 3)) && (before.step (.handleWrite 3)).toOption.any fun after =>
          decide (before.conn.socket.shutdowns = [] ∧ after.conn.socket.shutdowns = [[]] ∧
            after.ledger.order = [(0, [5, 6]), (2, [1, 2])])) = true := by
    decide +kernel
  obtain ⟨before, run, reached⟩ := Execution.exists_of_replay replayed
  obtain ⟨orderly, stepped⟩ := Bool.and_eq_true_iff.mp reached
  obtain ⟨after, stepped, shut⟩ := exists_ok_of_any stepped
  obtain ⟨none, once, order⟩ := of_decide_eq_true shut
  have admitted : before.Open (.handleWrite 3) := trivial
  obtain ⟨empty, handed, _⟩ := shutdownWrite_after_sends run admitted (of_decide_eq_true orderly)
    stepped (by simp [none, once])
  refine ⟨after, once, empty, ?_⟩
  rw [handed, order]
  rfl

/-- The loop thread closes its half at once, before a message of another thread that waits in
the queue; and so does `handleWrite`, when the buffer runs empty before that message's turn. -/
theorem shutdownWrite_overtakes :
    (∃ (actions : List (SharedAction (Fin 3) Nat)) (before after : SharedConnection (Fin 3) Nat),
      Execution step Open
        (construct (0 : Fin 3) 1 7 (fun key : Nat => (key : Int)) 0 [] false) actions before ∧
      before.step (.disconnect 0) = .ok after ∧
      after.conn.socket.shutdowns ≠ before.conn.socket.shutdowns ∧
      after.ledger.accepted 2 = [[1, 2]] ∧ after.ledger.due 2 = 1 ∧ after.conn.socket.accepted = [] ∧
      after.calls.loop.pendingFunctors = [.sendInLoop 2 [1, 2]]) ∧
    ∃ (actions : List (SharedAction (Fin 3) Nat)) (before after : SharedConnection (Fin 3) Nat),
      Execution step Open
        (construct (0 : Fin 3) 1 7 (fun key : Nat => (key : Int)) 0 [] false) actions before ∧
      before.step (.handleWrite 2) = .ok after ∧
      after.conn.socket.shutdowns ≠ before.conn.socket.shutdowns ∧
      after.ledger.accepted 2 = [[1, 2]] ∧ after.ledger.due 2 = 1 ∧
      after.conn.socket.accepted = [5, 6] ∧
      after.calls.loop.pendingFunctors = [.sendInLoop 2 [1, 2], .shutdownInLoop] := by
  let opening : List (SharedAction (Fin 3) Nat) := [
    .advance .enter, .advance .test, .advance .poll, .connectEstablished, .acquire 0, .acquire 1,
    .acquire 2]
  let start : SharedConnection (Fin 3) Nat :=
    construct 0 1 7 (fun key => (key : Int)) 0 [] false
  constructor
  · let actions : List (SharedAction (Fin 3) Nat) :=
      opening ++ [.send 2 [1, 2] 0, .advance (.push 2), .advance (.wakeup 2), .shutdown 0]
    have replayed : (replay step Open .impossible start actions).toOption.any
        (fun before => (before.step (.disconnect 0)).toOption.any fun after => decide
          (after.conn.socket.shutdowns ≠ before.conn.socket.shutdowns ∧
            after.ledger.accepted 2 = [[1, 2]] ∧ after.ledger.due 2 = 1 ∧
            after.conn.socket.accepted = [] ∧
            after.calls.loop.pendingFunctors = [.sendInLoop 2 [1, 2]])) = true := by
      decide +kernel
    obtain ⟨before, run, stepped⟩ := Execution.exists_of_replay replayed
    obtain ⟨after, stepped, shut⟩ := exists_ok_of_any stepped
    exact ⟨actions, before, after, run, stepped, of_decide_eq_true shut⟩
  · let actions : List (SharedAction (Fin 3) Nat) :=
      opening ++ [.send 0 [5, 6] 0, .send 2 [1, 2] 0, .advance (.push 2), .advance (.wakeup 2),
        .shutdown 1, .disconnect 1, .advance (.push 1)]
    have replayed : (replay step Open .impossible start actions).toOption.any
        (fun before => (before.step (.handleWrite 2)).toOption.any fun after => decide
          (after.conn.socket.shutdowns ≠ before.conn.socket.shutdowns ∧
            after.ledger.accepted 2 = [[1, 2]] ∧ after.ledger.due 2 = 1 ∧
            after.conn.socket.accepted = [5, 6] ∧
            after.calls.loop.pendingFunctors = [.sendInLoop 2 [1, 2], .shutdownInLoop])) = true := by
      decide +kernel
    obtain ⟨before, run, stepped⟩ := Execution.exists_of_replay replayed
    obtain ⟨after, stepped, shut⟩ := exists_ok_of_any stepped
    exact ⟨actions, before, after, run, stepped, of_decide_eq_true shut⟩

end TransferServer.Net.SharedConnection
