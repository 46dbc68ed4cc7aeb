import TransferServer.Net.SharedConnectionProperties

/-! `send` from several threads: the bytes of a connection are whole messages, and those of
one thread follow in the order of its calls. -/

set_option autoImplicit false

namespace TransferServer.Net

open Lib LoopSystem

variable {τ κ : Type} [DecidableEq τ]

/-- The message of a functor that a call of `send` by the thread has left. -/
def Job.sendOf (sender : τ) : Job τ → Option Bytes
  | .sendInLoop sender' message => if sender' = sender then some message else none
  | _ => none

def sendsOf (sender : τ) (jobs : List (Job τ)) : List Bytes := jobs.filterMap (Job.sendOf sender)

@[simp] theorem sendsOf_nil (sender : τ) : sendsOf sender [] = [] := rfl

@[simp] theorem sendsOf_append (sender : τ) (jobs jobs' : List (Job τ)) :
    sendsOf sender (jobs ++ jobs') = sendsOf sender jobs ++ sendsOf sender jobs' :=
  List.filterMap_append

theorem sendsOf_eq_nil {sender : τ} {jobs : List (Job τ)}
    (apart : ∀ sender' message, .sendInLoop sender' message ∈ jobs → sender' ≠ sender) :
    sendsOf sender jobs = [] := by
  refine List.filterMap_eq_nil_iff.mpr fun job there => ?_
  cases job with
  | sendInLoop sender' message => exact if_neg (apart sender' message there)
  | shutdownInLoop => rfl
  | connectDestroyed => rfl
  | writeComplete => rfl

namespace Ledger

/-- What `sendInLoop` has taken of a thread's messages. -/
def taken (ledger : Ledger τ) (sender : τ) : List Bytes :=
  (ledger.order.filter fun entry => entry.1 = sender).map Prod.snd

/-- Where the accepted messages are: the loop thread sends at once, the messages of the others
wait in functors that carry their name. -/
structure Records (ledger : Ledger τ) (calls : LoopSystem τ (Job τ)) : Prop where
  ordered : calls.Ordered
  own : ∀ caller sender message, .sendInLoop sender message ∈ held (calls.status caller) →
    sender = caller ∧ caller ≠ calls.loop.threadId
  away : ∀ sender message, .sendInLoop sender message ∈ calls.pushes.map Prod.snd →
    sender ≠ calls.loop.threadId
  direct : ledger.taken calls.loop.threadId = ledger.accepted calls.loop.threadId
  started : ∀ sender, sender ≠ calls.loop.threadId →
    ledger.taken sender = sendsOf sender calls.started
  pushed : ∀ sender, sender ≠ calls.loop.threadId →
    sendsOf sender (calls.pushes.map Prod.snd) ++ sendsOf sender (held (calls.status sender)) =
      ledger.accepted sender

variable {ledger ledger' : Ledger τ} {before after : LoopSystem τ (Job τ)} {caller : τ} {job : Job τ}

theorem Records.notes (records : ledger.Records before) (notes : before.Notes after) :
    ledger.Records after := by
  obtain ⟨extra, pushes, silent⟩ := notes.pushes
  have foreign (sender : τ) (message : Bytes) : .sendInLoop sender message ∉ extra.map Prod.snd := by
    intro there
    obtain ⟨push, there, same⟩ := List.mem_map.mp there
    rw [silent push there] at same
    cases same
  have added (sender : τ) : sendsOf sender (extra.map Prod.snd) = [] :=
    sendsOf_eq_nil fun sender' message there => absurd there (foreign sender' message)
  refine ⟨notes.ordered records.ordered, ?_, ?_, ?_, ?_, ?_⟩
  · intro caller sender message there
    rw [notes.held] at there
    rw [notes.threadId]
    exact records.own caller sender message there
  · intro sender message there
    rw [pushes, List.map_append, List.mem_append] at there
    rw [notes.threadId]
    exact records.away sender message (there.resolve_right (foreign sender message))
  · rw [notes.threadId]
    exact records.direct
  · rw [notes.threadId, notes.started]
    exact records.started
  · intro sender apart
    rw [notes.threadId] at apart
    rw [pushes, List.map_append, sendsOf_append, added, List.append_nil, notes.held]
    exact records.pushed sender apart

/-- A caller takes a functor in hand; if it is a message of its own, it has just been accepted. -/
theorem Records.call (records : ledger.Records before) {entry : EntryPoint}
    (called : before.step (.call caller entry job) = .ok after)
    (queued : entry = .queueInLoop ∨ caller ≠ before.loop.threadId)
    (signed : ∀ sender message, job = .sendInLoop sender message →
      sender = caller ∧ caller ≠ before.loop.threadId)
    (order : ledger'.order = ledger.order)
    (accepted : ledger'.accepted = Function.update ledger.accepted caller
      (ledger.accepted caller ++ sendsOf caller [job])) : ledger'.Records after := by
  have ordered := step_ordered records.ordered called
  obtain ⟨idle, loop, pushes, started, status⟩ := call_eq_ok called queued
  have same (sender : τ) : ledger'.taken sender = ledger.taken sender := by
    rw [taken, taken, order]
  refine ⟨ordered, ?_, ?_, ?_, ?_, ?_⟩
  · intro other sender message there
    rw [status, Function.update_apply] at there
    rw [loop]
    split at there
    · next mine =>
        obtain ⟨rfl, away⟩ := signed sender message (List.mem_singleton.mp there).symm
        exact ⟨mine.symm, mine ▸ away⟩
    · exact records.own other sender message there
  · rw [pushes, loop]
    exact records.away
  · rw [loop, same, records.direct, accepted, Function.update_apply]
    split
    · next mine =>
        have none : sendsOf caller [job] = [] := sendsOf_eq_nil fun sender message there => by
          have away := (signed sender message (List.mem_singleton.mp there).symm).2
          exact absurd mine.symm away
        rw [none, List.append_nil, mine]
    · rfl
  · intro sender apart
    rw [loop] at apart
    rw [same, started]
    exact records.started sender apart
  · intro sender apart
    rw [loop] at apart
    have pushed := records.pushed sender apart
    rw [pushes, status, accepted]
    by_cases mine : sender = caller
    · subst mine
      rw [idle] at pushed
      simp only [Function.update_self, ← pushed, held, sendsOf_nil, List.append_nil]
    · simpa only [Function.update_of_ne mine] using pushed

theorem Records.push (records : ledger.Records before)
    (stepped : before.step (.push caller) = .ok after) : ledger.Records after := by
  have ordered := step_ordered records.ordered stepped
  obtain ⟨job, locking, rfl⟩ := push_eq_ok stepped
  have own := records.own caller
  have inHand := records.pushed
  refine ⟨ordered, ?_, ?_, records.direct, records.started, ?_⟩
  · intro other sender message there
    by_cases mine : other = caller
    · subst mine
      simp [LoopSystem.setStatus, held] at there
    · simp only [LoopSystem.setStatus, Function.update_of_ne mine] at there
      exact records.own other sender message there
  · intro sender message there
    simp only [List.map_append, List.mem_append, List.map_cons, List.map_nil, List.mem_singleton] at there
    rcases there with earlier | now
    · exact records.away sender message earlier
    · obtain ⟨rfl, away⟩ := own sender message (by rw [locking, now]; exact List.mem_singleton_self _)
      exact away
  · intro sender apart
    have pushed := records.pushed sender apart
    simp only [List.map_append, List.map_cons, List.map_nil, sendsOf_append]
    by_cases mine : sender = caller
    · subst mine
      rw [locking] at pushed
      simpa [LoopSystem.setStatus, held] using pushed
    · have foreign : sendsOf sender [job] = [] := sendsOf_eq_nil fun sender' message there => by
        obtain ⟨rfl, _⟩ := own sender' message (by
          rw [locking, ← List.mem_singleton.mp there]
          exact List.mem_singleton_self _)
        exact Ne.symm mine
      simpa [LoopSystem.setStatus, Function.update_of_ne mine, foreign] using pushed

theorem Records.start (records : ledger.Records before) (stepped : before.step .start = .ok after)
    {functors : List (Job τ)} (batch : before.loop.functors = job :: functors)
    (accepted : ledger'.accepted = ledger.accepted)
    (order : ∀ sender, ledger'.taken sender = ledger.taken sender ++ sendsOf sender [job]) :
    ledger'.Records after := by
  have ordered := step_ordered records.ordered stepped
  obtain ⟨job', functors', batch', loop, pushes, started, status⟩ := start_step_eq_ok stepped
  rw [batch] at batch'
  cases batch'
  have there : job ∈ before.pushes.map Prod.snd := by
    rw [← records.ordered.queue, batch]
    simp
  refine ⟨ordered, ?_, ?_, ?_, ?_, ?_⟩
  · rw [status, loop]
    exact records.own
  · rw [pushes, loop]
    exact records.away
  · have none : sendsOf before.loop.threadId [job] = [] := sendsOf_eq_nil fun sender message same => by
      rw [← List.mem_singleton.mp same] at there
      exact records.away sender message there
    rw [loop, order, none, List.append_nil, accepted]
    exact records.direct
  · intro sender apart
    rw [loop] at apart
    rw [started, sendsOf_append, order, records.started sender apart]
  · intro sender apart
    rw [loop] at apart
    rw [pushes, status, accepted]
    exact records.pushed sender apart

theorem Records.relabel (records : ledger.Records before) (order : ledger'.order = ledger.order)
    (accepted : ledger'.accepted = ledger.accepted) : ledger'.Records before := by
  have same (sender : τ) : ledger'.taken sender = ledger.taken sender := by
    rw [taken, taken, order]
  refine ⟨records.ordered, records.own, records.away, ?_, ?_, ?_⟩
  · rw [same, accepted]
    exact records.direct
  · intro sender apart
    rw [same]
    exact records.started sender apart
  · rw [accepted]
    exact records.pushed

theorem Records.send (records : ledger.Records before) {message : Bytes}
    (accepted : ledger'.accepted = Function.update ledger.accepted before.loop.threadId
      (ledger.accepted before.loop.threadId ++ [message]))
    (order : ∀ sender, ledger'.taken sender = ledger.taken sender ++
      sendsOf sender [.sendInLoop before.loop.threadId message]) : ledger'.Records before := by
  refine ⟨records.ordered, records.own, records.away, ?_, ?_, ?_⟩
  · rw [order, accepted, Function.update_self, records.direct]
    simp [sendsOf, Job.sendOf]
  · intro sender apart
    rw [order, records.started sender apart]
    simp [sendsOf, Job.sendOf, Ne.symm apart]
  · intro sender apart
    rw [accepted, Function.update_of_ne apart]
    exact records.pushed sender apart

theorem taken_append {sender : τ} {message : Bytes}
    (order : ledger'.order = ledger.order ++ [(sender, message)]) (other : τ) :
    ledger'.taken other = ledger.taken other ++ sendsOf other [.sendInLoop sender message] := by
  rw [taken, taken, order]
  by_cases same : sender = other
  · simp [sendsOf, Job.sendOf, same]
  · simp [sendsOf, Job.sendOf, same]

end Ledger

namespace SharedConnection

variable {before after system : SharedConnection τ κ}

structure Whole (system : SharedConnection τ κ) : Prop where
  records : system.ledger.Records system.calls
  flowing : system.conn.Flowing
  joined : system.conn.stream = (system.ledger.order.map Prod.snd).flatten

theorem construct_whole {threadId base : τ} {key : κ} {fd : κ → Int} {loop : Nat} {peerAddr : Bytes}
    {writeCompleteCallback : Bool} :
    (construct threadId base key fd loop peerAddr writeCompleteCallback).Whole where
  records := ⟨construct_ordered threadId, nofun, nofun, rfl, fun _ _ => rfl, fun _ _ => rfl⟩
  flowing := by
    refine ⟨Buffer.fresh_valid, ?_, nofun⟩
    simp [construct, TcpConnection.construct, Buffer.readable_fresh]
  joined := by
    simp [construct, TcpConnection.stream, TcpConnection.construct, Socket.fresh, Buffer.readable_fresh]

variable [DecidableEq κ]

omit [DecidableEq κ] in
theorem Whole.serves (whole : before.Whole) (serves : before.Serves after) : after.Whole := by
  obtain ⟨frame, notes⟩ := serves
  rw [frame]
  exact ⟨whole.records.notes notes, whole.flowing, whole.joined⟩

/-- The connection is not closed: neither `handleClose` nor `connectDestroyed` runs. -/
def Open (system : SharedConnection τ κ) : SharedAction τ κ → Prop
  | .handleClose => False
  | .start _ => system.calls.loop.functors.head? ≠ some .connectDestroyed
  | _ => True

instance (system : SharedConnection τ κ) (action : SharedAction τ κ) :
    Decidable (system.Open action) := by
  unfold Open
  split <;> infer_instance

theorem sendInLoop_whole {sender : τ} {message : Bytes} {returned : Int}
    (sent : before.sendInLoop sender message returned = .ok after) (flowing : before.conn.Flowing)
    (joined : before.conn.stream = (before.ledger.order.map Prod.snd).flatten)
    (records : ∀ ledger : Ledger τ, ledger.accepted = before.ledger.accepted →
      ledger.order = before.ledger.order ++ [(sender, message)] → ledger.Records before.calls) :
    after.Whole := by
  obtain ⟨conn, requests, sent, serves⟩ := sendInLoop_eq_ok sent
  obtain ⟨flowing, joined', _⟩ := TcpConnection.sendInLoop_eq_ok flowing sent
  have kept : Whole { before with
      conn
      ledger := { before.ledger with order := before.ledger.order ++ [(sender, message)] } } := by
    refine ⟨records _ rfl rfl, flowing, ?_⟩
    rw [joined', joined]
    simp
  exact kept.serves serves

theorem send_whole (whole : before.Whole) {caller : τ} {message : Bytes} {returned : Int}
    (sent : before.send caller message returned = .ok after) : after.Whole := by
  rcases send_eq_ok sent with ⟨_, rfl⟩ | ⟨_, rfl, sent⟩ | ⟨_, outside, calls, called, rfl⟩
  · exact whole
  · refine sendInLoop_whole sent whole.flowing whole.joined fun ledger accepted order => ?_
    exact whole.records.send accepted (Ledger.taken_append order)
  · refine ⟨whole.records.call called (.inr outside) ?_ rfl ?_, whole.flowing, whole.joined⟩
    · intro sender message' same
      cases same
      exact ⟨rfl, outside⟩
    · simp [accept, sendsOf, Job.sendOf]

omit [DecidableEq κ] in
theorem Whole.call (whole : before.Whole) {caller : τ} {entry : EntryPoint} {job : Job τ}
    {calls : LoopSystem τ (Job τ)} (called : before.calls.step (.call caller entry job) = .ok calls)
    (queued : entry = .queueInLoop ∨ caller ≠ before.calls.loop.threadId)
    (silent : ∀ sender message, job ≠ .sendInLoop sender message) :
    before.ledger.Records calls := by
  refine whole.records.call called queued (fun sender message same => absurd same (silent _ _)) rfl ?_
  have none : sendsOf caller [job] = [] := sendsOf_eq_nil fun sender message there =>
    absurd (List.mem_singleton.mp there).symm (silent sender message)
  rw [none, List.append_nil, Function.update_eq_self]

omit [DecidableEq κ] in
theorem disconnect_whole (whole : before.Whole) {caller : τ}
    (disconnected : before.disconnect caller = .ok after) : after.Whole := by
  have flowing : { before.conn with state := .kDisconnecting }.Flowing :=
    ⟨whole.flowing.valid, whole.flowing.interest, whole.flowing.flushed⟩
  obtain ⟨calls, _, _, ⟨_, notes, rfl⟩ | ⟨outside, called, rfl⟩⟩ := disconnect_eq_ok disconnected
  · obtain ⟨kept, same, _⟩ := TcpConnection.shutdownInLoop_spec flowing
    exact ⟨whole.records.notes notes, kept, same.trans whole.joined⟩
  · exact ⟨whole.call called (.inr outside) nofun, flowing, whole.joined⟩

theorem run_whole {job : Job τ} {functors : List (Job τ)} {calls : LoopSystem τ (Job τ)}
    {returned : Int} (whole : before.Whole) (batch : before.calls.loop.functors = job :: functors)
    (alive : job ≠ .connectDestroyed) (started : before.calls.step .start = .ok calls)
    (ran : { before with
      calls
      holders := { before.holders with called := before.holders.called ++ [job] } }.run
        job returned = .ok after) : after.Whole := by
  obtain ⟨_, ran⟩ := Lib.require_bind_eq_ok.mp ran
  have silent (none : ∀ sender, sendsOf sender [job] = []) : before.ledger.Records calls :=
    whole.records.start started batch rfl fun sender => by rw [none, List.append_nil]
  cases job with
  | sendInLoop sender message =>
      refine sendInLoop_whole ran whole.flowing whole.joined fun ledger accepted order => ?_
      exact whole.records.start started batch accepted (Ledger.taken_append order)
  | shutdownInLoop =>
      cases ran
      obtain ⟨flowing, same, _⟩ := TcpConnection.shutdownInLoop_spec whole.flowing
      exact ⟨silent fun _ => rfl, flowing, same.trans whole.joined⟩
  | connectDestroyed => exact absurd rfl alive
  | writeComplete =>
      cases ran
      exact ⟨silent fun _ => rfl, whole.flowing, whole.joined⟩

theorem step_whole {action : SharedAction τ κ} (whole : before.Whole) (admitted : before.Open action)
    (stepped : before.step action = .ok after) : after.Whole := by
  cases step_moves stepped with
  | established established performed =>
      obtain ⟨_, established⟩ := assert_bind_eq_ok.mp established
      cases established
      have kept : (before.setConn { before.conn with
          state := .kConnected
          channel := before.conn.channel.enableReading }).Whole := by
        refine ⟨whole.records, ⟨whole.flowing.valid, ?_, whole.flowing.flushed⟩, whole.joined⟩
        simpa [setConn] using whole.flowing.interest
      exact kept.serves (perform_serves performed)
  | rested notes => exact ⟨whole.records.notes notes, whole.flowing, whole.joined⟩
  | sent sent => exact send_whole whole sent
  | tested =>
      unfold shutdown
      split
      · exact ⟨whole.records.relabel rfl rfl, whole.flowing, whole.joined⟩
      · exact whole
  | disconnected _ disconnected => exact disconnect_whole whole disconnected
  | @written _ result _ _ handled performed =>
      obtain ⟨flowing, same⟩ := TcpConnection.handleWrite_eq_ok whole.flowing handled
      have kept : (before.setConn result.1).Whole :=
        ⟨whole.records, flowing, same.trans whole.joined⟩
      exact kept.serves (perform_serves performed)
  | closed => exact absurd admitted id
  | erased erases =>
      rw [erases.frame]
      exact ⟨whole.call erases.called (.inl rfl) nofun, whole.flowing, whole.joined⟩
  | others => exact ⟨whole.records, whole.flowing, whole.joined⟩
  | started batch started ran =>
      refine run_whole whole batch ?_ started ran
      rintro rfl
      exact admitted (by rw [batch]; rfl)
  | pushed pushed => exact ⟨whole.records.push pushed, whole.flowing, whole.joined⟩

variable {threadId base : τ} {key : κ} {fd : κ → Int} {loop : Nat} {peerAddr : Bytes}
variable {writeCompleteCallback : Bool} {actions : List (SharedAction τ κ)}

omit [DecidableEq κ] in
theorem Whole.accepted (whole : system.Whole) (sender : τ) :
    system.ledger.taken sender ++
        sendsOf sender (system.calls.loop.functors ++ system.calls.loop.pendingFunctors) ++
        sendsOf sender (held (system.calls.status sender)) = system.ledger.accepted sender := by
  obtain ⟨ordered, own, away, direct, started, pushed⟩ := whole.records
  by_cases mine : sender = system.calls.loop.threadId
  · subst mine
    have queued : sendsOf system.calls.loop.threadId
        (system.calls.loop.functors ++ system.calls.loop.pendingFunctors) = [] := by
      refine sendsOf_eq_nil fun sender message there => away sender message ?_
      rw [← ordered.queue, List.append_assoc]
      exact List.mem_append_right _ there
    have inHand : sendsOf system.calls.loop.threadId
        (held (system.calls.status system.calls.loop.threadId)) = [] :=
      sendsOf_eq_nil fun sender message there => absurd rfl (own _ sender message there).2
    rw [queued, inHand, List.append_nil, List.append_nil, direct]
  · rw [started sender mine, ← pushed sender mine, ← ordered.queue]
    simp only [sendsOf_append, List.append_assoc]

/-- In every run in which the connection stays open, the bytes it has sent and buffered are
whole messages, those of one thread in the order of its calls; what a thread has passed to
`send` and is not among them waits in the queue or in its hand. -/
theorem messages_whole
    (run : Execution step Open
      (construct threadId base key fd loop peerAddr writeCompleteCallback) actions system) :
    system.conn.socket.accepted ++ system.conn.outputBuffer.readable =
        (system.ledger.order.map Prod.snd).flatten ∧
      (∀ sender, system.ledger.taken sender ++
        sendsOf sender (system.calls.loop.functors ++ system.calls.loop.pendingFunctors) ++
        sendsOf sender (held (system.calls.status sender)) = system.ledger.accepted sender) ∧
      (system.calls.loop.functors = [] → system.calls.loop.pendingFunctors = [] →
        ∀ sender, held (system.calls.status sender) = [] →
          system.ledger.taken sender = system.ledger.accepted sender) := by
  have whole : system.Whole :=
    run.invariant construct_whole fun _ _ _ whole admitted stepped => step_whole whole admitted stepped
  refine ⟨whole.joined, whole.accepted, fun batch pending sender free => ?_⟩
  simpa [batch, pending, free] using whole.accepted sender

/-- The theorem at a run in which the loop thread overtakes two other senders and a message is
split between a direct write and the buffer. -/
theorem messages_whole_overtaken : ∃ system : SharedConnection (Fin 3) Nat,
    system.ledger.order = [(0, [5, 6]), (1, [1, 2, 3]), (2, [4]), (1, [7])] ∧
      system.conn.socket.accepted ++ system.conn.outputBuffer.readable = [5, 6, 1, 2, 3, 4, 7] ∧
      system.ledger.accepted 1 = [[1, 2, 3], [7]] := by
  let actions : List (SharedAction (Fin 3) Nat) := [
    .advance .enter, .advance .test, .advance .poll, .connectEstablished, .acquire 0, .acquire 1,
    .acquire 2, .send 1 [1, 2, 3] 0, .send 2 [4] 0, .advance (.push 1), .advance (.push 2),
    .advance (.wakeup 1), .send 0 [5, 6] 1, .handleWrite 1, .advance .prepare, .advance .swap,
    .send 1 [7] 0, .advance (.push 1), .start 2, .start 0, .start 0, .finish, .advance .test,
    .advance (.wakeup 2), .advance .poll, .handleWrite 2, .advance .handleRead, .advance .prepare,
    .advance .swap, .start 0, .advance (.wakeup 1)]
  have replayed : (replay step Open .impossible
      (construct (0 : Fin 3) 1 7 (fun key : Nat => (key : Int)) 0 [] true) actions).toOption.any
      (fun system => decide
        (system.ledger.order = [(0, [5, 6]), (1, [1, 2, 3]), (2, [4]), (1, [7])] ∧
          system.ledger.accepted 1 = [[1, 2, 3], [7]])) = true := by
    decide +kernel
  obtain ⟨system, run, reached⟩ := Execution.exists_of_replay replayed
  obtain ⟨order, accepted⟩ := of_decide_eq_true reached
  refine ⟨system, order, ?_, accepted⟩
  rw [(messages_whole run).1, order]
  rfl

end SharedConnection

end TransferServer.Net
