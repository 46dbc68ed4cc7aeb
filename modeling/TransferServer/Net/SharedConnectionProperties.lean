import TransferServer.Net.EventLoopProperties
import TransferServer.Net.SharedConnection
import TransferServer.Net.TcpConnectionProperties

/-! What the steps of a shared connection do to the queue of its loop, and what the requests
of a member leave as it was. -/

set_option autoImplicit false

namespace TransferServer.Net

open Lib

namespace LoopSystem

variable {τ F : Type} [DecidableEq τ] {before after : LoopSystem τ F} {caller : τ} {cb : F}

theorem loop_call {entry : EntryPoint} : (before.call caller entry cb).loop = before.loop := by
  cases entry with
  | runInLoop =>
      unfold call
      simp only
      split <;> rfl
  | queueInLoop => rfl

theorem pushes_call {entry : EntryPoint} : (before.call caller entry cb).pushes = before.pushes := by
  cases entry with
  | runInLoop =>
      unfold call
      simp only
      split <;> rfl
  | queueInLoop => rfl

/-- A call from outside, or of `queueInLoop`, gives the caller the functor to push. -/
theorem call_eq_ok {entry : EntryPoint} (called : before.step (.call caller entry cb) = .ok after)
    (queued : entry = .queueInLoop ∨ caller ≠ before.loop.threadId) :
    before.status caller = .idle ∧ after.loop = before.loop ∧ after.pushes = before.pushes ∧
      after.started = before.started ∧
      after.status = Function.update before.status caller (.locking cb) := by
  obtain ⟨callable, called⟩ := assume_bind_eq_ok.mp called
  cases called
  refine ⟨callable.1, ?_⟩
  cases entry with
  | queueInLoop => exact ⟨rfl, rfl, rfl, rfl⟩
  | runInLoop =>
      have away : before.loop.isInLoopThread caller = false := by
        rcases queued with queued | away
        · cases queued
        · exact decide_eq_false (Ne.symm away)
      simp [call, away, setStatus]

theorem start_step_eq_ok (started : before.step .start = .ok after) :
    ∃ cb functors, before.loop.functors = cb :: functors ∧
      after.loop = { before.loop with functors } ∧ after.pushes = before.pushes ∧
      after.started = before.started ++ [cb] ∧ after.status = before.status := by
  obtain ⟨_, started⟩ := assume_bind_eq_ok.mp started
  obtain ⟨cb, functors, batch, rfl⟩ := start_eq_ok started
  exact ⟨cb, functors, batch, rfl, rfl, rfl, rfl⟩

/-- A step with neither a call nor a push nor a start changes nothing of what is queued. -/
structure Idles (before after : LoopSystem τ F) : Prop where
  threadId : after.loop.threadId = before.loop.threadId
  started : after.started = before.started
  pushes : after.pushes = before.pushes
  held : ∀ caller, held (after.status caller) = held (before.status caller)

theorem runInLoop_idles
    (called : before.step (.call before.loop.threadId .runInLoop cb) = .ok after) :
    before.Idles after := by
  obtain ⟨_, called⟩ := assume_bind_eq_ok.mp called
  cases called
  have inside : before.loop.isInLoopThread before.loop.threadId = true := decide_eq_true rfl
  simp only [call, inside, if_true]
  exact ⟨rfl, rfl, rfl, fun _ => rfl⟩

theorem Idles.setStatus {status : CallStatus F} (none : LoopSystem.held (before.status caller) = [])
    (none' : LoopSystem.held status = []) : before.Idles (before.setStatus caller status) where
  threadId := rfl
  started := rfl
  pushes := rfl
  held := by
    intro other
    by_cases same : other = caller
    · subst same
      simp [LoopSystem.setStatus, none, none']
    · simp [LoopSystem.setStatus, same]

theorem step_idles {action : LoopAction τ F} (stepped : before.step action = .ok after)
    (quiet : action.internal = true ∨ action = .finish) (unpushed : ∀ caller, action ≠ .push caller) :
    before.Idles after := by
  have nothing {loop : EventLoop τ F} (same : loop.threadId = before.loop.threadId) :
      before.Idles { before with loop } := ⟨same, rfl, rfl, fun _ => rfl⟩
  cases action with
  | call caller entry cb => exact absurd quiet (by simp [LoopAction.internal])
  | push caller => exact absurd rfl (unpushed caller)
  | wakeup caller =>
      obtain ⟨standing, rfl⟩ | ⟨standing, rfl⟩ := wakeup_eq_ok stepped
      · have kept : before.Idles (before.setStatus caller .idle) :=
          .setStatus (by rw [standing]; rfl) rfl
        refine ⟨?_, rfl, rfl, kept.held⟩
        unfold EventLoop.wakeupUnlessIdle
        split <;> rfl
      · have kept : before.Idles (before.setStatus caller .idle) :=
          .setStatus (by rw [standing]; rfl) rfl
        exact ⟨rfl, rfl, rfl, kept.held⟩
  | quit caller =>
      obtain ⟨callable, called⟩ := assume_bind_eq_ok.mp stepped
      cases called
      have kept : before.Idles (before.setStatus caller .quitting) :=
        .setStatus (by rw [callable.1]; rfl) rfl
      unfold quit
      simp only
      split
      · exact nothing rfl
      · exact ⟨rfl, rfl, rfl, kept.held⟩
  | enter =>
      obtain ⟨_, entered⟩ := assume_bind_eq_ok.mp stepped
      obtain ⟨loop, entered, done⟩ := bind_eq_ok.mp entered
      obtain ⟨_, entered⟩ := assert_bind_eq_ok.mp entered
      cases entered
      cases done
      exact nothing rfl
  | test =>
      obtain ⟨_, tested⟩ := assume_bind_eq_ok.mp stepped
      cases tested
      refine nothing ?_
      unfold EventLoop.test
      split <;> rfl
  | poll | handleRead | prepare | swap | finish =>
      obtain ⟨_, done⟩ := assume_bind_eq_ok.mp stepped
      cases done
      exact nothing rfl
  | start => exact absurd quiet (by simp [LoopAction.internal])

theorem Ordered.head (ordered : before.Ordered) {functors : List F}
    (batch : before.loop.functors = cb :: functors) :
    (∃ caller, before.pushes[before.started.length]? = some (caller, cb)) ∧
      (before.pushes.take before.started.length).map Prod.snd = before.started := by
  have queue := ordered.queue
  rw [batch, List.append_assoc] at queue
  have found : (before.pushes.map Prod.snd)[before.started.length]? = some cb := by
    rw [← queue, List.getElem?_append_right (Nat.le_refl _), Nat.sub_self]
    rfl
  constructor
  · rw [List.getElem?_map, Option.map_eq_some_iff] at found
    obtain ⟨⟨caller, _⟩, found, rfl⟩ := found
    exact ⟨caller, found⟩
  · rw [List.map_take, ← queue, List.take_left]

/-- Nothing was queued but write complete callbacks. -/
structure Notes {τ : Type} [DecidableEq τ] (before after : LoopSystem τ (Job τ)) : Prop where
  ordered : before.Ordered → after.Ordered
  threadId : after.loop.threadId = before.loop.threadId
  started : after.started = before.started
  held : ∀ caller, held (after.status caller) = held (before.status caller)
  pushes : ∃ extra, after.pushes = before.pushes ++ extra ∧
    ∀ push ∈ extra, Prod.snd push = Job.writeComplete

theorem Notes.refl (system : LoopSystem τ (Job τ)) : system.Notes system :=
  ⟨id, rfl, rfl, fun _ => rfl, [], by simp, by simp⟩

theorem Notes.trans {first second third : LoopSystem τ (Job τ)} (notes : first.Notes second)
    (notes' : second.Notes third) : first.Notes third where
  ordered := fun ordered => notes'.ordered (notes.ordered ordered)
  threadId := notes'.threadId.trans notes.threadId
  started := notes'.started.trans notes.started
  held := fun caller => (notes'.held caller).trans (notes.held caller)
  pushes := by
    obtain ⟨extra, pushes, silent⟩ := notes.pushes
    obtain ⟨extra', pushes', silent'⟩ := notes'.pushes
    refine ⟨extra ++ extra', by rw [pushes', pushes, List.append_assoc], fun push there => ?_⟩
    rcases List.mem_append.mp there with earlier | later
    · exact silent push earlier
    · exact silent' push later

theorem Idles.notes {before after : LoopSystem τ (Job τ)} (idles : before.Idles after)
    (ordered : before.Ordered → after.Ordered) : before.Notes after :=
  ⟨ordered, idles.threadId, idles.started, idles.held, [], by
    rw [idles.pushes, List.append_nil], by simp⟩

theorem queue_notes {before called pushed woken : LoopSystem τ (Job τ)}
    (call : before.step (.call caller .queueInLoop .writeComplete) = .ok called)
    (push : called.step (.push caller) = .ok pushed) (wake : pushed.step (.wakeup caller) = .ok woken) :
    before.Notes woken := by
  obtain ⟨idle, loop, pushes, started, status⟩ := call_eq_ok call (.inl rfl)
  obtain ⟨cb, locking, pushed_eq⟩ := push_eq_ok push
  rw [status, Function.update_self] at locking
  cases locking
  have idles := step_idles wake (.inl rfl) nofun
  refine ⟨fun ordered => step_ordered (step_ordered (step_ordered ordered call) push) wake, ?_, ?_, ?_,
    [(caller, .writeComplete)], ?_, by simp⟩
  · rw [idles.threadId, pushed_eq, ← loop]
    rfl
  · rw [idles.started, pushed_eq, ← started]
    rfl
  · intro other
    rw [idles.held, pushed_eq]
    by_cases same : other = caller
    · subst same
      simp [LoopSystem.setStatus, LoopSystem.held, idle]
    · simp [LoopSystem.setStatus, status, same]
  · rw [idles.pushes, pushed_eq, ← pushes]

end LoopSystem

namespace SharedConnection

variable {τ κ : Type} [DecidableEq τ] [DecidableEq κ] {before after : SharedConnection τ κ}
variable {caller : τ}

omit [DecidableEq κ] in
theorem onLoop_eq_ok {action : LoopAction τ (Job τ)} (stepped : before.onLoop action = .ok after) :
    ∃ calls, before.calls.step action = .ok calls ∧ after = { before with calls } := by
  obtain ⟨calls, performed, done⟩ := bind_eq_ok.mp stepped
  cases done
  exact ⟨calls, performed, rfl⟩

/-- Only the queue of the loop and its poller have seen the requests of a member. -/
structure Serves (before after : SharedConnection τ κ) : Prop where
  frame : after = { before with calls := after.calls, channels := after.channels }
  notes : before.calls.Notes after.calls

section

omit [DecidableEq κ]

theorem Serves.base (serves : before.Serves after) : after.base = before.base := by
  rw [serves.frame]

theorem Serves.key (serves : before.Serves after) : after.key = before.key := by
  rw [serves.frame]

theorem Serves.conn (serves : before.Serves after) : after.conn = before.conn := by
  rw [serves.frame]

theorem Serves.holders (serves : before.Serves after) : after.holders = before.holders := by
  rw [serves.frame]

end

theorem updateChannel_serves (updated : before.updateChannel = .ok after) : before.Serves after := by
  obtain ⟨poller, _, done⟩ := bind_eq_ok.mp updated
  cases done
  exact ⟨rfl, .refl _⟩

theorem request_serves {request : Request} (served : before.request request = .ok after) :
    before.Serves after := by
  cases request with
  | updateChannel => exact updateChannel_serves served
  | writeComplete =>
      obtain ⟨_, called, served⟩ := bind_eq_ok.mp served
      obtain ⟨_, pushed, woken⟩ := bind_eq_ok.mp served
      obtain ⟨called, call, rfl⟩ := onLoop_eq_ok called
      obtain ⟨pushed, push, rfl⟩ := onLoop_eq_ok pushed
      obtain ⟨woken, wake, rfl⟩ := onLoop_eq_ok woken
      exact ⟨rfl, LoopSystem.queue_notes call push wake⟩

theorem perform_serves {result : TcpConnection × List Request}
    (performed : before.perform result = .ok after) : (before.setConn result.1).Serves after := by
  obtain ⟨conn, requests⟩ := result
  unfold perform at performed
  generalize before.setConn conn = system at performed ⊢
  induction requests generalizing system with
  | nil =>
      cases performed
      exact ⟨rfl, .refl _⟩
  | cons request requests ih =>
      rw [List.foldlM_cons] at performed
      obtain ⟨middle, served, performed⟩ := bind_eq_ok.mp performed
      obtain ⟨frame, notes⟩ := request_serves served
      obtain ⟨frame', notes'⟩ := ih middle performed
      refine ⟨?_, notes.trans notes'⟩
      rw [frame', frame]

theorem sendInLoop_eq_ok {sender : τ} {message : Bytes} {returned : Int}
    (sent : before.sendInLoop sender message returned = .ok after) :
    ∃ conn requests, before.conn.sendInLoop message returned = .ok (conn, requests) ∧
      Serves { before with
        conn
        ledger := { before.ledger with order := before.ledger.order ++ [(sender, message)] } } after := by
  obtain ⟨⟨conn, requests⟩, sent, performed⟩ := bind_eq_ok.mp sent
  exact ⟨conn, requests, sent, perform_serves performed⟩

omit [DecidableEq τ] in
theorem removeChannel_eq_ok (removed : before.removeChannel = .ok after) :
    ∃ channels, before.channels.step (.removeChannel before.key) = .ok channels ∧
      after = { before with channels } := by
  obtain ⟨channels, stepped, done⟩ := bind_eq_ok.mp removed
  cases done
  exact ⟨channels, stepped, rfl⟩

/-- A message is refused, sent on the spot by the loop thread, or left to a functor. -/
theorem send_eq_ok {message : Bytes} {returned : Int}
    (sent : before.send caller message returned = .ok after) :
    (before.conn.state ≠ .kConnected ∧ after = before) ∨
    (before.conn.state = .kConnected ∧ caller = before.calls.loop.threadId ∧
      (before.accept caller message).sendInLoop caller message returned = .ok after) ∨
    (before.conn.state = .kConnected ∧ caller ≠ before.calls.loop.threadId ∧ ∃ calls,
      before.calls.step (.call caller .runInLoop (.sendInLoop caller message)) = .ok calls ∧
        after = { before.accept caller message with calls }) := by
  unfold send at sent
  by_cases connected : before.conn.state = .kConnected
  · rw [if_pos connected] at sent
    by_cases inside : caller = before.calls.loop.threadId
    · have test : (before.accept caller message).calls.loop.isInLoopThread caller = true :=
        decide_eq_true inside.symm
      simp only [test, if_true] at sent
      exact .inr (.inl ⟨connected, inside, sent⟩)
    · have test : (before.accept caller message).calls.loop.isInLoopThread caller = false :=
        decide_eq_false (Ne.symm inside)
      simp only [test, Bool.false_eq_true, if_false] at sent
      exact .inr (.inr ⟨connected, inside, onLoop_eq_ok sent⟩)
  · rw [if_neg connected] at sent
    cases sent
    exact .inl ⟨connected, rfl⟩

omit [DecidableEq κ] in
/-- `shutdownInLoop` runs on the spot on the loop thread, else its functor is in hand. -/
theorem disconnect_eq_ok (disconnected : before.disconnect caller = .ok after) :
    ∃ calls, calls.loop = before.calls.loop ∧ calls.pushes = before.calls.pushes ∧
      ((caller = before.calls.loop.threadId ∧ before.calls.Notes calls ∧ after = { before with
          calls
          conn := { before.conn with state := .kDisconnecting }.shutdownInLoop
          closing := Function.update before.closing caller false }) ∨
        (caller ≠ before.calls.loop.threadId ∧
          before.calls.step (.call caller .runInLoop .shutdownInLoop) = .ok calls ∧
          after = { before with
            calls
            conn := { before.conn with state := .kDisconnecting }
            closing := Function.update before.closing caller false })) := by
  obtain ⟨_, called, disconnected⟩ := bind_eq_ok.mp disconnected
  obtain ⟨calls, stepped, rfl⟩ := onLoop_eq_ok called
  obtain ⟨loop, pushes⟩ : calls.loop = before.calls.loop ∧ calls.pushes = before.calls.pushes := by
    obtain ⟨_, stepped⟩ := assume_bind_eq_ok.mp stepped
    cases stepped
    exact ⟨LoopSystem.loop_call, LoopSystem.pushes_call⟩
  refine ⟨calls, loop, pushes, ?_⟩
  by_cases inside : caller = before.calls.loop.threadId
  · have test : calls.loop.isInLoopThread caller = true := by
      rw [loop]
      exact decide_eq_true inside.symm
    simp only [test, if_true] at disconnected
    cases disconnected
    subst inside
    have idles := LoopSystem.runInLoop_idles stepped
    exact .inl ⟨rfl, idles.notes fun ordered => LoopSystem.step_ordered ordered stepped, rfl⟩
  · have test : calls.loop.isInLoopThread caller = false := by
      rw [loop]
      exact decide_eq_false (Ne.symm inside)
    simp only [test, Bool.false_eq_true, if_false] at disconnected
    cases disconnected
    exact .inr ⟨inside, stepped, rfl⟩

/-- The base thread takes the connection out of `connections_` and the functor of
`connectDestroyed` in hand. -/
structure Erases (before after : SharedConnection τ κ) : Prop where
  entered : before.holders.listed = true
  called : before.calls.step (.call before.base .queueInLoop .connectDestroyed) = .ok after.calls
  frame : after = { before with calls := after.calls, holders := after.holders }
  erased : after.holders.listed = false
  copy : before.base ∈ after.holders.copies

omit [DecidableEq κ] in
theorem removeConnectionInLoop_eq_ok (removed : before.removeConnectionInLoop = .ok after) :
    before.Erases after := by
  obtain ⟨entered, removed⟩ := assert_bind_eq_ok.mp removed
  obtain ⟨calls, called, rfl⟩ := onLoop_eq_ok removed
  exact ⟨entered, called, rfl, rfl, List.mem_cons_self⟩

omit [DecidableEq κ] in
theorem removeConnection_eq_ok (removed : before.removeConnection caller = .ok after) :
    after = { before with
      holders := { before.holders with removals := before.holders.removals + 1 } } ∨
    before.Erases after := by
  unfold removeConnection at removed
  split at removed
  · exact .inr (removeConnectionInLoop_eq_ok removed)
  · cases removed
    exact .inl rfl

theorem start_eq_ok {returned : Int} (started : before.start returned = .ok after) :
    ∃ job functors calls, before.calls.loop.functors = job :: functors ∧
      before.calls.step .start = .ok calls ∧
      { before with
        calls
        holders := { before.holders with called := before.holders.called ++ [job] } }.run
          job returned = .ok after := by
  unfold start at started
  cases batch : before.calls.loop.functors with
  | nil => rw [batch] at started; cases started
  | cons job functors =>
      rw [batch] at started
      obtain ⟨_, taken, ran⟩ := bind_eq_ok.mp started
      obtain ⟨calls, stepped, rfl⟩ := onLoop_eq_ok taken
      exact ⟨job, functors, calls, rfl, stepped, ran⟩

/-- What a step can do, with the guards that it has passed. -/
inductive Moves (before : SharedConnection τ κ) :
    SharedAction τ κ → SharedConnection τ κ → Prop where
  | established {result : TcpConnection × List Request} {after : SharedConnection τ κ} :
      before.conn.connectEstablished = .ok result → before.perform result = .ok after →
      Moves before .connectEstablished after
  /-- A thread in a call of the loop keeps its copy. -/
  | rested {action : SharedAction τ κ} {calls : LoopSystem τ (Job τ)} {holders : Holders τ} :
      before.calls.Notes calls → holders.listed = before.holders.listed →
      (∀ thread, before.calls.status thread ≠ .idle → thread ∈ before.holders.copies →
        thread ∈ holders.copies) → Moves before action { before with calls, holders }
  | sent {caller : τ} {message : Bytes} {returned : Int} {after : SharedConnection τ κ} :
      before.send caller message returned = .ok after →
      Moves before (.send caller message returned) after
  | tested {caller : τ} : Moves before (.shutdown caller) (before.shutdown caller)
  | disconnected {caller : τ} {after : SharedConnection τ κ} : before.closing caller = true →
      before.disconnect caller = .ok after → Moves before (.disconnect caller) after
  | written {returned : Int} {result : TcpConnection × List Request} {after : SharedConnection τ κ} :
      before.Registered → before.conn.handleWrite returned = .ok result →
      before.perform result = .ok after → Moves before (.handleWrite returned) after
  | closed {caller : τ} {result : TcpConnection × List Request} {disabled after : SharedConnection τ κ} :
      before.Registered → before.conn.handleClose = .ok result →
      before.perform result = .ok disabled → disabled.removeConnection caller = .ok after →
      Moves before .handleClose after
  | erased {action : SharedAction τ κ} {after : SharedConnection τ κ} : before.Erases after →
      Moves before action after
  | others {action : ChannelAction κ} {channels : ChannelSystem κ} : action.key ≠ before.key →
      before.channels.step action = .ok channels →
      Moves before (.others action) { before with channels }
  | started {returned : Int} {job : Job τ} {functors : List (Job τ)} {calls : LoopSystem τ (Job τ)}
      {after : SharedConnection τ κ} : before.calls.loop.functors = job :: functors →
      before.calls.step .start = .ok calls →
      { before with
        calls
        holders := { before.holders with called := before.holders.called ++ [job] } }.run
          job returned = .ok after → Moves before (.start returned) after
  | pushed {caller : τ} {calls : LoopSystem τ (Job τ)} :
      before.calls.step (.push caller) = .ok calls →
      Moves before (.advance (.push caller)) { before with calls }

theorem step_moves {action : SharedAction τ κ} (stepped : before.step action = .ok after) :
    before.Moves action after := by
  obtain ⟨resumes, stepped⟩ := assume_bind_eq_ok.mp stepped
  cases action with
  | connectEstablished =>
      obtain ⟨_, stepped⟩ := assume_bind_eq_ok.mp stepped
      obtain ⟨_, established, performed⟩ := bind_eq_ok.mp stepped
      exact .established established performed
  | acquire caller =>
      obtain ⟨_, stepped⟩ := assume_bind_eq_ok.mp stepped
      cases stepped
      exact .rested (.refl _) rfl fun _ _ => List.mem_cons_of_mem caller
  | release caller =>
      obtain ⟨⟨_, idle⟩, stepped⟩ := assume_bind_eq_ok.mp stepped
      cases stepped
      refine .rested (.refl _) rfl fun thread busy copy => ?_
      have apart : thread ≠ caller := by
        rintro rfl
        exact busy idle
      exact (List.mem_erase_of_ne apart).mpr copy
  | send caller message returned =>
      obtain ⟨_, stepped⟩ := assume_bind_eq_ok.mp stepped
      exact .sent stepped
  | shutdown caller =>
      obtain ⟨_, stepped⟩ := assume_bind_eq_ok.mp stepped
      cases stepped
      exact .tested
  | disconnect caller => exact .disconnected resumes stepped
  | handleWrite returned =>
      obtain ⟨⟨_, registered⟩, stepped⟩ := assume_bind_eq_ok.mp stepped
      obtain ⟨_, handled, performed⟩ := bind_eq_ok.mp stepped
      exact .written registered handled performed
  | handleClose =>
      obtain ⟨⟨_, registered⟩, stepped⟩ := assume_bind_eq_ok.mp stepped
      obtain ⟨_, closed, stepped⟩ := bind_eq_ok.mp stepped
      obtain ⟨disabled, performed, removed⟩ := bind_eq_ok.mp stepped
      exact .closed registered closed performed removed
  | removeConnection caller =>
      obtain ⟨_, stepped⟩ := assume_bind_eq_ok.mp stepped
      rcases removeConnection_eq_ok stepped with rfl | erases
      · exact .rested (.refl _) rfl fun _ _ => id
      · exact .erased erases
  | removeConnectionInLoop =>
      obtain ⟨_, stepped⟩ := assume_bind_eq_ok.mp stepped
      obtain ⟨entered, called, frame, erased, copy⟩ := removeConnectionInLoop_eq_ok stepped
      exact .erased ⟨entered, called, frame, erased, copy⟩
  | others action =>
      obtain ⟨apart, stepped⟩ := assume_bind_eq_ok.mp stepped
      obtain ⟨_, moved, stepped⟩ := bind_eq_ok.mp stepped
      cases stepped
      exact .others apart moved
  | start returned =>
      obtain ⟨job, functors, calls, batch, started, ran⟩ := start_eq_ok stepped
      exact .started batch started ran
  | finish =>
      obtain ⟨_, performed, stepped⟩ := bind_eq_ok.mp stepped
      obtain ⟨calls, finished, rfl⟩ := onLoop_eq_ok performed
      cases stepped
      have idles := LoopSystem.step_idles finished (.inr rfl) nofun
      exact .rested (idles.notes fun ordered => LoopSystem.step_ordered ordered finished) rfl fun _ _ => id
  | advance action =>
      obtain ⟨internal, stepped⟩ := assume_bind_eq_ok.mp stepped
      obtain ⟨calls, moved, rfl⟩ := onLoop_eq_ok stepped
      by_cases pushes : ∃ caller, action = .push caller
      · obtain ⟨caller, rfl⟩ := pushes
        exact .pushed moved
      · have idles := LoopSystem.step_idles moved (.inl internal) fun caller same => pushes ⟨caller, same⟩
        exact .rested (idles.notes fun ordered => LoopSystem.step_ordered ordered moved) rfl fun _ _ => id

end SharedConnection

end TransferServer.Net
