import TransferServer.Lib.Execution
import TransferServer.Net.EventLoop

/-! One loop under every interleaving of its callers: no pushed functor is left behind by a
loop that goes to sleep, and functors start in the order in which they were pushed. -/

set_option autoImplicit false

namespace TransferServer.Net.LoopSystem

open Lib

variable {τ F : Type} [DecidableEq τ]
variable {before after system : LoopSystem τ F} {caller : τ}

theorem push_eq_ok (pushed : before.push caller = .ok after) :
    ∃ cb, before.status caller = .locking cb ∧
      after = { before.setStatus caller .pushed with
        loop := before.loop.pushBack cb
        pushes := before.pushes ++ [(caller, cb)] } := by
  unfold push at pushed
  cases standing : before.status caller with
  | locking cb =>
      rw [standing] at pushed
      cases pushed
      exact ⟨cb, rfl, rfl⟩
  | idle => rw [standing] at pushed; cases pushed
  | pushed => rw [standing] at pushed; cases pushed
  | quitting => rw [standing] at pushed; cases pushed

theorem wakeup_eq_ok (woken : before.wakeup caller = .ok after) :
    (before.status caller = .pushed ∧
      after = { before.setStatus caller .idle with loop := before.loop.wakeupUnlessIdle caller }) ∨
    (before.status caller = .quitting ∧
      after = { before.setStatus caller .idle with loop := before.loop.wakeup }) := by
  unfold wakeup at woken
  cases standing : before.status caller with
  | pushed =>
      rw [standing] at woken
      cases woken
      exact .inl ⟨rfl, rfl⟩
  | quitting =>
      rw [standing] at woken
      cases woken
      exact .inr ⟨rfl, rfl⟩
  | idle => rw [standing] at woken; cases woken
  | locking cb => rw [standing] at woken; cases woken

omit [DecidableEq τ] in
theorem start_eq_ok (started : before.start = .ok after) :
    ∃ cb functors, before.loop.functors = cb :: functors ∧
      after = { before with
        loop := { before.loop with functors }
        started := before.started ++ [cb] } := by
  unfold start at started
  cases batch : before.loop.functors with
  | nil => rw [batch] at started; cases started
  | cons cb functors =>
      rw [batch] at started
      cases started
      exact ⟨cb, functors, rfl, rfl⟩

/-- A loop thread that is inside a call came from a handler or a functor. Functors that
wait outside an iteration have a wakeup on its way: written, or due from a caller. -/
structure Awake (system : LoopSystem τ F) : Prop where
  inside : system.status system.loop.threadId ≠ .idle →
    system.loop.phase = .dispatching ∨ system.loop.phase = .running
  calling : system.loop.phase = .swapping ∨ system.loop.phase = .running →
    system.loop.callingPendingFunctors = true
  due : system.loop.pendingFunctors ≠ [] →
    system.loop.phase = .dispatching ∨ system.loop.phase = .swapping ∨
      system.loop.eventfd ≠ 0 ∨ ∃ caller, system.status caller = .pushed

omit [DecidableEq τ] in
theorem construct_awake (threadId : τ) : (construct threadId : LoopSystem τ F).Awake where
  inside := fun busy => absurd rfl busy
  calling := by simp [construct, EventLoop.construct]
  due := fun pending => absurd rfl pending

omit [DecidableEq τ] in
theorem Awake.due_at (awake : system.Awake) (pending : system.loop.pendingFunctors ≠ [])
    (dispatched : system.loop.phase ≠ .dispatching) (swapped : system.loop.phase ≠ .swapping) :
    system.loop.eventfd ≠ 0 ∨ ∃ caller, system.status caller = .pushed := by
  rcases awake.due pending with dispatching | swapping | due
  · exact absurd dispatching dispatched
  · exact absurd swapping swapped
  · exact due

theorem Awake.setStatus (awake : system.Awake) (callable : system.MayCall caller)
    (status : CallStatus F) : (system.setStatus caller status).Awake := by
  refine ⟨fun busy => ?_, awake.calling, fun pending => ?_⟩
  · by_cases own : caller = system.loop.threadId
    · exact callable.2 own
    · apply awake.inside
      intro idle
      apply busy
      simp [LoopSystem.setStatus, Function.update_of_ne (Ne.symm own), idle]
  · rcases awake.due pending with dispatching | swapping | written | ⟨other, pushed⟩
    · exact .inl dispatching
    · exact .inr (.inl swapping)
    · exact .inr (.inr (.inl written))
    · refine .inr (.inr (.inr ⟨other, ?_⟩))
      have apart : other ≠ caller := by
        intro same
        rw [same, callable.1] at pushed
        cases pushed
      simpa only [LoopSystem.setStatus, Function.update_of_ne apart] using pushed

theorem push_awake (awake : before.Awake) (pushed : before.push caller = .ok after) :
    after.Awake := by
  obtain ⟨cb, standing, rfl⟩ := push_eq_ok pushed
  refine ⟨fun _ => ?_, awake.calling, fun _ => ?_⟩
  · by_cases own : caller = before.loop.threadId
    · apply awake.inside
      rw [← own, standing]
      simp
    · apply awake.inside
      intro idle
      simp [LoopSystem.setStatus, EventLoop.pushBack, Function.update_of_ne (Ne.symm own), idle] at *
  · exact .inr (.inr (.inr ⟨caller, by simp [LoopSystem.setStatus]⟩))

/-- The loop thread skips the eventfd only among its handlers, before the next swap. -/
theorem wakeup_awake (awake : before.Awake) (woken : before.wakeup caller = .ok after) :
    after.Awake := by
  have inside : caller = before.loop.threadId → before.status caller ≠ .idle →
      before.loop.phase = .dispatching ∨ before.loop.phase = .running := by
    intro own busy
    exact awake.inside (own ▸ busy)
  have others : (before.setStatus caller .idle).status before.loop.threadId ≠ .idle →
      before.loop.phase = .dispatching ∨ before.loop.phase = .running := by
    intro busy
    apply awake.inside
    intro idle
    by_cases own : before.loop.threadId = caller
    · simp [LoopSystem.setStatus, own] at busy
    · simp [LoopSystem.setStatus, Function.update_of_ne own, idle] at busy
  obtain ⟨standing, rfl⟩ | ⟨standing, rfl⟩ := wakeup_eq_ok woken
  · unfold EventLoop.wakeupUnlessIdle
    split
    · exact ⟨others, awake.calling, fun _ => .inr (.inr (.inl (Nat.succ_ne_zero _)))⟩
    · next skipped =>
        simp only [not_or, Bool.not_eq_false, Bool.not_eq_true] at skipped
        obtain ⟨own, notCalling⟩ := skipped
        have own : before.loop.threadId = caller := of_decide_eq_true own
        refine ⟨others, awake.calling, fun _ => .inl ?_⟩
        rcases inside own.symm (by simp [standing]) with dispatching | running
        · exact dispatching
        · rw [awake.calling (.inr running)] at notCalling
          cases notCalling
  · exact ⟨others, awake.calling, fun _ => .inr (.inr (.inl (Nat.succ_ne_zero _)))⟩

theorem step_awake (awake : before.Awake) {action : LoopAction τ F}
    (stepped : before.step action = .ok after) : after.Awake := by
  cases action with
  | call caller entry cb =>
      obtain ⟨callable, called⟩ := assume_bind_eq_ok.mp stepped
      cases called
      have kept := awake.setStatus callable (.locking cb)
      unfold call
      cases entry with
      | queueInLoop => exact ⟨kept.inside, kept.calling, kept.due⟩
      | runInLoop =>
          simp only
          split
          · exact ⟨awake.inside, awake.calling, awake.due⟩
          · exact ⟨kept.inside, kept.calling, kept.due⟩
  | push caller => exact push_awake awake stepped
  | wakeup caller => exact wakeup_awake awake stepped
  | quit caller =>
      obtain ⟨callable, called⟩ := assume_bind_eq_ok.mp stepped
      cases called
      have kept := awake.setStatus callable .quitting
      unfold quit
      simp only
      split
      · exact ⟨awake.inside, awake.calling, awake.due⟩
      · exact ⟨kept.inside, kept.calling, kept.due⟩
  | enter =>
      obtain ⟨⟨outside, idle⟩, entered⟩ := assume_bind_eq_ok.mp stepped
      obtain ⟨loop, entered, done⟩ := bind_eq_ok.mp entered
      obtain ⟨_, entered⟩ := assert_bind_eq_ok.mp entered
      cases entered
      cases done
      refine ⟨fun busy => absurd idle busy, by simp, fun pending => ?_⟩
      exact .inr (.inr (awake.due_at pending (by simp [outside]) (by simp [outside])))
  | test =>
      obtain ⟨⟨testing, idle⟩, tested⟩ := assume_bind_eq_ok.mp stepped
      cases tested
      unfold EventLoop.test
      split
      · refine ⟨fun busy => absurd idle busy, by simp, fun pending => ?_⟩
        exact .inr (.inr (awake.due_at pending (by simp [testing]) (by simp [testing])))
      · refine ⟨fun busy => absurd idle busy, by simp, fun pending => ?_⟩
        exact .inr (.inr (awake.due_at pending (by simp [testing]) (by simp [testing])))
  | poll =>
      obtain ⟨⟨_, idle⟩, polled⟩ := assume_bind_eq_ok.mp stepped
      cases polled
      exact ⟨fun busy => absurd idle busy, by simp [EventLoop.poll], fun _ => .inl rfl⟩
  | handleRead =>
      obtain ⟨⟨dispatching, idle⟩, read⟩ := assume_bind_eq_ok.mp stepped
      cases read
      exact ⟨fun busy => absurd idle busy, awake.calling, fun _ => .inl dispatching⟩
  | prepare =>
      obtain ⟨⟨_, idle⟩, prepared⟩ := assume_bind_eq_ok.mp stepped
      cases prepared
      exact ⟨fun busy => absurd idle busy, fun _ => rfl, fun _ => .inr (.inl rfl)⟩
  | swap =>
      obtain ⟨⟨swapping, idle⟩, swapped⟩ := assume_bind_eq_ok.mp stepped
      cases swapped
      exact ⟨fun busy => absurd idle busy, fun _ => awake.calling (.inl swapping),
        fun pending => absurd rfl pending⟩
  | start =>
      obtain ⟨⟨running, idle⟩, started⟩ := assume_bind_eq_ok.mp stepped
      obtain ⟨cb, functors, _, rfl⟩ := start_eq_ok started
      exact ⟨fun busy => absurd idle busy, awake.calling, awake.due⟩
  | finish =>
      obtain ⟨⟨⟨running, idle⟩, _⟩, finished⟩ := assume_bind_eq_ok.mp stepped
      cases finished
      refine ⟨fun busy => absurd idle busy, by simp [EventLoop.finish], fun pending => ?_⟩
      exact .inr (.inr (awake.due_at pending (by simp [running]) (by simp [running])))

/-- No wakeup is lost: a loop that is about to block while functors wait finds its eventfd
readable, or another thread has pushed and its write is still to come. -/
theorem no_lost_wakeup {threadId : τ} {actions : List (LoopAction τ F)}
    (run : Execution step anyAction (construct threadId) actions system)
    (polling : system.loop.phase = .polling) (pending : system.loop.pendingFunctors ≠ []) :
    system.loop.eventfd ≠ 0 ∨
      ∃ caller, caller ≠ system.loop.threadId ∧ system.status caller = .pushed := by
  have awake : system.Awake :=
    run.invariant (construct_awake threadId) fun _ _ _ awake _ stepped => step_awake awake stepped
  rcases awake.due_at pending (by simp [polling]) (by simp [polling]) with written | pushed
  · exact .inl written
  · obtain ⟨caller, pushed⟩ := pushed
    refine .inr ⟨caller, ?_, pushed⟩
    intro own
    have busy : system.status system.loop.threadId ≠ .idle := by
      rw [← own, pushed]
      simp
    simpa [polling] using awake.inside busy

/-- The theorem at a run in which a functor is pushed while a batch runs. -/
theorem no_lost_wakeup_late_push :
    ∃ system : LoopSystem Bool Nat, system.loop.phase = .polling ∧
      system.loop.pendingFunctors ≠ [] ∧ (system.loop.eventfd ≠ 0 ∨
        ∃ caller, caller ≠ system.loop.threadId ∧ system.status caller = .pushed) := by
  let actions : List (LoopAction Bool Nat) := [
    .call false .runInLoop 1, .enter, .test, .push false, .poll, .wakeup false,
    .handleRead, .call true .queueInLoop 2, .push true, .wakeup true, .prepare, .swap, .start,
    .call false .queueInLoop 3, .start, .push false, .call true .runInLoop 4, .finish, .test]
  have replayed : (replay step anyAction .impossible (construct true) actions).toOption.any
      (fun system => decide (system.loop.phase = .polling ∧ system.loop.pendingFunctors ≠ [])) =
        true := by decide +kernel
  obtain ⟨system, run, reached⟩ := Execution.exists_of_replay replayed
  obtain ⟨polling, pending⟩ := of_decide_eq_true reached
  exact ⟨system, polling, pending, no_lost_wakeup run polling pending⟩

/-- What a caller has submitted and not yet pushed. -/
def held : CallStatus F → List F
  | .locking cb => [cb]
  | _ => []

/-- The functors that a thread has pushed, in order. -/
def pushedBy (pushes : List (τ × F)) (caller : τ) : List F :=
  (pushes.filter fun push => push.1 = caller).map Prod.snd

structure Ordered (system : LoopSystem τ F) : Prop where
  batch : system.loop.phase ≠ .running → system.loop.functors = []
  queue : system.started ++ system.loop.functors ++ system.loop.pendingFunctors =
    system.pushes.map Prod.snd
  own : ∀ caller, caller ≠ system.loop.threadId →
    pushedBy system.pushes caller ++ held (system.status caller) = system.submitted caller

theorem construct_ordered (threadId : τ) : (construct threadId : LoopSystem τ F).Ordered where
  batch := fun _ => rfl
  queue := rfl
  own := fun _ _ => rfl

theorem call_ordered (ordered : before.Ordered) (idle : before.status caller = .idle)
    (entry : EntryPoint) (cb : F) : (before.call caller entry cb).Ordered := by
  have queued : (before.call caller .queueInLoop cb).Ordered := by
    refine ⟨ordered.batch, ordered.queue, fun other away => ?_⟩
    by_cases same : other = caller
    · subst same
      have own := ordered.own other away
      rw [idle] at own
      simp only [call, setStatus, Function.update_self, ← own]
      simp [held]
    · simpa only [call, setStatus, Function.update_of_ne same] using ordered.own other away
  cases entry with
  | queueInLoop => exact queued
  | runInLoop =>
      unfold call
      simp only
      split
      · next inside =>
          refine ⟨ordered.batch, ordered.queue, fun other away => ?_⟩
          have apart : other ≠ caller := by
            intro same
            exact away (same.trans (of_decide_eq_true inside).symm)
          simpa only [Function.update_of_ne apart] using ordered.own other away
      · exact queued

theorem push_ordered (ordered : before.Ordered) (pushed : before.push caller = .ok after) :
    after.Ordered := by
  obtain ⟨cb, standing, rfl⟩ := push_eq_ok pushed
  refine ⟨ordered.batch, ?_, fun other away => ?_⟩
  · simp [setStatus, EventLoop.pushBack, ← ordered.queue]
  · have own := ordered.own other away
    by_cases same : other = caller
    · subst same
      rw [standing] at own
      simpa [setStatus, pushedBy, held] using own
    · simpa [setStatus, pushedBy, same, Ne.symm same, Function.update_of_ne same] using own

theorem Ordered.setStatus (ordered : system.Ordered) {status : CallStatus F}
    (none : held (system.status caller) = []) (none' : held status = []) :
    (system.setStatus caller status).Ordered := by
  refine ⟨ordered.batch, ordered.queue, fun other away => ?_⟩
  have own := ordered.own other away
  by_cases same : other = caller
  · subst same
    rw [none] at own
    simpa [LoopSystem.setStatus, none'] using own
  · simpa only [LoopSystem.setStatus, Function.update_of_ne same] using own

theorem step_ordered (ordered : before.Ordered) {action : LoopAction τ F}
    (stepped : before.step action = .ok after) : after.Ordered := by
  cases action with
  | call caller entry cb =>
      obtain ⟨callable, called⟩ := assume_bind_eq_ok.mp stepped
      cases called
      exact call_ordered ordered callable.1 entry cb
  | push caller => exact push_ordered ordered stepped
  | wakeup caller =>
      obtain ⟨standing, rfl⟩ | ⟨standing, rfl⟩ := wakeup_eq_ok stepped
      · have kept : (before.setStatus caller .idle).Ordered :=
          ordered.setStatus (by rw [standing]; rfl) rfl
        unfold EventLoop.wakeupUnlessIdle
        split
        · exact ⟨kept.batch, kept.queue, kept.own⟩
        · exact kept
      · have kept : (before.setStatus caller .idle).Ordered :=
          ordered.setStatus (by rw [standing]; rfl) rfl
        exact ⟨kept.batch, kept.queue, kept.own⟩
  | quit caller =>
      obtain ⟨callable, called⟩ := assume_bind_eq_ok.mp stepped
      cases called
      have kept : (before.setStatus caller .quitting).Ordered :=
        ordered.setStatus (by rw [callable.1]; rfl) rfl
      unfold quit
      simp only
      split
      · exact ⟨ordered.batch, ordered.queue, ordered.own⟩
      · exact ⟨kept.batch, kept.queue, kept.own⟩
  | enter =>
      obtain ⟨⟨outside, _⟩, entered⟩ := assume_bind_eq_ok.mp stepped
      obtain ⟨loop, entered, done⟩ := bind_eq_ok.mp entered
      obtain ⟨_, entered⟩ := assert_bind_eq_ok.mp entered
      cases entered
      cases done
      exact ⟨fun _ => ordered.batch (by simp [outside]), ordered.queue, ordered.own⟩
  | test =>
      obtain ⟨⟨testing, _⟩, tested⟩ := assume_bind_eq_ok.mp stepped
      cases tested
      have empty := ordered.batch (by simp [testing])
      unfold EventLoop.test
      split
      · exact ⟨fun _ => empty, ordered.queue, ordered.own⟩
      · exact ⟨fun _ => empty, ordered.queue, ordered.own⟩
  | poll =>
      obtain ⟨⟨polling, _⟩, polled⟩ := assume_bind_eq_ok.mp stepped
      cases polled
      exact ⟨fun _ => ordered.batch (by simp [polling]), ordered.queue, ordered.own⟩
  | handleRead =>
      obtain ⟨_, read⟩ := assume_bind_eq_ok.mp stepped
      cases read
      exact ⟨ordered.batch, ordered.queue, ordered.own⟩
  | prepare =>
      obtain ⟨⟨dispatching, _⟩, prepared⟩ := assume_bind_eq_ok.mp stepped
      cases prepared
      exact ⟨fun _ => ordered.batch (by simp [dispatching]), ordered.queue, ordered.own⟩
  | swap =>
      obtain ⟨⟨swapping, _⟩, swapped⟩ := assume_bind_eq_ok.mp stepped
      cases swapped
      have empty := ordered.batch (by simp [swapping])
      refine ⟨fun away => absurd rfl away, ?_, ordered.own⟩
      have queue := ordered.queue
      rw [empty, List.append_nil] at queue
      simpa [EventLoop.swap] using queue
  | start =>
      obtain ⟨⟨running, _⟩, started⟩ := assume_bind_eq_ok.mp stepped
      obtain ⟨cb, functors, batch, rfl⟩ := start_eq_ok started
      refine ⟨fun away => absurd running away, ?_, ordered.own⟩
      simp [← ordered.queue, batch]
  | finish =>
      obtain ⟨⟨_, empty⟩, finished⟩ := assume_bind_eq_ok.mp stepped
      cases finished
      exact ⟨fun _ => empty, ordered.queue, ordered.own⟩

/-- Functors start in the order in which they were pushed, each at most once, and those of
one other thread in the order of its calls. -/
theorem functors_fifo {threadId : τ} {actions : List (LoopAction τ F)}
    (run : Execution step anyAction (construct threadId) actions system) :
    system.started ++ system.loop.functors ++ system.loop.pendingFunctors =
        system.pushes.map Prod.snd ∧
      ∀ caller, caller ≠ system.loop.threadId →
        pushedBy (system.pushes.take system.started.length) caller <+: system.submitted caller := by
  have ordered : system.Ordered :=
    run.invariant (construct_ordered threadId)
      fun _ _ _ ordered _ stepped => step_ordered ordered stepped
  refine ⟨ordered.queue, fun caller away => ?_⟩
  have earlier : pushedBy (system.pushes.take system.started.length) caller <+:
      pushedBy system.pushes caller :=
    ((List.take_prefix _ _).filter _).map Prod.snd
  have whole : pushedBy system.pushes caller <+: system.submitted caller := by
    rw [← ordered.own caller away]
    exact List.prefix_append _ _
  exact earlier.trans whole

/-- The theorem at a run in which a functor of the batch queues another one. -/
theorem functors_fifo_reentrant :
    ∃ system : LoopSystem Bool Nat, system.started = [1, 2, 3] ∧
      pushedBy (system.pushes.take system.started.length) false <+: system.submitted false := by
  let actions : List (LoopAction Bool Nat) := [
    .enter, .test, .call false .runInLoop 1, .push false, .wakeup false, .poll, .prepare,
    .swap, .start, .call true .queueInLoop 2, .call false .queueInLoop 3, .push true, .push false,
    .wakeup true, .finish, .test, .poll, .handleRead, .prepare, .swap, .start, .start]
  have replayed : (replay step anyAction .impossible (construct true) actions).toOption.any
      (fun system => decide (system.started = [1, 2, 3] ∧ false ≠ system.loop.threadId)) = true := by
    decide +kernel
  obtain ⟨system, run, reached⟩ := Execution.exists_of_replay replayed
  obtain ⟨started, away⟩ := of_decide_eq_true reached
  exact ⟨system, started, (functors_fifo run).2 false away⟩

end TransferServer.Net.LoopSystem
