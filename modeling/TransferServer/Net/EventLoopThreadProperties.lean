import TransferServer.Lib.Execution
import TransferServer.Net.EventLoopProperties
import TransferServer.Net.EventLoopThread

/-! When a request to quit reaches the loop of an `EventLoopThread`. Only the start of `loop()`
takes `quit_` back, so a request is safe once `loop()` has started. -/

set_option autoImplicit false

namespace TransferServer.Net

open Lib

variable {τ F : Type} [DecidableEq τ]

/-- Nothing but the start of `loop()` resets `quit_`, and with it set no iteration starts. -/
structure LoopSystem.Quits (before after : LoopSystem τ F) : Prop where
  quit : after.loop.quit = true
  polling : after.loop.phase = .polling → before.loop.phase = .polling

omit [DecidableEq τ] in
theorem LoopSystem.Quits.same {before after : LoopSystem τ F} (quit : before.loop.quit = true)
    (flag : after.loop.quit = before.loop.quit) (phase : after.loop.phase = before.loop.phase) :
    before.Quits after :=
  ⟨flag.trans quit, fun polling => phase.symm.trans polling⟩

omit [DecidableEq τ] in
theorem LoopSystem.Quits.moved {before after : LoopSystem τ F} (quit : before.loop.quit = true)
    (flag : after.loop.quit = before.loop.quit) (phase : after.loop.phase ≠ .polling) :
    before.Quits after :=
  ⟨flag.trans quit, fun polling => absurd polling phase⟩

theorem LoopSystem.step_quits {before after : LoopSystem τ F} {action : LoopAction τ F}
    (entered : action.isEnter = false) (stepped : before.step action = .ok after)
    (quit : before.loop.quit = true) : before.Quits after := by
  cases action with
  | call caller entry cb =>
      obtain ⟨_, stepped⟩ := assume_bind_eq_ok.mp stepped
      cases stepped
      unfold call
      cases entry with
      | runInLoop =>
          dsimp only
          split
          · exact .same quit rfl rfl
          · exact .same quit rfl rfl
      | queueInLoop => exact .same quit rfl rfl
  | push caller =>
      obtain ⟨cb, _, rfl⟩ := push_eq_ok stepped
      exact .same quit rfl rfl
  | wakeup caller =>
      obtain ⟨_, rfl⟩ | ⟨_, rfl⟩ := wakeup_eq_ok stepped
      · unfold EventLoop.wakeupUnlessIdle
        split
        · exact .same quit rfl rfl
        · exact .same quit rfl rfl
      · exact .same quit rfl rfl
  | quit caller =>
      obtain ⟨_, stepped⟩ := assume_bind_eq_ok.mp stepped
      cases stepped
      unfold LoopSystem.quit
      dsimp only
      split
      · exact ⟨rfl, id⟩
      · exact ⟨rfl, id⟩
  | enter => cases entered
  | test =>
      obtain ⟨_, stepped⟩ := assume_bind_eq_ok.mp stepped
      cases stepped
      rw [EventLoop.test, if_pos quit]
      exact .moved quit rfl fun polling => by cases polling
  | poll =>
      obtain ⟨_, stepped⟩ := assume_bind_eq_ok.mp stepped
      cases stepped
      exact .moved quit rfl fun polling => by cases polling
  | handleRead =>
      obtain ⟨_, stepped⟩ := assume_bind_eq_ok.mp stepped
      cases stepped
      exact .same quit rfl rfl
  | prepare =>
      obtain ⟨_, stepped⟩ := assume_bind_eq_ok.mp stepped
      cases stepped
      exact .moved quit rfl fun polling => by cases polling
  | swap =>
      obtain ⟨_, stepped⟩ := assume_bind_eq_ok.mp stepped
      cases stepped
      exact .moved quit rfl fun polling => by cases polling
  | start =>
      obtain ⟨_, stepped⟩ := assume_bind_eq_ok.mp stepped
      obtain ⟨cb, functors, _, rfl⟩ := start_eq_ok stepped
      exact .same quit rfl rfl
  | finish =>
      obtain ⟨_, stepped⟩ := assume_bind_eq_ok.mp stepped
      cases stepped
      exact .moved quit rfl fun polling => by cases polling

theorem LoopSystem.quit_eq (system : LoopSystem τ F) (caller : τ) :
    (system.quit caller).loop = { system.loop with quit := true } := by
  unfold LoopSystem.quit
  dsimp only
  split <;> rfl

namespace EventLoopThread

variable {owner worker : τ} {before after thread : EventLoopThread τ F}

/-- The caller of `quit` finds `loop()` past its initialisation of `quit_`. -/
def Heard (thread : EventLoopThread τ F) : ThreadAction τ F → Prop
  | .onLoop (.quit _) => thread.threadFunc = .looping
  | .destruct => thread.threadFunc = .looping
  | _ => True

/-- A request to quit stands: `loop()` has started, and `quit_` is true. -/
structure Standing (thread : EventLoopThread τ F) : Prop where
  unstarted : thread.started = false → thread.threadFunc = .unstarted
  entered : thread.requested = true →
    thread.threadFunc = .looping ∨ thread.threadFunc = .finished
  quit : thread.requested = true → thread.system.loop.quit = true
  destroyed : thread.owner = .destroying ∨ thread.owner = .joining ∨ thread.owner = .gone →
    thread.requested = true

omit [DecidableEq τ] in
theorem construct_standing (worker : τ) : (construct worker : EventLoopThread τ F).Standing where
  unstarted := fun _ => rfl
  entered := nofun
  quit := nofun
  destroyed := by simp [construct]

omit [DecidableEq τ] in
theorem Standing.unrequested (standing : thread.Standing) (looping : thread.threadFunc ≠ .looping)
    (finished : thread.threadFunc ≠ .finished) : thread.requested = false := by
  cases requested : thread.requested with
  | true =>
      rcases standing.entered requested with here | here
      · exact absurd here looping
      · exact absurd here finished
  | false => rfl

omit [DecidableEq τ] in
/-- As long as nothing is requested, the owner is not in its destructor. -/
theorem Standing.of_unrequested (standing : before.Standing) (unrequested : before.requested = false)
    (unstarted : after.started = false → after.threadFunc = .unstarted)
    (same : after.requested = before.requested) (owner : after.owner = before.owner ∨
      after.owner = .starting) : after.Standing := by
  rw [unrequested] at same
  refine ⟨unstarted, by simp [same], by simp [same], fun destroyed => ?_⟩
  rcases owner with kept | starting
  · rw [kept] at destroyed
    exact absurd (standing.destroyed destroyed) (by simp [unrequested])
  · rw [starting] at destroyed
    simp at destroyed

omit [DecidableEq τ] in
/-- `threadFunc` moves on before `loop()` starts. -/
theorem Standing.of_early (standing : before.Standing) (early : before.threadFunc ≠ .unstarted ∧
      before.threadFunc ≠ .looping ∧ before.threadFunc ≠ .finished)
    (started : after.started = before.started) (same : after.requested = before.requested)
    (owner : after.owner = before.owner) : after.Standing := by
  obtain ⟨begun, looping, finished⟩ := early
  refine standing.of_unrequested (standing.unrequested looping finished) (fun unstarted => ?_) same
    (.inl owner)
  exact absurd (standing.unstarted (started.symm.trans unstarted)) begun

theorem onLoop_standing (standing : before.Standing) {action : LoopAction τ F}
    (heard : before.Heard (.onLoop action))
    (stepped : step owner worker before (.onLoop action) = .ok after) : after.Standing := by
  obtain ⟨⟨entered, _⟩, stepped⟩ := assume_bind_eq_ok.mp stepped
  obtain ⟨alive, stepped⟩ := require_bind_eq_ok.mp stepped
  obtain ⟨system, performed, stepped⟩ := bind_eq_ok.mp stepped
  cases stepped
  cases requested : before.requested with
  | true =>
      have quits := LoopSystem.step_quits entered performed (standing.quit requested)
      exact ⟨standing.unstarted, fun _ => standing.entered requested, fun _ => quits.quit, fun _ => rfl⟩
  | false =>
      have unowned : ¬ (before.owner = .destroying ∨ before.owner = .joining ∨ before.owner = .gone) := by
        intro destroyed
        rw [standing.destroyed destroyed] at requested
        cases requested
      cases action with
      | quit caller =>
          obtain ⟨_, performed⟩ := assume_bind_eq_ok.mp performed
          cases performed
          refine ⟨standing.unstarted, fun _ => .inl heard, fun _ => ?_,
            fun destroyed => absurd destroyed unowned⟩
          rw [LoopSystem.quit_eq]
      | _ => exact ⟨standing.unstarted, nofun, nofun, fun destroyed => absurd destroyed unowned⟩

theorem step_standing (standing : before.Standing) {action : ThreadAction τ F}
    (heard : before.Heard action) (stepped : step owner worker before action = .ok after) :
    after.Standing := by
  cases action with
  | startLoop created =>
      obtain ⟨fresh, stepped⟩ := assume_bind_eq_ok.mp stepped
      obtain ⟨unstarted, stepped⟩ := assert_bind_eq_ok.mp stepped
      obtain ⟨thread, started, stepped⟩ := bind_eq_ok.mp stepped
      obtain ⟨_, started⟩ := assert_bind_eq_ok.mp started
      cases started
      cases stepped
      have idle := standing.unstarted unstarted
      have unrequested := standing.unrequested (by simp [idle]) (by simp [idle])
      exact standing.of_unrequested unrequested nofun rfl (.inr rfl)
  | startLoopReturn =>
      obtain ⟨_, stepped⟩ := assume_bind_eq_ok.mp stepped
      cases stepped
      exact ⟨standing.unstarted, standing.entered, standing.quit, by simp⟩
  | construct =>
      obtain ⟨constructing, stepped⟩ := assume_bind_eq_ok.mp stepped
      cases stepped
      exact standing.of_early (by simp [constructing]) rfl rfl rfl
  | publish =>
      obtain ⟨publishing, stepped⟩ := assume_bind_eq_ok.mp stepped
      cases stepped
      exact standing.of_early (by simp [publishing]) rfl rfl rfl
  | enter =>
      obtain ⟨calling, stepped⟩ := assume_bind_eq_ok.mp stepped
      obtain ⟨system, _, stepped⟩ := bind_eq_ok.mp stepped
      cases stepped
      exact standing.of_early (by simp [calling]) rfl rfl rfl
  | onLoop action => exact onLoop_standing standing heard stepped
  | finish =>
      obtain ⟨⟨looping, _⟩, stepped⟩ := assume_bind_eq_ok.mp stepped
      obtain ⟨_, stepped⟩ := assert_bind_eq_ok.mp stepped
      cases stepped
      refine ⟨fun unstarted => ?_, fun _ => .inr rfl, standing.quit, standing.destroyed⟩
      rw [standing.unstarted unstarted] at looping
      cases looping
  | destruct =>
      obtain ⟨_, stepped⟩ := assume_bind_eq_ok.mp stepped
      obtain ⟨_, stepped⟩ := require_bind_eq_ok.mp stepped
      obtain ⟨system, performed, stepped⟩ := bind_eq_ok.mp stepped
      obtain ⟨_, performed⟩ := assume_bind_eq_ok.mp performed
      cases performed
      cases stepped
      refine ⟨standing.unstarted, fun _ => .inl heard, fun _ => ?_, fun _ => rfl⟩
      rw [LoopSystem.quit_eq]
  | join =>
      obtain ⟨⟨destroying, _⟩, stepped⟩ := assume_bind_eq_ok.mp stepped
      obtain ⟨_, stepped⟩ := assert_bind_eq_ok.mp stepped
      cases stepped
      exact ⟨standing.unstarted, standing.entered, standing.quit,
        fun _ => standing.destroyed (.inl destroying)⟩
  | joinReturn =>
      obtain ⟨⟨joining, _⟩, stepped⟩ := assume_bind_eq_ok.mp stepped
      cases stepped
      exact ⟨standing.unstarted, standing.entered, standing.quit,
        fun _ => standing.destroyed (.inr (.inl joining))⟩

/-- Under a standing request no step of any thread takes it back or starts an iteration. -/
theorem step_quits (standing : before.Standing) (requested : before.requested = true)
    {action : ThreadAction τ F} (stepped : step owner worker before action = .ok after) :
    before.system.Quits after.system := by
  have quit := standing.quit requested
  have late := standing.entered requested
  cases action with
  | startLoop created =>
      obtain ⟨_, stepped⟩ := assume_bind_eq_ok.mp stepped
      obtain ⟨_, stepped⟩ := assert_bind_eq_ok.mp stepped
      obtain ⟨thread, started, stepped⟩ := bind_eq_ok.mp stepped
      obtain ⟨_, started⟩ := assert_bind_eq_ok.mp started
      cases started
      cases stepped
      exact .same quit rfl rfl
  | startLoopReturn =>
      obtain ⟨_, stepped⟩ := assume_bind_eq_ok.mp stepped
      cases stepped
      exact .same quit rfl rfl
  | construct =>
      obtain ⟨constructing, _⟩ := assume_bind_eq_ok.mp stepped
      simp [constructing] at late
  | publish =>
      obtain ⟨publishing, _⟩ := assume_bind_eq_ok.mp stepped
      simp [publishing] at late
  | enter =>
      obtain ⟨calling, _⟩ := assume_bind_eq_ok.mp stepped
      simp [calling] at late
  | onLoop action =>
      obtain ⟨⟨entered, _⟩, stepped⟩ := assume_bind_eq_ok.mp stepped
      obtain ⟨_, stepped⟩ := require_bind_eq_ok.mp stepped
      obtain ⟨system, performed, stepped⟩ := bind_eq_ok.mp stepped
      cases stepped
      exact LoopSystem.step_quits entered performed quit
  | finish =>
      obtain ⟨_, stepped⟩ := assume_bind_eq_ok.mp stepped
      obtain ⟨_, stepped⟩ := assert_bind_eq_ok.mp stepped
      cases stepped
      exact .same quit rfl rfl
  | destruct =>
      obtain ⟨_, stepped⟩ := assume_bind_eq_ok.mp stepped
      obtain ⟨_, stepped⟩ := require_bind_eq_ok.mp stepped
      obtain ⟨system, performed, stepped⟩ := bind_eq_ok.mp stepped
      cases stepped
      exact LoopSystem.step_quits rfl performed quit
  | join =>
      obtain ⟨_, stepped⟩ := assume_bind_eq_ok.mp stepped
      obtain ⟨_, stepped⟩ := assert_bind_eq_ok.mp stepped
      cases stepped
      exact .same quit rfl rfl
  | joinReturn =>
      obtain ⟨_, stepped⟩ := assume_bind_eq_ok.mp stepped
      cases stepped
      exact .same quit rfl rfl

/-- Where every `quit()` comes after `loop()` has set `quit_` to false, none is forgotten:
`quit_` stays true, no iteration is started, and the destructor never waits for a loop that
has dropped its request. -/
theorem quit_not_forgotten {actions : List (ThreadAction τ F)}
    (run : Execution (step owner worker) Heard (construct worker) actions thread) :
    (thread.requested = true → thread.system.loop.quit = true) ∧
      (thread.owner = .joining → thread.system.loop.quit = true) ∧
      ∀ action after, step owner worker thread action = .ok after → thread.requested = true →
        after.system.loop.quit = true ∧
          (after.system.loop.phase = .polling → thread.system.loop.phase = .polling) := by
  have standing : thread.Standing := run.invariant (construct_standing worker)
    fun _ _ _ standing heard stepped => step_standing standing heard stepped
  refine ⟨standing.quit, fun joining => ?_, fun action after stepped requested => ?_⟩
  · exact standing.quit (standing.destroyed (.inr (.inl joining)))
  · have quits := step_quits standing requested stepped
    exact ⟨quits.quit, quits.polling⟩

instance (thread : EventLoopThread τ F) (action : ThreadAction τ F) : Decidable (thread.Heard action) :=
  match action with
  | .onLoop (.quit _) => inferInstanceAs (Decidable (_ = _))
  | .destruct => inferInstanceAs (Decidable (_ = _))
  | .onLoop (.call ..) | .onLoop (.push _) | .onLoop (.wakeup _) | .onLoop .enter | .onLoop .test
  | .onLoop .poll | .onLoop .handleRead | .onLoop .prepare | .onLoop .swap | .onLoop .start
  | .onLoop .finish => .isTrue trivial
  | .startLoop _ | .startLoopReturn | .construct | .publish | .enter | .finish | .join
  | .joinReturn => .isTrue trivial

/-- The theorem at a run in which the destructor finds the loop in its first poll. -/
theorem quit_not_forgotten_polling :
    ∃ thread : EventLoopThread Bool Unit, thread.owner = .joining ∧
      thread.system.loop.phase = .testing ∧ thread.system.loop.quit = true := by
  let actions : List (ThreadAction Bool Unit) := [
    .startLoop true, .construct, .publish, .enter, .onLoop .test, .startLoopReturn,
    .onLoop (.call true .runInLoop ()), .onLoop (.push true), .onLoop (.wakeup true), .destruct,
    .onLoop (.wakeup true), .onLoop .poll, .join, .onLoop .handleRead, .onLoop .prepare,
    .onLoop .swap, .onLoop .start, .onLoop .finish]
  have replayed : (replay (step true false) Heard .impossible (construct false) actions).toOption.any
      (fun thread => decide (thread.owner = .joining ∧ thread.system.loop.phase = .testing)) =
        true := by
    decide +kernel
  obtain ⟨thread, run, reached⟩ := Execution.exists_of_replay replayed
  obtain ⟨joining, testing⟩ := of_decide_eq_true reached
  exact ⟨thread, joining, testing, (quit_not_forgotten run).2.1 joining⟩

/-- The destructor comes between the end of `startLoop` and the start of `loop()`: it waits in
`join` while the loop goes to sleep for the second time, with nothing left to wake it. -/
theorem quit_forgotten :
    ∃ thread : EventLoopThread Bool Unit,
      Execution (step true false) anyAction (construct false) [
        .startLoop true, .construct, .publish, .startLoopReturn, .destruct, .onLoop (.wakeup true),
        .join, .enter, .onLoop .test, .onLoop .poll, .onLoop .handleRead, .onLoop .prepare,
        .onLoop .swap, .onLoop .finish, .onLoop .test] thread ∧
      thread.requested = true ∧ thread.owner = .joining ∧ thread.system.loop.quit = false ∧
      thread.system.loop.phase = .polling ∧ thread.system.loop.eventfd = 0 ∧
      thread.system.loop.pendingFunctors = [] := by
  have replayed : (replay (step true false) anyAction .impossible
      (construct false : EventLoopThread Bool Unit) [
        .startLoop true, .construct, .publish, .startLoopReturn, .destruct, .onLoop (.wakeup true),
        .join, .enter, .onLoop .test, .onLoop .poll, .onLoop .handleRead, .onLoop .prepare,
        .onLoop .swap, .onLoop .finish, .onLoop .test]).toOption.any (fun thread => decide
          (thread.requested = true ∧ thread.owner = .joining ∧ thread.system.loop.quit = false ∧
            thread.system.loop.phase = .polling ∧ thread.system.loop.eventfd = 0 ∧
            thread.system.loop.pendingFunctors = [])) = true := by
    decide +kernel
  obtain ⟨thread, run, reached⟩ := Execution.exists_of_replay replayed
  exact ⟨thread, run, of_decide_eq_true reached⟩

end EventLoopThread

end TransferServer.Net
