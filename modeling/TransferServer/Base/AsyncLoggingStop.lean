import TransferServer.Base.AsyncLoggingProperties

/-! What `stop()` leaves behind. After it the backend takes the buffers once more only if it
had already passed its test of `running_`; the flush after the loop writes no buffer. -/

set_option autoImplicit false

namespace TransferServer.Base.AsyncLogging

open Lib

variable {log after : AsyncLogging} {logline : Bytes} {current next : BufferPtr}

/-- The bytes that have been passed to `LogFile::append`, or will be by the loop over
`buffersToWrite` at the latest. -/
def passed (log : AsyncLogging) : Bytes := log.output ++ contentsOf log.heap log.unwritten

/-- The bytes that wait in `buffers_` and `currentBuffer_`. -/
def held (log : AsyncLogging) : Bytes :=
  contentsOf log.heap (log.buffers ++ log.currentBuffer.toList)

theorem bytes_eq (log : AsyncLogging) : log.bytes = log.passed ++ log.held := by
  rw [bytes, passed, held, List.append_assoc log.unwritten, contentsOf_append, List.append_assoc]

theorem unwritten_subset {buffer : BufferPtr} (found : buffer ∈ log.unwritten) : buffer ∈ log.inUse := by
  have toWrite : buffer ∈ log.buffersToWrite := by
    unfold unwritten at found
    split at found
    · exact List.mem_of_mem_drop found
    · exact absurd found List.not_mem_nil
  simp only [inUse, List.mem_append]
  exact .inl (.inl (.inr toWrite))

/-- A line goes to a buffer that is not being written. -/
theorem append_passed (owned : log.Owned current next) (admitted : log.Admits (.append logline))
    (appended : log.append logline = .ok after) :
    after.passed = log.passed ∧ after.backend = log.backend ∧ after.running = log.running ∧
      after.flushed = log.flushed ∧ after.appended = log.appended ++ [logline] := by
  obtain ⟨apart, _⟩ := owned.apart
  rw [List.mem_append, not_or] at apart
  by_cases room : (logline.length : Int) < (log.heap current).avail
  · rw [append_of_room owned.currentIs room] at appended
    cases appended
    exact ⟨congrArg (log.output ++ ·) (contentsOf_update apart.1 _), rfl, rfl, rfl, rfl⟩
  · have full := Int.not_lt.mp room
    have unused : next ∉ log.inUse := admitted.2 ⟨current, owned.currentIs, full⟩ next owned.nextIs
    have apart : next ∉ log.unwritten := fun found => unused (unwritten_subset found)
    rw [append_of_full owned.currentIs owned.nextIs full] at appended
    cases appended
    exact ⟨congrArg (log.output ++ ·) (contentsOf_update apart _), rfl, rfl, rfl, rfl⟩

theorem write_passed {index : Nat} (standing : log.backend = .writing index) :
    (log.write index).passed = log.passed ∧ (log.write index).running = log.running ∧
      (log.write index).appended = log.appended ∧
      ((log.write index).backend = .writing (index + 1) ∨ (log.write index).backend = .recycling) := by
  unfold write passed unwritten
  rw [standing]
  cases found : log.buffersToWrite[index]? with
  | none =>
      have past : log.buffersToWrite.drop index = [] :=
        List.drop_eq_nil_of_le (List.getElem?_eq_none_iff.mp found)
      dsimp only
      rw [past]
      exact ⟨rfl, rfl, rfl, .inr rfl⟩
  | some buffer =>
      obtain ⟨inside, here⟩ := List.getElem?_eq_some_iff.mp found
      dsimp only
      rw [List.drop_eq_getElem_cons inside, here]
      exact ⟨by simp [contentsOf], rfl, rfl, .inl rfl⟩

theorem recycle_passed (owned : log.Owned current next) (standing : log.backend = .recycling)
    (recycled : log.recycle = .ok after) :
    after.passed = log.passed ∧ after.running = log.running ∧ after.appended = log.appended ∧
      after.backend = .flushing := by
  obtain ⟨earlier, last, whole, short, _, none1, spare, spareIs, _⟩ := owned.recyclable standing
  have some2 : log.newBuffer2 ≠ none := by
    rw [spareIs]
    exact nofun
  rw [recycle_eq_ok whole short none1 some2] at recycled
  cases recycled
  refine ⟨?_, rfl, rfl, rfl⟩
  unfold passed unwritten
  rw [standing]
  rfl

/-- What one step of the backend can do: only the swap passes bytes on, only the test of
`running_` leads to another swap, and what ends the thread is a flush. -/
structure Advances (log after : AsyncLogging) : Prop where
  running : after.running = log.running
  appended : after.appended = log.appended
  passed : after.passed = if log.backend = .swapping then log.bytes else log.passed
  started : after.backend ≠ .starting
  checking : after.backend = .checking → log.backend = .testing ∧ log.running = true
  swapping : after.backend = .swapping → log.backend = .checking
  finished : after.backend = .finished → after.flushed = after.passed

theorem beginThread_spec (begun : log.beginThread = .ok after) :
    after.running = log.running ∧ after.appended = log.appended ∧ after.output = log.output ∧
      after.backend = .testing := by
  obtain ⟨_, begun⟩ := assert_bind_eq_ok.mp begun
  cases begun
  simp only [store, and_self]

theorem test_advances (standing : log.backend = .testing) : log.Advances log.test := by
  have passed : log.test.passed = log.passed := by
    unfold AsyncLogging.passed unwritten test
    rw [standing]
    cases log.running with
    | true => rfl
    | false => rfl
  refine ⟨rfl, rfl, ?_, ?_, ?_, ?_, ?_⟩
  · rw [if_neg (by simp [standing]), passed]
  all_goals
    unfold test
    cases running : log.running <;> simp [standing]

theorem advance_advances (owned : log.Owned current next) (advanced : log.advance = .ok after) :
    log.Advances after := by
  unfold advance at advanced
  cases standing : log.backend with
  | starting =>
      rw [standing] at advanced
      obtain ⟨running, appended, output, backend⟩ := beginThread_spec advanced
      refine ⟨running, appended, ?_, ?_, ?_, ?_, ?_⟩
      · rw [if_neg (by simp [standing]), passed, passed, unwritten, unwritten, standing, backend, output]
        rfl
      all_goals simp [backend]
  | testing =>
      rw [standing] at advanced
      cases advanced
      exact test_advances standing
  | checking =>
      rw [standing] at advanced
      obtain ⟨_, checked⟩ := assert_bind_eq_ok.mp advanced
      obtain ⟨_, checked⟩ := assert_bind_eq_ok.mp checked
      obtain ⟨_, checked⟩ := assert_bind_eq_ok.mp checked
      cases checked
      refine ⟨rfl, rfl, ?_, nofun, nofun, fun _ => standing, nofun⟩
      rw [if_neg (by simp [standing]), passed, passed, unwritten, unwritten, standing]
  | swapping =>
      rw [standing] at advanced
      rw [swap_eq_ok owned] at advanced
      cases advanced
      refine ⟨rfl, rfl, ?_, nofun, nofun, nofun, nofun⟩
      rw [if_pos standing, bytes, unwritten, standing, owned.currentIs]
      rfl
  | writing index =>
      rw [standing] at advanced
      cases advanced
      obtain ⟨same, running, appended, backend⟩ := write_passed standing
      refine ⟨running, appended, ?_, ?_, ?_, ?_, ?_⟩
      · rw [if_neg (by simp [standing]), same]
      all_goals rcases backend with writing | recycling
      all_goals simp [*]
  | recycling =>
      rw [standing] at advanced
      obtain ⟨same, running, appended, backend⟩ := recycle_passed owned standing advanced
      refine ⟨running, appended, ?_, ?_, ?_, ?_, ?_⟩
      · rw [if_neg (by simp [standing]), same]
      all_goals simp [backend]
  | flushing =>
      rw [standing] at advanced
      cases advanced
      refine ⟨rfl, rfl, ?_, nofun, nofun, nofun, nofun⟩
      rw [if_neg (by simp [standing]), passed, passed, unwritten, unwritten, standing]
      rfl
  | finishing =>
      rw [standing] at advanced
      cases advanced
      refine ⟨rfl, rfl, ?_, nofun, nofun, nofun, fun _ => (List.append_nil _).symm⟩
      rw [if_neg (by simp [standing]), passed, passed, unwritten, unwritten, standing]
      rfl
  | finished =>
      rw [standing] at advanced
      cases advanced

/-- What has been passed on is flushed when the backend is done. -/
def Flushed (log : AsyncLogging) : Prop := log.backend = .finished → log.flushed = log.passed

theorem step_flushed (flushed : log.Flushed) (owned : log.Owned current next) {action : LogAction}
    (admitted : log.Admits action) (stepped : log.step action = .ok after) : after.Flushed := by
  cases action with
  | append logline =>
      obtain ⟨passed, backend, _, same, _⟩ := append_passed owned admitted stepped
      intro finished
      rw [same, passed]
      exact flushed (backend ▸ finished)
  | backend => exact (advance_advances owned stepped).finished
  | stop =>
      obtain ⟨_, stepped⟩ := assume_bind_eq_ok.mp stepped
      cases stepped
      exact flushed

/-- The backend does not take the buffers again: `stop()` has been called, and the test of
`running_` is still to come, or the swap is past. -/
structure Leaving (log : AsyncLogging) (bytes : Bytes) : Prop where
  stopped : log.running = false
  past : log.backend ≠ .starting ∧ log.backend ≠ .checking ∧ log.backend ≠ .swapping
  passed : log.passed = bytes

/-- The backend takes the buffers once more, with these lines in them or already passed on. -/
structure Returning (log : AsyncLogging) (lines : List Bytes) : Prop where
  stopped : log.running = false
  ahead : log.backend = .checking ∨ log.backend = .swapping
  among : lines <+: log.appended

theorem Leaving.step {bytes : Bytes} (leaving : log.Leaving bytes) (owned : log.Owned current next)
    {action : LogAction} (admitted : log.Admits action) (stepped : log.step action = .ok after) :
    after.Leaving bytes := by
  obtain ⟨stopped, past, passed⟩ := leaving
  cases action with
  | append logline =>
      obtain ⟨same, backend, running, _, _⟩ := append_passed owned admitted stepped
      exact ⟨running.trans stopped, by rw [backend]; exact past, same.trans passed⟩
  | backend =>
      have advances := advance_advances owned stepped
      refine ⟨advances.running.trans stopped, ⟨advances.started, ?_, ?_⟩, ?_⟩
      · intro checking
        have running := (advances.checking checking).2
        rw [stopped] at running
        cases running
      · exact fun swapping => past.2.1 (advances.swapping swapping)
      · rw [advances.passed, if_neg past.2.2, passed]
  | stop =>
      obtain ⟨_, stepped⟩ := assume_bind_eq_ok.mp stepped
      cases stepped
      exact ⟨rfl, past, passed⟩

/-- Either the swap is still ahead, or it has just taken all the lines with it. -/
theorem Returning.step {lines : List Bytes} (returning : log.Returning lines)
    (owned : log.Owned current next) {action : LogAction} (admitted : log.Admits action)
    (stepped : log.step action = .ok after) :
    after.Returning lines ∨ ∃ bytes, lines.flatten <+: bytes ∧ after.Leaving bytes := by
  obtain ⟨stopped, ahead, among⟩ := returning
  cases action with
  | append logline =>
      obtain ⟨_, backend, running, _, appended⟩ := append_passed owned admitted stepped
      refine .inl ⟨running.trans stopped, by rw [backend]; exact ahead, ?_⟩
      rw [appended]
      exact among.trans (List.prefix_append _ _)
  | stop =>
      obtain ⟨_, stepped⟩ := assume_bind_eq_ok.mp stepped
      cases stepped
      exact .inl ⟨rfl, ahead, among⟩
  | backend =>
      have advances := advance_advances owned stepped
      have stays := advances.running.trans stopped
      have unchecked : after.backend ≠ .checking := by
        intro checking
        have running := (advances.checking checking).2
        rw [stopped] at running
        cases running
      by_cases swapping : after.backend = .swapping
      · exact .inl ⟨stays, .inr swapping, by rw [advances.appended]; exact among⟩
      · rcases ahead with checking | swapped
        · change log.advance = .ok after at stepped
          rw [advance, checking] at stepped
          obtain ⟨_, stepped⟩ := assert_bind_eq_ok.mp stepped
          obtain ⟨_, stepped⟩ := assert_bind_eq_ok.mp stepped
          obtain ⟨_, stepped⟩ := assert_bind_eq_ok.mp stepped
          cases stepped
          exact absurd rfl swapping
        · refine .inr ⟨log.bytes, ?_, stays, ⟨advances.started, unchecked, swapping⟩, ?_⟩
          · obtain ⟨more, whole⟩ := among
            rw [owned.conserved, ← whole, List.flatten_append]
            exact List.prefix_append _ _
          · rw [advances.passed, if_pos swapped]

section Run

variable {start middle final : AsyncLogging} {later : List LogAction}

theorem run_owned (owned : ∃ current, middle.Owned current next)
    (run : Execution step Admits middle later final) : ∃ current, final.Owned current next := by
  induction run with
  | nil => exact owned
  | snoc _ admitted stepped ih =>
      obtain ⟨current, owned⟩ := ih
      exact (step_owned owned admitted).of_ok stepped

/-- What every step keeps, given the ownership of the buffers, a run keeps. -/
theorem run_keeps (property : AsyncLogging → Prop) (owned : ∃ current, middle.Owned current next)
    (run : Execution step Admits middle later final) (initial : property middle)
    (kept : ∀ before current action after, before.Owned current next → property before →
      before.Admits action → before.step action = .ok after → property after) : property final := by
  induction run with
  | nil => exact initial
  | snoc earlier admitted stepped ih =>
      obtain ⟨current, owned⟩ := run_owned owned earlier
      exact kept _ current _ _ owned ih admitted stepped

theorem run_flushed (owned : ∃ current, middle.Owned current next) (flushed : middle.Flushed)
    (run : Execution step Admits middle later final) : final.Flushed :=
  run_keeps Flushed owned run flushed fun _ _ _ _ owned flushed => step_flushed flushed owned

theorem Leaving.run {bytes : Bytes} (leaving : middle.Leaving bytes)
    (owned : ∃ current, middle.Owned current next)
    (run : Execution AsyncLogging.step Admits middle later final) : final.Leaving bytes :=
  run_keeps (fun log => log.Leaving bytes) owned run leaving fun _ _ _ _ owned leaving =>
    leaving.step owned

theorem Returning.run {lines : List Bytes} (returning : middle.Returning lines)
    (owned : ∃ current, middle.Owned current next)
    (run : Execution AsyncLogging.step Admits middle later final) :
    final.Returning lines ∨ ∃ bytes, lines.flatten <+: bytes ∧ final.Leaving bytes := by
  refine run_keeps
    (fun log => log.Returning lines ∨ ∃ bytes, lines.flatten <+: bytes ∧ log.Leaving bytes) owned run
    (.inl returning) fun before current action after owned ih admitted stepped => ?_
  rcases ih with returning | ⟨bytes, among, leaving⟩
  · exact returning.step owned admitted stepped
  · exact .inr ⟨bytes, among, leaving.step owned admitted stepped⟩

end Run

/-- When `stop()` has joined the backend, the lines appended before the call are passed on and
flushed iff it came between the backend's test of `running_` and its swap, or found
`buffers_` and `currentBuffer_` with nothing in them. -/
theorem stop_drains_iff {earlier later : List LogAction} {before middle final : AsyncLogging}
    (run : Execution step Admits start earlier before) (stopped : before.step .stop = .ok middle)
    (rest : Execution step Admits middle later final) (joined : final.backend = .finished) :
    before.appended.flatten <+: final.flushed ↔
      before.backend = .checking ∨ before.backend = .swapping ∨ before.held = [] := by
  obtain ⟨current, owned⟩ := run_owned ⟨0, start_owned⟩ run
  have admitted : before.Admits .stop := trivial
  have owned' := (step_owned owned admitted).of_ok stopped
  have flushed := run_flushed ⟨0, start_owned⟩ nofun ((run.snoc admitted stopped).append rest) joined
  have whole : before.appended.flatten = before.passed ++ before.held :=
    owned.conserved.symm.trans (bytes_eq before)
  obtain ⟨started, stopped⟩ := assume_bind_eq_ok.mp stopped
  cases stopped
  rw [flushed]
  by_cases ahead : before.backend = .checking ∨ before.backend = .swapping
  · have returning : ({ before with running := false } : AsyncLogging).Returning before.appended :=
      ⟨rfl, ahead, List.prefix_rfl⟩
    have drained : before.appended.flatten <+: final.passed := by
      rcases returning.run owned' rest with returning | ⟨bytes, among, leaving⟩
      · rcases returning.ahead with checking | swapping
        · rw [joined] at checking
          cases checking
        · rw [joined] at swapping
          cases swapping
      · rw [leaving.passed]
        exact among
    exact ⟨fun _ => ahead.imp_right .inl, fun _ => drained⟩
  · have past : before.backend ≠ .checking ∧ before.backend ≠ .swapping := not_or.mp ahead
    have leaving : ({ before with running := false } : AsyncLogging).Leaving before.passed :=
      ⟨rfl, ⟨started, past⟩, rfl⟩
    rw [(leaving.run owned' rest).passed, whole]
    constructor
    · intro drained
      have size := drained.length_le
      rw [List.length_append] at size
      exact .inr (.inr (List.length_eq_zero_iff.mp (by omega)))
    · rintro (checking | swapping | none)
      · exact absurd checking past.1
      · exact absurd swapping past.2
      · simp only [none, List.append_nil, List.prefix_rfl]

/-- The theorem where the backend waits at the lock when `stop()` is called. -/
theorem stop_drains_iff_waiting :
    ∃ before final : AsyncLogging, before.appended = [[1], [2]] ∧ final.backend = .finished ∧
      before.appended.flatten <+: final.flushed := by
  let earlier : List LogAction := [.append [1], .backend, .backend, .backend, .append [2]]
  let later : List LogAction := List.replicate 7 .backend
  have replayed : (replay step Admits .impossible start earlier).toOption.any (fun before =>
      decide (before.appended = [[1], [2]] ∧ before.backend = .swapping) &&
        (before.step .stop).toOption.any fun middle =>
          (replay step Admits .impossible middle later).toOption.any fun final =>
            decide (final.backend = .finished)) = true := by
    decide +kernel
  obtain ⟨before, run, tested⟩ := Execution.exists_of_replay replayed
  obtain ⟨standing, tested⟩ := (Bool.and_eq_true _ _).mp tested
  obtain ⟨appended, swapping⟩ := of_decide_eq_true standing
  obtain ⟨middle, stopped, tested⟩ := exists_ok_of_any tested
  obtain ⟨final, rest, joined⟩ := Execution.exists_of_replay tested
  have joined := of_decide_eq_true joined
  exact ⟨before, final, appended, joined,
    (stop_drains_iff run stopped rest joined).mpr (.inr (.inl swapping))⟩

/-- A line is appended while the backend is on its way to the test of `running_`. -/
theorem stop_loses_line :
    ∃ before middle final : AsyncLogging,
      Execution step Admits start [.backend, .append [1]] before ∧ before.appended = [[1]] ∧
      before.step .stop = .ok middle ∧
      Execution step Admits middle [.backend, .backend] final ∧ final.backend = .finished ∧
      final.output = [] ∧ final.flushed = [] := by
  have replayed : (replay step Admits .impossible start [.backend, .append [1]]).toOption.any
      (fun before => decide (before.appended = [[1]]) &&
        (before.step .stop).toOption.any fun middle =>
          (replay step Admits .impossible middle [.backend, .backend]).toOption.any fun final =>
            decide (final.backend = .finished ∧ final.output = [] ∧ final.flushed = [])) = true := by
    decide +kernel
  obtain ⟨before, run, tested⟩ := Execution.exists_of_replay replayed
  obtain ⟨appended, tested⟩ := (Bool.and_eq_true _ _).mp tested
  obtain ⟨middle, stopped, tested⟩ := exists_ok_of_any tested
  obtain ⟨final, rest, reached⟩ := Execution.exists_of_replay tested
  exact ⟨before, middle, final, run, of_decide_eq_true appended, stopped, rest,
    of_decide_eq_true reached⟩

end TransferServer.Base.AsyncLogging
