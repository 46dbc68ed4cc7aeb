import TransferServer.Base.LogPipelineProperties

/-! The memory of a logger and the size of its files. `append` would allocate where
`nextBuffer_` is NULL, which a pointer that is only copied never is; `LogFile` looks at its size
after each write, and a write is one buffer. -/

set_option autoImplicit false

namespace TransferServer.Base

open Lib

namespace AsyncLogging

variable {log after : AsyncLogging} {logline : Bytes} {current next : BufferPtr}

/-- The buffers are the two of the constructor and the two of `threadFunc`. -/
structure Pooled (log : AsyncLogging) : Prop where
  nextIs : log.nextBuffer = some 1
  allocated : log.allocated = if log.backend = .starting then 2 else 4
  pooled : ∀ buffer ∈ log.inUse, buffer < log.allocated

theorem start_pooled : start.Pooled where
  nextIs := rfl
  allocated := rfl
  pooled := by simp [start, inUse]

theorem append_pooled (pooled : log.Pooled) (appended : log.append logline = .ok after) :
    after.Pooled := by
  obtain ⟨nextIs, allocated, inPool⟩ := pooled
  have two : 1 < log.allocated := by
    rw [allocated]
    split <;> decide
  obtain ⟨current, found, appended⟩ := bind_eq_ok.mp appended
  have currentIs : log.currentBuffer = some current := by
    unfold deref at found
    split at found
    · cases found
      assumption
    · cases found
  dsimp only at appended
  rw [nextIs] at appended
  split at appended
  · obtain ⟨buffer, _, appended⟩ := bind_eq_ok.mp appended
    cases appended
    exact ⟨rfl, allocated, inPool⟩
  · obtain ⟨buffer, _, appended⟩ := bind_eq_ok.mp appended
    cases appended
    refine ⟨rfl, allocated, ?_⟩
    simp only [inUse, store, currentIs, List.forall_mem_append] at inPool ⊢
    simp only [Option.toList_some, List.forall_mem_singleton] at inPool ⊢
    tauto

theorem beginThread_pooled (pooled : log.Pooled) (standing : log.backend = .starting)
    (begun : log.beginThread = .ok after) : after.Pooled := by
  obtain ⟨nextIs, allocated, inPool⟩ := pooled
  rw [if_pos standing] at allocated
  obtain ⟨_, begun⟩ := assert_bind_eq_ok.mp begun
  cases begun
  refine ⟨nextIs, by simp [store, allocated], ?_⟩
  rw [allocated] at inPool
  simp only [inUse, store, List.forall_mem_append, allocated] at inPool ⊢
  simp only [Option.toList_some, List.forall_mem_singleton] at inPool ⊢
  refine ⟨⟨⟨⟨?_, ?_⟩, List.forall_mem_nil _⟩, by decide⟩, by decide⟩
  · exact fun buffer found => Nat.lt_trans (inPool.1.1.1.1 buffer found) (by decide)
  · exact fun buffer found => Nat.lt_trans (inPool.1.1.1.2 buffer found) (by decide)

theorem swap_pooled (pooled : log.Pooled) (standing : log.backend ≠ .starting)
    (swapped : log.swap = .ok after) : after.Pooled := by
  obtain ⟨nextIs, allocated, inPool⟩ := pooled
  rw [if_neg standing] at allocated
  obtain ⟨current, found, swapped⟩ := bind_eq_ok.mp swapped
  have currentIs : log.currentBuffer = some current := by
    unfold deref at found
    split at found
    · cases found
      assumption
    · cases found
  dsimp only at swapped
  rw [nextIs] at swapped
  obtain ⟨_, swapped⟩ := assert_bind_eq_ok.mp swapped
  cases swapped
  refine ⟨rfl, allocated, ?_⟩
  simp only [inUse, currentIs, List.forall_mem_append, Option.toList_some,
    List.forall_mem_singleton] at inPool
  intro buffer found
  simp only [inUse, List.mem_append] at found
  grind

/-- `Pooled` once the backend has begun, wherever it stands. -/
def InPool (log : AsyncLogging) : Prop :=
  log.nextBuffer = some 1 ∧ log.allocated = 4 ∧ ∀ buffer ∈ log.inUse, buffer < 4

theorem popBack_inPool {last : BufferPtr} (pool : log.InPool)
    (popped : log.popBack = .ok (last, after)) : after.InPool ∧ last < 4 := by
  obtain ⟨nextIs, allocated, inPool⟩ := pool
  unfold popBack at popped
  split at popped
  · next found =>
      cases popped
      have held := List.mem_of_getLast? found
      refine ⟨⟨nextIs, allocated, fun buffer found => inPool buffer ?_⟩,
        inPool last (by simp [inUse, held])⟩
      simp only [inUse, store, List.mem_append] at found ⊢
      have earlier := fun found : buffer ∈ log.buffersToWrite.dropLast =>
        (List.dropLast_sublist _).subset found
      tauto
  · cases popped

theorem InPool.flushing (pool : log.InPool) :
    ({ log with buffersToWrite := [], backend := .flushing } : AsyncLogging).InPool := by
  refine ⟨pool.1, pool.2.1, fun buffer found => pool.2.2 buffer ?_⟩
  simp only [inUse, List.mem_append, List.not_mem_nil, or_false] at found ⊢
  tauto

theorem recycle_inPool (pool : log.InPool) (recycled : log.recycle = .ok after) :
    after.InPool ∧ after.backend ≠ .starting := by
  have short : ({ log with buffersToWrite := log.buffersToWrite.take 2 } : AsyncLogging).InPool := by
    refine ⟨pool.1, pool.2.1, fun buffer found => pool.2.2 buffer ?_⟩
    simp only [inUse, List.mem_append] at found ⊢
    have earlier := fun found : buffer ∈ log.buffersToWrite.take 2 => List.mem_of_mem_take found
    tauto
  have refilled : ∀ (log : AsyncLogging) {after : AsyncLogging}, (do
      if log.newBuffer2 = none then do
        let popped ← log.popBack
        return { popped.2 with newBuffer2 := some popped.1, buffersToWrite := [], backend := .flushing }
      else return { log with buffersToWrite := [], backend := .flushing }) = Except.ok after →
      log.InPool → after.InPool ∧ after.backend ≠ .starting := by
    intro log after recycled pool
    split at recycled
    · obtain ⟨⟨last, popped⟩, taken, recycled⟩ := bind_eq_ok.mp recycled
      cases recycled
      obtain ⟨⟨nextIs, allocated, inPool⟩, small⟩ := popBack_inPool pool taken
      refine ⟨⟨nextIs, allocated, ?_⟩, fun same => by cases same⟩
      simp only [inUse, List.forall_mem_append, Option.toList_some, List.forall_mem_singleton] at inPool ⊢
      exact ⟨⟨⟨inPool.1.1.1, List.forall_mem_nil _⟩, inPool.1.2⟩, small⟩
    · cases recycled
      exact ⟨pool.flushing, fun same => by cases same⟩
  unfold recycle at recycled
  simp only [pure_eq_ok, ok_bind] at recycled
  split at recycled
  · obtain ⟨⟨last, popped⟩, taken, recycled⟩ := bind_eq_ok.mp recycled
    obtain ⟨⟨nextIs, allocated, inPool⟩, small⟩ := popBack_inPool short taken
    refine refilled { popped with newBuffer1 := some last } recycled ⟨nextIs, allocated, ?_⟩
    simp only [inUse, List.forall_mem_append, Option.toList_some, List.forall_mem_singleton] at inPool ⊢
    tauto
  · exact refilled _ recycled short

theorem Pooled.of_inPool (pool : log.InPool) (standing : log.backend ≠ .starting) : log.Pooled where
  nextIs := pool.1
  allocated := pool.2.1.trans (if_neg standing).symm
  pooled := pool.2.1.symm ▸ pool.2.2

theorem Pooled.inPool (pooled : log.Pooled) (standing : log.backend ≠ .starting) : log.InPool := by
  obtain ⟨nextIs, allocated, inPool⟩ := pooled
  rw [if_neg standing] at allocated
  exact ⟨nextIs, allocated, allocated ▸ inPool⟩

theorem advance_pooled (pooled : log.Pooled) (advanced : log.advance = .ok after) : after.Pooled := by
  unfold advance at advanced
  cases standing : log.backend with
  | starting =>
      rw [standing] at advanced
      exact beginThread_pooled pooled standing advanced
  | testing =>
      rw [standing] at advanced
      cases advanced
      refine .of_inPool (pooled.inPool (by simp [standing])) ?_
      unfold test
      split <;> simp
  | checking =>
      rw [standing] at advanced
      obtain ⟨_, checked⟩ := assert_bind_eq_ok.mp advanced
      obtain ⟨_, checked⟩ := assert_bind_eq_ok.mp checked
      obtain ⟨_, checked⟩ := assert_bind_eq_ok.mp checked
      cases checked
      exact .of_inPool (pooled.inPool (by simp [standing])) nofun
  | swapping =>
      rw [standing] at advanced
      exact swap_pooled pooled (by simp [standing]) advanced
  | writing index =>
      rw [standing] at advanced
      cases advanced
      have pool := pooled.inPool (by simp [standing])
      unfold write
      split
      · exact .of_inPool pool nofun
      · exact .of_inPool pool nofun
  | recycling =>
      rw [standing] at advanced
      obtain ⟨pool, begun⟩ := recycle_inPool (pooled.inPool (by simp [standing])) advanced
      exact .of_inPool pool begun
  | flushing =>
      rw [standing] at advanced
      cases advanced
      exact .of_inPool (pooled.inPool (by simp [standing])) nofun
  | finishing =>
      rw [standing] at advanced
      cases advanced
      exact .of_inPool (pooled.inPool (by simp [standing])) nofun
  | finished =>
      rw [standing] at advanced
      cases advanced

/-- However much is logged and however slow the backend is, no buffer is ever allocated beside the
first four. -/
theorem buffers_bounded {actions : List LogAction} (run : Execution step anyAction start actions log) :
    log.allocated ≤ 4 ∧ ∀ buffer ∈ log.inUse ++ log.nextBuffer.toList, buffer < 4 := by
  have pooled : log.Pooled := by
    refine run.invariant start_pooled fun before action after pooled _ stepped => ?_
    cases action with
    | append logline => exact append_pooled pooled stepped
    | backend => exact advance_pooled pooled stepped
    | stop =>
        obtain ⟨_, stopped⟩ := assume_bind_eq_ok.mp stepped
        cases stopped
        exact ⟨pooled.nextIs, pooled.allocated, pooled.pooled⟩
  have few : log.allocated ≤ 4 := by
    rw [pooled.allocated]
    split <;> decide
  refine ⟨few, List.forall_mem_append.mpr ⟨fun buffer found => ?_, ?_⟩⟩
  · exact Nat.lt_of_lt_of_le (pooled.pooled buffer found) few
  · simp [pooled.nextIs]

/-- The theorem at a run in which the backend has taken a line and the frontend logs the next. -/
theorem buffers_bounded_swapped : ∃ log : AsyncLogging, log.currentBuffer = some 2 ∧
    log.buffersToWrite = [0] ∧ log.allocated ≤ 4 ∧
      ∀ buffer ∈ log.inUse ++ log.nextBuffer.toList, buffer < 4 := by
  let actions : List LogAction :=
    [.append [1, 2], .backend, .backend, .backend, .backend, .append [3]]
  have replayed : (replay step anyAction .impossible start actions).toOption.any
      (fun log => decide (log.currentBuffer = some 2 ∧ log.buffersToWrite = [0])) = true := by
    decide +kernel
  obtain ⟨log, run, tested⟩ := Execution.exists_of_replay replayed
  obtain ⟨current, toWrite⟩ := of_decide_eq_true tested
  exact ⟨log, current, toWrite, buffers_bounded run⟩

/-- No buffer is ever full to its last byte. -/
def Roomy (log : AsyncLogging) : Prop := ∀ buffer, (log.heap buffer).contents.length < kLargeBuffer

theorem Roomy.store (roomy : log.Roomy) (buffer : BufferPtr) (content : FixedBuffer kLargeBuffer)
    (room : content.contents.length < kLargeBuffer) : (log.store buffer content).Roomy := by
  intro other
  by_cases same : other = buffer
  · simpa only [same, AsyncLogging.store, Function.update_self] using room
  · simpa only [AsyncLogging.store, Function.update_of_ne same] using roomy other

theorem length_contents_append {buffer : FixedBuffer kLargeBuffer} (buf : Bytes)
    (room : buffer.contents.length < kLargeBuffer) :
    (buffer.append buf).contents.length < kLargeBuffer := by
  have large : kLargeBuffer = 4000000 := by decide
  unfold FixedBuffer.append FixedBuffer.avail toSizeT
  split
  · rw [List.length_append]
    omega
  · exact room

theorem appendCurrent_roomy (appended : log.appendCurrent logline = .ok after) (roomy : log.Roomy) :
    after.Roomy := by
  obtain ⟨current, _, appended⟩ := bind_eq_ok.mp appended
  cases appended
  exact roomy.store current _ (length_contents_append logline (roomy current))

theorem allocate_roomy (roomy : log.Roomy) : log.allocate.2.Roomy :=
  roomy.store log.allocated .fresh (by decide)

theorem append_roomy (appended : log.append logline = .ok after) (roomy : log.Roomy) : after.Roomy := by
  obtain ⟨current, _, appended⟩ := bind_eq_ok.mp appended
  dsimp only at appended
  split at appended
  · exact appendCurrent_roomy appended roomy
  · split at appended
    · exact appendCurrent_roomy appended roomy
    · exact appendCurrent_roomy appended (allocate_roomy roomy)

theorem beginThread_roomy (begun : log.beginThread = .ok after) (roomy : log.Roomy) : after.Roomy := by
  have bzero : ∀ {log : AsyncLogging}, log.Roomy → ∀ buffer,
      (log.store buffer (log.heap buffer).bzero).Roomy := by
    intro log roomy buffer
    refine roomy.store buffer _ ?_
    rw [FixedBuffer.bzero, List.length_replicate]
    exact roomy buffer
  obtain ⟨_, begun⟩ := assert_bind_eq_ok.mp begun
  cases begun
  exact bzero (bzero (allocate_roomy (allocate_roomy roomy)) _) _

theorem recycle_roomy (owned : log.Owned current next) (standing : log.backend = .recycling)
    (recycled : log.recycle = .ok after) (roomy : log.Roomy) : after.Roomy := by
  obtain ⟨earlier, last, whole, short, _, none1, spare, spareIs, _⟩ := owned.recyclable standing
  rw [recycle_eq_ok whole short none1 (by simp [spareIs])] at recycled
  cases recycled
  exact roomy.store last ⟨[]⟩ (by decide)

theorem advance_roomy (owned : log.Owned current next) (advanced : log.advance = .ok after)
    (roomy : log.Roomy) : after.Roomy := by
  unfold advance at advanced
  cases standing : log.backend with
  | starting =>
      rw [standing] at advanced
      exact beginThread_roomy advanced roomy
  | checking =>
      rw [standing] at advanced
      obtain ⟨_, checked⟩ := assert_bind_eq_ok.mp advanced
      obtain ⟨_, checked⟩ := assert_bind_eq_ok.mp checked
      obtain ⟨_, checked⟩ := assert_bind_eq_ok.mp checked
      cases checked
      exact roomy
  | swapping =>
      rw [standing] at advanced
      rw [swap_eq_ok owned] at advanced
      cases advanced
      exact roomy
  | writing index =>
      rw [standing] at advanced
      cases advanced
      unfold write
      split
      · exact roomy
      · exact roomy
  | recycling =>
      rw [standing] at advanced
      exact recycle_roomy owned standing advanced roomy
  | finished =>
      rw [standing] at advanced
      cases advanced
  | _ =>
      rw [standing] at advanced
      cases advanced
      exact roomy

end AsyncLogging

namespace LogFile

variable {log after : LogFile} {logline : Bytes}

/-- Each file has been counted right; the last one may still grow, the others have grown past
`rollSize` by less than one line of `bound` bytes. -/
structure Sized (log : LogFile) (bound : Nat) : Prop where
  counted : ∀ file ∈ log.files, file.fp.contents.length = file.writtenBytes
  full : ∀ file ∈ log.replaced, file.writtenBytes < log.rollSize + bound
  growing : ∀ file ∈ log.file, file.writtenBytes ≤ log.rollSize

theorem rollFile_rollSize {now : Int} {opened : Bool} (rolled : log.rollFile now opened = .ok after) :
    after.rollSize = log.rollSize := by
  unfold rollFile at rolled
  split at rolled
  · obtain ⟨_, _, rolled⟩ := bind_eq_ok.mp rolled
    cases rolled
    rfl
  · cases rolled
    rfl

theorem append_rollSize {around : Surroundings} (appended : log.append logline around = .ok after) :
    after.rollSize = log.rollSize := by
  obtain ⟨_, _, appended⟩ := bind_eq_ok.mp appended
  obtain ⟨_, _, appended⟩ := bind_eq_ok.mp appended
  dsimp only at appended
  split at appended
  · exact (rollFile_rollSize appended :)
  · split at appended
    · split at appended
      · exact (rollFile_rollSize appended :)
      · split at appended <;> cases appended <;> rfl
    · cases appended
      rfl

theorem construct_sized {basename : Bytes} {rollSize bound : Nat} {flushInterval now : Int}
    {opened : Bool} (constructed : construct basename rollSize flushInterval now opened = .ok log) :
    log.Sized bound ∧ log.rollSize = rollSize := by
  obtain ⟨_, constructed⟩ := assert_bind_eq_ok.mp constructed
  refine ⟨?_, rollFile_rollSize constructed⟩
  rcases rollFile_spec constructed with ⟨_, replaced, fresh⟩ | ⟨_, rfl⟩
  · have none : log.replaced = [] := replaced
    refine ⟨?_, by simp [none], ?_⟩
    · simp [files, none, fresh]
    · simp [fresh]
  · exact ⟨by simp [files], by simp, by simp⟩

theorem append_sized {around : Surroundings} {bound : Nat} (sized : log.Sized bound)
    (appended : log.append logline around = .ok after) (progress : around.Progress logline)
    (short : logline.length < bound) (later : log.lastRoll < around.rollNow) : after.Sized bound := by
  obtain ⟨file, file', points, wrote, rolled⟩ := append_cases appended
  obtain ⟨grown, _⟩ := File.append_spec wrote progress
  have size := File.writtenBytes_append wrote
  have small : file.writtenBytes ≤ log.rollSize := sized.growing file points
  have counted : file'.fp.contents.length = file'.writtenBytes := by
    have before := sized.counted file (by simp [files, points])
    rw [grown, List.length_append, before, size]
  have older : ∀ file ∈ log.replaced, file.fp.contents.length = file.writtenBytes :=
    fun other found => sized.counted other (List.mem_append_left _ found)
  have same := append_rollSize appended
  rcases rolled with ⟨_, replaced, fresh⟩ | ⟨stays, replaced, kept⟩
  · refine ⟨?_, ?_, by simp [fresh]⟩
    · rw [files, replaced, fresh]
      simpa [or_imp, forall_and, counted] using older
    · rw [replaced, same, List.forall_mem_append, List.forall_mem_singleton]
      refine ⟨sized.full, ?_⟩
      omega
  · have light : file'.writtenBytes ≤ log.rollSize := by
      rw [Replaces, points, not_and_or, not_or] at stays
      have light := (stays.resolve_left (not_not_intro later)).1
      simp only [Option.map_some, Option.getD_some] at light
      omega
    rcases kept with here | flushed
    · refine ⟨?_, by rw [replaced, same]; exact sized.full, by simpa [here, same] using light⟩
      rw [files, replaced, here]
      simpa [or_imp, forall_and, counted] using older
    · refine ⟨?_, by rw [replaced, same]; exact sized.full, by simpa [flushed, same, File.flush] using light⟩
      rw [files, replaced, flushed]
      simpa [or_imp, forall_and, counted, File.flush] using older

theorem flush_sized {bound : Nat} (sized : log.Sized bound) (flushed : log.flush = .ok after) :
    after.Sized bound ∧ after.rollSize = log.rollSize := by
  obtain ⟨file, pointed, flushed⟩ := bind_eq_ok.mp flushed
  cases flushed
  have points := deref_eq_ok.mp pointed
  refine ⟨⟨?_, sized.full, ?_⟩, rfl⟩
  · have counted := sized.counted
    rw [files, points] at counted
    rw [files]
    simpa [or_imp, forall_and, File.flush] using counted
  · have growing := sized.growing file points
    simpa [File.flush] using growing

end LogFile

namespace LogPipeline

variable {pipeline before after : LogPipeline} {basename : Bytes} {rollSize : Nat}

/-- By the time a buffer is written, the clock has moved on since the log last rolled. -/
def Rolls (pipeline : LogPipeline) (action : PipelineAction) : Prop :=
  pipeline.Admits action ∧ match action with
    | .backend around => pipeline.writes ≠ none →
        ∀ output ∈ pipeline.output, output.lastRoll < around.rollNow
    | _ => True

instance (pipeline : LogPipeline) (action : PipelineAction) : Decidable (pipeline.Rolls action) :=
  match action with
  | .append logline => inferInstanceAs (Decidable (pipeline.Admits (.append logline) ∧ True))
  | .backend around => inferInstanceAs (Decidable (pipeline.Admits (.backend around) ∧
      (pipeline.writes ≠ none → ∀ output ∈ pipeline.output, output.lastRoll < around.rollNow)))
  | .stop => inferInstanceAs (Decidable (pipeline.Admits .stop ∧ True))

structure Sized (pipeline : LogPipeline) : Prop where
  whole : pipeline.Whole
  roomy : pipeline.log.Roomy
  sized : ∀ output ∈ pipeline.output,
    output.Sized kLargeBuffer ∧ output.rollSize = pipeline.rollSize

theorem onOutput_sized {around : Surroundings} {output : Option LogFile} (sized : before.Sized)
    (rolls : before.Rolls (.backend around)) (handled : before.onOutput around = .ok output) :
    ∀ file ∈ output, file.Sized kLargeBuffer ∧ file.rollSize = before.rollSize := by
  obtain ⟨admitted, later⟩ := rolls
  have flushes : (do
      let output ← before.deref
      let output ← output.flush
      return some output : Outcome (Option LogFile)) = .ok output →
      ∀ file ∈ output, file.Sized kLargeBuffer ∧ file.rollSize = before.rollSize := by
    intro handled
    obtain ⟨file, pointed, handled⟩ := bind_eq_ok.mp handled
    obtain ⟨file', flushed, handled⟩ := bind_eq_ok.mp handled
    cases handled
    obtain ⟨kept, same⟩ := sized.sized file (deref_eq_ok.mp pointed)
    obtain ⟨kept', same'⟩ := LogFile.flush_sized kept flushed
    simpa using ⟨kept', same'.trans same⟩
  cases written : before.writes with
  | some buffer =>
      obtain ⟨file, file', points, rfl, appended⟩ := onOutput_writing handled written
      obtain ⟨kept, same⟩ := sized.sized file points
      have kept' := LogFile.append_sized kept appended (admitted buffer written)
        (sized.roomy buffer) (later (by simp [written]) file points)
      simpa using ⟨kept', (LogFile.append_rollSize appended).trans same⟩
  | none =>
      unfold onOutput at handled
      cases standing : before.log.backend with
      | starting =>
          rw [standing] at handled
          obtain ⟨file, constructed, handled⟩ := bind_eq_ok.mp handled
          cases handled
          simpa using LogFile.construct_sized constructed
      | flushing =>
          rw [standing] at handled
          exact flushes handled
      | finishing =>
          rw [standing] at handled
          exact flushes handled
      | writing index =>
          rw [standing] at handled
          dsimp only at handled
          rw [written] at handled
          cases handled
          exact sized.sized
      | _ =>
          rw [standing] at handled
          cases handled
          exact sized.sized

theorem step_sized (sized : before.Sized) {action : PipelineAction} (rolls : before.Rolls action)
    (stepped : before.step action = .ok after) : after.Sized := by
  have whole := step_whole sized.whole rolls.1 stepped
  cases action with
  | append logline =>
      obtain ⟨log, appended, stepped⟩ := bind_eq_ok.mp stepped
      cases stepped
      exact ⟨whole, AsyncLogging.append_roomy appended sized.roomy, sized.sized⟩
  | backend around =>
      obtain ⟨current, owned⟩ := sized.whole.owned
      obtain ⟨log, advanced, stepped⟩ := bind_eq_ok.mp stepped
      obtain ⟨output, handled, stepped⟩ := bind_eq_ok.mp stepped
      have kept := onOutput_sized sized rolls handled
      cases stepped
      exact ⟨whole, AsyncLogging.advance_roomy owned advanced sized.roomy, kept⟩
  | stop =>
      obtain ⟨log, stopped, stepped⟩ := bind_eq_ok.mp stepped
      cases stepped
      obtain ⟨_, stopped⟩ := assume_bind_eq_ok.mp stopped
      cases stopped
      exact ⟨whole, sized.roomy, sized.sized⟩

/-- Where the clock moves on between writes, no log file outgrows `rollSize` by more than one
buffer of lines. -/
theorem files_bounded {actions : List PipelineAction}
    (run : Execution step Rolls (start basename rollSize) actions pipeline) :
    ∀ text ∈ pipeline.contents, text.length < pipeline.rollSize + kLargeBuffer := by
  have sized : pipeline.Sized := by
    have empty : (start basename rollSize).log.Roomy := fun _ => show 0 < kLargeBuffer by decide
    exact run.invariant ⟨start_whole, empty, nofun⟩ fun _ _ _ sized rolls stepped =>
      step_sized sized rolls stepped
  unfold contents
  cases points : pipeline.output with
  | none => simp
  | some output =>
      obtain ⟨kept, same⟩ := sized.sized output points
      have positive : 0 < kLargeBuffer := by decide
      intro text found
      obtain ⟨file, there, rfl⟩ := List.mem_map.mp found
      rw [kept.counted file there, ← same]
      rcases List.mem_append.mp there with full | growing
      · exact kept.full file full
      · have light := kept.growing file (by simpa using growing)
        omega

/-- The theorem at a run that rolls after a buffer of three bytes. -/
theorem files_bounded_rolled : ∃ pipeline : LogPipeline, pipeline.contents = [[1, 2, 3], []] ∧
    ∀ text ∈ pipeline.contents, text.length < pipeline.rollSize + kLargeBuffer := by
  let actions : List PipelineAction := [
    .append [1, 2], .append [3], .backend ⟨[], 100, 100, true⟩, .backend ⟨[], 100, 100, true⟩,
    .backend ⟨[], 100, 100, true⟩, .backend ⟨[], 100, 100, true⟩,
    .backend ⟨[⟨2, 2⟩, ⟨1, 0⟩], 101, 101, true⟩]
  have replayed : (replay step Rolls .impossible (start [108] 2) actions).toOption.any
      (fun pipeline => decide (pipeline.contents = [[1, 2, 3], []])) = true := by decide +kernel
  obtain ⟨pipeline, run, tested⟩ := Execution.exists_of_replay replayed
  exact ⟨pipeline, of_decide_eq_true tested, files_bounded run⟩

end LogPipeline

end TransferServer.Base
