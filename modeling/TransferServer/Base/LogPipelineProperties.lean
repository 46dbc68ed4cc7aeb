import TransferServer.Lib.Grouping
import TransferServer.Base.AsyncLoggingStop
import TransferServer.Base.LogFileProperties
import TransferServer.Base.LogPipeline

/-! The log files of a running logger. A buffer holds whole lines, one call of `LogFile::append`
takes a whole buffer, and the log rolls between two calls only. -/

set_option autoImplicit false

namespace TransferServer.Base

open Lib

namespace AsyncLogging

variable {log after : AsyncLogging} {logline : Bytes} {current next : BufferPtr}

/-- The buffers whose bytes have not been passed on, in the order of the log file. -/
def waiting (log : AsyncLogging) : List BufferPtr :=
  log.unwritten ++ log.buffers ++ log.currentBuffer.toList

def textsOf (heap : BufferPtr → FixedBuffer kLargeBuffer) (buffers : List BufferPtr) : List Bytes :=
  buffers.map fun buffer => (heap buffer).contents

/-- What each of the waiting buffers holds. -/
def texts (log : AsyncLogging) : List Bytes := textsOf log.heap log.waiting

theorem textsOf_update {heap : BufferPtr → FixedBuffer kLargeBuffer} {buffers : List BufferPtr}
    {buffer : BufferPtr} (apart : buffer ∉ buffers) (content : FixedBuffer kLargeBuffer) :
    textsOf (Function.update heap buffer content) buffers = textsOf heap buffers := by
  apply List.map_congr_left
  intro other found
  have different : other ≠ buffer := fun same => apart (same ▸ found)
  rw [Function.update_of_ne different]

/-- A line is added to the text of the last buffer, or is the text of a new one. -/
theorem append_texts (owned : log.Owned current next) (admitted : log.Admits (.append logline))
    (appended : log.append logline = .ok after) :
    ∃ earlier last, log.texts = earlier ++ [last] ∧
      (after.texts = earlier ++ [last ++ logline] ∨ after.texts = earlier ++ [last, logline]) := by
  obtain ⟨short, spare⟩ := admitted
  obtain ⟨apart, _⟩ := owned.apart
  have before : log.texts = textsOf log.heap (log.unwritten ++ log.buffers) ++
      [(log.heap current).contents] := by
    rw [texts, waiting, owned.currentIs, textsOf, List.map_append]
    rfl
  refine ⟨_, _, before, ?_⟩
  by_cases room : (logline.length : Int) < (log.heap current).avail
  · have added : (log.heap current).append logline = ⟨(log.heap current).contents ++ logline⟩ :=
      FixedBuffer.append_of_avail (by decide) room
    rw [append_of_room owned.currentIs room] at appended
    cases appended
    left
    change textsOf (Function.update log.heap current _)
      (log.unwritten ++ log.buffers ++ log.currentBuffer.toList) = _
    rw [owned.currentIs, textsOf, List.map_append]
    refine congrArg₂ (· ++ ·) (textsOf_update apart _) ?_
    simp [added]
  · have full := Int.not_lt.mp room
    have unused : next ∉ log.inUse := spare ⟨current, owned.currentIs, full⟩ next owned.nextIs
    have empty : (log.heap next).contents = [] := owned.spare unused
    have added : (log.heap next).append logline = ⟨logline⟩ := by
      rw [FixedBuffer.append_of_avail (by decide), empty, List.nil_append]
      simp only [FixedBuffer.avail, empty, List.length_nil]
      omega
    have apart : next ∉ log.unwritten ++ (log.buffers ++ [current]) := by
      intro found
      rcases List.mem_append.mp found with early | late
      · exact unused (unwritten_subset early)
      · apply unused
        simp only [inUse, List.mem_append, owned.currentIs, Option.toList_some]
        rcases List.mem_append.mp late with full | same
        · exact .inl (.inl (.inl (.inr full)))
        · exact .inl (.inl (.inl (.inl same)))
    rw [append_of_full owned.currentIs owned.nextIs full] at appended
    cases appended
    right
    change textsOf (Function.update log.heap next _)
      (log.unwritten ++ (log.buffers ++ [current]) ++ [next]) = _
    rw [textsOf, List.map_append]
    refine (congrArg₂ (· ++ ·) (textsOf_update apart _) rfl).trans ?_
    simp [textsOf, added]

theorem beginThread_texts (owned : log.Owned current next) (standing : log.backend = .starting)
    (begun : log.beginThread = .ok after) : after.texts = log.texts := by
  obtain ⟨_, begun⟩ := assert_bind_eq_ok.mp begun
  cases begun
  have older := owned.allocated.2
  simp only [texts, waiting, unwritten, standing, store, textsOf, List.nil_append]
  apply List.map_congr_left
  intro buffer found
  have bound : buffer < log.allocated := older buffer (by
    simp only [inUse, List.mem_append] at found ⊢
    tauto)
  have apart1 : buffer ≠ log.allocated := Nat.ne_of_lt bound
  have apart2 : buffer ≠ log.allocated + 1 := Nat.ne_of_lt (Nat.lt_succ_of_lt bound)
  simp only [Function.update_of_ne apart1, Function.update_of_ne apart2]

/-- The buffers at hand are taken as they are, and an empty one is put in their place. -/
theorem swap_texts (owned : log.Owned current next) (standing : log.backend = .swapping)
    (swapped : log.swap = .ok after) : after.texts = log.texts ++ [[]] := by
  have stocked := owned.stocked
  unfold Stocked at stocked
  rw [standing] at stocked
  obtain ⟨⟨spare, spareIs, empty⟩, _, written⟩ := stocked
  rw [swap_eq_ok owned] at swapped
  cases swapped
  simp [texts, waiting, unwritten, standing, textsOf, owned.currentIs, spareIs, written, empty]

theorem write_texts {index : Nat} {buffer : BufferPtr} (standing : log.backend = .writing index)
    (found : log.buffersToWrite[index]? = some buffer) :
    log.texts = (log.heap buffer).contents :: (log.write index).texts := by
  obtain ⟨inside, here⟩ := List.getElem?_eq_some_iff.mp found
  simp only [texts, waiting, unwritten, write, standing, found]
  rw [List.drop_eq_getElem_cons inside, here]
  rfl

theorem write_texts_done {index : Nat} (standing : log.backend = .writing index)
    (past : log.buffersToWrite[index]? = none) : (log.write index).texts = log.texts := by
  have done : log.buffersToWrite.drop index = [] :=
    List.drop_eq_nil_of_le (List.getElem?_eq_none_iff.mp past)
  simp only [texts, waiting, unwritten, write, standing, past, done]

theorem recycle_texts (owned : log.Owned current next) (standing : log.backend = .recycling)
    (recycled : log.recycle = .ok after) : after.texts = log.texts := by
  obtain ⟨earlier, last, whole, short, _, none1, spare, spareIs, _⟩ := owned.recyclable standing
  have some2 : log.newBuffer2 ≠ none := by
    rw [spareIs]
    exact nofun
  have apart : last ∉ log.buffers ++ log.currentBuffer.toList := by
    have front : (log.currentBuffer.toList ++ log.buffers ++ log.buffersToWrite).Sublist log.inUse :=
      (List.sublist_append_left _ _).trans (List.sublist_append_left _ _)
    have separate := (List.nodup_append.mp (owned.distinct.sublist front)).2.2
    intro found
    exact separate last (List.perm_append_comm.mem_iff.mp found) last (by simp [whole]) rfl
  rw [recycle_eq_ok whole short none1 some2] at recycled
  cases recycled
  simp only [texts, waiting, unwritten, standing, store, List.nil_append]
  exact textsOf_update apart _

/-- The steps of the backend but for the swap and the writing of a buffer. -/
theorem advance_texts (owned : log.Owned current next) (advanced : log.advance = .ok after)
    (unswapped : log.backend ≠ .swapping) (unwritten : ∀ index, log.backend ≠ .writing index) :
    after.texts = log.texts := by
  unfold advance at advanced
  cases standing : log.backend with
  | starting =>
      rw [standing] at advanced
      exact beginThread_texts owned standing advanced
  | testing =>
      rw [standing] at advanced
      cases advanced
      unfold test texts waiting AsyncLogging.unwritten
      rw [standing]
      cases log.running with
      | true => rfl
      | false => rfl
  | checking =>
      rw [standing] at advanced
      obtain ⟨_, checked⟩ := assert_bind_eq_ok.mp advanced
      obtain ⟨_, checked⟩ := assert_bind_eq_ok.mp checked
      obtain ⟨_, checked⟩ := assert_bind_eq_ok.mp checked
      cases checked
      simp only [texts, waiting, AsyncLogging.unwritten, standing]
  | swapping => exact absurd standing unswapped
  | writing index => exact absurd standing (unwritten index)
  | recycling =>
      rw [standing] at advanced
      exact recycle_texts owned standing advanced
  | flushing =>
      rw [standing] at advanced
      cases advanced
      simp only [texts, waiting, AsyncLogging.unwritten, flush, standing]
  | finishing =>
      rw [standing] at advanced
      cases advanced
      simp only [texts, waiting, AsyncLogging.unwritten, flush, standing]
  | finished =>
      rw [standing] at advanced
      cases advanced

end AsyncLogging

namespace LogFile

variable {log after : LogFile} {logline : Bytes}

/-- What each file has taken in, in the order in which they were opened. -/
def contents (log : LogFile) : List Bytes := log.files.map (·.fp.contents)

theorem contents_of {file : File} (points : log.file = some file) :
    log.contents = log.replaced.map (·.fp.contents) ++ [file.fp.contents] := by
  simp [contents, files, points]

theorem construct_contents {basename : Bytes} {rollSize : Nat} {flushInterval now : Int}
    {opened : Bool} (constructed : construct basename rollSize flushInterval now opened = .ok log) :
    log.contents = [] ∨ log.contents = [[]] := by
  obtain ⟨_, constructed⟩ := assert_bind_eq_ok.mp constructed
  rcases rollFile_spec constructed with ⟨_, replaced, fresh⟩ | ⟨_, rfl⟩
  · right
    rw [contents_of fresh, replaced]
    rfl
  · exact .inl rfl

/-- The line goes to the end of the last file, and a new file may follow it. -/
theorem append_contents {around : Surroundings} (appended : log.append logline around = .ok after)
    (progress : around.Progress logline) :
    ∃ earlier last, log.contents = earlier ++ [last] ∧
      (after.contents = earlier ++ [last ++ logline] ∨
        after.contents = earlier ++ [last ++ logline, []]) := by
  obtain ⟨file, file', points, wrote, rolled⟩ := append_cases appended
  obtain ⟨grown, _⟩ := File.append_spec wrote progress
  refine ⟨_, _, contents_of points, ?_⟩
  rcases rolled with ⟨_, replaced, fresh⟩ | ⟨_, replaced, here | flushed⟩
  · right
    rw [contents_of fresh, replaced, ← grown]
    simp
  · left
    rw [contents_of here, replaced, grown]
  · left
    rw [contents_of flushed, replaced, File.flush, BufferedStream.contents_flush, grown]

theorem flush_contents (flushed : log.flush = .ok after) : after.contents = log.contents := by
  obtain ⟨file, pointed, flushed⟩ := bind_eq_ok.mp flushed
  cases flushed
  rw [contents_of rfl, contents_of (deref_eq_ok.mp pointed), File.flush, BufferedStream.contents_flush]

end LogFile

namespace LogPipeline

variable {pipeline before after : LogPipeline} {basename : Bytes} {rollSize : Nat}

/-- What each log file has taken in, in the order in which they were opened. -/
def contents (pipeline : LogPipeline) : List Bytes :=
  match pipeline.output with
  | some output => output.contents
  | none => []

/-- The logger is used as it must be, and no `fwrite` fails. -/
def Admits (pipeline : LogPipeline) : PipelineAction → Prop
  | .append logline => pipeline.log.Admits (.append logline)
  | .backend around =>
      ∀ buffer ∈ pipeline.writes, around.Progress (pipeline.log.heap buffer).contents
  | .stop => True

instance (pipeline : LogPipeline) (action : PipelineAction) : Decidable (pipeline.Admits action) :=
  match action with
  | .append logline => inferInstanceAs (Decidable (pipeline.log.Admits (.append logline)))
  | .backend around => inferInstanceAs (Decidable (∀ buffer ∈ pipeline.writes,
      (pipeline.log.heap buffer).contents ≠ [] → ∀ result ∈ around.results, result.accepted ≠ 0))
  | .stop => .isTrue trivial

/-- Files and waiting buffers are cut between lines only. -/
structure Whole (pipeline : LogPipeline) : Prop where
  owned : ∃ current, pipeline.log.Owned current 1
  unopened : pipeline.log.backend = .starting → pipeline.output = none
  grouped : Grouped pipeline.log.appended (pipeline.contents ++ pipeline.log.texts)

theorem start_whole : (start basename rollSize).Whole where
  owned := ⟨0, AsyncLogging.start_owned⟩
  unopened := fun _ => rfl
  grouped := ⟨[[]], rfl, rfl⟩

theorem deref_eq_ok {output : LogFile} : pipeline.deref = .ok output ↔ pipeline.output = some output := by
  unfold deref
  cases pipeline.output with
  | none => simp [throw_eq_error]
  | some pointed => simp [pure_eq_ok]

theorem append_whole (whole : before.Whole) {logline : Bytes}
    (admitted : before.Admits (.append logline)) (stepped : before.step (.append logline) = .ok after) :
    after.Whole := by
  obtain ⟨current, owned⟩ := whole.owned
  obtain ⟨log, appended, stepped⟩ := bind_eq_ok.mp stepped
  cases stepped
  obtain ⟨_, same, _, _, lines⟩ := AsyncLogging.append_passed owned admitted appended
  obtain ⟨earlier, last, texts, grown⟩ := AsyncLogging.append_texts owned admitted appended
  have kept := AsyncLogging.step_owned owned (show before.log.Admits (.append logline) from admitted)
  refine ⟨kept.of_ok appended, fun starting => whole.unopened (same ▸ starting), ?_⟩
  have grouped := whole.grouped
  rw [texts, ← List.append_assoc] at grouped
  change Grouped log.appended (before.contents ++ log.texts)
  rw [lines]
  rcases grown with extended | added
  · rw [extended, ← List.append_assoc]
    exact grouped.extend logline
  · have cut : Grouped before.log.appended (before.contents ++ earlier ++ [last] ++ [[]]) :=
      Grouped.insert_nil (by rwa [List.append_nil])
    have extended := cut.extend logline
    rw [List.nil_append] at extended
    rw [added, ← List.append_assoc]
    simpa only [List.append_assoc, List.singleton_append] using extended

/-- Between the construction of `output` and the writes, it is flushed at most. -/
theorem onOutput_quiet {around : Surroundings} {log : AsyncLogging} {output : Option LogFile}
    (handled : before.onOutput around = .ok output) (started : before.log.backend ≠ .starting)
    (idle : before.writes = none) :
    ({ before with log, output } : LogPipeline).contents = before.contents := by
  have flushes : (do
      let output ← before.deref
      let output ← output.flush
      return some output : Outcome (Option LogFile)) = .ok output →
      ({ before with log, output } : LogPipeline).contents = before.contents := by
    intro handled
    obtain ⟨file, pointed, handled⟩ := bind_eq_ok.mp handled
    obtain ⟨file', flushed, handled⟩ := bind_eq_ok.mp handled
    cases handled
    simp only [contents, deref_eq_ok.mp pointed]
    exact LogFile.flush_contents flushed
  unfold onOutput at handled
  cases standing : before.log.backend with
  | starting => exact absurd standing started
  | flushing =>
      rw [standing] at handled
      exact flushes handled
  | finishing =>
      rw [standing] at handled
      exact flushes handled
  | writing index =>
      rw [standing] at handled
      dsimp only at handled
      rw [idle] at handled
      cases handled
      rfl
  | _ =>
      rw [standing] at handled
      cases handled
      rfl

theorem onOutput_starting {around : Surroundings} {output : Option LogFile}
    (handled : before.onOutput around = .ok output) (standing : before.log.backend = .starting) :
    ∃ file, output = some file ∧ (file.contents = [] ∨ file.contents = [[]]) := by
  unfold onOutput at handled
  rw [standing] at handled
  obtain ⟨file, constructed, handled⟩ := bind_eq_ok.mp handled
  cases handled
  exact ⟨file, rfl, LogFile.construct_contents constructed⟩

theorem onOutput_writing {around : Surroundings} {output : Option LogFile} {buffer : BufferPtr}
    (handled : before.onOutput around = .ok output) (written : before.writes = some buffer) :
    ∃ file file', before.output = some file ∧ output = some file' ∧
      file.append (before.log.heap buffer).contents around = .ok file' := by
  unfold onOutput at handled
  cases standing : before.log.backend with
  | writing index =>
      rw [standing] at handled
      dsimp only at handled
      rw [written] at handled
      obtain ⟨file, pointed, handled⟩ := bind_eq_ok.mp handled
      obtain ⟨file', appended, handled⟩ := bind_eq_ok.mp handled
      cases handled
      exact ⟨file, file', deref_eq_ok.mp pointed, rfl, appended⟩
  | _ =>
      unfold writes at written
      rw [standing] at written
      cases written

theorem writes_eq {index : Nat} (standing : before.log.backend = .writing index) :
    before.writes = before.log.buffersToWrite[index]? := by
  rw [writes, standing]

theorem backend_whole (whole : before.Whole) {around : Surroundings}
    (admitted : before.Admits (.backend around))
    (stepped : before.step (.backend around) = .ok after) : after.Whole := by
  obtain ⟨current, owned⟩ := whole.owned
  obtain ⟨log, advanced, stepped⟩ := bind_eq_ok.mp stepped
  obtain ⟨output, handled, stepped⟩ := bind_eq_ok.mp stepped
  cases stepped
  change before.log.advance = .ok log at advanced
  have advances := AsyncLogging.advance_advances owned advanced
  have grouped := whole.grouped
  refine ⟨(AsyncLogging.advance_owned owned).of_ok advanced,
    fun starting => absurd starting advances.started, ?_⟩
  change Grouped log.appended (({ before with log, output } : LogPipeline).contents ++ log.texts)
  rw [advances.appended]
  have unchanged (started : before.log.backend ≠ .starting) (idle : before.writes = none)
      (same : log.texts = before.log.texts) :
      Grouped before.log.appended (({ before with log, output } : LogPipeline).contents ++ log.texts) := by
    rwa [onOutput_quiet handled started idle, same]
  cases standing : before.log.backend with
  | starting =>
      have same := AsyncLogging.advance_texts owned advanced (by simp [standing]) (by simp [standing])
      obtain ⟨file, rfl, opened⟩ := onOutput_starting handled standing
      have none : before.contents = [] := by rw [contents, whole.unopened standing]
      rw [none, List.nil_append] at grouped
      rw [same]
      rcases opened with nothing | empty
      · simpa only [contents, nothing, List.nil_append] using grouped
      · simp only [contents, empty]
        exact Grouped.insert_nil (show Grouped _ ([] ++ before.log.texts) from grouped)
  | swapping =>
      have swapped : before.log.advance = before.log.swap := by
        unfold AsyncLogging.advance
        rw [standing]
      have taken := AsyncLogging.swap_texts owned standing (swapped ▸ advanced)
      rw [onOutput_quiet handled (by simp [standing]) (by simp [writes, standing]), taken,
        ← List.append_assoc]
      rw [← List.append_nil (before.contents ++ before.log.texts)] at grouped
      exact grouped.insert_nil
  | writing index =>
      have wrote : before.log.advance = .ok (before.log.write index) := by
        unfold AsyncLogging.advance
        rw [standing]
        rfl
      rw [wrote] at advanced
      cases advanced
      cases found : before.log.buffersToWrite[index]? with
      | none =>
          exact unchanged (by simp [standing]) ((writes_eq standing).trans found)
            (AsyncLogging.write_texts_done standing found)
      | some buffer =>
          have written := (writes_eq standing).trans found
          obtain ⟨file, file', points, rfl, appended⟩ := onOutput_writing handled written
          obtain ⟨earlier, last, old, new⟩ :=
            LogFile.append_contents appended (admitted buffer written)
          rw [contents, points, AsyncLogging.write_texts standing found] at grouped
          dsimp only at grouped
          rw [old, List.append_assoc, List.singleton_append] at grouped
          have joined := grouped.join
          simp only [contents]
          rcases new with kept | rolled
          · rw [kept, List.append_assoc]
            exact joined
          · rw [rolled, List.append_assoc]
            rw [← List.singleton_append, ← List.append_assoc] at joined
            simpa only [List.append_assoc, List.cons_append, List.nil_append] using joined.insert_nil
  | _ =>
      exact unchanged (by simp [standing]) (by simp [writes, standing])
        (AsyncLogging.advance_texts owned advanced (by simp [standing]) (by simp [standing]))

theorem step_whole (whole : before.Whole) {action : PipelineAction} (admitted : before.Admits action)
    (stepped : before.step action = .ok after) : after.Whole := by
  cases action with
  | append logline => exact append_whole whole admitted stepped
  | backend around => exact backend_whole whole admitted stepped
  | stop =>
      obtain ⟨current, owned⟩ := whole.owned
      obtain ⟨log, stopped, stepped⟩ := bind_eq_ok.mp stepped
      cases stepped
      have kept := (AsyncLogging.step_owned owned (show before.log.Admits .stop from trivial)).of_ok stopped
      obtain ⟨started, stopped⟩ := assume_bind_eq_ok.mp stopped
      cases stopped
      exact ⟨kept, fun starting => absurd starting started, whole.grouped⟩

/-- No line is torn between two log files, lost, repeated or moved: the files together with the
waiting buffers are the lines in lock order, and each file is some consecutive whole lines. -/
theorem lines_whole {actions : List PipelineAction}
    (run : Execution step Admits (start basename rollSize) actions pipeline) :
    ∃ written rest, pipeline.log.appended = written ++ rest ∧ Grouped written pipeline.contents ∧
      rest.flatten = AsyncLogging.contentsOf pipeline.log.heap pipeline.log.waiting := by
  have whole : pipeline.Whole :=
    run.invariant start_whole fun _ _ _ whole admitted stepped => step_whole whole admitted stepped
  obtain ⟨written, rest, lines, files, held⟩ := Grouped.append_iff.mp whole.grouped
  refine ⟨written, rest, lines, files, ?_⟩
  rw [← held.flatten_eq, AsyncLogging.texts, AsyncLogging.textsOf, AsyncLogging.contentsOf,
    List.flatMap_def]

/-- The theorem at a run in which the log rolls between two buffers and a line still waits. -/
theorem lines_whole_rolled : ∃ (pipeline : LogPipeline) (written rest : List Bytes),
    pipeline.contents = [[1, 2, 3], [4]] ∧ Grouped written pipeline.contents ∧
      written ++ rest = [[1, 2], [3], [4], [5, 6]] := by
  let actions : List PipelineAction := [
    .append [1, 2], .append [3], .backend ⟨[], 100, 100, true⟩, .backend ⟨[], 100, 100, true⟩,
    .backend ⟨[], 100, 100, true⟩, .backend ⟨[], 100, 100, true⟩, .append [4],
    .backend ⟨[⟨2, 2⟩, ⟨1, 0⟩], 101, 101, true⟩, .backend ⟨[], 101, 101, true⟩,
    .backend ⟨[], 101, 101, true⟩, .backend ⟨[], 101, 101, true⟩, .backend ⟨[], 101, 101, true⟩,
    .backend ⟨[], 101, 101, true⟩, .backend ⟨[], 101, 101, true⟩, .append [5, 6],
    .backend ⟨[⟨1, 1⟩], 102, 102, true⟩]
  have replayed : (replay step Admits .impossible (start [108] 2) actions).toOption.any
      (fun pipeline => decide (pipeline.contents = [[1, 2, 3], [4]] ∧
        pipeline.log.appended = [[1, 2], [3], [4], [5, 6]])) = true := by decide +kernel
  obtain ⟨pipeline, run, tested⟩ := Execution.exists_of_replay replayed
  obtain ⟨contents, appended⟩ := of_decide_eq_true tested
  obtain ⟨written, rest, lines, whole, _⟩ := lines_whole run
  exact ⟨pipeline, written, rest, contents, whole, lines.symm.trans appended⟩

end LogPipeline

end TransferServer.Base
