import Mathlib.Data.List.Forall2
import TransferServer.Base.LogHeader
import TransferServer.Base.LogPipelineProperties

/-! From a log statement to a log file. The threads of the process hand their records to the
asynchronous log (`asyncOutput`, test_multithreads.cc), whose backend writes them to its files. -/

set_option autoImplicit false

namespace TransferServer.Base

open Lib

/-- The threads, and the log that `asyncOutput` appends to. -/
structure LoggingSystem where
  threads : Nat → LoggingThread
  pipeline : LogPipeline

inductive LoggingAction where
  | statement (thread : Nat) (statement : LogStatement)
  | backend (around : Surroundings)
  | stop

/-- The instant that a statement shows. -/
def LoggingAction.instant? : LoggingAction → Option Int
  | .statement _ logged => some logged.now
  | .backend _ => none
  | .stop => none

namespace LoggingSystem

def start (threads : Nat → LoggingThread) (basename : Bytes) (rollSize : Nat) : LoggingSystem :=
  ⟨threads, .start basename rollSize⟩

def step (system : LoggingSystem) : LoggingAction → Outcome LoggingSystem
  | .statement thread statement => do
      let (kept, texts) ← statement.execute (system.threads thread)
      let pipeline ← texts.foldlM (fun pipeline text => pipeline.step (.append text)) system.pipeline
      return { threads := Function.update system.threads thread kept, pipeline }
  | .backend around => do
      let pipeline ← system.pipeline.step (.backend around)
      return { system with pipeline }
  | .stop => do
      let pipeline ← system.pipeline.step .stop
      return { system with pipeline }

/-- A record that finds the current buffer full finds a spare one, and no `fwrite` fails. -/
def Admits (system : LoggingSystem) : LoggingAction → Prop
  | .statement thread statement => Dated statement.now ∧
      ∀ executed ∈ (statement.execute (system.threads thread)).toOption, ∀ text ∈ executed.2,
        system.pipeline.log.FindsFull text → system.pipeline.log.SpareUnused
  | .backend around => system.pipeline.Admits (.backend around)
  | .stop => True

instance (system : LoggingSystem) (action : LoggingAction) : Decidable (system.Admits action) :=
  match action with
  | .statement _ _ =>
      have (text : Bytes) : Decidable (system.pipeline.log.FindsFull text) :=
        inferInstanceAs (Decidable (∃ _ ∈ _, _))
      have : Decidable system.pipeline.log.SpareUnused := inferInstanceAs (Decidable (∀ _ ∈ _, _))
      inferInstanceAs (Decidable (_ ∧ _))
  | .backend around => inferInstanceAs (Decidable (system.pipeline.Admits (.backend around)))
  | .stop => .isTrue trivial

variable {system before after : LoggingSystem} {threads : Nat → LoggingThread} {basename : Bytes}
variable {rollSize : Nat} {instants : List Int}

/-- The lines of the log are the records of the statements, in order. -/
structure Recorded (instants : List Int) (system : LoggingSystem) : Prop where
  cached : ∀ thread, (system.threads thread).Cached
  whole : system.pipeline.Whole
  records : List.Forall₂ RecordOf instants system.pipeline.log.appended

theorem append_appended {pipeline pipeline' : LogPipeline} {text : Bytes} (whole : pipeline.Whole)
    (admitted : pipeline.Admits (.append text))
    (stepped : pipeline.step (.append text) = .ok pipeline') :
    pipeline'.log.appended = pipeline.log.appended ++ [text] := by
  obtain ⟨current, owned⟩ := whole.owned
  obtain ⟨log, appended, returned⟩ := bind_eq_ok.mp stepped
  cases returned
  exact (AsyncLogging.append_passed owned admitted appended).2.2.2.2

theorem backend_appended {pipeline pipeline' : LogPipeline} {around : Surroundings}
    (whole : pipeline.Whole) (stepped : pipeline.step (.backend around) = .ok pipeline') :
    pipeline'.log.appended = pipeline.log.appended := by
  obtain ⟨current, owned⟩ := whole.owned
  obtain ⟨log, advanced, stepped⟩ := bind_eq_ok.mp stepped
  obtain ⟨output, _, returned⟩ := bind_eq_ok.mp stepped
  cases returned
  exact (AsyncLogging.advance_advances owned advanced).appended

theorem statement_recorded {thread : Nat} {statement : LogStatement}
    (recorded : before.Recorded instants) (admitted : before.Admits (.statement thread statement))
    (stepped : before.step (.statement thread statement) = .ok after) :
    after.Recorded (instants ++ [statement.now]) := by
  obtain ⟨dated, spare⟩ := admitted
  obtain ⟨⟨kept, texts⟩, executed, stepped⟩ := bind_eq_ok.mp stepped
  obtain ⟨pipeline, appended, returned⟩ := bind_eq_ok.mp stepped
  cases returned
  obtain ⟨cached, text, rfl, record⟩ := LogStatement.execute_spec dated (recorded.cached thread) executed
  obtain ⟨pipeline', appended, rest⟩ := bind_eq_ok.mp appended
  cases rest
  have small : text.length < kLargeBuffer := Nat.lt_of_le_of_lt record.2 (by decide)
  have fits : before.pipeline.Admits (.append text) :=
    ⟨small, spare (kept, [text]) (by rw [executed]; rfl) text List.mem_cons_self⟩
  refine ⟨fun other => ?_, LogPipeline.append_whole recorded.whole fits appended, ?_⟩
  · dsimp only
    rw [Function.update_apply]
    split
    · exact cached
    · exact recorded.cached other
  · dsimp only
    rw [append_appended recorded.whole fits appended]
    exact List.rel_append recorded.records (.cons record .nil)

theorem step_recorded {action : LoggingAction} (recorded : before.Recorded instants)
    (admitted : before.Admits action) (stepped : before.step action = .ok after) :
    after.Recorded (instants ++ action.instant?.toList) := by
  cases action with
  | statement thread statement => exact statement_recorded recorded admitted stepped
  | backend around =>
      obtain ⟨pipeline, written, returned⟩ := bind_eq_ok.mp stepped
      cases returned
      refine ⟨recorded.cached, LogPipeline.step_whole recorded.whole
        (show before.pipeline.Admits (.backend around) from admitted) written, ?_⟩
      change List.Forall₂ RecordOf (instants ++ []) pipeline.log.appended
      rw [backend_appended recorded.whole written, List.append_nil]
      exact recorded.records
  | stop =>
      obtain ⟨pipeline, stopped, returned⟩ := bind_eq_ok.mp stepped
      cases returned
      refine ⟨recorded.cached, LogPipeline.step_whole recorded.whole
        (show before.pipeline.Admits .stop from trivial) stopped, ?_⟩
      obtain ⟨log, halted, stopped⟩ := bind_eq_ok.mp stopped
      obtain ⟨_, halted⟩ := assume_bind_eq_ok.mp halted
      cases stopped
      cases halted
      change List.Forall₂ RecordOf (instants ++ []) before.pipeline.log.appended
      rw [List.append_nil]
      exact recorded.records

theorem run_recorded {actions : List LoggingAction} (fresh : ∀ thread, (threads thread).lastSecond = 0)
    (run : Execution step Admits (start threads basename rollSize) actions system) :
    system.Recorded (actions.filterMap LoggingAction.instant?) := by
  induction run with
  | nil => exact ⟨fun thread => .inl (fresh thread), LogPipeline.start_whole, .nil⟩
  | @snoc earlier before after action run admitted stepped ih =>
      have recorded := step_recorded ih admitted stepped
      rw [List.filterMap_append]
      cases action with
      | statement thread statement => exact recorded
      | backend around => exact recorded
      | stop => exact recorded

/-- In every run each statement makes one record, which begins with its own instant, and the log
files together with the buffers that wait hold these records as they were appended: each file is
some consecutive whole records. -/
theorem records_reach_files {actions : List LoggingAction}
    (fresh : ∀ thread, (threads thread).lastSecond = 0)
    (run : Execution step Admits (start threads basename rollSize) actions system) :
    ∃ written rest, List.Forall₂ RecordOf (actions.filterMap LoggingAction.instant?) (written ++ rest) ∧
      Grouped written system.pipeline.contents ∧
      rest.flatten = AsyncLogging.contentsOf system.pipeline.log.heap system.pipeline.log.waiting := by
  have recorded := run_recorded fresh run
  obtain ⟨written, rest, lines, files, held⟩ := Grouped.append_iff.mp recorded.whole.grouped
  refine ⟨written, rest, lines ▸ recorded.records, files, ?_⟩
  rw [← held.flatten_eq, AsyncLogging.texts, AsyncLogging.textsOf, AsyncLogging.contentsOf,
    List.flatMap_def]

/-- The theorem at two threads whose records the backend has written to one file. -/
theorem records_reach_files_two : ∃ (system : LoggingSystem) (written rest : List Bytes),
    system.pipeline.contents.map List.length = [112] ∧ Grouped written system.pipeline.contents ∧
      List.Forall₂ RecordOf [1700000001000000, 1700000000999999] (written ++ rest) := by
  let actions : List LoggingAction := [
    .statement 1 (LoggingProcess.warning 1700000001000000),
    .statement 0 (LoggingProcess.warning 1700000000999999),
    .backend ⟨[], 100, 100, true⟩, .backend ⟨[], 100, 100, true⟩, .backend ⟨[], 100, 100, true⟩,
    .backend ⟨[], 100, 100, true⟩, .backend ⟨[⟨112, 0⟩], 100, 100, true⟩]
  have replayed : (replay step Admits .impossible (start (fun _ => Logger.poolThread) [108] 1000)
      actions).toOption.any (fun system => decide
        (system.pipeline.contents.map List.length = [112])) = true := by
    decide +kernel
  obtain ⟨system, run, tested⟩ := Execution.exists_of_replay replayed
  obtain ⟨written, rest, records, files, _⟩ := records_reach_files (fun _ => rfl) run
  exact ⟨system, written, rest, of_decide_eq_true tested, files, records⟩

end LoggingSystem

end TransferServer.Base
