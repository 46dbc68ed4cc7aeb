import TransferServer.Lib.Execution
import TransferServer.Base.LogFile

/-! Every byte appended to a `LogFile` is in one of the streams it has opened. `flush` reaches
only the stream that `file_` points to, so what a replaced one still buffers stays there. -/

set_option autoImplicit false

namespace TransferServer.Base

open Lib

section Streams

theorem Stream.fwrite_spec {fp after : Stream} {logline : Bytes} {result : Fwrite} {n : Nat}
    (wrote : fp.fwrite logline result = .ok (after, n)) :
    n = result.accepted ∧ after.contents = fp.contents ++ logline.take n ∧
      after.buffered.length = result.kept := by
  obtain ⟨_, wrote⟩ := assume_bind_eq_ok.mp wrote
  obtain ⟨⟨_, kept⟩, wrote⟩ := assume_bind_eq_ok.mp wrote
  cases wrote
  exact ⟨rfl, BufferedStream.contents_put _ _ _, BufferedStream.length_buffered_put kept⟩

/-- As long as each `fwrite` accepts something, the loop leaves nothing of the line out. -/
theorem Stream.writeRemaining_spec {fp after : Stream} {remaining : Bytes} {results : List Fwrite}
    (wrote : fp.writeRemaining remaining results = .ok after)
    (progress : ∀ result ∈ results, result.accepted ≠ 0) :
    after.contents = fp.contents ++ remaining ∧
      after.buffered.length = (results.getLast?.map (·.kept)).getD fp.buffered.length := by
  induction results generalizing fp remaining with
  | nil =>
      obtain ⟨rfl, wrote⟩ := assume_bind_eq_ok.mp wrote
      cases wrote
      exact ⟨(List.append_nil _).symm, rfl⟩
  | cons result results ih =>
      obtain ⟨_, wrote⟩ := assume_bind_eq_ok.mp wrote
      obtain ⟨⟨next, x⟩, taken, wrote⟩ := bind_eq_ok.mp wrote
      obtain ⟨rfl, contents, kept⟩ := Stream.fwrite_spec taken
      dsimp only at wrote
      rw [if_neg (progress result List.mem_cons_self)] at wrote
      obtain ⟨whole, left⟩ := ih wrote fun later present =>
        progress later (List.mem_cons_of_mem _ present)
      constructor
      · rw [whole, contents, List.append_assoc, List.take_append_drop]
      · rw [left, kept, List.getLast?_cons]
        cases results.getLast? <;> rfl

end Streams

/-- What the buffer of the stream holds after the last `fwrite`. -/
def Surroundings.leftover (around : Surroundings) : Nat :=
  (around.results.getLast?.map (·.kept)).getD 0

/-- No `fwrite` fails: one that is given something accepts some of it. -/
def Surroundings.Progress (around : Surroundings) (logline : Bytes) : Prop :=
  logline ≠ [] → ∀ result ∈ around.results, result.accepted ≠ 0

theorem File.append_spec {file after : File} {logline : Bytes} {around : Surroundings}
    (appended : file.append logline around.results = .ok after)
    (progress : around.Progress logline) :
    after.fp.contents = file.fp.contents ++ logline ∧
      after.fp.buffered.length = around.leftover := by
  unfold Surroundings.leftover
  unfold Surroundings.Progress at progress
  generalize around.results = results at *
  cases results with
  | nil => cases appended
  | cons result results =>
      obtain ⟨⟨next, n⟩, taken, appended⟩ := bind_eq_ok.mp appended
      obtain ⟨rfl, contents, kept⟩ := Stream.fwrite_spec taken
      obtain ⟨fp, wrote, appended⟩ := bind_eq_ok.mp appended
      cases appended
      have later : ∀ other ∈ results, other.accepted ≠ 0 := by
        by_cases empty : logline = []
        · cases results with
          | nil => exact fun other present => absurd present List.not_mem_nil
          | cons other results =>
              obtain ⟨more, _⟩ := assume_bind_eq_ok.mp wrote
              rw [empty, List.drop_nil] at more
              exact absurd rfl more
        · exact fun other present => progress empty other (List.mem_cons_of_mem _ present)
      obtain ⟨whole, left⟩ := Stream.writeRemaining_spec wrote later
      constructor
      · rw [whole, contents, List.append_assoc, List.take_append_drop]
      · rw [left, kept, List.getLast?_cons]
        cases results.getLast? <;> rfl

theorem File.writtenBytes_append {file after : File} {logline : Bytes} {results : List Fwrite}
    (appended : file.append logline results = .ok after) :
    after.writtenBytes = file.writtenBytes + logline.length := by
  cases results with
  | nil => cases appended
  | cons result results =>
      obtain ⟨_, _, appended⟩ := bind_eq_ok.mp appended
      obtain ⟨fp, _, appended⟩ := bind_eq_ok.mp appended
      cases appended
      rfl

namespace LogFile

/-- The `append` goes on to put a new file in place of the one it wrote to: it has grown
past `rollSize`, or the check of the clock finds another day, and the clock has moved on
since the last roll. -/
def Replaces (log : LogFile) (logline : Bytes) (around : Surroundings) : Prop :=
  log.lastRoll < around.rollNow ∧
    (log.rollSize < (log.file.map (·.writtenBytes)).getD 0 + logline.length ∨
      kCheckTimeRoll < log.count ∧ period around.now ≠ log.startOfPeriod)

instance (log : LogFile) (logline : Bytes) (around : Surroundings) :
    Decidable (log.Replaces logline around) :=
  inferInstanceAs (Decidable (_ ∧ (_ ∨ _ ∧ _)))

theorem rollFile_spec {log after : LogFile} {now : Int} {opened : Bool}
    (rolled : log.rollFile now opened = .ok after) :
    (log.lastRoll < now ∧ after.replaced = log.replaced ++ log.file.toList ∧
      after.file = some ⟨.empty, 0⟩) ∨ ¬ log.lastRoll < now ∧ after = log := by
  unfold rollFile at rolled
  by_cases later : log.lastRoll < now
  · rw [if_pos later] at rolled
    obtain ⟨file, constructed, rolled⟩ := bind_eq_ok.mp rolled
    obtain ⟨_, constructed⟩ := assert_bind_eq_ok.mp constructed
    cases constructed
    cases rolled
    exact .inl ⟨later, rfl, rfl⟩
  · rw [if_neg later] at rolled
    cases rolled
    exact .inr ⟨later, rfl⟩

theorem deref_eq_ok {log : LogFile} {file : File} :
    log.deref = .ok file ↔ log.file = some file := by
  unfold deref
  cases log.file with
  | none => simp [throw_eq_error]
  | some pointed => simp [pure_eq_ok]

/-- Everything an `append` can do: the line goes to the file in place, which is then
replaced, kept, or kept and flushed. -/
theorem append_cases {log after : LogFile} {logline : Bytes} {around : Surroundings}
    (appended : log.append logline around = .ok after) :
    ∃ file file', log.file = some file ∧ file.append logline around.results = .ok file' ∧
      (log.Replaces logline around ∧ after.replaced = log.replaced ++ [file'] ∧
          after.file = some ⟨.empty, 0⟩ ∨
        ¬ log.Replaces logline around ∧ after.replaced = log.replaced ∧
          (after.file = some file' ∨ after.file = some file'.flush)) := by
  obtain ⟨file, pointed, appended⟩ := bind_eq_ok.mp appended
  obtain ⟨file', wrote, appended⟩ := bind_eq_ok.mp appended
  have points := deref_eq_ok.mp pointed
  have size := File.writtenBytes_append wrote
  have replaces_iff : log.Replaces logline around ↔ log.lastRoll < around.rollNow ∧
      (log.rollSize < file'.writtenBytes ∨
        kCheckTimeRoll < log.count ∧ period around.now ≠ log.startOfPeriod) := by
    rw [Replaces, points, size]
    rfl
  refine ⟨file, file', points, wrote, ?_⟩
  rw [replaces_iff]
  by_cases large : log.rollSize < file'.writtenBytes
  · rw [if_pos large] at appended
    rcases rollFile_spec appended with ⟨later, replaced, fresh⟩ | ⟨early, rfl⟩
    · exact .inl ⟨⟨later, .inl large⟩, replaced, fresh⟩
    · exact .inr ⟨fun replaces => early replaces.1, rfl, .inl rfl⟩
  · rw [if_neg large] at appended
    by_cases checked : kCheckTimeRoll < log.count
    · rw [if_pos checked] at appended
      by_cases other : period around.now ≠ log.startOfPeriod
      · rw [if_pos other] at appended
        rcases rollFile_spec appended with ⟨later, replaced, fresh⟩ | ⟨early, rfl⟩
        · exact .inl ⟨⟨later, .inr ⟨checked, other⟩⟩, replaced, fresh⟩
        · exact .inr ⟨fun replaces => early replaces.1, rfl, .inl rfl⟩
      · rw [if_neg other] at appended
        have stays : ¬ (log.lastRoll < around.rollNow ∧ (log.rollSize < file'.writtenBytes ∨
            kCheckTimeRoll < log.count ∧ period around.now ≠ log.startOfPeriod)) :=
          fun replaces => replaces.2.elim large fun day => other day.2
        split at appended
        · cases appended
          exact .inr ⟨stays, rfl, .inr rfl⟩
        · cases appended
          exact .inr ⟨stays, rfl, .inl rfl⟩
    · rw [if_neg checked] at appended
      cases appended
      exact .inr ⟨fun replaces => replaces.2.elim large fun day => checked day.1, rfl, .inl rfl⟩

/-- All files opened so far, the one in place last. -/
def files (log : LogFile) : List File := log.replaced ++ log.file.toList

def streams (log : LogFile) : List Stream := log.files.map (·.fp)

/-- What the operating system has been handed, file after file. -/
def handed (log : LogFile) : Bytes := log.streams.flatMap (·.written)

/-- No file that `file_` no longer points to holds bytes back. -/
def Settled (log : LogFile) : Prop := ∀ file ∈ log.replaced, file.fp.buffered = []

theorem streams_of {log : LogFile} {file : File} (points : log.file = some file) :
    log.streams = log.replaced.map (·.fp) ++ [file.fp] := by
  simp [streams, files, points]

end LogFile

inductive LogFileAction where
  | append (logline : Bytes) (around : Surroundings)
  | flush
  deriving DecidableEq, Repr

/-- The log with all that has been appended to it, in the order of the calls. -/
structure LogHistory where
  log : LogFile
  appended : Bytes
  deriving DecidableEq, Repr

namespace LogHistory

def step (history : LogHistory) : LogFileAction → Outcome LogHistory
  | .append logline around => do
      let log ← history.log.append logline around
      return ⟨log, history.appended ++ logline⟩
  | .flush => do
      let log ← history.log.flush
      return { history with log }

/-- The stream accepts what it is given, whatever it keeps in its buffer. -/
def Admits (_ : LogHistory) : LogFileAction → Prop
  | .append logline around => around.Progress logline
  | .flush => True

/-- An `append` that replaces the file leaves nothing in the buffer of its stream. -/
def LeavesNone (history : LogHistory) : LogFileAction → Prop
  | .append logline around => history.log.Replaces logline around → around.leftover = 0
  | .flush => True

/-- The bytes appended are those that the streams have taken in, in order. -/
def Conserved (history : LogHistory) : Prop :=
  history.log.streams.flatMap (·.contents) = history.appended

/-- What a step does to the streams: none loses a byte, and the replaced ones stay settled
iff this step leaves nothing behind. -/
theorem step_spec {before after : LogHistory} {action : LogFileAction}
    (conserved : before.Conserved) (admitted : before.Admits action)
    (stepped : before.step action = .ok after) :
    after.Conserved ∧ (after.log.Settled ↔ before.log.Settled ∧ before.LeavesNone action) := by
  cases action with
  | append logline around =>
      obtain ⟨log, appended, stepped⟩ := bind_eq_ok.mp stepped
      cases stepped
      obtain ⟨file, file', points, wrote, rolled⟩ := LogFile.append_cases appended
      obtain ⟨contents, left⟩ := File.append_spec wrote admitted
      rw [Conserved, LogFile.streams_of points, List.flatMap_append, List.flatMap_singleton] at conserved
      have whole : (before.log.replaced.map (·.fp)).flatMap (·.contents) ++ file'.fp.contents =
          before.appended ++ logline := by
        rw [contents, ← List.append_assoc, conserved]
      rcases rolled with ⟨replaces, replaced, fresh⟩ | ⟨stays, replaced, kept⟩
      · constructor
        · rw [Conserved, LogFile.streams_of fresh, replaced, ← whole]
          simp
        · rw [LogFile.Settled, replaced, List.forall_mem_append, List.forall_mem_singleton,
            ← List.length_eq_zero_iff, left]
          exact and_congr_right fun _ => ⟨fun none _ => none, fun leaves => leaves replaces⟩
      · have same : log.Settled ↔ before.log.Settled := by rw [LogFile.Settled, replaced]; rfl
        constructor
        · rcases kept with here | flushed
          · rw [Conserved, LogFile.streams_of here, replaced, ← whole]
            simp
          · rw [Conserved, LogFile.streams_of flushed, replaced, ← whole]
            simp [File.flush]
        · rw [same]
          exact (and_iff_left fun replaces => absurd replaces stays).symm
  | flush =>
      obtain ⟨log, flushed, stepped⟩ := bind_eq_ok.mp stepped
      cases stepped
      obtain ⟨file, pointed, flushed⟩ := bind_eq_ok.mp flushed
      cases flushed
      have points := LogFile.deref_eq_ok.mp pointed
      rw [Conserved, LogFile.streams_of points] at conserved
      constructor
      · rw [Conserved, LogFile.streams_of rfl, ← conserved]
        simp [File.flush]
      · exact (and_iff_left trivial).symm

theorem construct_spec {basename : Bytes} {rollSize : Nat} {flushInterval now : Int} {opened : Bool}
    {log : LogFile} (constructed : LogFile.construct basename rollSize flushInterval now opened = .ok log) :
    Conserved ⟨log, []⟩ ∧ log.Settled := by
  obtain ⟨_, constructed⟩ := assert_bind_eq_ok.mp constructed
  rcases LogFile.rollFile_spec constructed with ⟨_, replaced, fresh⟩ | ⟨_, rfl⟩
  · constructor
    · rw [Conserved, LogFile.streams_of fresh, replaced]
      rfl
    · rw [LogFile.Settled, replaced]
      exact fun file present => absurd present List.not_mem_nil
  · exact ⟨rfl, fun file present => absurd present List.not_mem_nil⟩

theorem run_spec {start before : LogHistory} {actions : List LogFileAction}
    (run : Execution step Admits start actions before) (conserved : start.Conserved)
    (settled : start.log.Settled) :
    before.Conserved ∧ (before.log.Settled ↔ Execution step
      (fun history action => history.Admits action ∧ history.LeavesNone action) start actions before) := by
  induction run with
  | nil => exact ⟨conserved, fun _ => .nil, fun _ => settled⟩
  | snoc earlier admitted stepped ih =>
      obtain ⟨conserved, settles⟩ := ih
      obtain ⟨conserved', settles'⟩ := step_spec conserved admitted stepped
      refine ⟨conserved', ?_⟩
      rw [settles', settles]
      constructor
      · rintro ⟨run, leaves⟩
        exact .snoc run ⟨admitted, leaves⟩ stepped
      · intro run
        obtain ⟨middle, run', ⟨_, leaves⟩, _⟩ := Execution.snoc_iff.mp run
        cases run'.unique earlier
        exact ⟨run', leaves⟩

/-- When `flush` returns, the operating system has been handed every byte appended iff each
`append` that replaced the file had left nothing in the buffer of its stream. -/
theorem flush_hands_all_iff {basename : Bytes} {rollSize : Nat} {flushInterval now : Int}
    {opened : Bool} {log : LogFile} {before after : LogHistory} {actions : List LogFileAction}
    (constructed : LogFile.construct basename rollSize flushInterval now opened = .ok log)
    (run : Execution step Admits ⟨log, []⟩ actions before)
    (flushed : before.step .flush = .ok after) :
    after.log.handed = after.appended ↔ Execution step
      (fun history action => history.Admits action ∧ history.LeavesNone action)
      ⟨log, []⟩ actions before := by
  obtain ⟨conserved, settled⟩ := construct_spec constructed
  obtain ⟨conserved, settles⟩ := run_spec run conserved settled
  have admitted : before.Admits .flush := trivial
  obtain ⟨conserved', settles'⟩ := step_spec conserved admitted flushed
  rw [← settles, ← conserved', LogFile.handed, BufferedStream.flatMap_written_eq_iff]
  obtain ⟨log, performed, flushed⟩ := bind_eq_ok.mp flushed
  cases flushed
  obtain ⟨file, _, performed⟩ := bind_eq_ok.mp performed
  cases performed
  rw [LogFile.streams_of rfl, List.forall_mem_append, List.forall_mem_map, List.forall_mem_singleton]
  exact and_iff_left (BufferedStream.buffered_flush _)

instance (history : LogHistory) (action : LogFileAction) : Decidable (history.Admits action) :=
  match action with
  | .append logline around =>
      inferInstanceAs (Decidable (logline ≠ [] → ∀ result ∈ around.results, result.accepted ≠ 0))
  | .flush => .isTrue trivial

instance (history : LogHistory) (action : LogFileAction) : Decidable (history.LeavesNone action) :=
  match action with
  | .append logline around =>
      inferInstanceAs (Decidable (history.log.Replaces logline around → around.leftover = 0))
  | .flush => .isTrue trivial

/-- The theorem at a log that rolls right after a line that left the buffer empty. -/
theorem flush_hands_all_iff_rolled :
    ∃ before after : LogHistory, before.step .flush = .ok after ∧
      after.log.replaced.length = 1 ∧ after.log.handed = after.appended := by
  let start : LogFile := ⟨4, 3, 0, LogFile.period 100, 100, 100, some ⟨.empty, 0⟩, []⟩
  have constructed : LogFile.construct [108] 4 3 100 true = .ok start := by rfl
  let actions : List LogFileAction := [
    .append [1, 2, 3] ⟨[⟨2, 2⟩, ⟨1, 3⟩], 101, 101, true⟩, .flush,
    .append [4, 5] ⟨[⟨2, 0⟩], 102, 102, true⟩, .append [6] ⟨[⟨1, 1⟩], 103, 103, true⟩]
  have replayed : (replay step (fun history action => history.Admits action ∧ history.LeavesNone action)
      .impossible ⟨start, []⟩ actions).toOption.any (fun before =>
        (before.step .flush).toOption.any fun after => decide (after.log.replaced.length = 1)) = true := by
    decide +kernel
  obtain ⟨before, run, tested⟩ := Execution.exists_of_replay replayed
  obtain ⟨after, flushed, tested⟩ := exists_ok_of_any tested
  have admitted := run.weaken fun _ _ admitted => admitted.1
  exact ⟨before, after, flushed, of_decide_eq_true tested,
    (flush_hands_all_iff constructed admitted flushed).mpr run⟩

/-- A line of two bytes passes `rollSize` while it waits in the buffer of the stream. -/
theorem flush_strands_bytes :
    ∃ before after : LogHistory,
      LogFile.construct [108] 1 3 100 true =
        .ok ⟨1, 3, 0, LogFile.period 100, 100, 100, some ⟨.empty, 0⟩, []⟩ ∧
      Execution step Admits
        ⟨⟨1, 3, 0, LogFile.period 100, 100, 100, some ⟨.empty, 0⟩, []⟩, []⟩
        [.append [1, 2] ⟨[⟨2, 2⟩], 101, 101, true⟩] before ∧
      before.step .flush = .ok after ∧ after.appended = [1, 2] ∧ after.log.handed = [] := by
  have replayed : (replay step Admits .impossible
      ⟨⟨1, 3, 0, LogFile.period 100, 100, 100, some ⟨.empty, 0⟩, []⟩, []⟩
      [.append [1, 2] ⟨[⟨2, 2⟩], 101, 101, true⟩]).toOption.any (fun before =>
        (before.step .flush).toOption.any fun after =>
          decide (after.appended = [1, 2] ∧ after.log.handed = [])) = true := by
    decide +kernel
  obtain ⟨before, run, tested⟩ := Execution.exists_of_replay replayed
  obtain ⟨after, flushed, tested⟩ := exists_ok_of_any tested
  exact ⟨before, after, rfl, run, flushed, of_decide_eq_true tested⟩

end LogHistory

end TransferServer.Base
