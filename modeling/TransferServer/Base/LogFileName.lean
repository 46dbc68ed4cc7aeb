import TransferServer.Base.CivilTime
import TransferServer.Base.LogFileProperties

/-! The names of the log files (`LogFile::getLogFileName`). The log rolls only once the clock shows a
later second than the name of the file in place, so no name is given twice. -/

set_option autoImplicit false

namespace TransferServer.Base

open Lib

/-- `strftime` with `".%Y%m%d-%H%M%S"` -/
def timebuf (tm : Tm) : Bytes :=
  [46] ++ decimal (tm.tmYear + 1900) ++ zeroPad 2 (tm.tmMon + 1) ++ zeroPad 2 tm.tmMday ++ [45] ++
    zeroPad 2 tm.tmHour ++ zeroPad 2 tm.tmMin ++ zeroPad 2 tm.tmSec

def getLogFileName (basename : Bytes) (pid now : Int) : Bytes :=
  basename ++ timebuf (gmtime_r now) ++ ([46] ++ decimal pid) ++ [46, 108, 111, 103]

theorem timebuf_eq {tm : Tm} (printable : tm.Printable) :
    timebuf tm = [46] ++ decimalGlyphs.fields (clockLayout [45] []) tm.values := by
  obtain ⟨year, mon, mday, hour, min, sec⟩ := printable
  rw [timebuf, decimal_eq_padded (show 0 < 3 by decide) (by omega) (by omega), zeroPad_eq _ mon.1,
    zeroPad_eq _ mday.1, zeroPad_eq _ hour.1, zeroPad_eq _ min.1, zeroPad_eq _ sec.1]
  simp [clockLayout, Tm.values, Glyphs.fields]

theorem getLogFileName_lt (basename : Bytes) (pid : Int) {now later : Int} (civil : Civil now)
    (civil' : Civil later) (lt : now < later) :
    getLogFileName basename pid now < getLogFileName basename pid later := by
  have fits := values_fit (gmtime_printable civil) [45] []
  have fits' := values_fit (gmtime_printable civil') [45] []
  unfold getLogFileName
  rw [timebuf_eq (gmtime_printable civil), timebuf_eq (gmtime_printable civil')]
  simp only [List.append_assoc]
  refine List.append_left_lt (List.append_left_lt (append_lt_append ?_ ?_ _ _))
  · exact decimalGlyphs.fields_lt glyph_lt fits fits' (values_lt civil lt)
  · rw [decimalGlyphs.length_fields fits, decimalGlyphs.length_fields fits']

namespace LogFile

variable {log after : LogFile} {logline : Bytes}

theorem rollFile_lastRoll {now : Int} {opened : Bool} (rolled : log.rollFile now opened = .ok after) :
    after.lastRoll = if log.lastRoll < now then now else log.lastRoll := by
  unfold rollFile at rolled
  split at rolled
  · next later =>
      obtain ⟨_, _, rolled⟩ := bind_eq_ok.mp rolled
      cases rolled
      exact (if_pos later).symm
  · next early =>
      cases rolled
      exact (if_neg early).symm

theorem append_lastRoll {around : Surroundings} (appended : log.append logline around = .ok after) :
    after.lastRoll = if log.Replaces logline around then around.rollNow else log.lastRoll := by
  obtain ⟨file, pointed, appended⟩ := bind_eq_ok.mp appended
  obtain ⟨file', wrote, appended⟩ := bind_eq_ok.mp appended
  have size := File.writtenBytes_append wrote
  have replaces_iff : log.Replaces logline around ↔ log.lastRoll < around.rollNow ∧
      (log.rollSize < file'.writtenBytes ∨
        kCheckTimeRoll < log.count ∧ period around.now ≠ log.startOfPeriod) := by
    rw [Replaces, deref_eq_ok.mp pointed, size]
    rfl
  simp only [replaces_iff]
  dsimp only at appended
  split at appended
  · next large =>
      rw [rollFile_lastRoll appended]
      simp [large]
  · next small =>
      split at appended
      · next checked =>
          split at appended
          · next other =>
              rw [rollFile_lastRoll appended]
              simp [checked, other]
          · next same =>
              have stays : log.lastRoll = if log.lastRoll < around.rollNow ∧
                  (log.rollSize < file'.writtenBytes ∨
                    kCheckTimeRoll < log.count ∧ period around.now ≠ log.startOfPeriod)
                  then around.rollNow else log.lastRoll := by
                rw [if_neg fun replaces => replaces.2.elim small fun day => same day.2]
              split at appended
              · cases appended
                exact stays
              · cases appended
                exact stays
      · next unchecked =>
          cases appended
          rw [if_neg fun replaces => replaces.2.elim small fun day => unchecked day.1]

end LogFile

/-- A log with the names that were given to `fopen`, in the order of the calls. -/
structure NamedLogFile where
  basename : Bytes
  pid : Int
  log : LogFile
  names : List Bytes
  deriving DecidableEq, Repr

namespace NamedLogFile

/-- `log` after a member that has opened a file at `now`, if it has opened one at all. -/
def opening (named : NamedLogFile) (log : LogFile) (opens : Prop) [Decidable opens] (now : Int) :
    NamedLogFile :=
  { named with
    log
    names := if opens then named.names ++ [getLogFileName named.basename named.pid now]
      else named.names }

def construct (basename : Bytes) (pid : Int) (rollSize : Nat) (flushInterval now : Int)
    (opened : Bool) : Outcome NamedLogFile := do
  let log ← LogFile.construct basename rollSize flushInterval now opened
  return (⟨basename, pid, log, []⟩ : NamedLogFile).opening log (0 < now) now

def step (named : NamedLogFile) : LogFileAction → Outcome NamedLogFile
  | .append logline around => do
      let log ← named.log.append logline around
      return named.opening log (named.log.Replaces logline around) around.rollNow
  | .flush => do
      let log ← named.log.flush
      return { named with log }

/-- The clock shows a date of four-digit years. -/
def Admits (_ : NamedLogFile) : LogFileAction → Prop
  | .append _ around => Civil around.rollNow
  | .flush => True

instance (named : NamedLogFile) (action : LogFileAction) : Decidable (named.Admits action) :=
  match action with
  | .append _ around => inferInstanceAs (Decidable (Civil around.rollNow))
  | .flush => .isTrue trivial

/-- Each file has the name of the second in which it was opened; the last one is `lastRoll_`. -/
def Stamped (named : NamedLogFile) : Prop :=
  ∃ times : List Int, named.names = times.map (getLogFileName named.basename named.pid) ∧
    times.Pairwise (· < ·) ∧ (∀ time ∈ times, Civil time ∧ time ≤ named.log.lastRoll) ∧
    named.log.files.length = times.length

variable {named before after : NamedLogFile} {basename : Bytes} {pid : Int}

theorem Stamped.opening (stamped : named.Stamped) {log : LogFile} {opens : Prop} [Decidable opens]
    {now : Int} (civil : Civil now) (later : opens → named.log.lastRoll < now)
    (lastRoll : log.lastRoll = if opens then now else named.log.lastRoll)
    (files : log.files.length = named.log.files.length + if opens then 1 else 0) :
    (named.opening log opens now).Stamped := by
  obtain ⟨times, names, ascending, early, counted⟩ := stamped
  unfold Stamped NamedLogFile.opening
  by_cases does : opens
  · simp only [if_pos does] at lastRoll files ⊢
    refine ⟨times ++ [now], by simp [names], ?_, ?_, by simp [files, counted]⟩
    · rw [List.pairwise_append]
      refine ⟨ascending, List.pairwise_singleton _ _, fun time found other same => ?_⟩
      rw [List.mem_singleton.mp same]
      exact lt_of_le_of_lt (early time found).2 (later does)
    · rw [List.forall_mem_append, List.forall_mem_singleton, lastRoll]
      refine ⟨fun time found => ⟨(early time found).1, ?_⟩, civil, le_rfl⟩
      exact le_of_lt (lt_of_le_of_lt (early time found).2 (later does))
  · simp only [if_neg does] at lastRoll files ⊢
    exact ⟨times, names, ascending, lastRoll ▸ early, by rw [files, counted]; rfl⟩

theorem construct_stamped {rollSize : Nat} {flushInterval now : Int} {opened : Bool} (civil : Civil now)
    (constructed : construct basename pid rollSize flushInterval now opened = .ok named) :
    named.Stamped := by
  obtain ⟨log, inner, same⟩ := bind_eq_ok.mp constructed
  cases same
  obtain ⟨_, rolled⟩ := assert_bind_eq_ok.mp inner
  have lastRoll := LogFile.rollFile_lastRoll rolled
  dsimp only at lastRoll
  unfold Stamped opening
  rcases LogFile.rollFile_spec rolled with ⟨later, replaced, fresh⟩ | ⟨early, rfl⟩
  · have later : 0 < now := later
    simp only [if_pos later] at lastRoll ⊢
    refine ⟨[now], rfl, List.pairwise_singleton _ _, ?_, by simp [LogFile.files, replaced, fresh]⟩
    rw [List.forall_mem_singleton, lastRoll]
    exact ⟨civil, le_rfl⟩
  · have early : ¬ 0 < now := early
    simp only [if_neg early]
    exact ⟨[], rfl, .nil, by simp, rfl⟩

theorem step_stamped (stamped : before.Stamped) {action : LogFileAction} (admitted : before.Admits action)
    (stepped : before.step action = .ok after) : after.Stamped := by
  cases action with
  | append logline around =>
      obtain ⟨log, appended, stepped⟩ := bind_eq_ok.mp stepped
      cases stepped
      refine stamped.opening admitted (fun replaces => replaces.1) (LogFile.append_lastRoll appended) ?_
      obtain ⟨file, file', points, _, rolled⟩ := LogFile.append_cases appended
      rcases rolled with ⟨replaces, replaced, fresh⟩ | ⟨stays, replaced, here | flushed⟩
      · rw [if_pos replaces]
        simp [LogFile.files, points, replaced, fresh]
      · rw [if_neg stays]
        simp [LogFile.files, points, replaced, here]
      · rw [if_neg stays]
        simp [LogFile.files, points, replaced, flushed]
  | flush =>
      obtain ⟨log, flushed, stepped⟩ := bind_eq_ok.mp stepped
      cases stepped
      obtain ⟨file, pointed, flushed⟩ := bind_eq_ok.mp flushed
      cases flushed
      have points := LogFile.deref_eq_ok.mp pointed
      obtain ⟨times, names, ascending, early, counted⟩ := stamped
      refine ⟨times, names, ascending, early, ?_⟩
      rw [← counted]
      simp [LogFile.files, points]

/-- In every run each file has a name of its own, and the names sort in the order in which the
files were opened. -/
theorem names_ascending {rollSize : Nat} {flushInterval now : Int} {opened : Bool}
    {start : NamedLogFile} {actions : List LogFileAction} (civil : Civil now)
    (constructed : construct basename pid rollSize flushInterval now opened = .ok start)
    (run : Execution step Admits start actions named) :
    named.names.length = named.log.files.length ∧ named.names.Pairwise (· < ·) := by
  have stamped : named.Stamped :=
    run.invariant (construct_stamped civil constructed) fun _ _ _ stamped admitted stepped =>
      step_stamped stamped admitted stepped
  obtain ⟨times, names, ascending, early, counted⟩ := stamped
  rw [names, List.length_map, counted]
  refine ⟨rfl, List.pairwise_map.mpr (ascending.imp_of_mem fun found found' lt => ?_)⟩
  exact getLogFileName_lt _ _ (early _ found).1 (early _ found').1 lt

/-- The theorem at a log that rolls at the turn of a year. -/
theorem names_ascending_new_year : ∃ (named : NamedLogFile) (first second : Bytes),
    named.names = [first, second] ∧ first < second ∧
      second = "a.20240101-000000.7.log".toUTF8.data.toList := by
  have constructed : construct [97] 7 1 3 1704067199 true = .ok
      ⟨[97], 7, ⟨1, 3, 0, LogFile.period 1704067199, 1704067199, 1704067199, some ⟨.empty, 0⟩, []⟩,
        [getLogFileName [97] 7 1704067199]⟩ := by rfl
  let actions : List LogFileAction := [.append [1, 2] ⟨[⟨2, 0⟩], 1704067200, 1704067200, true⟩, .flush]
  have replayed : (replay step Admits .impossible
      ⟨[97], 7, ⟨1, 3, 0, LogFile.period 1704067199, 1704067199, 1704067199, some ⟨.empty, 0⟩, []⟩,
        [getLogFileName [97] 7 1704067199]⟩ actions).toOption.any
      (fun named => decide (named.names =
        [getLogFileName [97] 7 1704067199, getLogFileName [97] 7 1704067200])) = true := by
    decide +kernel
  obtain ⟨named, run, tested⟩ := Execution.exists_of_replay replayed
  have names := of_decide_eq_true tested
  obtain ⟨_, ascending⟩ := names_ascending (by decide) constructed run
  rw [names, List.pairwise_cons, List.forall_mem_singleton] at ascending
  exact ⟨named, _, _, names, ascending.1, by decide +kernel⟩

end NamedLogFile

end TransferServer.Base
