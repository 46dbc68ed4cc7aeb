import TransferServer.Base.CivilTime
import TransferServer.Base.LoggingProperties

/-! How a log record begins. Each thread keeps the text of the last second it has logged in, and a
record is headed by that text where the second is still the same. -/

set_option autoImplicit false

namespace TransferServer.Base

open Lib

/-- `snprintf` with `"%4d%02d%02d %02d:%02d:%02d"` of what `gmtime_r` makes of the second -/
def calendar (seconds : Int) : Bytes :=
  let tm := gmtime_r seconds
  spacePad 4 (tm.tmYear + 1900) ++ zeroPad 2 (tm.tmMon + 1) ++ zeroPad 2 tm.tmMday ++ [32] ++
    zeroPad 2 tm.tmHour ++ [58] ++ zeroPad 2 tm.tmMin ++ [58] ++ zeroPad 2 tm.tmSec

/-- `now`, in microseconds, as the record of a thread without a kept text shows it. -/
def header (now : Int) : Bytes :=
  calendar (now / 1000000) ++ ([46] ++ zeroPad 6 (now % 1000000) ++ [90, 32])

/-- Behind the first second of the epoch, which a thread takes for the one it has logged in, and
before the year 10000. -/
def Dated (now : Int) : Prop := 1000000 ≤ now ∧ now < 253402300800000000

instance (now : Int) : Decidable (Dated now) := inferInstanceAs (Decidable (_ ∧ _))

variable {now later : Int}

theorem Dated.civil (dated : Dated now) : Civil (now / 1000000) := by
  obtain ⟨low, high⟩ := dated
  constructor
  · omega
  · omega

theorem calendar_eq {seconds : Int} (civil : Civil seconds) :
    calendar seconds = decimalGlyphs.fields (clockLayout [32] [58]) (gmtime_r seconds).values := by
  obtain ⟨year, mon, mday, hour, min, sec⟩ := gmtime_printable civil
  have wide : spacePad 4 ((gmtime_r seconds).tmYear + 1900) =
      decimalGlyphs.padded 4 ((gmtime_r seconds).tmYear + 1900).toNat :=
    spacePad_eq (show 0 < 3 by decide) (by omega) (by omega)
  unfold calendar
  dsimp only
  rw [wide, zeroPad_eq _ mon.1, zeroPad_eq _ mday.1, zeroPad_eq _ hour.1, zeroPad_eq _ min.1,
    zeroPad_eq _ sec.1]
  simp [clockLayout, Tm.values, Glyphs.fields]

theorem length_calendar {seconds : Int} (civil : Civil seconds) : (calendar seconds).length = 17 := by
  rw [calendar_eq civil, decimalGlyphs.length_fields (values_fit (gmtime_printable civil) _ _)]
  rfl

theorem calendar_lt {seconds seconds' : Int} (civil : Civil seconds) (civil' : Civil seconds')
    (lt : seconds < seconds') : calendar seconds < calendar seconds' := by
  rw [calendar_eq civil, calendar_eq civil']
  exact decimalGlyphs.fields_lt glyph_lt (values_fit (gmtime_printable civil) _ _)
    (values_fit (gmtime_printable civil') _ _) (values_lt civil lt)

theorem microseconds_small (now : Int) : (now % 1000000).toNat < 10 ^ 6 := by
  omega

theorem length_header (dated : Dated now) : (header now).length = 26 := by
  have positive : 0 ≤ now % 1000000 := Int.emod_nonneg _ (by decide)
  rw [header, List.length_append, length_calendar dated.civil, zeroPad_eq _ positive,
    List.length_append, List.length_append,
    decimalGlyphs.length_padded (Nat.succ_pos _) (microseconds_small now)]
  rfl

theorem header_lt (dated : Dated now) (dated' : Dated later) (lt : now < later) :
    header now < header later := by
  unfold header
  rcases Int.lt_or_eq_of_le (show now / 1000000 ≤ later / 1000000 by omega) with less | same
  · refine append_lt_append (calendar_lt dated.civil dated'.civil less) ?_ _ _
    rw [length_calendar dated.civil, length_calendar dated'.civil]
  · have positive : ∀ time : Int, 0 ≤ time % 1000000 := fun _ => Int.emod_nonneg _ (by decide)
    have less : (now % 1000000).toNat < (later % 1000000).toNat := by omega
    rw [same, zeroPad_eq _ (positive now), zeroPad_eq _ (positive later)]
    simp only [List.append_assoc]
    refine List.append_left_lt (List.append_left_lt (append_lt_append ?_ ?_ _ _))
    · exact decimalGlyphs.padded_lt glyph_lt (Nat.succ_pos _) (microseconds_small later) less
    · rw [decimalGlyphs.length_padded (Nat.succ_pos _) (microseconds_small now),
        decimalGlyphs.length_padded (Nat.succ_pos _) (microseconds_small later)]

/-- Records of different instants are in the order of their headers. -/
theorem headed_lt {record record' : Bytes} (dated : Dated now) (dated' : Dated later)
    (lt : now < later) (headed : header now <+: record) (headed' : header later <+: record') :
    record < record' := by
  obtain ⟨rest, rfl⟩ := headed
  obtain ⟨rest', rfl⟩ := headed'
  refine append_lt_append (header_lt dated dated' lt) ?_ rest rest'
  rw [length_header dated, length_header dated']

namespace LogItem

theorem prefix_place (contents : Bytes) (item : LogItem) : contents <+: item.place contents := by
  unfold place
  split
  · exact List.prefix_append _ _
  · exact List.prefix_refl _

theorem prefix_foldl_place (items : List LogItem) (contents : Bytes) :
    contents <+: items.foldl place contents := by
  induction items generalizing contents with
  | nil => exact List.prefix_refl contents
  | cons item items ih => exact (prefix_place contents item).trans (ih _)

end LogItem

namespace LogStream

variable {stream after : LogStream}

/-- What is inserted stands behind what is there. -/
theorem perform_behind {call : Insertion} (slack : stream.buffer.cur < kSmallBuffer)
    (performed : stream.perform call = .ok after) :
    stream.buffer.contents <+: after.buffer.contents := by
  cases call with
  | item item =>
      obtain ⟨same, inserted, _, contents⟩ := insert_place slack item
      cases inserted.symm.trans performed
      rw [contents]
      exact LogItem.prefix_place _ item
  | pointer p =>
      by_cases room : kMaxNumericSize ≤ stream.buffer.avail
      · cases (insertPointer_eq_error p room).symm.trans performed
      · rw [perform, insertPointer, if_neg room] at performed
        cases performed
        exact List.prefix_refl _

theorem performs_behind {calls : List Insertion} (slack : stream.buffer.cur < kSmallBuffer)
    (performed : calls.foldlM perform stream = .ok after) :
    stream.buffer.contents <+: after.buffer.contents := by
  induction calls generalizing stream with
  | nil =>
      cases performed
      exact List.prefix_refl _
  | cons call calls ih =>
      rw [List.foldlM_cons] at performed
      obtain ⟨next, first, rest⟩ := bind_eq_ok.mp performed
      exact (perform_behind slack first).trans (ih (perform_slack slack first) rest)

end LogStream

theorem Fmt.text_item (fmt : Fmt) : fmt.item.text = fmt.text := by
  change fmt.text.take (fmt.text.length : Int).toNat = fmt.text
  rw [Int.toNat_natCast, List.take_length]

theorem Fmt.place_item (fmt : Fmt) (contents : Bytes) : fmt.item.place contents =
    if contents.length + fmt.text.length < kSmallBuffer then contents ++ fmt.text else contents := by
  have small := fmt.small
  rw [← fmt.text_item]
  apply LogItem.place_text
  change (toSizeT (fmt.text.length : Int) : Int) < _ ↔ _
  rw [toSizeT_of_nonneg (by omega) (by omega), Int.toNat_natCast, fmt.text_item]

namespace Logger

variable {logger after : Logger} {text : Bytes}

/-- The stream begins with `text`, and a byte of its buffer is free. -/
def Begins (logger : Logger) (text : Bytes) : Prop :=
  logger.stream.buffer.cur < kSmallBuffer ∧ text <+: logger.stream.buffer.contents

theorem Begins.insertAll {items : List LogItem} (begins : logger.Begins text)
    (inserted : logger.insertAll items = .ok after) : after.Begins text := by
  obtain ⟨stream, written, slack, contents⟩ := LogStream.insertAll_place begins.1 items
  rw [Logger.insertAll, written] at inserted
  cases inserted
  refine ⟨slack, begins.2.trans ?_⟩
  dsimp only
  rw [contents]
  exact LogItem.prefix_foldl_place items _

theorem Begins.insertions {calls : List Insertion} (begins : logger.Begins text)
    (inserted : logger.insertions calls = .ok after) : after.Begins text := by
  obtain ⟨stream, performed, returned⟩ := bind_eq_ok.mp inserted
  cases returned
  obtain ⟨slack, begun⟩ := begins
  exact ⟨LogStream.performs_slack slack performed,
    begun.trans (LogStream.performs_behind slack performed)⟩

theorem Begins.destruct {emissions : List Emission} (begins : logger.Begins text)
    (destructed : logger.destruct = .ok emissions) :
    ∀ msg, .output msg ∈ emissions → text <+: msg := by
  obtain ⟨slack, begun⟩ := begins
  obtain ⟨stream, inserted, _, contents⟩ := LogStream.insertAll_place slack
    [.literal " - ", logger.fileItem, .literal ":", .integer logger.line, .char 10]
  rw [Logger.destruct, finish, Logger.insertAll, inserted] at destructed
  simp only [ok_bind, pure_eq_ok] at destructed
  cases destructed
  intro msg emitted
  rcases List.mem_cons.mp emitted with same | flushed
  · cases same
    rw [contents]
    exact begun.trans (LogItem.prefix_foldl_place _ _)
  · split at flushed
    · cases List.mem_singleton.mp flushed
    · cases flushed

end Logger

namespace LoggingThread

/-- The kept text is that of the last second, if there has been one. -/
def Cached (thread : LoggingThread) : Prop :=
  thread.lastSecond = 0 ∨ thread.time.cells.take 17 = calendar thread.lastSecond

end LoggingThread

namespace Logger

variable {thread thread' : LoggingThread} {env : LoggingEnvironment} {logger after : Logger}
variable {file : SourceFile} {line : Integral .int}

theorem updateTime_cached {seconds : Int} (civil : Civil seconds) (later : seconds ≠ 0)
    (clock : env.calendar = calendar) (cached : thread.Cached)
    (updated : updateTime thread env seconds = .ok thread') :
    thread'.Cached ∧ thread'.time.cells.take 17 = calendar seconds := by
  unfold updateTime at updated
  split at updated
  · next moved =>
      obtain ⟨time, written, updated⟩ := bind_eq_ok.mp updated
      obtain ⟨_, updated⟩ := assert_bind_eq_ok.mp updated
      cases updated
      have length := length_calendar civil
      have whole : (calendar seconds).take 31 = calendar seconds :=
        List.take_of_length_le (by rw [length]; decide)
      rw [clock, whole] at written
      have size : ((calendar seconds) ++ [0]).length = 18 := by
        rw [List.length_append, length]
        rfl
      obtain ⟨data, stored, cells⟩ := CharArray.write_eq_ok thread.time
        (show 0 + ((calendar seconds) ++ [0]).length ≤ 32 by rw [size]; decide)
      cases stored.symm.trans written
      have kept : time.cells.take 17 = calendar seconds := by
        rw [cells, overwrite, List.take_zero, List.nil_append, List.append_assoc]
        exact List.take_left' length
      exact ⟨.inr kept, kept⟩
  · next same =>
      cases updated
      have still : seconds = thread.lastSecond := not_not.mp same
      refine ⟨cached, ?_⟩
      rw [still]
      exact cached.resolve_left (still ▸ later)

theorem formatTime_headed (dated : Dated logger.time) (clock : env.calendar = calendar)
    (fresh : logger.stream.buffer.cur = 0) (cached : thread.Cached)
    (formatted : logger.formatTime thread env = .ok (after, thread')) :
    after.Begins (header logger.time) ∧ thread'.Cached := by
  have positive : 0 ≤ logger.time := by
    have low := dated.1
    omega
  have seconds : logger.time.tdiv 1000000 = logger.time / 1000000 :=
    Int.tdiv_eq_ediv_of_nonneg positive
  have microseconds : logger.time.tmod 1000000 = logger.time % 1000000 :=
    Int.tmod_eq_emod_of_nonneg positive
  unfold formatTime at formatted
  rw [seconds, microseconds] at formatted
  obtain ⟨kept, updated, formatted⟩ := bind_eq_ok.mp formatted
  obtain ⟨us, shown, formatted⟩ := bind_eq_ok.mp formatted
  obtain ⟨nine, formatted⟩ := assert_bind_eq_ok.mp formatted
  obtain ⟨inserted, insertion, returned⟩ := bind_eq_ok.mp formatted
  cases returned
  have later : logger.time / 1000000 ≠ 0 := by
    have low := dated.1
    omega
  obtain ⟨cached', text⟩ := updateTime_cached dated.civil later clock cached updated
  have fraction : us.text = [46] ++ zeroPad 6 (logger.time % 1000000) ++ [90, 32] := by
    unfold Fmt.construct at shown
    split at shown
    · cases shown
      rfl
    · cases shown
  have slack : logger.stream.buffer.cur < kSmallBuffer := by
    rw [fresh]
    decide
  obtain ⟨stream, written, below, contents⟩ := LogStream.insertAll_place slack
    [.append thread'.time.cells ⟨17, by decide⟩ (by rw [thread'.time.sized]; decide), us.item]
  rw [Logger.insertAll, written] at insertion
  cases insertion
  refine ⟨⟨below, ?_⟩, cached'⟩
  have empty : logger.stream.buffer.contents = [] := by
    rw [FixedBuffer.Memory.contents, fresh, List.take_zero]
  have seventeen : (calendar (logger.time / 1000000)).length = 17 := length_calendar dated.civil
  have first : LogItem.place []
      (.append thread'.time.cells ⟨17, by decide⟩ (by rw [thread'.time.sized]; decide)) =
      calendar (logger.time / 1000000) := by
    have fits : ((toSizeT 17 : Nat) : Int) < (kSmallBuffer : Int) - (0 : Nat) := by decide
    exact (if_pos fits).trans text
  have second : us.item.place (calendar (logger.time / 1000000)) = header logger.time := by
    rw [us.place_item, seventeen, nine, if_pos (by decide), fraction]
    rfl
  dsimp only
  rw [contents, empty, List.foldl_cons, List.foldl_cons, List.foldl_nil, first, second]

theorem impl_headed {level : LogLevel} {savedErrno : Integral .int} (dated : Dated env.now)
    (clock : env.calendar = calendar) (cached : thread.Cached)
    (constructed : impl level savedErrno file line thread env = .ok (logger, thread')) :
    logger.Begins (header env.now) ∧ thread'.Cached := by
  obtain ⟨⟨timed, kept⟩, formatted, constructed⟩ := bind_eq_ok.mp constructed
  obtain ⟨name, _, constructed⟩ := bind_eq_ok.mp constructed
  obtain ⟨named, inserted, constructed⟩ := bind_eq_ok.mp constructed
  obtain ⟨begun, cached'⟩ := formatTime_headed dated clock rfl cached formatted
  have begins := begun.insertAll inserted
  split at constructed
  · obtain ⟨explained, strerror, returned⟩ := bind_eq_ok.mp constructed
    cases returned
    exact ⟨begins.insertAll strerror, cached'⟩
  · cases constructed
    exact ⟨begins, cached'⟩

theorem construct_headed {overload : Overload} (dated : Dated env.now)
    (clock : env.calendar = calendar) (cached : thread.Cached)
    (constructed : construct file line thread env overload = .ok (logger, thread')) :
    logger.Begins (header env.now) ∧ thread'.Cached := by
  cases overload with
  | plain => exact impl_headed dated clock cached constructed
  | function level func terminated =>
      obtain ⟨⟨headed, kept⟩, implemented, constructed⟩ := bind_eq_ok.mp constructed
      obtain ⟨named, inserted, returned⟩ := bind_eq_ok.mp constructed
      cases returned
      obtain ⟨begins, cached'⟩ := impl_headed dated clock cached implemented
      exact ⟨begins.insertAll inserted, cached'⟩
  | level level => exact impl_headed dated clock cached constructed
  | abort toAbort => exact impl_headed dated clock cached constructed

end Logger

/-- A statement such as `LOG_WARN << "a" << 1;` with the state of the machine it meets. -/
structure LogStatement where
  file : SourceFile
  line : Integral .int
  overload : Logger.Overload
  calls : List Insertion
  now : Int
  errno : Integral .int
  strerror : Bytes
  terminated : 0 ∈ strerror
  memory : CharArray kSmallBuffer

def LogStatement.environment (statement : LogStatement) : LoggingEnvironment where
  now := statement.now
  calendar := calendar
  errno := statement.errno
  strerror := statement.strerror
  terminated := statement.terminated
  memory := statement.memory

def Emission.output? : Emission → Option Bytes
  | .output msg => some msg
  | .flush => none

/-- What the statement hands to `g_output` on a thread, and what the thread keeps. -/
def LogStatement.execute (statement : LogStatement) (thread : LoggingThread) :
    Outcome (LoggingThread × List Bytes) := do
  let (logger, kept) ← Logger.construct statement.file statement.line thread statement.environment
    statement.overload
  let logger ← logger.insertions statement.calls
  let emissions ← logger.destruct
  return (kept, emissions.filterMap Emission.output?)

/-- What a statement of the instant makes: it begins with the instant and fits a stream's buffer. -/
def RecordOf (now : Int) (text : Bytes) : Prop := header now <+: text ∧ text.length ≤ kSmallBuffer

/-- A statement makes one record. -/
theorem LogStatement.execute_spec {statement : LogStatement} {thread kept : LoggingThread} {texts : List Bytes}
    (dated : Dated statement.now) (cached : thread.Cached)
    (executed : statement.execute thread = .ok (kept, texts)) :
    kept.Cached ∧ ∃ text, texts = [text] ∧ RecordOf statement.now text := by
  obtain ⟨⟨logger, kept'⟩, constructed, executed⟩ := bind_eq_ok.mp executed
  obtain ⟨inserted, insertion, executed⟩ := bind_eq_ok.mp executed
  obtain ⟨emissions, destructed, returned⟩ := bind_eq_ok.mp executed
  cases returned
  obtain ⟨begins, cached'⟩ := Logger.construct_headed
    (show Dated statement.environment.now from dated) rfl cached constructed
  have begun := (begins.insertions insertion).destruct destructed
  obtain ⟨finished, ends, emitted⟩ := bind_eq_ok.mp destructed
  cases emitted
  refine ⟨cached', finished.stream.buffer.contents, ?_, begun _ List.mem_cons_self, ?_⟩
  · by_cases fatal : finished.level = .fatal <;> simp [fatal, Emission.output?]
  · calc finished.stream.buffer.contents.length
        ≤ finished.stream.buffer.data.cells.length := List.length_take_le' ..
      _ = kSmallBuffer := finished.stream.buffer.data.sized

/-- The threads of a process, and what they have handed to `g_output`, with the instant that the
clock showed. The threads share nothing else. -/
structure LoggingProcess where
  threads : Nat → LoggingThread
  records : List (Int × Bytes)

namespace LoggingProcess

variable {process before after : LoggingProcess}

/-- `thread` executes a statement. -/
def step (process : LoggingProcess) (action : Nat × LogStatement) : Outcome LoggingProcess := do
  let (thread, statement) := action
  let (kept, texts) ← statement.execute (process.threads thread)
  return { threads := Function.update process.threads thread kept
           records := process.records ++ texts.map (statement.now, ·) }

def Admits (_ : LoggingProcess) (action : Nat × LogStatement) : Prop := Dated action.2.now

instance (process : LoggingProcess) (action : Nat × LogStatement) :
    Decidable (process.Admits action) := inferInstanceAs (Decidable (Dated _))

structure Headed (process : LoggingProcess) : Prop where
  cached : ∀ thread, (process.threads thread).Cached
  headed : ∀ record ∈ process.records, Dated record.1 ∧ header record.1 <+: record.2

theorem step_headed (kept : before.Headed) {action : Nat × LogStatement}
    (admitted : before.Admits action) (stepped : before.step action = .ok after) : after.Headed := by
  obtain ⟨thread, statement⟩ := action
  obtain ⟨⟨thread', texts⟩, executed, stepped⟩ := bind_eq_ok.mp stepped
  cases stepped
  obtain ⟨cached, text, rfl, begins, _⟩ :=
    LogStatement.execute_spec admitted (kept.cached thread) executed
  constructor
  · intro other
    by_cases same : other = thread
    · simpa only [same, Function.update_self] using cached
    · simpa only [Function.update_of_ne same] using kept.cached other
  · rw [List.forall_mem_append]
    refine ⟨kept.headed, fun record found => ?_⟩
    obtain rfl := List.mem_singleton.mp found
    exact ⟨admitted, begins⟩

/-- In every run of every thread a record begins with its own instant, whatever text the thread has
kept, and the records sort by their instants. -/
theorem records_headed {threads : Nat → LoggingThread} {actions : List (Nat × LogStatement)}
    (fresh : ∀ thread, (threads thread).lastSecond = 0)
    (run : Execution step Admits ⟨threads, []⟩ actions process) :
    (∀ record ∈ process.records, header record.1 <+: record.2) ∧
      ∀ record ∈ process.records, ∀ later ∈ process.records,
        record.1 < later.1 → record.2 < later.2 := by
  have headed : process.Headed :=
    run.invariant ⟨fun thread => .inl (fresh thread), nofun⟩ fun _ _ _ kept admitted stepped =>
      step_headed kept admitted stepped
  refine ⟨fun record found => (headed.headed record found).2, fun record found later found' lt => ?_⟩
  obtain ⟨dated, begins⟩ := headed.headed record found
  obtain ⟨dated', begins'⟩ := headed.headed later found'
  exact headed_lt dated dated' lt begins begins'

/-- `LOG_WARN` in the file of the server. -/
def warning (now : Int) : LogStatement where
  file := Logger.server
  line := ⟨142, by decide⟩
  overload := .level .warn
  calls := []
  now := now
  errno := Logger.november.errno
  strerror := Logger.november.strerror
  terminated := Logger.november.terminated
  memory := Logger.november.memory

/-- The theorem at two threads, of which the one with the earlier instant comes to its output after
the other, in a second whose text it has kept. -/
theorem records_headed_twice : ∃ (process : LoggingProcess) (first second third : Bytes),
    process.records = [(1700000000000000, first), (1700000001000000, second),
      (1700000000999999, third)] ∧
      (literal "20231114 22:13:20.999999Z ").dropLast <+: third ∧ first < third ∧ third < second := by
  let actions := [(0, warning 1700000000000000), (1, warning 1700000001000000),
    (0, warning 1700000000999999)]
  have replayed : (replay step Admits .impossible ⟨fun _ => Logger.poolThread, []⟩ actions).toOption.any
      (fun process => decide (process.records.map Prod.fst =
        [1700000000000000, 1700000001000000, 1700000000999999])) = true := by
    decide +kernel
  obtain ⟨process, run, tested⟩ := Execution.exists_of_replay replayed
  obtain ⟨headed, ascending⟩ := records_headed (fun _ => rfl) run
  obtain ⟨⟨_, first⟩, _, records, rfl, behind⟩ := List.map_eq_cons_iff.mp (of_decide_eq_true tested)
  obtain ⟨⟨_, second⟩, _, rfl, rfl, behind'⟩ := List.map_eq_cons_iff.mp behind
  obtain ⟨⟨_, third⟩, _, rfl, rfl, last⟩ := List.map_eq_cons_iff.mp behind'
  cases List.map_eq_nil_iff.mp last
  rw [records] at headed ascending
  refine ⟨process, first, second, third, records, ?_, ?_, ?_⟩
  · have text : header 1700000000999999 = (literal "20231114 22:13:20.999999Z ").dropLast := by
      decide +kernel
    rw [← text]
    exact headed (1700000000999999, third) (by simp)
  · exact ascending (1700000000000000, first) (by simp) (1700000000999999, third) (by simp)
      (show (1700000000000000 : Int) < 1700000000999999 by decide)
  · exact ascending (1700000000999999, third) (by simp) (1700000001000000, second) (by simp)
      (show (1700000000999999 : Int) < 1700000001000000 by decide)

end LoggingProcess

end TransferServer.Base
