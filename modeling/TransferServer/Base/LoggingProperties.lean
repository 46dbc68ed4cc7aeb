import TransferServer.Lib.Search
import TransferServer.Base.LogStreamProperties
import TransferServer.Base.Logging

/-! How a log record ends. The destructor inserts the trailer piece by piece, and each piece is left
out where the space for it has been used up. -/

set_option autoImplicit false

namespace TransferServer.Base

open Lib

namespace LogStream

variable {stream : LogStream}

/-- Wherever the user's insertions come to an end, a byte is free. -/
theorem perform_slack {call : Insertion} {after : LogStream}
    (slack : stream.buffer.cur < kSmallBuffer) (performed : stream.perform call = .ok after) :
    after.buffer.cur < kSmallBuffer := by
  cases call with
  | item item =>
      obtain ⟨same, inserted, below, _⟩ := insert_place slack item
      cases inserted.symm.trans performed
      exact below
  | pointer p =>
      by_cases room : kMaxNumericSize ≤ stream.buffer.avail
      · cases (insertPointer_eq_error p room).symm.trans performed
      · rw [perform, insertPointer, if_neg room] at performed
        cases performed
        exact slack

theorem performs_slack {calls : List Insertion} {after : LogStream}
    (slack : stream.buffer.cur < kSmallBuffer)
    (performed : calls.foldlM perform stream = .ok after) : after.buffer.cur < kSmallBuffer := by
  induction calls generalizing stream with
  | nil =>
      cases performed
      exact slack
  | cons call calls ih =>
      rw [List.foldlM_cons] at performed
      obtain ⟨next, first, rest⟩ := bind_eq_ok.mp performed
      exact ih (perform_slack slack first) rest

end LogStream

namespace Logger

variable {logger : Logger} {contents : Bytes}

def dash : Bytes := [32, 45, 32]

def location (logger : Logger) : Bytes := [58] ++ decimal logger.line.value ++ [10]

def tail (logger : Logger) : Bytes := dash ++ logger.basename.name ++ logger.location

theorem mem_decimal {value : Int} {symbol : Byte} (present : symbol ∈ decimal value) :
    symbol = 45 ∨ 48 ≤ symbol ∧ symbol ≤ 57 := by
  obtain ⟨digits, text, _, range, _⟩ := decimal_canonical value
  rw [text, List.mem_append] at present
  rcases present with sign | digit
  · split at sign
    · exact .inl (List.mem_singleton.mp sign)
    · cases sign
  · exact .inr (range symbol digit)

theorem decimal_concat (value : Int) : ∃ digits digit, decimal value = digits ++ [digit] ∧ digit ≠ 58 := by
  have filled : decimal value ≠ [] := by
    rw [decimal_eq]
    exact List.append_ne_nil_of_right_ne_nil _ (decimalGlyphs.write_ne_nil _)
  obtain ⟨digits, digit, split⟩ := (List.eq_nil_or_concat (decimal value)).resolve_left filled
  refine ⟨digits, digit, by rw [split, List.concat_eq_append], ?_⟩
  rintro rfl
  have present : (58 : Byte) ∈ decimal value := by
    rw [split, List.concat_eq_append]
    exact List.mem_append_right _ (List.mem_singleton_self _)
  exact absurd (mem_decimal present) (by decide)

theorem length_line (logger : Logger) : (decimal logger.line.value).length ≤ 11 := by
  have range : -2147483648 ≤ logger.line.value ∧ logger.line.value ≤ 2147483647 := logger.line.holds
  have bounded : logger.line.value.natAbs < 10 ^ 10 := by omega
  exact decimalGlyphs.length_writeInt_le 45 (by decide) bounded

section Ends

variable {before : Bytes}

theorem tail_suffix_location : logger.tail <:+ before ++ logger.location ↔
    dash ++ logger.basename.name <:+ before := List.suffix_append_self_iff

theorem not_tail_suffix_concat {last : Byte} (other : last ≠ 10) :
    ¬ logger.tail <:+ before ++ [last] := by
  intro ends
  rw [tail, location, ← List.append_assoc] at ends
  exact other (eq_of_suffix_concat ends).symm

/-- A colon is not the last digit of a line number. -/
theorem not_tail_suffix_colon : ¬ logger.tail <:+ before ++ [58] ++ [10] := by
  intro ends
  obtain ⟨digits, digit, number, other⟩ := decimal_concat logger.line.value
  rw [tail, location, ← List.append_assoc, List.suffix_append_self_iff, number, ← List.append_assoc,
    ← List.append_assoc] at ends
  exact other (eq_of_suffix_concat ends)

/-- A line number has no space in it. -/
theorem not_tail_suffix_name : ¬ logger.tail <:+ before ++ (dash ++ logger.basename.name) := by
  intro ends
  have absent : (32 : Byte) ∉ logger.location := by
    intro present
    simp only [location, List.mem_append, List.mem_singleton] at present
    rcases present with (colon | number) | newline
    · exact absurd colon (by decide)
    · exact absurd (mem_decimal number) (by decide)
    · exact absurd newline (by decide)
  have empty := eq_nil_of_suffix (List.mem_append_left _ (List.mem_cons_self ..)) absent ends
  rw [location, List.append_eq_nil_iff] at empty
  cases empty.2

end Ends

theorem text_literal : (LogItem.literal " - ").text = dash ∧ (LogItem.literal ":").text = [58] := by
  decide +kernel

/-- A name without a size has no text either way. -/
theorem place_fileItem :
    logger.fileItem.place contents =
      if contents.length + logger.basename.name.length < kSmallBuffer then
        contents ++ logger.basename.name else contents := by
  have range : -2147483648 ≤ logger.basename.size.value ∧ logger.basename.size.value ≤ 2147483647 :=
    logger.basename.size.holds
  have length : logger.basename.name.length = logger.basename.size.value.toNat :=
    List.length_take_of_le logger.basename.readable
  by_cases positive : 0 ≤ logger.basename.size.value
  · apply LogItem.place_text
    change (toSizeT logger.basename.size.value : Int) < _ ↔ (logger.basename.name.length : Int) < _
    rw [toSizeT_of_nonneg positive (by omega), length]
  · have none : logger.basename.name = [] := List.length_eq_zero_iff.mp (by omega)
    have full : ¬ logger.fileItem.Fits (kSmallBuffer - contents.length) := by
      change ¬ (toSizeT logger.basename.size.value : Int) < _
      unfold toSizeT kSmallBuffer
      omega
    rw [none, LogItem.place, if_neg full, List.append_nil, ite_self]

/-- The contents once `finish` has inserted the name of the file. -/
def named (logger : Logger) (contents : Bytes) : Bytes :=
  logger.fileItem.place ((LogItem.literal " - ").place contents)

theorem named_cases (logger : Logger) (contents : Bytes) :
    (contents.length + 3 + logger.basename.name.length < kSmallBuffer ∧
        logger.named contents = contents ++ (dash ++ logger.basename.name)) ∨
      (contents.length + 3 < kSmallBuffer ∧
        kSmallBuffer ≤ contents.length + 3 + logger.basename.name.length ∧
        logger.named contents = contents ++ dash) ∨
      (kSmallBuffer ≤ contents.length + 3 ∧
        contents.length + logger.basename.name.length < kSmallBuffer ∧
        logger.named contents = contents ++ logger.basename.name) ∨
      (kSmallBuffer ≤ contents.length + 3 ∧
        kSmallBuffer ≤ contents.length + logger.basename.name.length ∧
        logger.named contents = contents) := by
  have dashed : (LogItem.literal " - ").place contents =
      if contents.length + 3 < kSmallBuffer then contents ++ dash else contents := by
    rw [LogItem.place_text Iff.rfl, text_literal.1]
    rfl
  unfold named
  rw [dashed]
  split
  · next room =>
      have length : (contents ++ dash).length = contents.length + 3 := List.length_append
      rw [place_fileItem, length]
      split
      · next fits => exact .inl ⟨fits, by rw [List.append_assoc]⟩
      · next full => exact .inr (.inl ⟨room, Nat.le_of_not_lt full, rfl⟩)
  · next room =>
      rw [place_fileItem]
      split
      · next fits => exact .inr (.inr (.inl ⟨Nat.le_of_not_lt room, fits, rfl⟩))
      · next full => exact .inr (.inr (.inr ⟨Nat.le_of_not_lt room, Nat.le_of_not_lt full, rfl⟩))

/-- What `finish` makes of the contents, the name of the file included. -/
def located (logger : Logger) (contents : Bytes) : Bytes :=
  (LogItem.char 10).place ((LogItem.integer logger.line).place ((LogItem.literal ":").place contents))

theorem located_cases (logger : Logger) (slack : contents.length < kSmallBuffer) :
    (contents.length + 33 ≤ kSmallBuffer ∧ logger.located contents = contents ++ logger.location) ∨
      (kSmallBuffer < contents.length + 33 ∧ contents.length + 1 < kSmallBuffer ∧
        (logger.located contents = contents ++ [58] ∨
          logger.located contents = contents ++ [58] ++ [10])) ∨
      (contents.length + 1 = kSmallBuffer ∧ logger.located contents = contents) := by
  have colon : (LogItem.literal ":").place contents =
      if contents.length + 1 < kSmallBuffer then contents ++ [58] else contents := by
    rw [LogItem.place_text Iff.rfl, text_literal.2]
    rfl
  have number (before : Bytes) : (LogItem.integer logger.line).place before =
      if before.length + 32 ≤ kSmallBuffer then before ++ decimal logger.line.value else before := by
    apply LogItem.place_eq
    change (32 : Int) ≤ _ ↔ _
    omega
  have newline (before : Bytes) : (LogItem.char 10).place before =
      if before.length + 1 < kSmallBuffer then before ++ [10] else before :=
    LogItem.place_text Iff.rfl
  unfold located
  rw [colon]
  split
  · next room =>
      have length : (contents ++ [58]).length = contents.length + 1 := List.length_append
      rw [number, length]
      split
      · next wide =>
          have short := length_line logger
          have behind : (contents ++ [58] ++ decimal logger.line.value).length + 1 < kSmallBuffer := by
            rw [List.length_append, length]
            omega
          rw [newline, if_pos behind]
          exact .inl ⟨wide, by simp only [location, List.append_assoc]⟩
      · next narrow =>
          refine .inr (.inl ⟨by omega, room, ?_⟩)
          rw [newline]
          split
          · exact .inr rfl
          · exact .inl rfl
  · next full =>
      rw [number, if_neg (by unfold kSmallBuffer at *; omega), newline, if_neg full]
      exact .inr (.inr ⟨by omega, rfl⟩)

theorem tail_suffix_located (slack : contents.length < kSmallBuffer) :
    logger.tail <:+ logger.located contents ↔
      (contents.length + 33 ≤ kSmallBuffer ∧ dash ++ logger.basename.name <:+ contents) ∨
        (contents.length + 1 = kSmallBuffer ∧ logger.tail <:+ contents) := by
  have size : kSmallBuffer = 4000 := rfl
  rcases located_cases logger slack with
    ⟨wide, located⟩ | ⟨narrow, room, located⟩ | ⟨full, located⟩
  · rw [located, tail_suffix_location]
    have other : ¬ contents.length + 1 = kSmallBuffer := by omega
    simp only [wide, other, true_and, false_and, or_false]
  · have missed : ¬ logger.tail <:+ logger.located contents := by
      rcases located with colon | newline
      · rw [colon]
        exact not_tail_suffix_concat (by decide)
      · rw [newline]
        exact not_tail_suffix_colon
    have other : ¬ contents.length + 33 ≤ kSmallBuffer ∧ ¬ contents.length + 1 = kSmallBuffer := by
      omega
    simp only [missed, other, false_and, or_false]
  · rw [located]
    have other : ¬ contents.length + 33 ≤ kSmallBuffer := by omega
    simp only [full, other, true_and, false_and, false_or]

/-- The condition of `tail_suffix_iff`, on the length of the contents. -/
theorem tail_suffix_named (slack : contents.length < kSmallBuffer) :
    logger.tail <:+ logger.located (logger.named contents) ↔
      contents.length + logger.basename.name.length + 36 ≤ kSmallBuffer ∨
        (contents.length + 1 = kSmallBuffer ∧ logger.tail <:+ contents) ∨
        (contents.length + logger.basename.name.length + 1 = kSmallBuffer ∧
          logger.basename.name.length ≤ 2 ∧ logger.tail <:+ contents ++ logger.basename.name) ∨
        (contents.length + 36 ≤ kSmallBuffer ∧
          kSmallBuffer ≤ contents.length + logger.basename.name.length + 3 ∧
          dash ++ logger.basename.name <:+ contents ++ dash) := by
  have size : kSmallBuffer = 4000 := rfl
  have dashes : dash.length = 3 := rfl
  rcases named_cases logger contents with
    ⟨fits, named⟩ | ⟨room, full, named⟩ | ⟨none, fits, named⟩ | ⟨none, full, named⟩
  · have length : (contents ++ (dash ++ logger.basename.name)).length =
        contents.length + 3 + logger.basename.name.length := by
      rw [List.length_append, List.length_append, dashes, Nat.add_assoc]
    rw [named, tail_suffix_located (by omega), length]
    constructor
    · rintro (⟨wide, _⟩ | ⟨_, ends⟩)
      · exact .inl (by omega)
      · exact absurd ends not_tail_suffix_name
    · rintro (room | ⟨_, _⟩ | ⟨_, _, _⟩ | ⟨_, _, _⟩)
      · exact .inl ⟨by omega, List.suffix_append _ _⟩
      all_goals omega
  · have length : (contents ++ dash).length = contents.length + 3 := List.length_append
    rw [named, tail_suffix_located (by omega), length]
    constructor
    · rintro (⟨wide, ends⟩ | ⟨_, ends⟩)
      · exact .inr (.inr (.inr ⟨by omega, by omega, ends⟩))
      · rw [show contents ++ dash = contents ++ [32, 45] ++ [32] from
          (List.append_assoc contents [32, 45] [32]).symm] at ends
        exact absurd ends (not_tail_suffix_concat (by decide))
    · rintro (_ | ⟨_, _⟩ | ⟨_, _, _⟩ | ⟨wide, _, ends⟩)
      case inr.inr.inr => exact .inl ⟨by omega, ends⟩
      all_goals omega
  · have length : (contents ++ logger.basename.name).length =
        contents.length + logger.basename.name.length := List.length_append
    rw [named, tail_suffix_located (by omega), length]
    constructor
    · rintro (⟨wide, _⟩ | ⟨last, ends⟩)
      · omega
      · exact .inr (.inr (.inl ⟨last, by omega, ends⟩))
    · rintro (_ | ⟨last, ends⟩ | ⟨last, _, ends⟩ | ⟨_, _, _⟩)
      case inr.inl =>
        have empty : logger.basename.name = [] := List.length_eq_zero_iff.mp (by omega)
        simp only [empty, List.append_nil, List.length_nil]
        exact .inr ⟨last, ends⟩
      case inr.inr.inl => exact .inr ⟨last, ends⟩
      all_goals omega
  · rw [named, tail_suffix_located slack]
    constructor
    · rintro (⟨wide, _⟩ | ⟨last, ends⟩)
      · omega
      · exact .inr (.inl ⟨last, ends⟩)
    · rintro (_ | ⟨last, ends⟩ | ⟨_, _, _⟩ | ⟨_, _, _⟩)
      case inr.inl => exact .inr ⟨last, ends⟩
      all_goals omega

structure Ready (file : SourceFile) (line : Integral .int) (logger : Logger) : Prop where
  slack : logger.stream.buffer.cur < kSmallBuffer
  basename : logger.basename = file
  numbered : logger.line = line

section Statement

variable {file : SourceFile} {line : Integral .int} {thread thread' : LoggingThread}
variable {env : LoggingEnvironment} {after : Logger}

theorem Ready.insertAll {items : List LogItem} (ready : logger.Ready file line)
    (inserted : logger.insertAll items = .ok after) : after.Ready file line := by
  obtain ⟨stream, written, slack, _⟩ := LogStream.insertAll_place ready.slack items
  rw [Logger.insertAll, written] at inserted
  cases inserted
  exact ⟨slack, ready.basename, ready.numbered⟩

theorem Ready.formatTime (ready : logger.Ready file line)
    (formatted : logger.formatTime thread env = .ok (after, thread')) : after.Ready file line := by
  obtain ⟨_, _, formatted⟩ := bind_eq_ok.mp formatted
  obtain ⟨_, _, formatted⟩ := bind_eq_ok.mp formatted
  obtain ⟨_, _, formatted⟩ := bind_eq_ok.mp formatted
  obtain ⟨_, inserted, returned⟩ := bind_eq_ok.mp formatted
  cases returned
  exact ready.insertAll inserted

theorem ready_impl {level : LogLevel} {savedErrno : Integral .int}
    (constructed : impl level savedErrno file line thread env = .ok (logger, thread')) :
    logger.Ready file line := by
  obtain ⟨⟨timed, thread''⟩, formatted, constructed⟩ := bind_eq_ok.mp constructed
  obtain ⟨name, _, constructed⟩ := bind_eq_ok.mp constructed
  obtain ⟨headed, inserted, constructed⟩ := bind_eq_ok.mp constructed
  have fresh : Ready file line
      { time := env.now, stream := .construct env.memory, level, line, basename := file } :=
    ⟨Nat.zero_lt_succ _, rfl, rfl⟩
  have ready := (fresh.formatTime formatted).insertAll inserted
  split at constructed
  · obtain ⟨explained, strerror, returned⟩ := bind_eq_ok.mp constructed
    cases returned
    exact ready.insertAll strerror
  · cases constructed
    exact ready

theorem ready_construct {overload : Overload}
    (constructed : construct file line thread env overload = .ok (logger, thread')) :
    logger.Ready file line := by
  cases overload with
  | plain => exact ready_impl constructed
  | function level func terminated =>
      obtain ⟨⟨headed, thread''⟩, implemented, constructed⟩ := bind_eq_ok.mp constructed
      obtain ⟨named, inserted, returned⟩ := bind_eq_ok.mp constructed
      cases returned
      exact (ready_impl implemented).insertAll inserted
  | level level => exact ready_impl constructed
  | abort toAbort => exact ready_impl constructed

theorem Ready.insertions {calls : List Insertion} (ready : logger.Ready file line)
    (inserted : logger.insertions calls = .ok after) : after.Ready file line := by
  obtain ⟨stream, performed, returned⟩ := bind_eq_ok.mp inserted
  cases returned
  exact ⟨LogStream.performs_slack ready.slack performed, ready.basename, ready.numbered⟩

theorem destruct_eq (slack : logger.stream.buffer.cur < kSmallBuffer) :
    ∃ flushes, logger.destruct =
      .ok (.output (logger.located (logger.named logger.stream.buffer.contents)) :: flushes) := by
  obtain ⟨stream, inserted, _, contents⟩ := LogStream.insertAll_place slack
    [.literal " - ", logger.fileItem, .literal ":", .integer logger.line, .char 10]
  refine ⟨if logger.level = .fatal then [.flush] else [], ?_⟩
  rw [destruct, finish, Logger.insertAll, inserted]
  simp only [ok_bind, pure_eq_ok, contents, List.foldl_cons, List.foldl_nil]
  rw [located, named]

end Statement

/-- The destructor finds the space that the whole trailer takes: the file name, and 36 bytes of
which the number reserves most. -/
def RoomForTrailer (logger : Logger) : Prop :=
  logger.basename.name.length + 36 ≤ logger.stream.buffer.avail

/-- The trailer lacks space for a part of it, and what the user has inserted stands in for it. -/
def TrailedAnyway (logger : Logger) : Prop :=
  let contents := logger.stream.buffer.contents
  let avail := logger.stream.buffer.avail
  let name := logger.basename.name
  (avail = 1 ∧ logger.tail <:+ contents) ∨
    (avail = name.length + 1 ∧ name.length ≤ 2 ∧ logger.tail <:+ contents ++ name) ∨
    (36 ≤ avail ∧ avail ≤ name.length + 3 ∧ dash ++ name <:+ contents ++ dash)

theorem tail_suffix_iff (slack : logger.stream.buffer.cur < kSmallBuffer) :
    logger.tail <:+ logger.located (logger.named logger.stream.buffer.contents) ↔
      logger.RoomForTrailer ∨ logger.TrailedAnyway := by
  have length := FixedBuffer.Memory.length_contents (Nat.le_of_lt slack)
  have avail := FixedBuffer.Memory.avail_eq (Nat.le_of_lt slack)
  rw [tail_suffix_named (by rw [length]; exact slack)]
  unfold RoomForTrailer TrailedAnyway
  dsimp only
  rw [avail]
  refine or_congr (by omega) (or_congr (and_congr_left' (by omega)) (or_congr ?_ ?_))
  · exact and_congr_left' (by omega)
  · refine and_congr (by omega) (and_congr_left' (by omega))

/-- A record ends with its file, its line and a newline exactly when the user's insertions leave
the space for them or end in bytes that complete what is left of them. -/
theorem record_terminated_iff {file : SourceFile} {line : Integral .int}
    {thread thread' : LoggingThread} {env : LoggingEnvironment} {overload : Overload}
    {calls : List Insertion} {statement : Logger}
    (constructed : construct file line thread env overload = .ok (logger, thread'))
    (inserted : logger.insertions calls = .ok statement) :
    ∃ record flushes, statement.destruct = .ok (.output record :: flushes) ∧
      ((dash ++ file.name ++ ([58] ++ decimal line.value ++ [10])) <:+ record ↔
        statement.RoomForTrailer ∨ statement.TrailedAnyway) := by
  have ready := (ready_construct constructed).insertions inserted
  obtain ⟨flushes, destructed⟩ := destruct_eq ready.slack
  refine ⟨_, flushes, destructed, ?_⟩
  have ends := tail_suffix_iff ready.slack
  rwa [tail, location, ready.basename, ready.numbered] at ends

/-- A statement in a file of the server, on a thread that has not logged before. -/
def server : SourceFile :=
  .ofArray (literal "/root/transfer_server/src/TcpServer.cpp") (by decide +kernel)

def poolThread : LoggingThread where
  tidString := literal "12345"
  terminated := by decide +kernel
  time := ⟨List.replicate 32 0, by decide⟩
  lastSecond := 0

def november : LoggingEnvironment where
  now := 1700000000123456
  calendar := fun _ => (literal "20231114 22:13:20").dropLast
  errno := ⟨2, by decide⟩
  strerror := literal "No such file or directory"
  terminated := by decide +kernel
  memory := ⟨List.replicate kSmallBuffer 0, List.length_replicate⟩

/-- The theorem on `LOG_SYSERR << "connect failed"` in line 142. -/
theorem record_terminated_short : ∃ statement : Logger, ∃ record flushes,
    statement.destruct = .ok (.output record :: flushes) ∧
      (dash ++ server.name ++ ([58] ++ decimal 142 ++ [10])) <:+ record := by
  obtain ⟨⟨logger, thread⟩, constructed, continued⟩ := exists_ok_of_any
    (show (construct server ⟨142, by decide⟩ poolThread november (.abort false)).toOption.any
      (fun constructed => (constructed.1.insertions [.item (.literal "connect failed")]).toOption.any
        fun statement => decide
          ((statement.basename.name.length : Int) + 36 ≤ statement.stream.buffer.avail)) = true by
      decide +kernel)
  obtain ⟨statement, inserted, room⟩ := exists_ok_of_any continued
  obtain ⟨record, flushes, destructed, ends⟩ := record_terminated_iff constructed inserted
  rw [decide_eq_true_iff] at room
  exact ⟨statement, record, flushes, destructed, ends.mpr (.inl room)⟩

/-- `LOG_WARN` of a message that leaves 17 bytes: the newline is lost with the line number. -/
theorem record_unterminated : ∃ logger thread statement record,
    construct server ⟨142, by decide⟩ poolThread november (.level .warn) = .ok (logger, thread) ∧
      logger.insertions [.item (.string (List.replicate 3948 120))] = .ok statement ∧
      statement.destruct = .ok [.output record] ∧
      ¬ (dash ++ server.name ++ ([58] ++ decimal 142 ++ [10])) <:+ record ∧ 10 ∉ record := by
  obtain ⟨⟨logger, thread⟩, constructed, continued⟩ := exists_ok_of_any
    (show (construct server ⟨142, by decide⟩ poolThread november (.level .warn)).toOption.any
      (fun constructed =>
        (constructed.1.insertions [.item (.string (List.replicate 3948 120))]).toOption.any
          fun statement => statement.destruct.toOption.any fun emissions =>
            match emissions with
            | [.output record] =>
                !decide ((dash ++ server.name ++ ([58] ++ decimal 142 ++ [10])) <:+ record) &&
                  decide (10 ∉ record)
            | _ => false) = true by
      decide +kernel)
  obtain ⟨statement, inserted, emitted⟩ := exists_ok_of_any continued
  obtain ⟨emissions, destructed, ends⟩ := exists_ok_of_any emitted
  split at ends
  · next record =>
      rw [Bool.and_eq_true, Bool.not_eq_true', decide_eq_false_iff_not, decide_eq_true_iff] at ends
      exact ⟨logger, thread, statement, record, constructed, inserted, destructed, ends⟩
  · cases ends

end Logger

end TransferServer.Base
