import TransferServer.Base.CivilTime
import TransferServer.Base.LogStream

/-! `muduo::Logger` (Logging.h, Logging.cpp): a record has a header from the constructor, what the
user inserts, and a trailer from the destructor. -/

set_option autoImplicit false

namespace TransferServer.Base

/-- The array of a string literal. -/
def literal (text : String) : Bytes := text.toUTF8.data.toList ++ [0]

def LogItem.literal (text : String) : LogItem :=
  .cString (Base.literal text) (List.mem_append_right _ (List.mem_singleton_self 0))

/-- `strrchr(string, c)` for a `c` other than NUL, as an offset. -/
def strrchr (string : Bytes) (c : Byte) : Option Nat :=
  let text := string.takeWhile (· ≠ 0)
  if c ∈ text then some (text.length - 1 - text.reverse.idxOf c) else none

/-- `Logger::SourceFile`, with the memory that `data_` points to. -/
structure SourceFile where
  data : Bytes
  size : Integral .int
  readable : size.value.toNat ≤ data.length

namespace SourceFile

/-- The constructor from an array of `N` characters. -/
def ofArray (arr : Bytes) (small : arr.length ≤ 2147483647) : SourceFile :=
  let start := match strrchr arr 47 with
    | some slash => slash + 1
    | none => 0
  { data := arr.drop start
    size := { value := ((arr.length - 1 - start : Nat) : Int)
              holds := by
                change -2147483648 ≤ (_ : Int) ∧ (_ : Int) ≤ 2147483647
                omega }
    readable := by
      rw [List.length_drop, Int.toNat_natCast]
      omega }

def name (file : SourceFile) : Bytes := file.data.take file.size.value.toNat

end SourceFile

inductive LogLevel where
  | trace
  | debug
  | info
  | warn
  | error
  | fatal
  | numLogLevels
  deriving DecidableEq, Repr

/-- `LogLevelName[level]` -/
def logLevelName : LogLevel → Outcome String
  | .trace => return "TRACE"
  | .debug => return "DEBUG"
  | .info => return "INFO"
  | .warn => return "WARN"
  | .error => return "ERROR"
  | .fatal => return "FATAL"
  | .numLogLevels => throw .outOfBounds

/-- What a `Fmt` holds in its 32 bytes. -/
structure Fmt where
  text : Bytes
  small : text.length < 32

/-- With what `snprintf` makes of the format and the value. -/
def Fmt.construct (text : Bytes) : Outcome Fmt :=
  if small : text.length < 32 then return ⟨text, small⟩ else throw (.assertion .fmt)

/-- `stream << fmt` -/
def Fmt.item (fmt : Fmt) : LogItem :=
  .append fmt.text
    { value := fmt.text.length
      holds := by
        change -2147483648 ≤ (_ : Int) ∧ (_ : Int) ≤ 2147483647
        have small := fmt.small
        omega }
    (by rw [Int.toNat_natCast])

/-- The thread-local variables that a logger uses. -/
structure LoggingThread where
  tidString : Bytes
  terminated : 0 ∈ tidString
  time : CharArray 32
  lastSecond : Int

/-- What a logger meets when it is constructed: the clock, the text that `gmtime_r` and `snprintf`
make of a second, `errno` with its text, and the memory of the buffer. -/
structure LoggingEnvironment where
  now : Int
  calendar : Int → Bytes
  errno : Integral .int
  strerror : Bytes
  terminated : 0 ∈ strerror
  memory : CharArray kSmallBuffer

/-- `Logger::Impl` -/
structure Logger where
  time : Int
  stream : LogStream
  level : LogLevel
  line : Integral .int
  basename : SourceFile

inductive Emission where
  | output (msg : Bytes)
  | flush
  deriving DecidableEq, Repr

namespace Logger

def insertAll (logger : Logger) (items : List LogItem) : Outcome Logger := do
  let stream ← logger.stream.insertAll items
  return { logger with stream }

/-- `t_time` once the second has changed. -/
def updateTime (thread : LoggingThread) (env : LoggingEnvironment) (seconds : Int) :
    Outcome LoggingThread :=
  if seconds ≠ thread.lastSecond then do
    let text := env.calendar seconds
    let time ← thread.time.write 0 (text.take 31 ++ [0])
    assert .formatTime (text.length = 17)
    return { thread with time, lastSecond := seconds }
  else return thread

def formatTime (logger : Logger) (thread : LoggingThread) (env : LoggingEnvironment) :
    Outcome (Logger × LoggingThread) := do
  let seconds := logger.time.tdiv 1000000
  let microseconds := logger.time.tmod 1000000
  let thread ← updateTime thread env seconds
  -- the format is ".%06dZ "
  let us ← Fmt.construct ([46] ++ zeroPad 6 microseconds ++ [90, 32])
  assert .formatTime (us.text.length = 9)
  let logger ← logger.insertAll
    [.append thread.time.cells ⟨17, by decide⟩ (by rw [thread.time.sized]; decide), us.item]
  return (logger, thread)

/-- `Impl::Impl` -/
def impl (level : LogLevel) (savedErrno : Integral .int) (file : SourceFile) (line : Integral .int)
    (thread : LoggingThread) (env : LoggingEnvironment) : Outcome (Logger × LoggingThread) := do
  let logger : Logger :=
    { time := env.now, stream := .construct env.memory, level, line, basename := file }
  let (logger, thread) ← logger.formatTime thread env
  let name ← logLevelName level
  let logger ← logger.insertAll [.cString thread.tidString thread.terminated, .literal name]
  if savedErrno.value ≠ 0 then do
    let logger ← logger.insertAll
      [.cString env.strerror env.terminated, .literal " (errno=", .integer savedErrno, .literal ") "]
    return (logger, thread)
  else return (logger, thread)

/-- The constructors of `Logger`, by what they take beside the file and the line. -/
inductive Overload where
  | plain
  | function (level : LogLevel) (func : Bytes) (terminated : 0 ∈ func)
  | level (level : LogLevel)
  | abort (toAbort : Bool)

def construct (file : SourceFile) (line : Integral .int) (thread : LoggingThread)
    (env : LoggingEnvironment) : Overload → Outcome (Logger × LoggingThread)
  | .plain => impl .info ⟨0, by decide⟩ file line thread env
  | .function level func terminated => do
      let (logger, thread) ← impl level ⟨0, by decide⟩ file line thread env
      let logger ← logger.insertAll [.cString func terminated, .char 32]
      return (logger, thread)
  | .level level => impl level ⟨0, by decide⟩ file line thread env
  | .abort toAbort => impl (if toAbort then .fatal else .error) env.errno file line thread env

/-- What the user inserts into `stream()`. -/
def insertions (logger : Logger) (calls : List Insertion) : Outcome Logger := do
  let stream ← calls.foldlM LogStream.perform logger.stream
  return { logger with stream }

/-- The file name as `operator<<(LogStream&, const SourceFile&)` inserts it. -/
def fileItem (logger : Logger) : LogItem :=
  .append logger.basename.data logger.basename.size logger.basename.readable

def finish (logger : Logger) : Outcome Logger :=
  logger.insertAll
    [.literal " - ", logger.fileItem, .literal ":", .integer logger.line, .char 10]

/-- `~Logger` -/
def destruct (logger : Logger) : Outcome (List Emission) := do
  let logger ← logger.finish
  let msg := logger.stream.buffer.contents
  return .output msg :: if logger.level = .fatal then [.flush] else []

end Logger

end TransferServer.Base
