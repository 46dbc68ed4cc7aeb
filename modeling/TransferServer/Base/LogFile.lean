import TransferServer.Base.Outcome
import TransferServer.Lib.BufferedStream

/-! `LogFile` (LogFile.cpp) over a stdio stream. What the clock shows, what `fopen` returns and
how far each `fwrite` gets are inputs; the lock around the members is not modelled, and
neither are the names of the files. -/

set_option autoImplicit false

namespace TransferServer.Base

/-- What one `fwrite` does: the bytes it accepts, and how many bytes the buffer of the stream
holds afterwards. -/
structure Fwrite where
  accepted : Nat
  kept : Nat
  deriving DecidableEq, Repr

/-- The stream behind a `FILE*`. What is written has been handed to the operating system. -/
abbrev Stream := Lib.BufferedStream Byte

namespace Stream

/-- `sizeof(buffer_)`, as `setbuffer` is told. -/
def kBufferSize : Nat := 64 * 1024

/-- `::fwrite(logline,1,len,fp_)` -/
def fwrite (fp : Stream) (logline : Bytes) (result : Fwrite) : Outcome (Stream × Nat) := do
  assume (result.accepted ≤ logline.length)
  let taken := logline.take result.accepted
  assume (result.kept ≤ kBufferSize ∧ result.kept ≤ (fp.buffered ++ taken).length)
  return (fp.put taken result.kept, result.accepted)

/-- `while (remain > 0)` of `File::append`. The results of its calls of `fwrite` are
`results`, in order and no more than it makes. -/
def writeRemaining (fp : Stream) (remaining : Bytes) (results : List Fwrite) : Outcome Stream :=
  match results with
  | [] => do
      assume (remaining = [])
      return fp
  | result :: results => do
      assume (remaining ≠ [])
      let (fp, x) ← fp.fwrite remaining result
      if x = 0 then
        assume (results = [])
        return fp
      else writeRemaining fp (remaining.drop x) results

end Stream

/-- `LogFile::File` -/
structure File where
  fp : Stream
  writtenBytes : Nat
  deriving DecidableEq, Repr

namespace File

def construct (opened : Bool) : Outcome File := do
  assert .fileConstructor (opened = true)
  return ⟨.empty, 0⟩

/-- The first `fwrite` is made even for an empty line. -/
def append (file : File) (logline : Bytes) (results : List Fwrite) : Outcome File :=
  match results with
  | [] => throw .impossible
  | result :: results => do
      let (fp, n) ← file.fp.fwrite logline result
      let fp ← fp.writeRemaining (logline.drop n) results
      return ⟨fp, file.writtenBytes + logline.length⟩

def flush (file : File) : File := { file with fp := file.fp.flush }

end File

structure LogFile where
  rollSize : Nat
  flushInterval : Int
  count : Nat
  startOfPeriod : Int
  lastRoll : Int
  lastFlush : Int
  /-- `file_`; nothing initialises it before the first `new File`. -/
  file : Option File
  /-- The files that `file_` pointed to before; nobody closes or deletes them. -/
  replaced : List File
  deriving DecidableEq, Repr

/-- What an `append` meets: the results of `fwrite`, `time(NULL)` in `append_unlocked` and then
in `getLogFileName`, and whether `fopen` succeeds. -/
structure Surroundings where
  results : List Fwrite
  now : Int
  rollNow : Int
  opened : Bool
  deriving DecidableEq, Repr

namespace LogFile

def kCheckTimeRoll : Nat := 1024
def kRollPerSeconds : Int := 60 * 60 * 24

/-- `now / kRollPerSeconds_ * kRollPerSeconds_` -/
def period (now : Int) : Int := Int.tdiv now kRollPerSeconds * kRollPerSeconds

def rollFile (log : LogFile) (now : Int) (opened : Bool) : Outcome LogFile :=
  if log.lastRoll < now then do
    let file ← File.construct opened
    return { log with
      lastRoll := now
      lastFlush := now
      startOfPeriod := period now
      file := some file
      replaced := log.replaced ++ log.file.toList }
  else return log

/-- `LogFile::LogFile` -/
def construct (basename : Bytes) (rollSize : Nat) (flushInterval now : Int) (opened : Bool) :
    Outcome LogFile := do
  assert .logFileConstructor ((47 : Byte) ∉ basename)
  rollFile {
    rollSize
    flushInterval
    count := 0
    startOfPeriod := 0
    lastRoll := 0
    lastFlush := 0
    file := none
    replaced := [] } now opened

/-- What `file_` points to. -/
def deref (log : LogFile) : Outcome File :=
  match log.file with
  | some file => return file
  | none => throw .dangling

def append_unlocked (log : LogFile) (logline : Bytes) (around : Surroundings) : Outcome LogFile := do
  let file ← log.deref
  let file ← file.append logline around.results
  let log := { log with file := some file }
  if log.rollSize < file.writtenBytes then log.rollFile around.rollNow around.opened
  else if kCheckTimeRoll < log.count then
    let log := { log with count := 0 }
    if period around.now ≠ log.startOfPeriod then log.rollFile around.rollNow around.opened
    else if log.flushInterval < around.now - log.lastFlush then
      return { log with lastFlush := around.now, file := some file.flush }
    else return log
  else return { log with count := log.count + 1 }

def append (log : LogFile) (logline : Bytes) (around : Surroundings) : Outcome LogFile :=
  log.append_unlocked logline around

def flush (log : LogFile) : Outcome LogFile := do
  let file ← log.deref
  return { log with file := some file.flush }

end LogFile

end TransferServer.Base
