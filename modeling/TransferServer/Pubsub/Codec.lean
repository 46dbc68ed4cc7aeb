import TransferServer.Net.Buffer

/-! `pubsub::parseMessage` (codec.cpp) and the loop its callers run after each read. -/

set_option autoImplicit false

namespace TransferServer.Pubsub

open Lib Net

inductive ParseResult where
  | kError
  | kSuccess
  | kContinue
  deriving DecidableEq, Repr

/-- The out parameters of one call. -/
structure Message where
  cmd : Bytes
  topic : Bytes
  content : Bytes
  deriving DecidableEq, Repr

def Message.empty : Message := ⟨[], [], []⟩

/-- `' '` -/
def kSpace : Byte := 32

/-- `"pub"` -/
def kPub : Bytes := [112, 117, 98]

/-- `std::find` between two pointers into the storage; `last` where nothing is found. -/
def find (store : List Byte) (first last : Nat) (value : Byte) : Nat :=
  first + (segment store first last).findIdx (· == value)

def parseMessage (buf : Buffer) (out : Message) : Outcome (ParseResult × Message × Buffer) :=
  match buf.findCRLF with
  | some crlf =>
      let space := find buf.buffer buf.peek crlf kSpace
      if space ≠ crlf then
        let named := { out with
          cmd := segment buf.buffer buf.peek space
          topic := segment buf.buffer (space + 1) crlf }
        if named.cmd = kPub then do
          let start := crlf + 2
          match ← buf.findCRLFFrom start with
          | some crlf => do
              let after ← buf.retrieveUntil (crlf + 2)
              return (.kSuccess, { named with content := segment buf.buffer start crlf }, after)
          | none => return (.kContinue, named, buf)
        else do
          let after ← buf.retrieveUntil (crlf + 2)
          return (.kSuccess, named, after)
      else return (.kError, out, buf)
  | none => return (.kContinue, out, buf)

/-- Repeats `parseMessage`, each time with fresh out parameters, until it answers other than
`kSuccess`. There is no result when `fuel` calls do not reach that answer. -/
def parseAll (fuel : Nat) (buf : Buffer) : Outcome (Option (List Message × ParseResult × Buffer)) :=
  match fuel with
  | 0 => return none
  | fuel + 1 => do
      let (result, message, after) ← parseMessage buf .empty
      if result = .kSuccess then
        let later ← parseAll fuel after
        return later.map fun (messages, verdict, rest) => (message :: messages, verdict, rest)
      else return some ([], result, after)

structure Reader where
  buf : Buffer
  messages : List Message
  verdict : ParseResult
  deriving DecidableEq, Repr

def Reader.fresh : Reader := ⟨.fresh, [], .kContinue⟩

/-- A chunk arrives; after an error it is appended and not looked at. -/
def Reader.receive (fuel : Nat) (reader : Reader) (chunk : Bytes) : Outcome (Option Reader) := do
  let buf ← reader.buf.append chunk
  if reader.verdict = .kError then return some { reader with buf }
  else
    let parsed ← parseAll fuel buf
    return parsed.map fun (messages, verdict, rest) => ⟨rest, reader.messages ++ messages, verdict⟩

def Reader.receiveAll (fuel : Nat) : Reader → List Bytes → Outcome (Option Reader)
  | reader, [] => return some reader
  | reader, chunk :: chunks => do
      match ← reader.receive fuel chunk with
      | none => return none
      | some reader => reader.receiveAll fuel chunks

end TransferServer.Pubsub
