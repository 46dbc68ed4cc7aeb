import TransferServer.Base.AsyncLogging
import TransferServer.Base.LogFile

/-! An `AsyncLogging` with the `LogFile` that lives in its `threadFunc`: what the backend does to
`output` at each of its steps. -/

set_option autoImplicit false

namespace TransferServer.Base

structure LogPipeline where
  basename : Bytes
  rollSize : Nat
  log : AsyncLogging
  /-- `output`, once `threadFunc` has constructed it. -/
  output : Option LogFile

/-- A step of the backend meets what its call of the log file meets. -/
inductive PipelineAction where
  | append (logline : Bytes)
  | backend (around : Surroundings)
  | stop
  deriving DecidableEq, Repr

namespace LogPipeline

/-- The default argument of `LogFile::LogFile`. -/
def flushInterval : Int := 3

def start (basename : Bytes) (rollSize : Nat) : LogPipeline := ⟨basename, rollSize, .start, none⟩

def deref (pipeline : LogPipeline) : Outcome LogFile :=
  match pipeline.output with
  | some output => return output
  | none => throw .dangling

/-- The buffer that the loop over `buffersToWrite` writes next. -/
def writes (pipeline : LogPipeline) : Option BufferPtr :=
  match pipeline.log.backend with
  | .writing index => pipeline.log.buffersToWrite[index]?
  | _ => none

/-- What the next step of `threadFunc` does to `output`. -/
def onOutput (pipeline : LogPipeline) (around : Surroundings) : Outcome (Option LogFile) :=
  match pipeline.log.backend with
  | .starting => do
      let output ← LogFile.construct pipeline.basename pipeline.rollSize flushInterval
        around.rollNow around.opened
      return some output
  | .writing _ =>
      match pipeline.writes with
      | some buffer => do
          let output ← pipeline.deref
          let output ← output.append (pipeline.log.heap buffer).contents around
          return some output
      | none => return pipeline.output
  | .flushing | .finishing => do
      let output ← pipeline.deref
      let output ← output.flush
      return some output
  | _ => return pipeline.output

def step (pipeline : LogPipeline) : PipelineAction → Outcome LogPipeline
  | .append logline => do
      let log ← pipeline.log.step (.append logline)
      return { pipeline with log }
  | .backend around => do
      let log ← pipeline.log.step .backend
      let output ← pipeline.onOutput around
      return { pipeline with log, output }
  | .stop => do
      let log ← pipeline.log.step .stop
      return { pipeline with log }

end LogPipeline

end TransferServer.Base
