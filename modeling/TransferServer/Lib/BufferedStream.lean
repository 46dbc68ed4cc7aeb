/-! Output streams with a buffer in front of them. What is put in is either handed on or
waits; flushing hands on what waits. -/

set_option autoImplicit false

namespace TransferServer.Lib

universe u

structure BufferedStream (Symbol : Type u) where
  written : List Symbol
  buffered : List Symbol
  deriving DecidableEq, Repr

namespace BufferedStream

variable {Symbol : Type u}

def empty : BufferedStream Symbol := ⟨[], []⟩

def contents (stream : BufferedStream Symbol) : List Symbol := stream.written ++ stream.buffered

/-- Takes `data` in and hands on all but the last `kept` symbols that wait. -/
def put (stream : BufferedStream Symbol) (data : List Symbol) (kept : Nat) : BufferedStream Symbol :=
  let waiting := stream.buffered ++ data
  ⟨stream.written ++ waiting.take (waiting.length - kept), waiting.drop (waiting.length - kept)⟩

def flush (stream : BufferedStream Symbol) : BufferedStream Symbol := ⟨stream.contents, []⟩

@[simp] theorem contents_empty : (empty : BufferedStream Symbol).contents = [] := rfl

@[simp] theorem contents_put (stream : BufferedStream Symbol) (data : List Symbol) (kept : Nat) :
    (stream.put data kept).contents = stream.contents ++ data := by
  simp only [contents, put, List.append_assoc, List.take_append_drop]

theorem length_buffered_put {stream : BufferedStream Symbol} {data : List Symbol} {kept : Nat}
    (within : kept ≤ (stream.buffered ++ data).length) :
    (stream.put data kept).buffered.length = kept := by
  simp only [put, List.length_drop]
  omega

@[simp] theorem contents_flush (stream : BufferedStream Symbol) :
    stream.flush.contents = stream.contents := by
  simp [flush, contents]

@[simp] theorem buffered_flush (stream : BufferedStream Symbol) : stream.flush.buffered = [] := rfl

/-- Several streams have handed on all they took in iff none has anything waiting. -/
theorem flatMap_written_eq_iff {streams : List (BufferedStream Symbol)} :
    streams.flatMap written = streams.flatMap contents ↔
      ∀ stream ∈ streams, stream.buffered = [] := by
  have bound : ∀ streams : List (BufferedStream Symbol),
      (streams.flatMap written).length ≤ (streams.flatMap contents).length := by
    intro streams
    induction streams with
    | nil => exact Nat.le_refl _
    | cons stream streams ih =>
        simp only [List.flatMap_cons, List.length_append, contents]
        omega
  induction streams with
  | nil => simp
  | cons stream streams ih =>
      rw [List.forall_mem_cons, List.flatMap_cons, List.flatMap_cons]
      constructor
      · intro same
        have size := congrArg List.length same
        have rest := bound streams
        simp only [List.length_append, contents] at size
        have none : stream.buffered = [] := List.length_eq_zero_iff.mp (by omega)
        rw [contents, none, List.append_nil] at same
        exact ⟨none, ih.mp (List.append_cancel_left same)⟩
      · rintro ⟨none, rest⟩
        rw [ih.mpr rest, contents, none, List.append_nil]

end BufferedStream

end TransferServer.Lib
