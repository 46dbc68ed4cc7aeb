import TransferServer.Net.BufferRefinement

/-! The storage behind a buffer: how large it grows under a bounded load, and when
`shrink` leaves the readable bytes where the two indices point. -/

set_option autoImplicit false

namespace TransferServer.Net.Buffer

open Lib

theorem perform_valid {buffer after : Buffer} (valid : buffer.Valid) {operation : Operation}
    (legal : operation.Legal buffer) (performed : buffer.perform operation = .ok after) :
    after.Valid := by
  obtain ⟨result, reached, kept, _⟩ := perform_spec valid legal
  rw [performed] at reached
  cases reached
  exact kept

section Load

/-- The request for room an operation makes, with the readable bytes at that moment.
When `readFd` spills, the writable area is full before the rest is appended. -/
def Operation.request (buffer : Buffer) : Operation → Option (Nat × Nat)
  | .append data => some (buffer.readableBytes, data.length)
  | .ensureWritableBytes len => some (buffer.readableBytes, len)
  | .readFd (.ok bytes) =>
      if bytes.length ≤ buffer.writableBytes then none
      else some (buffer.readableBytes + buffer.writableBytes, bytes.length - buffer.writableBytes)
  | _ => none

/-- Every request leaves at most `total` readable bytes and asks for at most `most`. -/
def Operation.Within (total most : Nat) (buffer : Buffer) (operation : Operation) : Prop :=
  ∀ request ∈ operation.request buffer, request.1 + request.2 ≤ total ∧ request.2 ≤ most

instance (total most : Nat) (buffer : Buffer) (operation : Operation) :
    Decidable (operation.Within total most buffer) :=
  match h : operation.request buffer with
  | none => .isTrue fun request asked => by simp [h] at asked
  | some request =>
      decidable_of_iff (request.1 + request.2 ≤ total ∧ request.2 ≤ most)
        (by simp [Operation.Within, h])

/-- What the storage never exceeds under requests within `total` and `most`. -/
def storageBound (total most : Nat) : Nat :=
  max (kCheapPrepend + kInitialSize) (total + most + kCheapPrepend)

variable {total most : Nat}

theorem length_copyTo {buffer after : Buffer} {position : Nat} {data : Bytes}
    (copied : buffer.copyTo position data = .ok after) :
    after.buffer.length = buffer.buffer.length ∧ after.readerIndex = buffer.readerIndex ∧
      after.writerIndex = buffer.writerIndex := by
  obtain ⟨fits, stored⟩ := require_bind_eq_ok.mp copied
  cases stored
  exact ⟨length_overwrite fits, rfl, rfl⟩

/-- The storage grows only while the bytes before the reader are fewer than the request
and the header together, so what it grows to is the readable bytes, the request, and
less than another request with its header. -/
theorem length_makeSpace {buffer after : Buffer} (valid : buffer.Valid) {len : Nat}
    (made : buffer.makeSpace len = .ok after)
    (load : buffer.readableBytes + len ≤ total) (asked : len ≤ most) :
    after.buffer.length ≤ max buffer.buffer.length (total + most + kCheapPrepend) := by
  have ordered := valid.ordered
  unfold makeSpace at made
  by_cases grows : buffer.writableBytes + buffer.prependableBytes < len + kCheapPrepend
  · rw [if_pos grows] at made
    cases made
    simp only [List.length_append, List.length_take, List.length_replicate]
    unfold readableBytes at load
    unfold prependableBytes at grows
    omega
  · rw [if_neg grows] at made
    obtain ⟨_, made⟩ := assert_bind_eq_ok.mp made
    obtain ⟨moved, copied, made⟩ := bind_eq_ok.mp made
    obtain ⟨_, made⟩ := assert_bind_eq_ok.mp made
    cases made
    exact Nat.le_trans (Nat.le_of_eq (length_copyTo copied).1) (Nat.le_max_left _ _)

theorem length_ensureWritableBytes {buffer after : Buffer} (valid : buffer.Valid) {len : Nat}
    (ensured : buffer.ensureWritableBytes len = .ok after)
    (load : buffer.readableBytes + len ≤ total) (asked : len ≤ most) :
    after.buffer.length ≤ max buffer.buffer.length (total + most + kCheapPrepend) := by
  unfold ensureWritableBytes at ensured
  by_cases short : buffer.writableBytes < len
  · rw [if_pos short] at ensured
    obtain ⟨roomy, made, ensured⟩ := bind_eq_ok.mp ensured
    obtain ⟨_, ensured⟩ := assert_bind_eq_ok.mp ensured
    cases ensured
    exact length_makeSpace valid made load asked
  · rw [if_neg short] at ensured
    obtain ⟨_, ensured⟩ := assert_bind_eq_ok.mp ensured
    cases ensured
    exact Nat.le_max_left _ _

theorem length_append {buffer after : Buffer} (valid : buffer.Valid) {data : Bytes}
    (appended : buffer.append data = .ok after)
    (load : buffer.readableBytes + data.length ≤ total) (asked : data.length ≤ most) :
    after.buffer.length ≤ max buffer.buffer.length (total + most + kCheapPrepend) := by
  obtain ⟨roomy, ensured, appended⟩ := bind_eq_ok.mp appended
  obtain ⟨filled, copied, appended⟩ := bind_eq_ok.mp appended
  cases appended
  change filled.buffer.length ≤ _
  rw [(length_copyTo copied).1]
  exact length_ensureWritableBytes valid ensured load asked

theorem length_readFd {buffer after : Buffer} (valid : buffer.Valid) {bytes : Bytes}
    {returned : Int} {savedErrno : Option Int}
    (within : (Operation.readFd (.ok bytes)).Within total most buffer)
    (read : buffer.readFd (.ok bytes) = .ok (returned, savedErrno, after)) :
    after.buffer.length ≤ max buffer.buffer.length (total + most + kCheapPrepend) := by
  obtain ⟨_, read⟩ := assume_bind_eq_ok.mp read
  obtain ⟨filled, copied, read⟩ := bind_eq_ok.mp read
  obtain ⟨size, reader, _⟩ := length_copyTo copied
  by_cases direct : bytes.length ≤ buffer.writableBytes
  · rw [if_pos direct] at read
    cases read
    exact Nat.le_trans (Nat.le_of_eq size) (Nat.le_max_left _ _)
  · rw [if_neg direct] at read
    obtain ⟨appended, spilled, read⟩ := bind_eq_ok.mp read
    cases read
    obtain ⟨load, asked⟩ := within (buffer.readableBytes + buffer.writableBytes,
      bytes.length - buffer.writableBytes) (by simp [Operation.request, direct])
    let full : Buffer := { filled with writerIndex := filled.buffer.length }
    obtain ⟨ordered, inside, header⟩ := valid
    have stands : full.Valid := {
      ordered := by simp only [full]; omega
      inside := Nat.le_refl _
      header := by simp only [full]; omega }
    have held : full.readableBytes = buffer.readableBytes + buffer.writableBytes := by
      simp only [full, readableBytes, writableBytes]
      omega
    have rest : (bytes.drop buffer.writableBytes).length = bytes.length - buffer.writableBytes :=
      List.length_drop
    have bounded : after.buffer.length ≤ max full.buffer.length (total + most + kCheapPrepend) :=
      length_append stands spilled (by rw [held, rest]; exact load) (by rw [rest]; exact asked)
    rwa [show full.buffer.length = buffer.buffer.length from size] at bounded

/-- One operation: only requests for room change the size of the storage. -/
theorem length_perform {buffer after : Buffer} (valid : buffer.Valid) {operation : Operation}
    (within : operation.Within total most buffer)
    (performed : buffer.perform operation = .ok after) :
    after.buffer.length ≤ max buffer.buffer.length (total + most + kCheapPrepend) := by
  have same (unchanged : after.buffer.length = buffer.buffer.length) :
      after.buffer.length ≤ max buffer.buffer.length (total + most + kCheapPrepend) :=
    Nat.le_trans (Nat.le_of_eq unchanged) (Nat.le_max_left _ _)
  cases operation with
  | append data =>
      obtain ⟨load, asked⟩ := within (buffer.readableBytes, data.length) rfl
      exact length_append valid performed load asked
  | ensureWritableBytes len =>
      obtain ⟨load, asked⟩ := within (buffer.readableBytes, len) rfl
      exact length_ensureWritableBytes valid performed load asked
  | hasWritten data len =>
      obtain ⟨filled, copied, performed⟩ := bind_eq_ok.mp performed
      cases performed
      exact same (length_copyTo copied).1
  | prepend data =>
      obtain ⟨_, performed⟩ := assert_bind_eq_ok.mp performed
      exact same (length_copyTo performed).1
  | retrieve len =>
      obtain ⟨_, performed⟩ := assert_bind_eq_ok.mp performed
      cases performed
      exact same rfl
  | retrieveUntil distance =>
      obtain ⟨_, performed⟩ := assert_bind_eq_ok.mp performed
      obtain ⟨_, performed⟩ := assert_bind_eq_ok.mp performed
      obtain ⟨_, performed⟩ := assert_bind_eq_ok.mp performed
      cases performed
      exact same rfl
  | retrieveAll =>
      cases performed
      exact same rfl
  | retrieveAsString =>
      cases performed
      exact same rfl
  | readFd received =>
      obtain ⟨⟨returned, savedErrno, result⟩, read, performed⟩ := bind_eq_ok.mp performed
      cases performed
      cases received with
      | error errno =>
          cases read
          exact same rfl
      | ok bytes => exact length_readFd valid within read

/-- Whatever the run, the storage is never larger than its first size or the load: the
most bytes ever readable, one request and the header. -/
theorem storage_bounded {operations : List Operation} {buffer : Buffer}
    (run : Execution perform
      (fun buffer operation => operation.Legal buffer ∧ operation.Within total most buffer)
      fresh operations buffer) :
    buffer.buffer.length ≤ storageBound total most := by
  have bounded : buffer.Valid ∧ buffer.buffer.length ≤ storageBound total most := by
    induction run with
    | nil =>
        refine ⟨fresh_valid, ?_⟩
        simp only [fresh, List.length_replicate]
        exact Nat.le_max_left _ _
    | snoc _ admitted stepped ih =>
        obtain ⟨valid, bounded⟩ := ih
        obtain ⟨legal, within⟩ := admitted
        refine ⟨perform_valid valid legal stepped, Nat.le_trans (length_perform valid within stepped) ?_⟩
        exact Nat.max_le.mpr ⟨bounded, Nat.le_max_right _ _⟩
  exact bounded.2

/-- The theorem at a run that slides twice and never empties the buffer. -/
theorem storage_bounded_slides :
    ∃ buffer : Buffer, buffer.readable ≠ [] ∧ buffer.buffer.length ≤ storageBound 1000 600 := by
  let operations : List Operation := [
    .append (List.replicate 600 1), .append (List.replicate 400 2), .retrieve 600,
    .append (List.replicate 600 3), .retrieve 700, .prepend [4, 5],
    .readFd (.ok (List.replicate 600 6)), .retrieveUntil 500, .ensureWritableBytes 500]
  have replayed : (replay perform
      (fun buffer operation => operation.Legal buffer ∧ operation.Within 1000 600 buffer)
      .impossible fresh operations).toOption.any (fun buffer => decide (buffer.readable ≠ [])) =
        true := by
    decide +kernel
  obtain ⟨buffer, run, unread⟩ := Execution.exists_of_replay replayed
  exact ⟨buffer, of_decide_eq_true unread, storage_bounded run⟩

end Load

section Shrink

/-- What a caller of `shrink(reserve)` expects of the buffer it gets back. -/
def ShrinkKeeps (buffer : Buffer) (reserve : Nat) : Prop :=
  ∃ after, buffer.shrink reserve = .ok after ∧ after.readable = buffer.readable ∧
    after.readerIndex ≤ after.writerIndex ∧ after.writerIndex ≤ after.buffer.length ∧
    reserve ≤ after.writableBytes

/-- The new storage holds the readable bytes at `kCheapPrepend`. -/
theorem shrink_eq_ok {buffer : Buffer} (valid : buffer.Valid) (reserve : Nat) :
    buffer.shrink reserve = .ok { buffer with
      buffer := List.replicate kCheapPrepend 0 ++ buffer.readable ++ List.replicate reserve 0 } := by
  have size := length_readable valid
  have fits : kCheapPrepend + buffer.readable.length ≤
      (List.replicate (kCheapPrepend + buffer.readableBytes + reserve) (0 : Byte)).length := by
    rw [List.length_replicate]
    omega
  rw [shrink, copyTo_of fits, ← size]
  congr 2
  simp only [overwrite, List.take_replicate, List.drop_replicate]
  congr 2
  · congr 1
    omega
  · omega

/-- From the reader on, the bytes `shrink` leaves under the two indices. -/
theorem readable_shrink {buffer after : Buffer} (valid : buffer.Valid) {reserve : Nat}
    (shrunk : buffer.shrink reserve = .ok after) (early : buffer.readerIndex ≤ kCheapPrepend) :
    after.readable = (List.replicate (kCheapPrepend - buffer.readerIndex) 0 ++
      buffer.readable).take buffer.readable.length := by
  rw [shrink_eq_ok valid] at shrunk
  cases shrunk
  have size := length_readable valid
  have span : buffer.writerIndex - buffer.readerIndex = buffer.readable.length := size.symm
  rw [readable, Lib.segment, span, List.append_assoc,
    List.drop_append_of_le_length (by rw [List.length_replicate]; exact early),
    List.drop_replicate, ← List.append_assoc, List.take_append_of_le_length]
  rw [List.length_append]
  omega

/-- `shrink` keeps its promise exactly where the reader stands at `kCheapPrepend`, or
before it with nothing but NUL bytes to read: elsewhere the two indices miss the bytes
that moved, or the room behind them is short of the reserve. -/
theorem shrink_keeps_iff {operations : List Operation} {buffer : Buffer}
    (run : Execution perform (fun buffer operation => operation.Legal buffer) fresh operations buffer)
    (reserve : Nat) :
    ShrinkKeeps buffer reserve ↔ buffer.readerIndex = kCheapPrepend ∨
      buffer.readerIndex < kCheapPrepend ∧ ∀ byte ∈ buffer.readable, byte = 0 := by
  have valid : buffer.Valid := run.invariant fresh_valid
    fun _ _ _ valid legal stepped => perform_valid valid legal stepped
  have ordered := valid.ordered
  have size := length_readable valid
  unfold readableBytes at size
  constructor
  · rintro ⟨after, shrunk, same, _, inside, roomy⟩
    have moved := shrink_eq_ok valid reserve
    rw [shrunk] at moved
    cases moved
    simp only [writableBytes, List.length_append, List.length_replicate] at inside roomy
    by_cases here : buffer.readerIndex = kCheapPrepend
    · exact .inl here
    · have early : buffer.readerIndex < kCheapPrepend := by omega
      rw [readable_shrink valid shrunk (Nat.le_of_lt early)] at same
      exact .inr ⟨early, eq_of_shifted (by omega) same⟩
  · intro stands
    have early : buffer.readerIndex ≤ kCheapPrepend := by omega
    refine ⟨_, shrink_eq_ok valid reserve, ?_, ordered, ?_, ?_⟩
    · rw [readable_shrink valid (shrink_eq_ok valid reserve) early]
      rcases stands with here | ⟨_, blank⟩
      · rw [here, Nat.sub_self, List.replicate_zero, List.nil_append, List.take_length]
      · rw [List.eq_replicate_of_mem blank, ← List.replicate_add, List.take_replicate,
          List.length_replicate]
        congr 1
        omega
    · simp only [List.length_append, List.length_replicate]
      omega
    · simp only [writableBytes, List.length_append, List.length_replicate]
      omega

/-- The theorem where the reader has moved back over a prepended NUL byte. -/
theorem shrink_keeps_iff_prepended :
    ∃ buffer : Buffer, buffer.readerIndex = 7 ∧ ShrinkKeeps buffer 4 := by
  have replayed : (replay perform (fun buffer operation => operation.Legal buffer) .impossible
      fresh [.append [0, 0], .prepend [0]]).toOption.any (fun buffer =>
        decide (buffer.readerIndex = 7 ∧ ∀ byte ∈ buffer.readable, byte = 0)) = true := by
    decide +kernel
  obtain ⟨buffer, run, tested⟩ := Execution.exists_of_replay replayed
  obtain ⟨reader, blank⟩ := of_decide_eq_true tested
  exact ⟨buffer, reader, (shrink_keeps_iff run 4).mpr (.inr ⟨by rw [reader]; decide, blank⟩)⟩

/-- Three bytes arrive and one is retrieved: `shrink(0)` then reads past the new storage. -/
theorem shrink_loses_retrieved :
    ∃ buffer : Buffer, Execution perform (fun buffer operation => operation.Legal buffer) fresh
        [.append [1, 2, 3], .retrieve 1] buffer ∧
      ∃ after, buffer.shrink 0 = .ok after ∧ after.readable ≠ buffer.readable ∧
        after.buffer.length < after.writerIndex := by
  have replayed : (replay perform (fun buffer operation => operation.Legal buffer) .impossible
      fresh [.append [1, 2, 3], .retrieve 1]).toOption.any (fun buffer =>
        (buffer.shrink 0).toOption.any fun after => decide
          (after.readable ≠ buffer.readable ∧ after.buffer.length < after.writerIndex)) = true := by
    decide +kernel
  obtain ⟨buffer, run, tested⟩ := Execution.exists_of_replay replayed
  obtain ⟨after, shrunk, tested⟩ := exists_ok_of_any tested
  exact ⟨buffer, run, after, shrunk, of_decide_eq_true tested⟩

end Shrink

end TransferServer.Net.Buffer
