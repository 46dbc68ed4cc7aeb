import TransferServer.Net.Buffer

/-! What each `Buffer` operation does to the readable bytes. The two indices stay
ordered inside the storage; given that, an operation whose argument respects its
own assertion succeeds. -/

set_option autoImplicit false

namespace TransferServer.Net.Buffer

open Lib

structure Valid (buffer : Buffer) : Prop where
  ordered : buffer.readerIndex ≤ buffer.writerIndex
  inside : buffer.writerIndex ≤ buffer.buffer.length
  header : kCheapPrepend ≤ buffer.buffer.length

theorem fresh_valid : fresh.Valid where
  ordered := Nat.le_refl _
  inside := by simp only [fresh, List.length_replicate, kCheapPrepend]; omega
  header := by simp only [fresh, List.length_replicate]; omega

theorem construct_eq_ok : construct = .ok fresh := by
  have empty : fresh.readableBytes = 0 := Nat.sub_self _
  have roomy : fresh.writableBytes = kInitialSize := by
    simp only [writableBytes, fresh, List.length_replicate]
    omega
  have reserved : fresh.prependableBytes = kCheapPrepend := rfl
  simp only [construct, assert_of empty, assert_of roomy, assert_of reserved, ok_bind, pure_eq_ok]

@[simp] theorem readable_fresh : fresh.readable = [] :=
  segment_self _ _

theorem length_readable {buffer : Buffer} (valid : buffer.Valid) :
    buffer.readable.length = buffer.readableBytes :=
  length_segment valid.inside

theorem readableBytes_eq_zero_iff {buffer : Buffer} (valid : buffer.Valid) :
    buffer.readableBytes = 0 ↔ buffer.readable = [] := by
  rw [← length_readable valid, List.length_eq_zero_iff]

theorem retrieve_spec {buffer : Buffer} (valid : buffer.Valid) {len : Nat}
    (available : len ≤ buffer.readableBytes) :
    ∃ after, buffer.retrieve len = .ok after ∧ after.Valid ∧
      after.readable = buffer.readable.drop len := by
  have enough : buffer.readerIndex + len ≤ buffer.writerIndex := by
    have ordered := valid.ordered
    unfold readableBytes at available
    omega
  refine ⟨{ buffer with readerIndex := buffer.readerIndex + len }, ?_,
    ⟨enough, valid.inside, valid.header⟩, drop_segment.symm⟩
  simp only [retrieve, assert_of available, ok_bind, pure_eq_ok]

theorem retrieveUntil_spec {buffer : Buffer} (valid : buffer.Valid) {finish : Nat}
    (lower : buffer.peek ≤ finish) (upper : finish ≤ buffer.beginWrite) :
    ∃ after, buffer.retrieveUntil finish = .ok after ∧ after.Valid ∧
      after.readable = buffer.readable.drop (finish - buffer.peek) := by
  have available : finish - buffer.peek ≤ buffer.readableBytes := Nat.sub_le_sub_right upper _
  simp only [retrieveUntil, assert_of lower, assert_of upper, ok_bind]
  exact retrieve_spec valid available

theorem retrieveAll_valid {buffer : Buffer} (valid : buffer.Valid) : buffer.retrieveAll.Valid :=
  ⟨Nat.le_refl _, valid.header, valid.header⟩

@[simp] theorem readable_retrieveAll (buffer : Buffer) : buffer.retrieveAll.readable = [] :=
  segment_self _ _

theorem copyTo_of {buffer : Buffer} {position : Nat} {data : Bytes}
    (fits : position + data.length ≤ buffer.buffer.length) :
    buffer.copyTo position data =
      .ok { buffer with buffer := overwrite buffer.buffer position data } := by
  simp only [copyTo, require_of fits, ok_bind, pure_eq_ok]

/-- Growing and sliding both leave room for `len` bytes. In the sliding branch the
reserved header has been overtaken by the reader, which is what its assertion asks. -/
theorem makeSpace_spec {buffer : Buffer} (valid : buffer.Valid) {len : Nat}
    (short : buffer.writableBytes < len) :
    ∃ after, buffer.makeSpace len = .ok after ∧ after.Valid ∧
      after.readable = buffer.readable ∧ len ≤ after.writableBytes := by
  obtain ⟨ordered, inside, header⟩ := valid
  have beyond : buffer.buffer.length ≤ buffer.writerIndex + len := by
    unfold writableBytes at short
    omega
  unfold makeSpace
  by_cases grows : buffer.writableBytes + buffer.prependableBytes < len + kCheapPrepend
  · rw [if_pos grows, List.take_of_length_le beyond]
    refine ⟨_, rfl, ⟨ordered, ?_, ?_⟩, segment_grow inside, ?_⟩ <;>
      simp only [writableBytes, List.length_append, List.length_replicate] <;> omega
  · rw [if_neg grows]
    have passed : kCheapPrepend < buffer.readerIndex := by
      unfold prependableBytes at grows
      omega
    have size : buffer.readable.length = buffer.readableBytes := length_segment inside
    have fits : kCheapPrepend + buffer.readable.length ≤ buffer.buffer.length := by
      unfold readableBytes at size
      omega
    have same : buffer.readableBytes =
        kCheapPrepend + buffer.readableBytes - kCheapPrepend := by omega
    simp only [assert_of passed, copyTo_of fits, ok_bind, pure_eq_ok]
    refine ⟨_, by rw [assert_of (by exact same), ok_bind], ⟨?_, ?_, ?_⟩, ?_, ?_⟩
    · exact Nat.le_add_right _ _
    · simpa only [length_overwrite fits, ← size] using fits
    · simpa only [length_overwrite fits] using header
    · change segment (overwrite buffer.buffer kCheapPrepend buffer.readable) kCheapPrepend
        (kCheapPrepend + buffer.readableBytes) = buffer.readable
      rw [← size, segment_overwrite header (Nat.le_refl _), List.take_length]
    · simp only [writableBytes, length_overwrite fits]
      unfold writableBytes prependableBytes readableBytes at *
      omega

theorem ensureWritableBytes_spec {buffer : Buffer} (valid : buffer.Valid) (len : Nat) :
    ∃ after, buffer.ensureWritableBytes len = .ok after ∧ after.Valid ∧
      after.readable = buffer.readable ∧ len ≤ after.writableBytes := by
  unfold ensureWritableBytes
  by_cases short : buffer.writableBytes < len
  · obtain ⟨after, made, kept, same, roomy⟩ := makeSpace_spec valid short
    refine ⟨after, ?_, kept, same, roomy⟩
    simp only [short, ↓reduceIte, made, ok_bind, assert_of roomy, pure_eq_ok]
  · have roomy : len ≤ buffer.writableBytes := Nat.le_of_not_lt short
    refine ⟨buffer, ?_, valid, rfl, roomy⟩
    simp only [short, ↓reduceIte, pure_eq_ok, ok_bind, assert_of roomy]

/-- Bytes put into the writable area and then claimed by `hasWritten` join the readable
bytes at the back. -/
theorem hasWritten_spec {buffer : Buffer} (valid : buffer.Valid) {data : Bytes} {len : Nat}
    (room : data.length ≤ buffer.writableBytes) (filled : len ≤ data.length) :
    ∃ after, buffer.copyTo buffer.beginWrite data = .ok after ∧ (after.hasWritten len).Valid ∧
      (after.hasWritten len).readable = buffer.readable ++ data.take len := by
  obtain ⟨ordered, inside, header⟩ := valid
  have fits : buffer.writerIndex + data.length ≤ buffer.buffer.length := by
    unfold writableBytes at room
    omega
  refine ⟨_, copyTo_of fits, ⟨?_, ?_, ?_⟩, ?_⟩
  · simp only [hasWritten]
    omega
  · simpa only [hasWritten, beginWrite, length_overwrite fits] using
      (show buffer.writerIndex + len ≤ buffer.buffer.length by omega)
  · simpa only [hasWritten, beginWrite, length_overwrite fits] using header
  · simp only [hasWritten, beginWrite, readable]
    rw [← segment_append ordered (Nat.le_add_right _ _),
      segment_overwrite_below (Nat.le_refl _) inside, segment_overwrite inside filled]

theorem append_spec {buffer : Buffer} (valid : buffer.Valid) (data : Bytes) :
    ∃ after, buffer.append data = .ok after ∧ after.Valid ∧
      after.readable = buffer.readable ++ data := by
  obtain ⟨roomy, made, ready, same, room⟩ := ensureWritableBytes_spec valid data.length
  obtain ⟨filled, copied, kept, joined⟩ := hasWritten_spec ready room (Nat.le_refl _)
  refine ⟨filled.hasWritten data.length, ?_, kept, ?_⟩
  · simp only [append, made, copied, ok_bind, pure_eq_ok]
  · rw [joined, same, List.take_length]

theorem prepend_spec {buffer : Buffer} (valid : buffer.Valid) {data : Bytes}
    (reserved : data.length ≤ buffer.prependableBytes) :
    ∃ after, buffer.prepend data = .ok after ∧ after.Valid ∧
      after.readable = data ++ buffer.readable := by
  obtain ⟨ordered, inside, header⟩ := valid
  unfold prependableBytes at reserved
  have fits : buffer.readerIndex - data.length + data.length ≤ buffer.buffer.length := by omega
  have stop : buffer.readerIndex - data.length + data.length = buffer.readerIndex := by omega
  let after : Buffer := {
    buffer := overwrite buffer.buffer (buffer.readerIndex - data.length) data
    readerIndex := buffer.readerIndex - data.length
    writerIndex := buffer.writerIndex }
  refine ⟨after, ?_, ⟨?_, ?_, ?_⟩, ?_⟩
  · simp only [prepend, assert_of (show data.length ≤ buffer.prependableBytes from reserved), ok_bind]
    exact copyTo_of fits
  · exact Nat.le_trans (Nat.sub_le _ _) ordered
  · simpa only [after, length_overwrite fits] using inside
  · simpa only [after, length_overwrite fits] using header
  · simp only [readable, after]
    rw [← segment_append (Nat.sub_le _ _) ordered,
      segment_overwrite_above (Nat.le_of_eq stop) (by omega)]
    congr 1
    have written : segment (overwrite buffer.buffer (buffer.readerIndex - data.length) data)
        (buffer.readerIndex - data.length) (buffer.readerIndex - data.length + data.length) =
          data.take data.length := segment_overwrite (by omega) (Nat.le_refl _)
    rwa [stop, List.take_length] at written

/-- However `readv` splits the bytes between the two areas, they join the readable bytes
in the order of the stream. -/
theorem readFd_spec {buffer : Buffer} (valid : buffer.Valid) {bytes : Bytes}
    (scattered : bytes.length ≤ buffer.writableBytes + kExtraSize) :
    ∃ after, buffer.readFd (.ok bytes) = .ok (bytes.length, none, after) ∧ after.Valid ∧
      after.readable = buffer.readable ++ bytes := by
  have room : (bytes.take buffer.writableBytes).length ≤ buffer.writableBytes := by
    simp only [List.length_take]
    omega
  obtain ⟨filled, copied, kept, joined⟩ := hasWritten_spec valid room (Nat.le_refl _)
  rw [List.take_length] at joined
  by_cases direct : bytes.length ≤ buffer.writableBytes
  · rw [List.take_of_length_le direct] at copied kept joined
    refine ⟨filled.hasWritten bytes.length, ?_, kept, joined⟩
    simp only [readFd, assume_of scattered, List.take_of_length_le direct, ok_bind]
    rw [show buffer.writerIndex = buffer.beginWrite from rfl, copied, ok_bind, if_pos direct]
    rfl
  · have whole : (bytes.take buffer.writableBytes).length = buffer.writableBytes := by
      simp only [List.length_take]
      omega
    have fits : buffer.writerIndex + (bytes.take buffer.writableBytes).length = buffer.buffer.length := by
      have inside := valid.inside
      rw [whole]
      unfold writableBytes
      omega
    have stored := copyTo_of (Nat.le_of_eq fits)
    have size := length_overwrite (Nat.le_of_eq fits)
    have same : filled.hasWritten (bytes.take buffer.writableBytes).length =
        { filled with writerIndex := filled.buffer.length } := by
      rw [show buffer.beginWrite = buffer.writerIndex from rfl, stored] at copied
      cases copied
      simp only [hasWritten, size, fits]
    rw [same] at kept joined
    obtain ⟨after, appended, valid', joined'⟩ := append_spec kept (bytes.drop buffer.writableBytes)
    refine ⟨after, ?_, valid', ?_⟩
    · simp only [readFd, assume_of scattered, ok_bind]
      rw [show buffer.writerIndex = buffer.beginWrite from rfl, copied, ok_bind, if_neg direct, appended]
      rfl
    · rw [joined', joined, List.append_assoc, List.take_append_drop]

end TransferServer.Net.Buffer
