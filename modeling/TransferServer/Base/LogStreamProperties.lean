import TransferServer.Lib.History
import TransferServer.Base.ConvertProperties
import TransferServer.Base.LogStream

/-! What a `LogStream` holds after any insertions. Texts are inserted whole or not at all, and a
byte of the buffer stays free behind them. -/

set_option autoImplicit false

namespace TransferServer.Base

open Lib

theorem toSizeT_of_nonneg {value : Int} (positive : 0 ≤ value) (small : value < 2 ^ 64) :
    toSizeT value = value.toNat := by
  rw [toSizeT, Int.emod_eq_of_lt positive small]

namespace FixedBuffer.Memory

variable {SIZE : Nat} {buffer : Memory SIZE} {buf : Bytes} {len : Nat}

theorem length_contents (inside : buffer.cur ≤ SIZE) : buffer.contents.length = buffer.cur := by
  rw [contents, List.length_take, buffer.data.sized]
  omega

theorem avail_eq (inside : buffer.cur ≤ SIZE) :
    buffer.avail = (SIZE : Int) - buffer.contents.length := by
  rw [length_contents inside, avail]

theorem contents_written {after : Memory SIZE} {text : Bytes} (more : Bytes) (inside : buffer.cur ≤ SIZE)
    (written : after.data.cells = overwrite buffer.data.cells buffer.cur (text ++ more))
    (passed : after.cur = buffer.cur + text.length) : after.contents = buffer.contents ++ text := by
  have leading : (buffer.data.cells.take buffer.cur).length = buffer.cur := length_contents inside
  rw [contents, contents, written, passed, overwrite, List.append_assoc, List.take_append,
    List.take_of_length_le (by omega), leading, Nat.add_sub_cancel_left, List.append_assoc,
    List.take_left]

/-- `append` on a buffer that is not full: all of the text while a byte stays free, or nothing. -/
theorem append_spec (slack : buffer.cur < SIZE) (size : SIZE < 2 ^ 64)
    (readable : len < SIZE → len ≤ buf.length) :
    (len < buffer.avail ∧ ∃ after, buffer.append buf len = .ok after ∧ after.cur = buffer.cur + len ∧
        after.contents = buffer.contents ++ buf.take len) ∨
      (¬ len < buffer.avail ∧ buffer.append buf len = .ok buffer) := by
  have room : toSizeT buffer.avail = SIZE - buffer.cur := by
    have positive : 0 ≤ buffer.avail ∧ buffer.avail < 2 ^ 64 := by
      unfold avail
      omega
    rw [toSizeT_of_nonneg positive.1 positive.2]
    unfold avail
    omega
  unfold append
  rw [room]
  by_cases fits : len < SIZE - buffer.cur
  · have there : len ≤ buf.length := readable (by omega)
    have count : (buf.take len).length = len := List.length_take_of_le there
    obtain ⟨data, written, cells⟩ := CharArray.write_eq_ok buffer.data
      (show buffer.cur + (buf.take len).length ≤ SIZE by omega)
    refine .inl ⟨by unfold avail; omega, ⟨data, buffer.cur + len⟩, ?_, rfl, ?_⟩
    · rw [if_pos fits, require_of there, ok_bind, written]
      rfl
    · exact contents_written [] (Nat.le_of_lt slack) (by simpa using cells) (by rw [count])
  · exact .inr ⟨by unfold avail; omega, if_neg fits⟩

/-- On its contents, `append` is that of the buffer without its array. -/
theorem append_refines (slack : buffer.cur < SIZE) (size : SIZE < 2 ^ 64) :
    ∃ after, buffer.append buf buf.length = .ok after ∧
      after.toFixedBuffer = buffer.toFixedBuffer.append buf := by
  have room : buffer.toFixedBuffer.avail = buffer.avail := by
    simp only [toFixedBuffer, FixedBuffer.avail, avail, length_contents (Nat.le_of_lt slack)]
  rcases append_spec slack size fun _ => Nat.le_refl buf.length with
    ⟨fits, after, appended, _, contents⟩ | ⟨full, appended⟩
  · refine ⟨after, appended, ?_⟩
    rw [FixedBuffer.append_of_avail size (by rw [room]; exact fits), toFixedBuffer, contents,
      List.take_length]
    rfl
  · refine ⟨buffer, appended, ?_⟩
    have small : toSizeT buffer.avail = buffer.avail.toNat := by
      apply toSizeT_of_nonneg
      · unfold avail
        omega
      · unfold avail
        omega
    rw [FixedBuffer.append, room, small, if_neg (by omega)]

theorem debugString_ok (slack : buffer.cur < SIZE) :
    ∃ terminated, buffer.debugString = .ok terminated := by
  obtain ⟨data, stored, _⟩ := buffer.data.store_eq_ok 0 slack
  exact ⟨⟨data, buffer.cur⟩, by rw [debugString, stored]; rfl⟩

end FixedBuffer.Memory

namespace LogItem

def text : LogItem → Bytes
  | .bool v => if v then [49] else [48]
  | .integer v => decimal v.value
  | .double text _ => text
  | .char v => [v]
  | .cString v _ => v.takeWhile (· ≠ 0)
  | .string v => v
  | .append data len _ => data.take len.value.toNat

/-- A number needs `kMaxNumericSize` bytes, any other text one byte more than its length, which
counts as a `size_t`. -/
def Fits (avail : Int) : LogItem → Prop
  | .integer _ | .double _ _ => kMaxNumericSize ≤ avail
  | .append _ len _ => toSizeT len.value < avail
  | item => item.text.length < avail

end LogItem

instance (avail : Int) (item : LogItem) : Decidable (item.Fits avail) := by
  cases item <;> unfold LogItem.Fits <;> infer_instance

namespace LogItem

/-- The contents behind which the item has been inserted, if it fits. -/
def place (contents : Bytes) (item : LogItem) : Bytes :=
  if item.Fits (kSmallBuffer - contents.length) then contents ++ item.text else contents

variable {contents : Bytes} {item : LogItem}

theorem place_eq {limit : Prop} [Decidable limit]
    (fits : item.Fits (kSmallBuffer - contents.length) ↔ limit) :
    item.place contents = if limit then contents ++ item.text else contents :=
  if_congr fits rfl rfl

theorem place_text (measured : item.Fits (kSmallBuffer - contents.length) ↔
      (item.text.length : Int) < kSmallBuffer - contents.length) : item.place contents =
    if contents.length + item.text.length < kSmallBuffer then contents ++ item.text else contents := by
  apply place_eq
  rw [measured]
  omega

/-- The contents are the texts of the items that found space behind those taken before them. -/
theorem exists_selection (items : List LogItem) : ∃ kept,
    Selection (fun kept item => item.Fits (kSmallBuffer - (kept.flatMap LogItem.text).length))
      items kept ∧ items.foldl place [] = kept.flatMap LogItem.text := by
  induction items using List.reverseRecOn with
  | nil => exact ⟨[], .nil, rfl⟩
  | append_singleton items item ih =>
      obtain ⟨kept, selection, placed⟩ := ih
      rw [List.foldl_append, List.foldl_cons, List.foldl_nil, placed]
      by_cases fits : item.Fits (kSmallBuffer - (kept.flatMap LogItem.text).length)
      · refine ⟨kept ++ [item], selection.take fits, ?_⟩
        rw [place, if_pos fits, List.flatMap_append, List.flatMap_singleton]
      · exact ⟨kept, selection.skip fits, if_neg fits⟩

end LogItem

namespace LogStream

variable {stream : LogStream}

/-- A step from `stream` to `after` has inserted the whole of a text that fits, or nothing. -/
def Inserts (stream after : LogStream) (fits : Prop) (text : Bytes) : Prop :=
  after.buffer.cur < kSmallBuffer ∧
    ((fits ∧ after.buffer.contents = stream.buffer.contents ++ text) ∨ (¬ fits ∧ after = stream))

theorem appendBuffer_spec (slack : stream.buffer.cur < kSmallBuffer) (buf : Bytes) {len : Nat}
    (readable : len < kSmallBuffer → len ≤ buf.length) :
    ∃ after, stream.appendBuffer buf len = .ok after ∧
      stream.Inserts after (len < stream.buffer.avail) (buf.take len) := by
  rcases FixedBuffer.Memory.append_spec slack (by decide) readable with
    ⟨fits, after, appended, cur, contents⟩ | ⟨full, appended⟩
  · refine ⟨⟨after⟩, by rw [appendBuffer, appended]; rfl, ?_, .inl ⟨fits, contents⟩⟩
    unfold FixedBuffer.Memory.avail at fits
    dsimp only
    omega
  · exact ⟨stream, by rw [appendBuffer, appended]; rfl, slack, .inr ⟨full, rfl⟩⟩

/-- Behind the cursor a number has been written, shorter than the space that was asked for. -/
theorem numeric_spec {data : CharArray kSmallBuffer} {text more : Bytes}
    (room : kMaxNumericSize ≤ stream.buffer.avail) (short : text.length < kMaxNumericSize)
    (written : data.cells = overwrite stream.buffer.data.cells stream.buffer.cur (text ++ more)) :
    stream.Inserts { buffer := { stream.buffer with data }.add text.length }
      (kMaxNumericSize ≤ stream.buffer.avail) text := by
  have space : stream.buffer.cur + text.length < kSmallBuffer := by
    unfold FixedBuffer.Memory.avail at room
    omega
  exact ⟨space, .inl ⟨room, FixedBuffer.Memory.contents_written more (by omega) written rfl⟩⟩

theorem formatInteger_spec (slack : stream.buffer.cur < kSmallBuffer) {T : IntegralType}
    (v : Integral T) : ∃ after, stream.formatInteger v = .ok after ∧
      stream.Inserts after (kMaxNumericSize ≤ stream.buffer.avail) (decimal v.value) := by
  unfold formatInteger
  split
  · next room =>
      have short := length_decimal_le v
      obtain ⟨data, converted, cells⟩ := convert_spec stream.buffer.data v
        (show stream.buffer.cur + (decimal v.value).length < kSmallBuffer by
          unfold FixedBuffer.Memory.avail at room
          omega)
      exact ⟨_, by rw [converted]; rfl, numeric_spec room short cells⟩
  · next full => exact ⟨stream, rfl, slack, .inr ⟨full, rfl⟩⟩

theorem formatDouble_spec (slack : stream.buffer.cur < kSmallBuffer) {text : Bytes}
    (short : text.length < kMaxNumericSize) : ∃ after, stream.formatDouble text = .ok after ∧
      stream.Inserts after (kMaxNumericSize ≤ stream.buffer.avail) text := by
  unfold formatDouble
  split
  · next room =>
      obtain ⟨data, written, cells⟩ := CharArray.write_eq_ok stream.buffer.data
        (show stream.buffer.cur + (text ++ [0]).length ≤ kSmallBuffer by
          rw [List.length_append, List.length_singleton]
          unfold FixedBuffer.Memory.avail at room
          omega)
      exact ⟨_, by rw [written]; rfl, numeric_spec room short cells⟩
  · next full => exact ⟨stream, rfl, slack, .inr ⟨full, rfl⟩⟩

theorem insert_spec (slack : stream.buffer.cur < kSmallBuffer) (item : LogItem) :
    ∃ after, stream.insert item = .ok after ∧
      stream.Inserts after (item.Fits stream.buffer.avail) item.text := by
  cases item with
  | bool v => cases v with
    | true => exact appendBuffer_spec slack [49] fun _ => Nat.le_refl _
    | false => exact appendBuffer_spec slack [48] fun _ => Nat.le_refl _
  | integer v => exact formatInteger_spec slack v.promote
  | double text short => exact formatDouble_spec slack short
  | char v => exact appendBuffer_spec slack [v] fun _ => Nat.le_refl _
  | cString v terminated =>
      have measured : strlen v = .ok (v.takeWhile (· ≠ 0)).length := if_pos terminated
      have leading : v.takeWhile (· ≠ 0) <+: v := List.takeWhile_prefix _
      have inserted := appendBuffer_spec slack v fun _ => leading.length_le
      rw [← List.prefix_iff_eq_take.mp leading] at inserted
      rw [insert, measured]
      exact inserted
  | string v =>
      have inserted := appendBuffer_spec slack v fun _ => Nat.le_refl v.length
      rwa [List.take_length] at inserted
  | append data len readable =>
      have range : -2147483648 ≤ len.value ∧ len.value ≤ 2147483647 := len.holds
      by_cases positive : 0 ≤ len.value
      · have count : toSizeT len.value = len.value.toNat := toSizeT_of_nonneg positive (by omega)
        have inserted := appendBuffer_spec slack data fun _ => readable
        rw [← count] at inserted
        rw [insert, LogItem.text, ← count]
        exact inserted
      · have huge : ¬ toSizeT len.value < kSmallBuffer := by
          unfold toSizeT kSmallBuffer
          omega
        obtain ⟨after, inserted, below, outcome⟩ := appendBuffer_spec slack data (absurd · huge)
        refine ⟨after, inserted, below, .inr ?_⟩
        rcases outcome with ⟨fits, _⟩ | unchanged
        · unfold FixedBuffer.Memory.avail at fits
          omega
        · exact unchanged

theorem insert_place (slack : stream.buffer.cur < kSmallBuffer) (item : LogItem) :
    ∃ after, stream.insert item = .ok after ∧ after.buffer.cur < kSmallBuffer ∧
      after.buffer.contents = item.place stream.buffer.contents := by
  obtain ⟨after, inserted, below, outcome⟩ := insert_spec slack item
  rw [FixedBuffer.Memory.avail_eq (Nat.le_of_lt slack)] at outcome
  refine ⟨after, inserted, below, ?_⟩
  unfold LogItem.place
  rcases outcome with ⟨fits, contents⟩ | ⟨full, same⟩
  · rw [if_pos fits, contents]
  · rw [if_neg full, same]

theorem insertAll_place (slack : stream.buffer.cur < kSmallBuffer) (items : List LogItem) :
    ∃ after, stream.insertAll items = .ok after ∧ after.buffer.cur < kSmallBuffer ∧
      after.buffer.contents = items.foldl LogItem.place stream.buffer.contents := by
  induction items generalizing stream with
  | nil => exact ⟨stream, rfl, slack, rfl⟩
  | cons item items ih =>
      obtain ⟨next, inserted, below, contents⟩ := insert_place slack item
      obtain ⟨after, rest, slack', final⟩ := ih below
      refine ⟨after, ?_, slack', by rw [final, contents, List.foldl_cons]⟩
      rw [insertAll, List.foldlM_cons, inserted]
      exact rest

/-- Whatever is inserted into an empty stream, no byte is written outside `data_`, the byte behind
the contents is never used up, and the contents are whole texts of items. -/
theorem items_whole (data : CharArray kSmallBuffer) (items : List LogItem) :
    ∃ stream kept, (LogStream.construct data).insertAll items = .ok stream ∧
      stream.buffer.cur + 1 ≤ kSmallBuffer ∧ 1 ≤ stream.buffer.avail ∧
      (∃ terminated, stream.buffer.debugString = .ok terminated) ∧
      stream.buffer.avail = kSmallBuffer - (kept.flatMap LogItem.text).length ∧
      Selection (fun kept item => item.Fits (kSmallBuffer - (kept.flatMap LogItem.text).length))
        items kept ∧
      kept.Sublist items ∧ stream.buffer.contents = kept.flatMap LogItem.text := by
  obtain ⟨stream, inserted, slack, contents⟩ :=
    insertAll_place (show (LogStream.construct data).buffer.cur < kSmallBuffer from Nat.zero_lt_succ _)
      items
  obtain ⟨kept, selection, placed⟩ := LogItem.exists_selection items
  have whole : stream.buffer.contents = kept.flatMap LogItem.text := contents.trans placed
  have avail := FixedBuffer.Memory.avail_eq (Nat.le_of_lt slack)
  refine ⟨stream, kept, inserted, slack, ?_, FixedBuffer.Memory.debugString_ok slack, whole ▸ avail,
    selection, selection.sublist, whole⟩
  unfold FixedBuffer.Memory.avail
  omega

/-- `convertHex` writes the numeral and flows off its end. -/
theorem insertPointer_eq_error (v : UInt64) (room : kMaxNumericSize ≤ stream.buffer.avail) :
    stream.insertPointer v = .error .noReturn := by
  have space : stream.buffer.cur + 2 + 18 ≤ kSmallBuffer := by
    unfold FixedBuffer.Memory.avail kMaxNumericSize at room
    omega
  have digits : (hexGlyphs.write v.toNat).length ≤ 16 := by
    rw [Glyphs.write, List.length_map]
    exact length_numeral_le hexGlyphs.large (by decide) v.toNat_lt
  obtain ⟨first, stored, _⟩ := stream.buffer.data.store_eq_ok 48
    (show stream.buffer.cur < kSmallBuffer by omega)
  obtain ⟨second, stored', _⟩ := first.store_eq_ok 120
    (show stream.buffer.cur + 1 < kSmallBuffer by omega)
  obtain ⟨third, converted, _⟩ := convertHexBody_spec second
    (show stream.buffer.cur + 2 + (hexGlyphs.write v.toNat).length < kSmallBuffer by omega)
  rw [insertPointer, if_pos room]
  simp only [stored, stored', ok_bind, convertHex, converted]
  rfl

/-- `operator<<(const void*)` appends `0x` and the numeral of the address. -/
def FormatsPointer (stream : LogStream) (v : UInt64) : Prop :=
  ∃ after, stream.insertPointer v = .ok after ∧
    after.buffer.contents = stream.buffer.contents ++ [48, 120] ++ hexGlyphs.write v.toNat ∧
    after.buffer.cur = stream.buffer.cur + (hexGlyphs.write v.toNat).length + 2 ∧
    after.buffer.cur < kSmallBuffer

/-- Wherever there is room for a number, no address is formatted. -/
theorem not_formatsPointer (v : UInt64) (room : kMaxNumericSize ≤ stream.buffer.avail) :
    ¬ stream.FormatsPointer v := by
  intro formats
  obtain ⟨after, formatted, _⟩ := formats
  rw [insertPointer_eq_error v room] at formatted
  cases formatted

/-- The theorem on an empty stream and the null pointer. -/
theorem not_formatsPointer_null :
    ¬ (construct ⟨List.replicate kSmallBuffer 0, List.length_replicate⟩).FormatsPointer 0 :=
  not_formatsPointer 0 (by decide)

/-- An address of the stack, inserted into an empty stream. -/
theorem pointer_not_inserted :
    kMaxNumericSize ≤
        (construct ⟨List.replicate kSmallBuffer 0, List.length_replicate⟩).buffer.avail ∧
      ¬ (construct ⟨List.replicate kSmallBuffer 0, List.length_replicate⟩).FormatsPointer
        0x7FFFDEADBEEF := by
  refine ⟨by decide, fun formats => ?_⟩
  obtain ⟨after, formatted, _⟩ := formats
  rw [insertPointer_eq_error 0x7FFFDEADBEEF (by decide)] at formatted
  cases formatted

end LogStream

end TransferServer.Base
