/-! Segments of a contiguous store: reading a half-open range and writing one in place. -/

set_option autoImplicit false

namespace TransferServer.Lib

universe u

variable {Cell : Type u}

/-- The cells of `store` at positions `first`, ..., `last - 1`. -/
def segment (store : List Cell) (first last : Nat) : List Cell :=
  (store.drop first).take (last - first)

/-- `store` with `data` written over the cells from `position` on. -/
def overwrite (store : List Cell) (position : Nat) (data : List Cell) : List Cell :=
  store.take position ++ data ++ store.drop (position + data.length)

theorem length_segment {store : List Cell} {first last : Nat} (inside : last ≤ store.length) :
    (segment store first last).length = last - first := by
  simp only [segment, List.length_take, List.length_drop]
  omega

@[simp] theorem segment_self (store : List Cell) (position : Nat) :
    segment store position position = [] := by
  simp [segment]

theorem segment_append {store : List Cell} {first middle last : Nat}
    (lower : first ≤ middle) (upper : middle ≤ last) :
    segment store first middle ++ segment store middle last = segment store first last := by
  have split : last - first = (middle - first) + (last - middle) := by omega
  have shift : middle = first + (middle - first) := by omega
  simp only [segment]
  rw [split, List.take_add, List.drop_drop, ← shift]

theorem drop_segment {store : List Cell} {first last count : Nat} :
    (segment store first last).drop count = segment store (first + count) last := by
  simp only [segment, List.drop_take, List.drop_drop]
  congr 1
  omega

theorem take_segment {store : List Cell} {first last count : Nat} (within : first + count ≤ last) :
    (segment store first last).take count = segment store first (first + count) := by
  simp only [segment, List.take_take]
  congr 1
  omega

theorem segment_grow {store more : List Cell} {first last : Nat} (inside : last ≤ store.length) :
    segment (store ++ more) first last = segment store first last := by
  simp only [segment]
  by_cases empty : last ≤ first
  · simp [Nat.sub_eq_zero_of_le empty]
  · rw [List.drop_append_of_le_length (by omega), List.take_append_of_le_length]
    simp only [List.length_drop]
    omega

theorem length_overwrite {store data : List Cell} {position : Nat}
    (fits : position + data.length ≤ store.length) :
    (overwrite store position data).length = store.length := by
  simp only [overwrite, List.length_append, List.length_take, List.length_drop]
  omega

@[simp] theorem overwrite_nil (store : List Cell) (position : Nat) :
    overwrite store position [] = store := by
  simp [overwrite]

theorem overwrite_append {store data more : List Cell} {position : Nat}
    (inside : position + data.length ≤ store.length) :
    overwrite (overwrite store position data) (position + data.length) more =
      overwrite store position (data ++ more) := by
  have leading : (store.take position ++ data).length = position + data.length := by
    simp only [List.length_append, List.length_take]
    omega
  have rest : position + (data ++ more).length = position + data.length + more.length := by
    rw [List.length_append, Nat.add_assoc]
  rw [overwrite, overwrite, overwrite, rest, ← leading, ← List.append_assoc (store.take position)]
  generalize store.take position ++ data = front
  rw [List.take_left, List.drop_append, List.drop_eq_nil_of_le (Nat.le_add_right ..), List.nil_append,
    List.drop_drop, Nat.add_sub_cancel_left]

/-- Of what has been written, the front is written again. -/
theorem overwrite_overwrite {store data data' more : List Cell} {position : Nat}
    (inside : position ≤ store.length) (same : data.length = data'.length) :
    overwrite (overwrite store position (data ++ more)) position data' =
      overwrite store position (data' ++ more) := by
  have leading : (store.take position).length = position := by
    simp only [List.length_take]
    omega
  simp only [overwrite, List.append_assoc, List.length_append]
  rw [List.take_append_of_le_length (by omega), List.take_of_length_le (by omega), List.drop_append,
    List.drop_eq_nil_of_le (by omega), List.nil_append, leading, Nat.add_sub_cancel_left, ← same,
    List.drop_append_of_le_length (Nat.le_refl _), List.drop_length, List.nil_append]

theorem segment_overwrite {store data : List Cell} {position len : Nat}
    (inside : position ≤ store.length) (written : len ≤ data.length) :
    segment (overwrite store position data) position (position + len) = data.take len := by
  have leading : (store.take position).length = position := by
    simp only [List.length_take]
    omega
  simp only [segment, overwrite, List.append_assoc, Nat.add_sub_cancel_left]
  rw [List.drop_append_of_le_length (by omega), List.drop_eq_nil_of_le (by omega), List.nil_append,
    List.take_append_of_le_length written]

theorem segment_overwrite_below {store data : List Cell} {first last position : Nat}
    (below : last ≤ position) (inside : position ≤ store.length) :
    segment (overwrite store position data) first last = segment store first last := by
  have kept : last ≤ (store.take position).length := by
    simp only [List.length_take]
    omega
  simp only [overwrite, List.append_assoc]
  rw [segment_grow kept]
  simp only [segment, List.drop_take, List.take_take]
  congr 1
  omega

theorem segment_overwrite_above {store data : List Cell} {first last position : Nat}
    (above : position + data.length ≤ first) (inside : position ≤ store.length) :
    segment (overwrite store position data) first last = segment store first last := by
  have leading : (store.take position ++ data).length = position + data.length := by
    simp only [List.length_append, List.length_take]
    omega
  simp only [segment, overwrite]
  rw [List.drop_append, List.drop_eq_nil_of_le (by omega), List.nil_append, List.drop_drop, leading]
  congr 2
  omega

/-- A sequence that reads the same when it is pushed back behind copies of a cell consists
of copies of that cell. -/
theorem eq_of_shifted {count : Nat} {cell : Cell} {data : List Cell} (shifts : 0 < count)
    (same : (List.replicate count cell ++ data).take data.length = data) :
    ∀ entry ∈ data, entry = cell := by
  have each : ∀ position (inside : position < data.length), data[position] = cell := by
    intro position
    induction position using Nat.strongRecOn with
    | ind position ih =>
        intro inside
        have here : (List.replicate count cell ++ data)[position]? = data[position]? := by
          conv => rhs; rw [← same]
          rw [List.getElem?_take_of_lt inside]
        by_cases leading : position < count
        · rw [List.getElem?_append_left (by simpa using leading),
            List.getElem?_replicate_of_lt leading, List.getElem?_eq_getElem inside] at here
          exact (Option.some.inj here).symm
        · rw [List.getElem?_append_right (by simpa using Nat.le_of_not_lt leading),
            List.length_replicate, List.getElem?_eq_getElem (by omega),
            List.getElem?_eq_getElem inside] at here
          rw [← Option.some.inj here]
          exact ih (position - count) (by omega) (by omega)
  intro entry present
  obtain ⟨position, inside, rfl⟩ := List.mem_iff_getElem.mp present
  exact each position inside

end TransferServer.Lib
