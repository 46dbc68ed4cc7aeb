import Mathlib.Data.List.Infix

/-! First occurrence of a pattern in a sequence. A match that is found stays the
first one however the sequence is extended; that no match is found yet does not. -/

set_option autoImplicit false

namespace TransferServer.Lib

universe u

variable {Symbol : Type u} [DecidableEq Symbol]

/-- The least position at which `pattern` occurs in `text`. -/
def search (pattern : List Symbol) : List Symbol → Option Nat
  | [] => if pattern = [] then some 0 else none
  | symbol :: text =>
      if pattern.isPrefixOf (symbol :: text) then some 0 else (search pattern text).map (· + 1)

theorem search_eq_some_iff {pattern text : List Symbol} {position : Nat} :
    search pattern text = some position ↔
      position ≤ text.length ∧ pattern <+: text.drop position ∧
        ∀ earlier < position, ¬ pattern <+: text.drop earlier := by
  induction text generalizing position with
  | nil =>
      by_cases empty : pattern = []
      · simp only [search, empty, ↓reduceIte, Option.some.injEq, List.length_nil, Nat.le_zero]
        constructor
        · rintro rfl
          simp
        · exact fun found => found.1.symm
      · simp [search, empty]
  | cons symbol text ih =>
      by_cases here : pattern <+: symbol :: text
      · simp only [search, List.isPrefixOf_iff_prefix, here, ↓reduceIte, Option.some.injEq]
        constructor
        · rintro rfl
          simpa using here
        · rintro ⟨_, _, first⟩
          exact (Nat.eq_zero_of_not_pos fun later => first 0 later (by simpa using here)).symm
      · simp only [search, List.isPrefixOf_iff_prefix, here, ↓reduceIte, Option.map_eq_some_iff, ih]
        constructor
        · rintro ⟨offset, ⟨bounded, found, first⟩, rfl⟩
          refine ⟨by simpa using bounded, by simpa using found, fun earlier before => ?_⟩
          cases earlier with
          | zero => simpa using here
          | succ earlier => simpa using first earlier (by omega)
        · rintro ⟨bounded, found, first⟩
          cases position with
          | zero => exact absurd (by simpa using found) here
          | succ offset =>
              refine ⟨offset, ⟨by simpa using bounded, by simpa using found, fun earlier before => ?_⟩, rfl⟩
              simpa using first (earlier + 1) (by omega)

theorem search_bound {pattern text : List Symbol} {position : Nat}
    (found : search pattern text = some position) :
    position + pattern.length ≤ text.length := by
  obtain ⟨bounded, occurs, _⟩ := search_eq_some_iff.mp found
  have short := occurs.length_le
  rw [List.length_drop] at short
  omega

/-- The first occurrence is the first one of every extension. -/
theorem search_append {pattern text : List Symbol} {position : Nat}
    (found : search pattern text = some position) (more : List Symbol) :
    search pattern (text ++ more) = some position := by
  obtain ⟨bounded, occurs, first⟩ := search_eq_some_iff.mp found
  have room := search_bound found
  refine search_eq_some_iff.mpr ⟨?_, ?_, fun earlier before extended => first earlier before ?_⟩
  · rw [List.length_append]
    omega
  · rw [List.drop_append_of_le_length bounded]
    exact occurs.trans (List.prefix_append _ _)
  · rw [List.drop_append_of_le_length (by omega)] at extended
    exact List.prefix_of_prefix_length_le extended (List.prefix_append _ _)
      (by rw [List.length_drop]; omega)

/-- The first occurrence cuts the text: what stands before it has none. -/
theorem search_cuts {pattern text : List Symbol} {position : Nat} (proper : pattern ≠ [])
    (found : search pattern text = some position) :
    text = text.take position ++ pattern ++ text.drop (position + pattern.length) ∧
      ¬ pattern <:+: text.take position := by
  obtain ⟨bounded, ⟨after, occurs⟩, first⟩ := search_eq_some_iff.mp found
  constructor
  · have rest : text.drop (position + pattern.length) = after := by
      rw [← List.drop_drop, ← occurs, List.drop_left]
    rw [rest, List.append_assoc, occurs, List.take_append_drop]
  · rintro ⟨before, behind, inside⟩
    have size : before.length + pattern.length + behind.length = position := by
      rw [← List.length_append, ← List.length_append, inside, List.length_take]
      exact Nat.min_eq_left bounded
    have nonempty := List.length_pos_iff.mpr proper
    refine first before.length (by omega) ⟨behind ++ text.drop position, ?_⟩
    calc pattern ++ (behind ++ text.drop position)
        = (before ++ pattern ++ behind ++ text.drop position).drop before.length := by
          rw [List.append_assoc, List.append_assoc, List.drop_left]
      _ = text.drop before.length := by rw [inside, List.take_append_drop]

section Pair

variable {first second : Symbol}

omit [DecidableEq Symbol] in
theorem pair_prefix_drop {text : List Symbol} {position : Nat} :
    [first, second] <+: text.drop position ↔
      text[position]? = some first ∧ text[position + 1]? = some second := by
  rw [List.prefix_iff_getElem?]
  constructor
  · intro each
    exact ⟨by simpa using each 0 (by simp), by simpa using each 1 (by simp)⟩
  · rintro ⟨here, next⟩ index inside
    match index, inside with
    | 0, _ => simpa using here
    | 1, _ => simpa using next

/-- Two different symbols never overlap themselves, so a text put together around such a
pair has its first pair there. -/
theorem search_pair (differ : first ≠ second) {before : List Symbol}
    (unbroken : ¬ [first, second] <:+: before) (after : List Symbol) :
    search [first, second] (before ++ [first, second] ++ after) = some before.length := by
  refine search_eq_some_iff.mpr ⟨by simp, ?_, fun earlier inside found => ?_⟩
  · rw [List.append_assoc, List.drop_left]
    exact List.prefix_append _ _
  · obtain ⟨here, next⟩ := pair_prefix_drop.mp found
    rw [List.append_assoc, List.getElem?_append_left inside] at here
    by_cases last : earlier + 1 < before.length
    · rw [List.append_assoc, List.getElem?_append_left last] at next
      have within := pair_prefix_drop.mpr ⟨here, next⟩
      exact unbroken (within.isInfix.trans (List.drop_suffix _ _).isInfix)
    · have border : earlier + 1 = before.length := by omega
      rw [border, List.append_assoc, List.getElem?_append_right (Nat.le_refl _), Nat.sub_self] at next
      exact differ (Option.some.inj next)

end Pair

section Symbols

variable {symbol : Symbol}

theorem findIdx_eq_length {before : List Symbol} (absent : symbol ∉ before) (after : List Symbol) :
    (before ++ symbol :: after).findIdx (· == symbol) = before.length := by
  induction before with
  | nil => rw [List.nil_append, List.findIdx_cons, beq_self_eq_true, cond_true, List.length_nil]
  | cons head before ih =>
      rw [List.mem_cons, not_or] at absent
      have other : (head == symbol) = false := beq_eq_false_iff_ne.mpr (Ne.symm absent.1)
      rw [List.cons_append, List.findIdx_cons, ih absent.2, other, cond_false, List.length_cons]

theorem findIdx_cuts {text : List Symbol} (found : text.findIdx (· == symbol) < text.length) :
    text = text.take (text.findIdx (· == symbol)) ++
        symbol :: text.drop (text.findIdx (· == symbol) + 1) ∧
      symbol ∉ text.take (text.findIdx (· == symbol)) := by
  constructor
  · have here : text[text.findIdx (· == symbol)] = symbol := by
      simpa using List.findIdx_getElem (p := (· == symbol)) (w := found)
    conv => lhs; rw [← List.take_append_drop (text.findIdx (· == symbol)) text]
    rw [List.drop_eq_getElem_cons found, here]
  · intro present
    obtain ⟨position, inside, same⟩ := List.mem_iff_getElem.mp present
    rw [List.length_take] at inside
    have before : position < text.findIdx (· == symbol) := by omega
    have other := List.not_of_lt_findIdx before
    rw [List.getElem_take] at same
    simp [same] at other

omit [DecidableEq Symbol] in
theorem eq_of_suffix_concat {front back : List Symbol} {first last : Symbol}
    (ends : front ++ [first] <:+ back ++ [last]) : first = last := by
  obtain ⟨before, same⟩ := ends
  rw [← List.append_assoc] at same
  exact (List.cons.inj (List.append_inj_right' same rfl)).1

/-- A text does not end both with a word and with the word and more behind it, when the word has a
symbol that what is behind it lacks. -/
theorem eq_nil_of_suffix {front word rest : List Symbol} (present : symbol ∈ word)
    (absent : symbol ∉ rest) (ends : word ++ rest <:+ front ++ word) : rest = [] := by
  obtain ⟨first, same⟩ := ends
  have mirrored := congrArg (fun text => text.reverse.idxOf symbol) same
  simp only [List.reverse_append, List.append_assoc] at mirrored
  rw [List.idxOf_append_of_notMem (by rwa [List.mem_reverse]),
    List.idxOf_append_of_mem (by rwa [List.mem_reverse]),
    List.idxOf_append_of_mem (by rwa [List.mem_reverse]), List.length_reverse] at mirrored
  exact List.length_eq_zero_iff.mp (by omega)

end Symbols

end TransferServer.Lib
