import Mathlib.Data.List.Sort
import Mathlib.Order.Basic

/-! Sets kept as strictly ascending lists, as an ordered container iterates over them. -/

set_option autoImplicit false

namespace TransferServer.Lib

universe u

structure OrderedSet (Item : Type u) [LinearOrder Item] where
  elems : List Item
  ascending : elems.Pairwise (· < ·)

namespace OrderedSet

variable {Item : Type u} [LinearOrder Item]

theorem ascending_orderedInsert {elems : List Item} (ascending : elems.Pairwise (· < ·)) {item : Item}
    (missing : item ∉ elems) : (elems.orderedInsert (· ≤ ·) item).Pairwise (· < ·) := by
  have ordered : (elems.orderedInsert (· ≤ ·) item).Pairwise (· ≤ ·) :=
    (ascending.imp le_of_lt).orderedInsert item _
  have distinct : (elems.orderedInsert (· ≤ ·) item).Pairwise (· ≠ ·) :=
    (List.perm_orderedInsert _ _ _).nodup_iff.mpr
      (List.nodup_cons.mpr ⟨missing, ascending.imp ne_of_lt⟩)
  exact (ordered.and distinct).imp fun both => lt_of_le_of_ne both.1 both.2

def empty : OrderedSet Item := ⟨[], .nil⟩

/-- The set with the item, and whether the item was missing before. -/
def insert (set : OrderedSet Item) (item : Item) : OrderedSet Item × Bool :=
  if missing : item ∉ set.elems then
    (⟨set.elems.orderedInsert (· ≤ ·) item, ascending_orderedInsert set.ascending missing⟩, true)
  else (set, false)

/-- What comes before the first item that is not less than the bound. -/
def below (set : OrderedSet Item) (bound : Item) : List Item := set.elems.takeWhile (· < bound)

/-- The set from the first item on that is not less than the bound. -/
def rest (set : OrderedSet Item) (bound : Item) : OrderedSet Item :=
  ⟨set.elems.dropWhile (· < bound), set.ascending.sublist (List.dropWhile_sublist _)⟩

variable {set : OrderedSet Item} {item bound other : Item}

theorem insert_of_missing (missing : item ∉ set.elems) :
    (set.insert item).2 = true ∧ (set.insert item).1.elems.Perm (item :: set.elems) := by
  unfold insert
  rw [dif_pos missing]
  exact ⟨rfl, List.perm_orderedInsert _ _ _⟩

theorem below_append_rest (set : OrderedSet Item) (bound : Item) :
    set.below bound ++ (set.rest bound).elems = set.elems :=
  List.takeWhile_append_dropWhile

theorem lt_of_mem_below (found : item ∈ set.below bound) : item < bound :=
  of_decide_eq_true (List.all_eq_true.mp List.all_takeWhile item found)

theorem not_lt_of_mem_rest (found : item ∈ (set.rest bound).elems) : ¬ item < bound := by
  have ascending := (set.rest bound).ascending
  cases remaining : (set.rest bound).elems with
  | nil =>
      rw [remaining] at found
      cases found
  | cons first others =>
      have start : ¬ first < bound := by
        have dropped : (set.elems.dropWhile (· < bound)).head? = some first := by
          change (set.rest bound).elems.head? = some first
          rw [remaining]
          rfl
        have stopped := List.head?_dropWhile_not (fun item => decide (item < bound)) set.elems
        rw [dropped] at stopped
        simpa using stopped
      rw [remaining] at found ascending
      rcases List.mem_cons.mp found with here | later
      · exact here ▸ start
      · have after := List.rel_of_pairwise_cons ascending later
        exact fun before => start (after.trans before)

theorem head?_insert (missing : item ∉ set.elems) :
    (set.insert item).1.elems.head? =
      match set.elems.head? with
      | none => some item
      | some first => some (min item first) := by
  have inserted : (set.insert item).1.elems = set.elems.orderedInsert (· ≤ ·) item := by
    unfold insert
    rw [dif_pos missing]
  rw [inserted]
  cases set.elems with
  | nil => rfl
  | cons first others =>
      simp only [List.orderedInsert_cons, List.head?_cons]
      split
      · next before => simp [min_eq_left before]
      · next after => simp [min_eq_right (le_of_not_ge after)]

end OrderedSet

end TransferServer.Lib
