import Mathlib.Data.List.Induction
import Mathlib.Data.Set.Function
import Mathlib.Order.Interval.Set.Defs

/-! A dense table whose keys know their slots. A new entry goes to the end; a removed one leaves
its slot to the last entry, whose key is told. -/

set_option autoImplicit false

namespace TransferServer.Lib

universe u v

variable {Key : Type u} {Entry : Type v}

/-- The table with the last entry in the given slot and no last slot. -/
def swapPop (entries : List Entry) (slot : Nat) (last removed : Entry) : List Entry :=
  ((entries.set slot last).set (entries.length - 1) removed).dropLast

theorem swapPop_last {entries : List Entry} (last removed : Entry) :
    swapPop entries (entries.length - 1) last removed = entries.dropLast := by
  rw [swapPop, List.set_set, List.dropLast_eq_take, List.dropLast_eq_take, List.length_set,
    List.take_set_of_le (Nat.le_refl _)]

/-- What is found slot by slot comes in the order of the slots. -/
theorem ordered_filterMap {entries : List Entry} {Found : Type u} {find : Entry → Option Found} {position : Found → Nat}
    (placed : ∀ index entry found, entries[index]? = some entry → find entry = some found →
      position found = index) :
    (entries.filterMap find).Pairwise fun found later => position found < position later := by
  induction entries using List.reverseRecOn with
  | nil => exact .nil
  | append_singleton entries entry ih =>
      have earlier {index : Nat} {entry' : Entry} (listed : entries[index]? = some entry') :
          (entries ++ [entry])[index]? = some entry' :=
        List.getElem?_append_left (List.getElem?_eq_some_iff.mp listed).1 ▸ listed
      rw [List.filterMap_append, List.pairwise_append]
      refine ⟨ih fun index entry' found listed => placed index entry' found (earlier listed), ?_, ?_⟩
      · cases found : find entry <;> simp [found]
      · intro found present last atEnd
        obtain ⟨entry', among, finds⟩ := List.mem_filterMap.mp present
        obtain ⟨index, inside, rfl⟩ := List.mem_iff_getElem.mp among
        obtain ⟨_, single, finds'⟩ := List.mem_filterMap.mp atEnd
        rw [List.mem_singleton] at single
        subst single
        rw [placed index _ found (earlier (List.getElem?_eq_getElem inside)) finds,
          placed entries.length _ last List.getElem?_concat_length finds']
        exact inside

/-- Each registered key has a slot of its own whose entry shows it, and each slot has a key. -/
structure Slotted (shows : Key → Entry → Prop) (registered : Set Key) (slot : Key → Nat)
    (entries : List Entry) : Prop where
  dense : Set.BijOn slot registered (Set.Iio entries.length)
  shown : ∀ key ∈ registered, ∃ entry, entries[slot key]? = some entry ∧ shows key entry

namespace Slotted

variable {shows : Key → Entry → Prop} {registered : Set Key} {slot : Key → Nat}
variable {entries : List Entry} {key other last : Key} {entry : Entry}

theorem empty : Slotted shows ∅ slot [] := by
  have slots : Set.Iio ([] : List Entry).length = ∅ := by
    ext index
    simp
  exact ⟨slots ▸ Set.bijOn_empty slot, nofun⟩

theorem lt_length (slotted : Slotted shows registered slot entries) (there : key ∈ registered) :
    slot key < entries.length :=
  slotted.dense.mapsTo there

theorem exists_last (slotted : Slotted shows registered slot entries) (some : 0 < entries.length) :
    ∃ last ∈ registered, slot last = entries.length - 1 := by
  have final : entries.length - 1 ∈ Set.Iio entries.length := by
    rw [Set.mem_Iio]
    omega
  exact slotted.dense.surjOn final

/-- Entries may change in place. -/
theorem of_entries {shows' : Key → Entry → Prop} {entries' : List Entry}
    (slotted : Slotted shows registered slot entries) (length : entries'.length = entries.length)
    (kept : ∀ key ∈ registered, ∀ entry, entries[slot key]? = some entry → shows key entry →
      ∃ entry', entries'[slot key]? = some entry' ∧ shows' key entry') :
    Slotted shows' registered slot entries' := by
  constructor
  · rw [length]
    exact slotted.dense
  · intro key there
    obtain ⟨entry, listed, shows⟩ := slotted.shown key there
    exact kept key there entry listed shows

section

variable [DecidableEq Key]

theorem append (shows' : Key → Entry → Prop) (slotted : Slotted shows registered slot entries) (new : key ∉ registered)
    (shown : shows' key entry)
    (kept : ∀ other ∈ registered, ∀ entry, shows other entry → shows' other entry) :
    Slotted shows' (insert key registered) (Function.update slot key entries.length)
      (entries ++ [entry]) := by
  have apart {other : Key} (there : other ∈ registered) : other ≠ key := by
    rintro rfl
    exact new there
  constructor
  · have same : Set.EqOn slot (Function.update slot key entries.length) registered :=
      fun other there => (Function.update_of_ne (apart there) _ _).symm
    have grown := (slotted.dense.congr same).insert (a := key) (by simp)
    rw [Function.update_self] at grown
    have slots : insert entries.length (Set.Iio entries.length) = Set.Iio (entries ++ [entry]).length := by
      ext index
      simp only [Set.mem_insert_iff, Set.mem_Iio, List.length_append, List.length_singleton]
      omega
    exact slots ▸ grown
  · intro other there
    rcases Set.mem_insert_iff.mp there with rfl | earlier
    · exact ⟨entry, by simp, shown⟩
    · obtain ⟨found, listed, shows⟩ := slotted.shown other earlier
      refine ⟨found, ?_, kept other earlier found shows⟩
      rw [Function.update_of_ne (apart earlier), List.getElem?_append_left (slotted.lt_length earlier)]
      exact listed

end

theorem set (shows' : Key → Entry → Prop) (slotted : Slotted shows registered slot entries) (there : key ∈ registered)
    (shown : shows' key entry)
    (kept : ∀ other ∈ registered, other ≠ key → ∀ entry, shows other entry → shows' other entry) :
    Slotted shows' registered slot (entries.set (slot key) entry) := by
  constructor
  · rw [List.length_set]
    exact slotted.dense
  · intro other there'
    by_cases same : other = key
    · subst same
      exact ⟨entry, by rw [List.getElem?_set_self (slotted.lt_length there)], shown⟩
    · obtain ⟨found, listed, shows⟩ := slotted.shown other there'
      refine ⟨found, ?_, kept other there' same found shows⟩
      have apart : slot key ≠ slot other :=
        fun shared => same (slotted.dense.injOn there' there shared.symm)
      rw [List.getElem?_set_ne apart]
      exact listed

section

variable [DecidableEq Key] {back : Entry}

theorem getElem?_swapPop {removed : Entry} {slot index : Nat} (within : index < entries.length - 1) :
    (swapPop entries slot back removed)[index]? = if index = slot then some back else entries[index]? := by
  unfold swapPop
  have apart : entries.length - 1 ≠ index := by omega
  rw [List.getElem?_dropLast, List.length_set, List.length_set, if_pos within,
    List.getElem?_set_ne apart, List.getElem?_set]
  have listed : index < entries.length := by omega
  by_cases same : slot = index
  · subst same
    simp [listed]
  · rw [if_neg same, if_neg (Ne.symm same)]

/-- A removal leaves every other key its entry, though maybe in another slot. -/
theorem getElem?_remove (removed : Entry) (slotted : Slotted shows registered slot entries) (there : key ∈ registered)
    (final : last ∈ registered) (atEnd : slot last = entries.length - 1)
    (listed : entries[entries.length - 1]? = some back) (there' : other ∈ registered)
    (apart : other ≠ key) :
    (swapPop entries (slot key) back removed)[Function.update slot last (slot key) other]? =
      entries[slot other]? := by
  have bound := slotted.lt_length there
  have elsewhere : slot other ≠ slot key := fun same => apart (slotted.dense.injOn there' there same)
  by_cases same : other = last
  · subst same
    have inside : slot key < entries.length - 1 := by omega
    rw [Function.update_self, getElem?_swapPop inside, if_pos rfl, atEnd, listed]
  · have bound' := slotted.lt_length there'
    have notLast : slot other ≠ slot last := fun shared =>
      same (slotted.dense.injOn there' final shared)
    rw [Function.update_of_ne same, getElem?_swapPop (by omega), if_neg elsewhere]

theorem remove (removed : Entry) (slotted : Slotted shows registered slot entries) (there : key ∈ registered)
    (final : last ∈ registered) (atEnd : slot last = entries.length - 1)
    (listed : entries[entries.length - 1]? = some back) :
    Slotted shows (registered \ {key}) (Function.update slot last (slot key))
      (swapPop entries (slot key) back removed) := by
  have bound := slotted.lt_length there
  have length : (swapPop entries (slot key) back removed).length = entries.length - 1 := by
    simp [swapPop]
  constructor
  · rw [length]
    have slots : Set.Iio entries.length \ {slot last} = Set.Iio (entries.length - 1) := by
      ext index
      simp only [Set.mem_sdiff, Set.mem_Iio, Set.mem_singleton_iff]
      omega
    by_cases same : key = last
    · subst same
      rw [Function.update_eq_self]
      exact slots ▸ slotted.dense.sdiff_singleton there
    · -- the last key moves to the slot that has become free
      have apart : last ∈ registered \ {key} := ⟨final, fun equal => same equal.symm⟩
      have others := (slotted.dense.sdiff_singleton there).sdiff_singleton apart
      have unmoved : Set.EqOn slot (Function.update slot last (slot key)) ((registered \ {key}) \ {last}) :=
        fun other there => (Function.update_of_ne there.2 _ _).symm
      have moved := (others.congr unmoved).insert (a := last) (by simp)
      rw [Set.insert_sdiff_singleton, Set.insert_eq_of_mem apart, Function.update_self,
        sdiff_right_comm, slots, Set.insert_sdiff_singleton] at moved
      have inside : slot key ∈ Set.Iio (entries.length - 1) := by
        have elsewhere : slot key ≠ slot last := fun shared => same (slotted.dense.injOn there final shared)
        rw [Set.mem_Iio]
        omega
      rwa [Set.insert_eq_of_mem inside] at moved
  · rintro other ⟨there', apart⟩
    obtain ⟨entry, found, shows⟩ := slotted.shown other there'
    refine ⟨entry, ?_, shows⟩
    rw [slotted.getElem?_remove removed there final atEnd listed there' apart]
    exact found

end

end Slotted

end TransferServer.Lib
