import TransferServer.Base.RegisterTable

/-! A register table is a map from names to counters: its two maps never disagree. -/

set_option autoImplicit false

namespace TransferServer.Base.RegisterTable

variable {table : RegisterTable} {count : Int} {conn name : Bytes}

/-- Every name has an identifier of its own, given out before and with a counter behind it,
and there are no other counters. -/
structure Consistent (table : RegisterTable) (count : Int) : Prop where
  injective : ∀ name other id, table.forId name = some id → table.forId other = some id → name = other
  issued : ∀ name id, table.forId name = some id → id < count
  counted : ∀ name id, table.forId name = some id → ∃ value, table.choose id = some value
  named : ∀ id value, table.choose id = some value → ∃ name, table.forId name = some id

theorem empty_consistent (count : Int) : empty.Consistent count where
  injective := nofun
  issued := nofun
  counted := nofun
  named := nofun

theorem find_of_id {id value : Int} (identified : table.forId conn = some id)
    (held : table.choose id = some value) : table.find conn = some value := by
  simp [find, identified, held]

theorem Consistent.grow (consistent : table.Consistent count) {later : Int} (grown : count ≤ later) :
    table.Consistent later :=
  { consistent with issued := fun name id found => Int.lt_of_lt_of_le (consistent.issued name id found) grown }

theorem le_count_myRegister : count ≤ (table.myRegister count conn).2 := by
  unfold RegisterTable.myRegister
  split
  · exact Int.le_refl _
  · exact Int.le_add_one (Int.le_refl _)

theorem myRegister_le_count : (table.myRegister count conn).2 ≤ count + 1 := by
  unfold RegisterTable.myRegister
  split
  · exact Int.le_add_one (Int.le_refl _)
  · exact Int.le_refl _

theorem Consistent.find_eq_none (consistent : table.Consistent count) :
    table.find conn = none ↔ table.forId conn = none := by
  cases identified : table.forId conn with
  | none => simp [find, identified]
  | some id =>
      obtain ⟨value, held⟩ := consistent.counted conn id identified
      simp [find_of_id identified held]

/-- A counter is reached through its own identifier only. -/
theorem bind_update_of_ne {found : Option Int} {id : Int} {value : Option Int}
    (other : found ≠ some id) :
    found.bind (Function.update table.choose id value) = found.bind table.choose := by
  cases found with
  | none => rfl
  | some key =>
      have apart : key ≠ id := fun same => other (congrArg some same)
      simp [apart]

theorem Consistent.forId_ne (consistent : table.Consistent count) (name : Bytes) :
    table.forId name ≠ some count := by
  intro identified
  exact Int.lt_irrefl count (consistent.issued name count identified)

theorem Consistent.forId_ne_of_ne (consistent : table.Consistent count) {id : Int}
    (identified : table.forId conn = some id) (other : name ≠ conn) :
    table.forId name ≠ some id :=
  fun same => other (consistent.injective name conn id same identified)

theorem Consistent.unused (consistent : table.Consistent count) : table.choose count = none := by
  cases held : table.choose count with
  | none => rfl
  | some value =>
      obtain ⟨name, identified⟩ := consistent.named count value held
      exact absurd identified (consistent.forId_ne name)

theorem Consistent.myRegister_of_none (consistent : table.Consistent count)
    (missing : table.forId conn = none) :
    table.myRegister count conn =
      (⟨Function.update table.forId conn (some count), Function.update table.choose count (some 1)⟩,
        count + 1) := by
  simp [myRegister, consistent.find_eq_none.mpr missing, insertEntry, missing, consistent.unused]

theorem myRegister_of_some {value : Int} (found : table.find conn = some value) :
    table.myRegister count conn = (table, count) := by
  simp [myRegister, found]

theorem Consistent.myRegister (consistent : table.Consistent count) :
    (table.myRegister count conn).1.Consistent (table.myRegister count conn).2 := by
  cases missing : table.forId conn with
  | some id =>
      obtain ⟨value, held⟩ := consistent.counted conn id missing
      rw [myRegister_of_some (find_of_id missing held)]
      exact consistent
  | none =>
      rw [consistent.myRegister_of_none missing]
      constructor
      · intro name other id first second
        simp only [Function.update_apply] at first second
        grind [consistent.injective, consistent.forId_ne]
      · intro name id identified
        have earlier := consistent.issued name id
        simp only [Function.update_apply] at identified
        grind
      · intro name id identified
        simp only [Function.update_apply] at identified ⊢
        grind [consistent.counted]
      · intro id value held
        simp only [Function.update_apply] at held ⊢
        grind [consistent.named]

theorem Consistent.find_myRegister (consistent : table.Consistent count) :
    (table.myRegister count conn).1.find =
      Function.update table.find conn (some ((table.find conn).getD 1)) := by
  cases missing : table.forId conn with
  | some id =>
      obtain ⟨value, held⟩ := consistent.counted conn id missing
      have found := find_of_id missing held
      rw [myRegister_of_some found, found]
      exact (Function.update_eq_self_iff.mpr (by simp [found])).symm
  | none =>
      rw [consistent.myRegister_of_none missing, consistent.find_eq_none.mpr missing]
      funext name
      by_cases same : name = conn
      · simp [find, same]
      · simpa [find, same] using bind_update_of_ne (consistent.forId_ne name)

/-- Registering leaves a counter that is there, and starts a new one at one. -/
theorem Consistent.registered (consistent : table.Consistent count) {after : RegisterTable} {later : Int}
    (registered : table.myRegister count conn = (after, later)) : after.Consistent later ∧
      after.find = Function.update table.find conn (some ((table.find conn).getD 1)) := by
  have kept : (table.myRegister count conn).1.Consistent _ := consistent.myRegister
  have find : (table.myRegister count conn).1.find = _ := consistent.find_myRegister
  rw [registered] at kept find
  exact ⟨kept, find⟩

theorem Consistent.myUnregister (consistent : table.Consistent count) :
    (table.myUnregister conn).Consistent count := by
  cases identified : table.forId conn with
  | none => simpa [RegisterTable.myUnregister, identified] using consistent
  | some id =>
      obtain ⟨value, held⟩ := consistent.counted conn id identified
      simp only [RegisterTable.myUnregister, identified, held]
      constructor
      · intro name other id first second
        simp only [Function.update_apply] at first second
        grind [consistent.injective]
      · intro name id identified
        have earlier := consistent.issued name id
        simp only [Function.update_apply] at identified
        grind
      · intro name other identified'
        have counted := consistent.counted name other
        have injective := consistent.injective name conn other
        simp only [Function.update_apply] at identified' ⊢
        grind
      · intro id value held
        simp only [Function.update_apply] at held ⊢
        grind [consistent.named]

theorem Consistent.find_myUnregister (consistent : table.Consistent count) :
    (table.myUnregister conn).find = Function.update table.find conn none := by
  cases identified : table.forId conn with
  | none =>
      have missing := consistent.find_eq_none.mpr identified
      rw [show table.myUnregister conn = table by simp [RegisterTable.myUnregister, identified]]
      exact (Function.update_eq_self_iff.mpr missing.symm).symm
  | some id =>
      obtain ⟨value, held⟩ := consistent.counted conn id identified
      simp only [RegisterTable.myUnregister, identified, held]
      funext name
      by_cases same : name = conn
      · simp [find, same]
      · simpa [find, same] using bind_update_of_ne (consistent.forId_ne_of_ne identified same)

theorem Consistent.addValue (consistent : table.Consistent count) :
    (table.addValue conn).Consistent count := by
  cases identified : table.forId conn with
  | none => simpa [RegisterTable.addValue, identified] using consistent
  | some id =>
      obtain ⟨value, held⟩ := consistent.counted conn id identified
      simp only [RegisterTable.addValue, identified, held]
      constructor
      · exact consistent.injective
      · exact consistent.issued
      · intro name id identified
        simp only [Function.update_apply]
        grind [consistent.counted]
      · intro id value held
        simp only [Function.update_apply] at held
        grind [consistent.named]

theorem Consistent.find_addValue (consistent : table.Consistent count) :
    (table.addValue conn).find =
      Function.update table.find conn ((table.find conn).map (· + 1)) := by
  cases identified : table.forId conn with
  | none =>
      have missing := consistent.find_eq_none.mpr identified
      rw [show table.addValue conn = table by simp [RegisterTable.addValue, identified], missing]
      exact (Function.update_eq_self_iff.mpr missing.symm).symm
  | some id =>
      obtain ⟨value, held⟩ := consistent.counted conn id identified
      rw [find_of_id identified held]
      simp only [RegisterTable.addValue, identified, held]
      funext name
      by_cases same : name = conn
      · simp [find, same, identified]
      · simpa [find, same] using bind_update_of_ne (consistent.forId_ne_of_ne identified same)

end TransferServer.Base.RegisterTable

namespace TransferServer.Base

/-- A member call on one of the tables. -/
inductive RegisterCall (ι : Type) where
  | myRegister (table : ι) (name : Bytes)
  | myUnregister (table : ι) (name : Bytes)
  | getValue (table : ι) (name : Bytes)
  | addValue (table : ι) (name : Bytes)
  deriving DecidableEq, Repr

/-- Any number of register tables with the `count_` that they share. -/
structure RegisterTables (ι : Type) where
  tables : ι → RegisterTable
  count : Int

namespace RegisterTables

variable {ι : Type}

def construct : RegisterTables ι := ⟨fun _ => .empty, 0⟩

variable [DecidableEq ι]

def setTable (state : RegisterTables ι) (table : ι) (object : RegisterTable) : RegisterTables ι :=
  { state with tables := Function.update state.tables table object }

def perform (state : RegisterTables ι) : RegisterCall ι → RegisterTables ι
  | .myRegister table name =>
      let (object, count) := (state.tables table).myRegister state.count name
      { state.setTable table object with count }
  | .myUnregister table name => state.setTable table ((state.tables table).myUnregister name)
  -- the lookups with `operator[]` find their keys, hence insert nothing
  | .getValue _ _ => state
  | .addValue table name => state.setTable table ((state.tables table).addValue name)

def run (calls : List (RegisterCall ι)) : RegisterTables ι := calls.foldl perform construct

/-- What follows the latest registration of a name that has not been undone. A registration of a
registered name has no effect. -/
def sinceRegistration (table : ι) (name : Bytes) (calls : List (RegisterCall ι)) :
    Option (List (RegisterCall ι)) :=
  calls.foldl (fun since call =>
    match since with
    | none => if call = .myRegister table name then some [] else none
    | some later => if call = .myUnregister table name then none else some (later ++ [call])) none

/-- The calls about one name of one table. -/
def About (table : ι) (name : Bytes) (call : RegisterCall ι) : Prop :=
  call = .myRegister table name ∨ call = .myUnregister table name ∨ call = .getValue table name ∨
    call = .addValue table name

variable {state : RegisterTables ι} {table : ι} {name : Bytes} {calls : List (RegisterCall ι)}

def Consistent (state : RegisterTables ι) : Prop :=
  ∀ table, (state.tables table).Consistent state.count

theorem Consistent.setTable (consistent : state.Consistent) {object : RegisterTable} {count : Int}
    (grown : state.count ≤ count) (kept : object.Consistent count) :
    Consistent { state.setTable table object with count } := by
  intro other
  simp only [RegisterTables.setTable, Function.update_apply]
  split
  · exact kept
  · exact (consistent other).grow grown

theorem Consistent.perform (consistent : state.Consistent) (call : RegisterCall ι) :
    (state.perform call).Consistent := by
  cases call with
  | myRegister table name =>
      exact consistent.setTable RegisterTable.le_count_myRegister (consistent table).myRegister
  | myUnregister table name =>
      exact consistent.setTable (Int.le_refl _) (consistent table).myUnregister
  | getValue table name => exact consistent
  | addValue table name => exact consistent.setTable (Int.le_refl _) (consistent table).addValue

theorem run_append (calls : List (RegisterCall ι)) (call : RegisterCall ι) :
    run (calls ++ [call]) = (run calls).perform call := by
  simp [run]

theorem run_consistent (calls : List (RegisterCall ι)) : (run calls).Consistent := by
  induction calls using List.reverseRecOn with
  | nil => exact fun _ => RegisterTable.empty_consistent 0
  | append_singleton calls call ih =>
      rw [run_append]
      exact ih.perform call

theorem find_setTable {on : ι} {object : RegisterTable} {other : Bytes} {value : Option Int}
    (changed : object.find = Function.update (state.tables on).find other value) :
    ((state.setTable on object).tables table).find name =
      if on = table ∧ other = name then value else (state.tables table).find name := by
  by_cases same : on = table
  · subst same
    by_cases here : name = other
    · simp [setTable, changed, here]
    · simp [setTable, changed, here, Ne.symm here]
  · simp [setTable, same, Ne.symm same]

theorem find_perform (consistent : state.Consistent) (call : RegisterCall ι) :
    ((state.perform call).tables table).find name =
      if call = .myRegister table name then some (((state.tables table).find name).getD 1)
      else if call = .myUnregister table name then none
      else if call = .addValue table name then ((state.tables table).find name).map (· + 1)
      else (state.tables table).find name := by
  cases call with
  | myRegister on other =>
      have changed : ((state.perform (.myRegister on other)).tables table).find name = _ :=
        find_setTable (consistent on).find_myRegister
      rw [changed]
      by_cases here : on = table ∧ other = name
      · obtain ⟨rfl, rfl⟩ := here
        simp
      · simp [here]
  | myUnregister on other =>
      simp [perform, find_setTable (consistent on).find_myUnregister]
  | getValue on other => simp [perform]
  | addValue on other =>
      rw [perform, find_setTable (consistent on).find_addValue]
      by_cases here : on = table ∧ other = name
      · obtain ⟨rfl, rfl⟩ := here
        simp
      · simp [here]

theorem sinceRegistration_append (calls : List (RegisterCall ι)) (call : RegisterCall ι) :
    sinceRegistration table name (calls ++ [call]) =
      match sinceRegistration table name calls with
      | none => if call = .myRegister table name then some [] else none
      | some later => if call = .myUnregister table name then none else some (later ++ [call]) := by
  simp [sinceRegistration]

/-- The counter of a name is one more than the number of increments since its registration. -/
theorem find_run (calls : List (RegisterCall ι)) (table : ι) (name : Bytes) :
    ((run calls).tables table).find name = (sinceRegistration table name calls).map
      fun later => 1 + (later.count (.addValue table name) : Int) := by
  induction calls using List.reverseRecOn with
  | nil => rfl
  | append_singleton calls call ih =>
      rw [run_append, find_perform (run_consistent calls), sinceRegistration_append, ih]
      cases sinceRegistration table name calls with
      | none => cases call <;> simp
      | some later => cases call <;> simp [List.count_append, List.count_singleton] <;> grind

theorem length_sinceRegistration {later : List (RegisterCall ι)}
    (since : sinceRegistration table name calls = some later) : later.length < calls.length := by
  induction calls using List.reverseRecOn generalizing later with
  | nil => cases since
  | append_singleton calls call ih =>
      rw [sinceRegistration_append] at since
      split at since
      · split at since
        · cases since
          simp
        · cases since
      · next earlier found =>
          split at since
          · cases since
          · cases since
            simpa using ih found

/-- Neither `count_` nor a counter passes the number of calls, so that an `int` holds them as long
as there are fewer than 2^31. -/
theorem run_bounded (calls : List (RegisterCall ι)) : (run calls).count ≤ calls.length ∧
    ∀ table name, ((run calls).tables table).getValue name ≤ calls.length := by
  constructor
  · induction calls using List.reverseRecOn with
    | nil => exact Int.le_refl 0
    | append_singleton calls call ih =>
        rw [run_append, List.length_append, List.length_singleton]
        cases call with
        | myRegister table name =>
            have next : ((run calls).perform (.myRegister table name)).count ≤ (run calls).count + 1 :=
              RegisterTable.myRegister_le_count
            omega
        | _ => exact Int.le_trans ih (by omega)
  · intro table name
    rw [RegisterTable.getValue, find_run]
    cases since : sinceRegistration table name calls with
    | none => simp
    | some later =>
        have counted : later.count (.addValue table name) ≤ later.length := List.count_le_length
        have shorter := length_sinceRegistration since
        simp only [Option.map_some, Option.getD_some]
        omega

theorem perform_registered (consistent : state.Consistent)
    (registered : (state.tables table).forId name ≠ none) :
    state.perform (.myRegister table name) = state := by
  obtain ⟨id, identified⟩ := Option.ne_none_iff_exists'.mp registered
  obtain ⟨value, held⟩ := (consistent table).counted name id identified
  have found := RegisterTable.find_of_id identified held
  simp [perform, RegisterTable.myRegister_of_some found, setTable]

/-- In every state that calls can lead to, the two maps of each table agree, and the table is a
map from names to counters. -/
theorem tables_refine_counters (calls : List (RegisterCall ι)) (table : ι) :
    (∀ name other id, ((run calls).tables table).forId name = some id →
      ((run calls).tables table).forId other = some id → name = other) ∧
    (∀ name id, ((run calls).tables table).forId name = some id → id < (run calls).count) ∧
    (∀ id, (∃ value, ((run calls).tables table).choose id = some value) ↔
      ∃ name, ((run calls).tables table).forId name = some id) ∧
    (∀ name, ((run calls).tables table).forId name = none ↔ sinceRegistration table name calls = none) ∧
    (∀ name, ((run calls).tables table).getValue name =
      match sinceRegistration table name calls with
      | none => 0
      | some later => 1 + later.count (.addValue table name)) ∧
    (∀ name, ((run calls).tables table).forId name ≠ none →
      (run calls).perform (.myRegister table name) = run calls) ∧
    ∀ name call, ¬ About table name call →
      (((run calls).perform call).tables table).getValue name =
        ((run calls).tables table).getValue name := by
  have consistent := run_consistent calls
  obtain ⟨injective, issued, counted, named⟩ := consistent table
  refine ⟨injective, issued, fun id => ⟨?_, ?_⟩, fun name => ?_, fun name => ?_,
    fun _ registered => perform_registered consistent registered, fun name call about => ?_⟩
  · rintro ⟨value, held⟩
    exact named id value held
  · rintro ⟨name, identified⟩
    exact counted name id identified
  · rw [← (consistent table).find_eq_none, find_run, Option.map_eq_none_iff]
  · rw [RegisterTable.getValue, find_run]
    cases sinceRegistration table name calls <;> rfl
  · simp only [About, not_or] at about
    rw [RegisterTable.getValue, find_perform consistent, if_neg about.1, if_neg about.2.1,
      if_neg about.2.2.2]
    rfl

end RegisterTables

end TransferServer.Base
