import Mathlib.Data.List.Perm.Basic
import Mathlib.Data.List.Nodup

/-! A mutex with condition variables. A wait releases the mutex as it begins to block, and owns it
again when it returns; a waiter may wake without a reason. -/

set_option autoImplicit false

namespace TransferServer.Lib

universe u v

variable {Thread : Type u} {Cond : Type v} [DecidableEq Thread] [DecidableEq Cond]

/-- A thread blocked on a condition; a timed wait ends by itself. -/
structure Waiter (Thread : Type u) (Cond : Type v) where
  thread : Thread
  cond : Cond
  timed : Bool
  deriving DecidableEq, Repr

structure Monitor (Thread : Type u) (Cond : Type v) where
  owner : Option Thread
  waiters : List (Waiter Thread Cond)
  /-- Woken from their waits, these compete for the mutex. -/
  awake : List Thread
  deriving DecidableEq, Repr

namespace Monitor

inductive Event (Thread : Type u) (Cond : Type v) where
  | acquire (thread : Thread)
  | release (thread : Thread)
  | wait (waiter : Waiter Thread Cond)
  /-- A signal wakes a waiter where there is one. -/
  | signal (cond : Cond) (woken : Option (Waiter Thread Cond))
  | broadcast (cond : Cond)
  | expire (waiter : Waiter Thread Cond)
  /-- A wakeup without a signal. -/
  | stray (waiter : Waiter Thread Cond)
  | resume (thread : Thread)
  deriving DecidableEq, Repr

def start : Monitor Thread Cond := ⟨none, [], []⟩

/-- The threads whose waits have not returned. -/
def parked (monitor : Monitor Thread Cond) : List Thread :=
  monitor.waiters.map Waiter.thread ++ monitor.awake

def Enabled (monitor : Monitor Thread Cond) : Event Thread Cond → Prop
  | .acquire thread => monitor.owner = none ∧ thread ∉ monitor.parked
  | .release thread => monitor.owner = some thread
  | .wait waiter => monitor.owner = some waiter.thread
  | .signal cond (some waiter) => waiter ∈ monitor.waiters ∧ waiter.cond = cond
  | .signal cond none => ∀ waiter ∈ monitor.waiters, waiter.cond ≠ cond
  | .broadcast _ => True
  | .expire waiter => waiter ∈ monitor.waiters ∧ waiter.timed = true
  | .stray waiter => waiter ∈ monitor.waiters
  | .resume thread => monitor.owner = none ∧ thread ∈ monitor.awake

instance (monitor : Monitor Thread Cond) (event : Event Thread Cond) :
    Decidable (monitor.Enabled event) := by
  cases event with
  | signal cond woken => cases woken <;> dsimp only [Enabled] <;> infer_instance
  | _ => dsimp only [Enabled]; infer_instance

def wake (monitor : Monitor Thread Cond) (waiter : Waiter Thread Cond) : Monitor Thread Cond :=
  { monitor with waiters := monitor.waiters.erase waiter, awake := waiter.thread :: monitor.awake }

def wakeAll (monitor : Monitor Thread Cond) (cond : Cond) : Monitor Thread Cond :=
  { monitor with
    waiters := monitor.waiters.filter fun waiter => waiter.cond ≠ cond
    awake := (monitor.waiters.filter fun waiter => waiter.cond = cond).map Waiter.thread ++
      monitor.awake }

def next (monitor : Monitor Thread Cond) : Event Thread Cond → Monitor Thread Cond
  | .acquire thread => { monitor with owner := some thread }
  | .release _ => { monitor with owner := none }
  | .wait waiter => { monitor with owner := none, waiters := waiter :: monitor.waiters }
  | .signal _ (some waiter) => monitor.wake waiter
  | .signal _ none => monitor
  | .broadcast cond => monitor.wakeAll cond
  | .expire waiter => monitor.wake waiter
  | .stray waiter => monitor.wake waiter
  | .resume thread => { monitor with owner := some thread, awake := monitor.awake.erase thread }

variable {monitor : Monitor Thread Cond}

theorem parked_wake {waiter : Waiter Thread Cond} (blocked : waiter ∈ monitor.waiters) :
    (monitor.wake waiter).parked.Perm monitor.parked := by
  have moved := ((List.perm_cons_erase blocked).map Waiter.thread).append_right monitor.awake
  exact List.perm_middle.trans moved.symm

omit [DecidableEq Thread] in
theorem parked_wakeAll (monitor : Monitor Thread Cond) (cond : Cond) :
    (monitor.wakeAll cond).parked.Perm monitor.parked := by
  have divided := (List.filter_append_perm (fun waiter => decide (waiter.cond = cond))
    monitor.waiters).map Waiter.thread
  rw [List.map_append] at divided
  simp only [wakeAll, parked, decide_not]
  rw [← List.append_assoc]
  exact (List.perm_append_comm.trans divided).append_right monitor.awake

def Event.Wakes : Event Thread Cond → Prop
  | .signal _ _ | .broadcast _ | .expire _ | .stray _ => True
  | _ => False

theorem next_of_wakes {event : Event Thread Cond} (enabled : monitor.Enabled event)
    (wakes : event.Wakes) : (monitor.next event).owner = monitor.owner ∧
      (monitor.next event).parked.Perm monitor.parked := by
  cases event with
  | acquire | release | wait | resume => cases wakes
  | signal cond woken =>
      cases woken with
      | none => exact ⟨rfl, .refl _⟩
      | some waiter => exact ⟨rfl, parked_wake enabled.1⟩
  | broadcast cond => exact ⟨rfl, parked_wakeAll monitor cond⟩
  | expire waiter => exact ⟨rfl, parked_wake enabled.1⟩
  | stray waiter => exact ⟨rfl, parked_wake enabled⟩

/-- No wakeup puts a thread to sleep. -/
theorem mem_waiters_of_wakes {event : Event Thread Cond} {waiter : Waiter Thread Cond}
    (wakes : event.Wakes) (present : waiter ∈ (monitor.next event).waiters) :
    waiter ∈ monitor.waiters := by
  cases event with
  | acquire | release | wait | resume => cases wakes
  | signal cond woken =>
      cases woken with
      | none => exact present
      | some other => exact List.mem_of_mem_erase present
  | broadcast cond => exact List.mem_of_mem_filter present
  | expire other => exact List.mem_of_mem_erase present
  | stray other => exact List.mem_of_mem_erase present

theorem perm_resume {thread : Thread} (woken : thread ∈ monitor.awake) :
    (thread :: (monitor.next (.resume thread)).parked).Perm monitor.parked :=
  List.perm_middle.symm.trans ((List.perm_cons_erase woken).symm.append_left _)

/-- No thread stands in two places. -/
def Distinct (monitor : Monitor Thread Cond) : Prop :=
  (monitor.owner.toList ++ monitor.parked).Nodup

omit [DecidableEq Thread] [DecidableEq Cond] in
theorem distinct_start : (start : Monitor Thread Cond).Distinct := .nil

theorem Distinct.next {event : Event Thread Cond} (distinct : monitor.Distinct)
    (enabled : monitor.Enabled event) : (monitor.next event).Distinct := by
  have woken (wakes : event.Wakes) : (monitor.next event).Distinct := by
    obtain ⟨owner, parked⟩ := next_of_wakes enabled wakes
    rw [Distinct, owner]
    exact (parked.append_left _).nodup_iff.mpr distinct
  cases event with
  | acquire thread =>
      obtain ⟨unowned, absent⟩ := enabled
      rw [Distinct, unowned] at distinct
      exact List.nodup_cons.mpr ⟨absent, distinct⟩
  | release thread => exact distinct.sublist (List.sublist_append_right _ _)
  | wait waiter =>
      rw [Distinct, show monitor.owner = some waiter.thread from enabled] at distinct
      exact distinct
  | signal | broadcast | expire | stray => exact woken trivial
  | resume thread =>
      obtain ⟨unowned, awake⟩ := enabled
      rw [Distinct, unowned] at distinct
      exact (perm_resume awake).nodup_iff.mpr distinct

theorem mem_parked_resume {thread : Thread} (distinct : monitor.Distinct)
    (woken : thread ∈ monitor.awake) (other : Thread) :
    other ∈ (monitor.next (.resume thread)).parked ↔ other ∈ monitor.parked ∧ other ≠ thread := by
  have split := perm_resume woken
  have apart := split.nodup_iff.mpr (distinct.sublist (List.sublist_append_right _ _))
  rw [← split.mem_iff, List.mem_cons]
  constructor
  · intro present
    refine ⟨.inr present, ?_⟩
    rintro rfl
    exact (List.nodup_cons.mp apart).1 present
  · rintro ⟨same | present, different⟩
    · exact absurd same different
    · exact present

end Monitor

end TransferServer.Lib
