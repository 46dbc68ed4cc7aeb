import Mathlib.Order.MinMax
import TransferServer.Net.TimerQueue

/-! The timers of a queue over whole runs. Entries stand for distinct live timers whose
expirations they name; on them a call of `handleRead` runs what is due and nothing else. -/

set_option autoImplicit false

namespace TransferServer.Net

open Lib

/-- The live timers behind some entries, in the order of the entries. -/
def timersOf (heap : TimerPtr → Option Timer) (entries : List Entry) : List Timer :=
  entries.filterMap fun entry => heap entry.second

theorem timersOf_append (heap : TimerPtr → Option Timer) (entries others : List Entry) :
    timersOf heap (entries ++ others) = timersOf heap entries ++ timersOf heap others :=
  List.filterMap_append

theorem timersOf_perm {heap : TimerPtr → Option Timer} {entries others : List Entry}
    (same : entries.Perm others) : (timersOf heap entries).Perm (timersOf heap others) :=
  same.filterMap _

theorem timersOf_update {heap : TimerPtr → Option Timer} {entries : List Entry} {ptr : TimerPtr}
    (apart : ptr ∉ entries.map Entry.second) (timer : Option Timer) :
    timersOf (Function.update heap ptr timer) entries = timersOf heap entries := by
  apply List.filterMap_congr
  intro entry found
  apply Function.update_of_ne
  intro same
  exact apart (same ▸ List.mem_map_of_mem found)

theorem timersOf_congr {heap heap' : TimerPtr → Option Timer} {entries : List Entry}
    (same : ∀ entry ∈ entries, heap' entry.second = heap entry.second) :
    timersOf heap' entries = timersOf heap entries :=
  List.filterMap_congr same

theorem timersOf_cons {heap : TimerPtr → Option Timer} {entry : Entry} {timer : Timer}
    (stored : heap entry.second = some timer) (entries : List Entry) :
    timersOf heap (entry :: entries) = timer :: timersOf heap entries := by
  simp [timersOf, stored]

/-- The entries stand for distinct live timers, each under its expiration. -/
structure Sound (heap : TimerPtr → Option Timer) (created : Nat) (entries : List Entry) : Prop where
  keyed : ∀ entry ∈ entries,
    ∃ timer, heap entry.second = some timer ∧ timer.expiration = entry.first
  distinct : (entries.map Entry.second).Nodup
  real : ∀ entry ∈ entries, entry.second ≠ UINTPTR_MAX
  numbered : ∀ timer ∈ timersOf heap entries, timer.callback < created
  unique : ((timersOf heap entries).map Timer.callback).Nodup

namespace Sound

variable {heap : TimerPtr → Option Timer} {created : Nat} {entries others : List Entry}
variable {entry : Entry} {ptr : TimerPtr} {timer : Timer}

theorem nil (heap : TimerPtr → Option Timer) (created : Nat) : Sound heap created [] where
  keyed := by simp
  distinct := by simp
  real := by simp
  numbered := by simp [timersOf]
  unique := by simp [timersOf]

theorem perm (sound : Sound heap created entries) (same : entries.Perm others) :
    Sound heap created others where
  keyed := fun entry found => sound.keyed entry (same.mem_iff.mpr found)
  distinct := (same.map _).nodup_iff.mp sound.distinct
  real := fun entry found => sound.real entry (same.mem_iff.mpr found)
  numbered := fun timer found => sound.numbered timer ((timersOf_perm same).mem_iff.mpr found)
  unique := ((timersOf_perm same).map _).nodup_iff.mp sound.unique

theorem sublist (sound : Sound heap created entries) (fewer : others.Sublist entries) :
    Sound heap created others where
  keyed := fun entry found => sound.keyed entry (fewer.subset found)
  distinct := sound.distinct.sublist (fewer.map _)
  real := fun entry found => sound.real entry (fewer.subset found)
  numbered := fun timer found => sound.numbered timer ((fewer.filterMap _).subset found)
  unique := sound.unique.sublist ((fewer.filterMap _).map _)

theorem update (sound : Sound heap created entries) (apart : ptr ∉ entries.map Entry.second)
    (timer : Option Timer) : Sound (Function.update heap ptr timer) created entries where
  keyed := by
    intro entry found
    obtain ⟨timer, stored, key⟩ := sound.keyed entry found
    refine ⟨timer, ?_, key⟩
    rw [Function.update_of_ne, stored]
    intro same
    exact apart (same ▸ List.mem_map_of_mem found)
  distinct := sound.distinct
  real := sound.real
  numbered := by
    rw [timersOf_update apart]
    exact sound.numbered
  unique := by
    rw [timersOf_update apart]
    exact sound.unique

theorem grow (sound : Sound heap created entries) {more : Nat} (later : created ≤ more) :
    Sound heap more entries :=
  ⟨sound.keyed, sound.distinct, sound.real,
    fun timer found => Nat.lt_of_lt_of_le (sound.numbered timer found) later, sound.unique⟩

theorem cons (sound : Sound heap created entries) (stored : heap entry.second = some timer)
    (key : timer.expiration = entry.first) (apart : entry.second ∉ entries.map Entry.second)
    (real : entry.second ≠ UINTPTR_MAX) (numbered : timer.callback < created)
    (unique : timer.callback ∉ (timersOf heap entries).map Timer.callback) :
    Sound heap created (entry :: entries) where
  keyed := by
    intro other found
    rcases List.mem_cons.mp found with rfl | later
    · exact ⟨timer, stored, key⟩
    · exact sound.keyed other later
  distinct := List.nodup_cons.mpr ⟨apart, sound.distinct⟩
  real := by
    intro other found
    rcases List.mem_cons.mp found with rfl | later
    · exact real
    · exact sound.real other later
  numbered := by
    intro other found
    rw [timersOf_cons stored] at found
    rcases List.mem_cons.mp found with rfl | later
    · exact numbered
    · exact sound.numbered other later
  unique := by
    rw [timersOf_cons stored]
    exact List.nodup_cons.mpr ⟨unique, sound.unique⟩

theorem apart_of_free (sound : Sound heap created entries) (free : heap ptr = none) :
    ptr ∉ entries.map Entry.second := by
  intro found
  obtain ⟨entry, member, rfl⟩ := List.mem_map.mp found
  obtain ⟨timer, stored, _⟩ := sound.keyed entry member
  rw [free] at stored
  cases stored

end Sound

def Timespec.nanoseconds (value : Timespec) : Int := value.tvSec * 1000000000 + value.tvNsec

/-- The timerfd is readable, or armed to expire at `expiration`, but in no less than 100
microseconds. -/
def Timerfd.Awaits (timerfd : Timerfd) (expiration : Int) : Prop :=
  timerfd = .readable ∨ ∃ value since, timerfd = .armed value since ∧ value.Legal ∧
    value ≠ ⟨0, 0⟩ ∧ value.nanoseconds = 1000 * max 100 (expiration - since)

theorem howMuchTimeFromNow_spec (expiration clock : Int) :
    (howMuchTimeFromNow expiration clock).Legal ∧ howMuchTimeFromNow expiration clock ≠ ⟨0, 0⟩ ∧
      (howMuchTimeFromNow expiration clock).nanoseconds = 1000 * max 100 (expiration - clock) := by
  have clamped : (if expiration - clock < 100 then 100 else expiration - clock) =
      max 100 (expiration - clock) := by
    split <;> omega
  have positive : 100 ≤ max 100 (expiration - clock) := le_max_left _ _
  simp only [howMuchTimeFromNow, clamped, Timestamp.kMicroSecondsPerSecond, Timespec.Legal,
    Timespec.nanoseconds, ne_eq, Timespec.mk.injEq]
  generalize max 100 (expiration - clock) = microseconds at positive
  rw [Int.tdiv_eq_ediv_of_nonneg (by omega), Int.tmod_eq_emod_of_nonneg (by omega)]
  omega

theorem resetTimerfd_awaits (timerfd : Timerfd) (expiration clock : Int) :
    (resetTimerfd timerfd expiration clock).Awaits expiration := by
  obtain ⟨legal, nonzero, exact⟩ := howMuchTimeFromNow_spec expiration clock
  refine .inr ⟨howMuchTimeFromNow expiration clock, clock, ?_, legal, nonzero, exact⟩
  rw [resetTimerfd, Timerfd.settime, if_pos legal, if_neg nonzero]

theorem Timerfd.Awaits.expire {timerfd : Timerfd} {expiration : Int}
    (awaits : timerfd.Awaits expiration) : timerfd.expire.Awaits expiration := by
  rcases awaits with rfl | ⟨value, since, rfl, _⟩
  · exact .inl rfl
  · exact .inl rfl

namespace TimerQueue

variable {queue middle after : TimerQueue} {held : List Entry} {ptr : TimerPtr} {timer : Timer}

/-- The timers waiting in `timers_`. -/
def pending (queue : TimerQueue) : List Timer := timersOf queue.heap queue.timers.elems

/-- If the earliest expiration is one of those covered, the timerfd awaits it. -/
def Attended (covered : Int → Prop) (queue : TimerQueue) : Prop :=
  ∀ first, queue.timers.elems.head? = some first → covered first.first →
    queue.timerfd.Awaits first.first

/-- The queue after an insertion. -/
def withEntry (queue : TimerQueue) (entry : Entry) : TimerQueue :=
  { queue with timers := (queue.timers.insert entry).1 }

theorem insert_eq_ok {entry : Entry} (stored : queue.heap entry.second = some timer)
    (key : timer.expiration = entry.first) (missing : entry ∉ queue.timers.elems) :
    queue.insert entry.second =
      .ok (queue.withEntry entry, queue.earliestChanged entry.first) := by
  have inserted := (OrderedSet.insert_of_missing missing).1
  have spelled : toLex (entry.first, entry.second) = entry := rfl
  simp only [insert, deref, stored, pure_eq_ok, ok_bind, key, spelled, assert_of inserted, withEntry]

theorem head?_withEntry {entry first : Entry} (missing : entry ∉ queue.timers.elems)
    (front : (queue.withEntry entry).timers.elems.head? = some first) :
    (queue.earliestChanged entry.first = true ∧ first.first = entry.first) ∨
    (queue.earliestChanged entry.first = false ∧
      ∃ former, queue.timers.elems.head? = some former ∧ former.first = first.first) := by
  unfold withEntry at front
  rw [OrderedSet.head?_insert missing] at front
  unfold earliestChanged
  cases head : queue.timers.elems.head? with
  | none =>
      rw [head] at front
      cases front
      exact .inl ⟨rfl, rfl⟩
  | some former =>
      rw [head] at front
      cases front
      by_cases earlier : entry.first < former.first
      · have before : entry < former := Prod.Lex.lt_iff.mpr (.inl earlier)
        rw [min_eq_left before.le]
        exact .inl ⟨decide_eq_true earlier, rfl⟩
      · refine .inr ⟨decide_eq_false earlier, former, rfl, ?_⟩
        rcases min_cases entry former with ⟨here, before⟩ | ⟨there, _⟩
        · rw [here]
          rcases Prod.Lex.le_iff.mp before with strictly | ⟨same, _⟩
          · exact absurd strictly earlier
          · exact same.symm
        · rw [there]

theorem Attended.withEntry {covered : Int → Prop} {entry : Entry}
    (attended : queue.Attended covered) (missing : entry ∉ queue.timers.elems)
    (unchanged : covered entry.first → queue.earliestChanged entry.first = false) :
    (queue.withEntry entry).Attended covered := by
  intro first front relevant
  rcases head?_withEntry missing front with ⟨changed, here⟩ | ⟨_, former, head, same⟩
  · rw [here] at relevant
    rw [unchanged relevant] at changed
    cases changed
  · rw [← same] at relevant ⊢
    exact attended former head relevant

/-- The timers that some calls of `addTimer` make, numbered from `first` on. -/
def newTimers (first : Nat) : List NewTimer → List Timer
  | [] => []
  | request :: requests => request.timer first :: newTimers (first + 1) requests

theorem newTimers_append (first : Nat) (requests later : List NewTimer) :
    newTimers first (requests ++ later) =
      newTimers first requests ++ newTimers (first + requests.length) later := by
  induction requests generalizing first with
  | nil => rfl
  | cons request requests ih =>
      simp [newTimers, ih, Nat.add_assoc, Nat.add_comm 1]

theorem le_callback_of_mem_newTimers {first : Nat} {requests : List NewTimer}
    (found : timer ∈ newTimers first requests) : first ≤ timer.callback := by
  induction requests generalizing first with
  | nil => cases found
  | cons request requests ih =>
      rcases List.mem_cons.mp found with rfl | later
      · exact Nat.le_refl _
      · exact Nat.le_of_succ_le (ih later)

/-- What adding some timers does to a queue some of whose entries are held outside. -/
structure Grows (queue after : TimerQueue) (held : List Entry) (requests : List NewTimer) : Prop where
  sound : Sound after.heap after.created (after.timers.elems ++ held)
  pending : after.pending.Perm (newTimers queue.created requests ++ queue.pending)
  held : ∀ entry ∈ held, after.heap entry.second = queue.heap entry.second
  created : after.created = queue.created + requests.length
  attended : ∀ covered, queue.Attended covered → after.Attended covered

theorem Grows.refl (sound : Sound queue.heap queue.created (queue.timers.elems ++ held)) :
    Grows queue queue held [] where
  sound := sound
  pending := .rfl
  held := fun _ _ => rfl
  created := rfl
  attended := fun _ attended => attended

theorem Grows.trans {requests later : List NewTimer} (grows : Grows queue middle held requests)
    (grows' : Grows middle after held later) : Grows queue after held (requests ++ later) where
  sound := grows'.sound
  pending := by
    rw [newTimers_append, ← grows.created, List.append_assoc]
    exact grows'.pending.trans ((grows.pending.append_left _).trans (List.perm_append_comm_assoc _ _ _))
  held := fun entry found => (grows'.held entry found).trans (grows.held entry found)
  created := by
    rw [grows'.created, grows.created, List.length_append, Nat.add_assoc]
  attended := fun covered attended => grows'.attended covered (grows.attended covered attended)

theorem withEntry_sound (queue : TimerQueue) (entry : Entry)
    (sound : Sound queue.heap queue.created (queue.timers.elems ++ held))
    (stored : queue.heap entry.second = some timer) (key : timer.expiration = entry.first)
    (apart : entry.second ∉ (queue.timers.elems ++ held).map Entry.second)
    (real : entry.second ≠ UINTPTR_MAX) (numbered : timer.callback < queue.created)
    (unique : timer.callback ∉
      (timersOf queue.heap (queue.timers.elems ++ held)).map Timer.callback) :
    queue.insert entry.second =
        .ok (queue.withEntry entry, queue.earliestChanged entry.first) ∧
      entry ∉ queue.timers.elems ∧
      Sound queue.heap queue.created ((queue.withEntry entry).timers.elems ++ held) ∧
      (queue.withEntry entry).pending.Perm (timer :: queue.pending) := by
  have missing : entry ∉ queue.timers.elems := fun found =>
    apart (List.mem_map_of_mem (List.mem_append_left held found))
  have joined := (OrderedSet.insert_of_missing missing).2
  have grown := sound.cons stored key apart real numbered unique
  refine ⟨insert_eq_ok stored key missing, missing, grown.perm (joined.append_right held).symm, ?_⟩
  exact (timersOf_perm joined).trans (.of_eq (timersOf_cons stored queue.timers.elems))

theorem allocate_sound {request : NewTimer}
    (sound : Sound queue.heap queue.created (queue.timers.elems ++ held))
    (apart : request.ptr ∉ (queue.timers.elems ++ held).map Entry.second) :
    Sound (queue.allocate request).heap (queue.allocate request).created
      ((queue.allocate request).timers.elems ++ held) :=
  (sound.update apart _).grow (Nat.le_succ queue.created)

/-- A new timer joins the pending ones and nothing else changes; if it is the earliest, the
timerfd awaits it. -/
theorem addTimer_spec (sound : Sound queue.heap queue.created (queue.timers.elems ++ held))
    (request : NewTimer) :
    Ensures Halt.Benign (queue.addTimer request) fun after =>
      Grows queue after held [request] ∧ after.ran = queue.ran := by
  refine ensures_assume fun ⟨free, real⟩ => ?_
  have apart := sound.apart_of_free free
  have apartTimers : request.ptr ∉ queue.timers.elems.map Entry.second :=
    fun found => apart (by simp only [List.map_append, List.mem_append, found, true_or])
  have apartHeld : request.ptr ∉ held.map Entry.second :=
    fun found => apart (by simp only [List.map_append, List.mem_append, found, or_true])
  have stored : (queue.allocate request).heap request.ptr = some (request.timer queue.created) :=
    Function.update_self _ _ _
  have fresh : queue.created ∉ (timersOf (queue.allocate request).heap
      ((queue.allocate request).timers.elems ++ held)).map Timer.callback := by
    change queue.created ∉ (timersOf (Function.update queue.heap request.ptr _)
      (queue.timers.elems ++ held)).map Timer.callback
    rw [timersOf_update apart]
    intro found
    obtain ⟨timer, member, same⟩ := List.mem_map.mp found
    have below := sound.numbered timer member
    rw [same] at below
    exact Nat.lt_irrefl _ below
  obtain ⟨inserted, missing, grown, joined⟩ :=
    withEntry_sound (queue.allocate request) (toLex (request.when, request.ptr))
      (allocate_sound sound apart) stored rfl apart real (Nat.lt_succ_self _) fresh
  have pending : (queue.allocate request).pending = queue.pending := timersOf_update apartTimers _
  rw [pending] at joined
  have kept : ∀ entry ∈ held,
      (queue.allocate request).heap entry.second = queue.heap entry.second := by
    intro entry found
    apply Function.update_of_ne
    intro same
    exact apartHeld (same ▸ List.mem_map_of_mem found)
  have inserted : (queue.allocate request).insert request.ptr =
      .ok ((queue.allocate request).withEntry (toLex (request.when, request.ptr)),
        (queue.allocate request).earliestChanged request.when) := inserted
  have stored' : ((queue.allocate request).withEntry (toLex (request.when, request.ptr))).heap
      request.ptr = some (request.timer queue.created) := stored
  unfold addTimerInLoop
  rw [inserted, ok_bind]
  cases changed : (queue.allocate request).earliestChanged request.when with
  | true =>
      simp only [if_true, deref, stored', pure_eq_ok, ok_bind]
      refine ⟨⟨grown, joined, kept, rfl, fun covered attended first front relevant => ?_⟩, rfl⟩
      rcases head?_withEntry missing front with ⟨_, here⟩ | ⟨unchanged, _⟩
      · rw [here]
        exact resetTimerfd_awaits _ _ _
      · have impossible : true = false := changed.symm.trans unchanged
        cases impossible
  | false =>
      refine ⟨⟨grown, joined, kept, rfl, fun covered attended => ?_⟩, rfl⟩
      have former : (queue.allocate request).Attended covered := attended
      exact former.withEntry missing fun _ => changed

/-- The calls of `addTimer` among some events. -/
def requestsOf (events : List CallbackEvent) : List NewTimer :=
  events.filterMap fun event =>
    match event with
    | .addTimer request => some request
    | .expire => none

theorem happen_spec (sound : Sound queue.heap queue.created (queue.timers.elems ++ held))
    (event : CallbackEvent) :
    Ensures Halt.Benign (queue.happen event) fun after =>
      Grows queue after held (requestsOf [event]) ∧ after.ran = queue.ran := by
  cases event with
  | addTimer request => exact addTimer_spec sound request
  | expire =>
      refine ⟨⟨sound, .rfl, fun _ _ => rfl, rfl, fun covered attended first front relevant => ?_⟩, rfl⟩
      exact (attended first front relevant).expire

theorem events_spec (sound : Sound queue.heap queue.created (queue.timers.elems ++ held))
    (events : List CallbackEvent) :
    Ensures Halt.Benign (events.foldlM happen queue) fun after =>
      Grows queue after held (requestsOf events) ∧ after.ran = queue.ran := by
  induction events generalizing queue with
  | nil => exact ⟨.refl sound, rfl⟩
  | cons event events ih =>
      rw [List.foldlM_cons]
      refine (happen_spec sound event).bind fun middle ⟨grows, same⟩ => ?_
      refine (ih grows.sound).mono fun after ⟨grows', same'⟩ => ?_
      have split : requestsOf (event :: events) = requestsOf [event] ++ requestsOf events :=
        List.filterMap_append (l := [event])
      exact ⟨split ▸ grows.trans grows', same'.trans same⟩

/-- The calls of `addTimer` in the callbacks of the first `count` expired timers. -/
def requestsIn (alarm : Alarm) (count : Nat) : List NewTimer :=
  requestsOf (alarm.callbacks.take count).flatten

theorem run_spec (sound : Sound queue.heap queue.created (queue.timers.elems ++ held))
    {entry : Entry} (out : entry ∈ held) (events : List CallbackEvent) :
    Ensures Halt.Benign (queue.run entry events) fun after =>
      Grows queue after held (requestsOf events) ∧
        after.ran = queue.ran ++ timersOf queue.heap [entry] := by
  obtain ⟨timer, stored, _⟩ := sound.keyed entry (List.mem_append_right _ out)
  have running : Sound { queue with ran := queue.ran ++ [timer] }.heap
      { queue with ran := queue.ran ++ [timer] }.created
      ({ queue with ran := queue.ran ++ [timer] }.timers.elems ++ held) := sound
  simp only [run, deref, stored, pure_eq_ok, ok_bind]
  refine (events_spec running events).mono fun after ⟨grows, same⟩ =>
    ⟨⟨grows.sound, grows.pending, grows.held, grows.created, grows.attended⟩, ?_⟩
  rw [same, timersOf_cons stored]
  rfl

theorem runAll_spec (sound : Sound queue.heap queue.created (queue.timers.elems ++ held))
    {todo : List Entry} (out : ∀ entry ∈ todo, entry ∈ held) (callbacks : List (List CallbackEvent)) :
    Ensures Halt.Benign (queue.runAll todo callbacks) fun after =>
      Grows queue after held (requestsOf (callbacks.take todo.length).flatten) ∧
        after.ran = queue.ran ++ timersOf queue.heap todo := by
  induction todo generalizing queue callbacks with
  | nil =>
      refine ⟨?_, (List.append_nil _).symm⟩
      simpa [requestsOf] using Grows.refl sound
  | cons entry todo ih =>
      have out' : ∀ other ∈ todo, other ∈ held := fun other found =>
        out other (List.mem_cons_of_mem entry found)
      refine (run_spec sound (out entry List.mem_cons_self) (callbacks.headD [])).bind
        fun middle ⟨grows, ran⟩ => ?_
      refine (ih grows.sound out' callbacks.tail).mono fun after ⟨grows', ran'⟩ => ⟨?_, ?_⟩
      · have split : requestsOf (callbacks.take (todo.length + 1)).flatten =
            requestsOf (callbacks.headD []) ++ requestsOf (callbacks.tail.take todo.length).flatten := by
          cases callbacks with
          | nil => simp [requestsOf]
          | cons events callbacks => simp [requestsOf, List.filterMap_append]
        rw [List.length_cons, split]
        exact grows.trans grows'
      · have same := timersOf_congr fun other found => grows.held other (out' other found)
        have split : timersOf queue.heap (entry :: todo) =
            timersOf queue.heap [entry] ++ timersOf queue.heap todo :=
          timersOf_append queue.heap [entry] todo
        rw [ran', ran, same, split, List.append_assoc]

/-- The repeating ones of some timers, to expire again one interval after `now`. -/
def restarted (now : Int) (timers : List Timer) : List Timer :=
  (timers.filter Timer.repeats).map fun timer =>
    { timer with expiration := now + timer.interval }

/-- What taking back some entries that were held outside does to a queue. -/
structure Settles (queue after : TimerQueue) (held : List Entry) (back : List Timer) : Prop where
  sound : Sound after.heap after.created (after.timers.elems ++ held)
  pending : after.pending.Perm (back ++ queue.pending)
  held : ∀ entry ∈ held, after.heap entry.second = queue.heap entry.second
  created : after.created = queue.created
  ran : after.ran = queue.ran
  attended : queue.Attended (¬ Timestamp.valid ·) → after.Attended (¬ Timestamp.valid ·)

/-- An expired timer that repeats goes back under its next expiration, any other is gone. -/
theorem restartOrDelete_spec {now : Int} (positive : 0 < now) {entry : Entry}
    (sound : Sound queue.heap queue.created (queue.timers.elems ++ entry :: held)) :
    Ensures Halt.Benign (restartOrDelete now queue entry) fun after =>
      Settles queue after held (restarted now (timersOf queue.heap [entry])) := by
  have front := sound.perm List.perm_middle
  obtain ⟨timer, stored, key⟩ := front.keyed entry List.mem_cons_self
  obtain ⟨apart, _⟩ := List.nodup_cons.mp front.distinct
  have unique := front.unique
  rw [timersOf_cons stored] at unique
  obtain ⟨unique, _⟩ := List.nodup_cons.mp unique
  have others := front.sublist (List.sublist_cons_self _ _)
  have apartTimers : entry.second ∉ queue.timers.elems.map Entry.second :=
    fun found => apart (by simp only [List.map_append, List.mem_append, found, true_or])
  have kept : ∀ (stored : Option Timer), ∀ other ∈ held,
      (queue.store entry.second stored).heap other.second = queue.heap other.second := by
    intro stored other found
    apply Function.update_of_ne
    intro same
    apply apart
    rw [← same, List.map_append, List.mem_append]
    exact .inr (List.mem_map_of_mem found)
  have single : timersOf queue.heap [entry] = [timer] := timersOf_cons stored []
  simp only [restartOrDelete, deref, stored, pure_eq_ok, ok_bind]
  cases repeats : timer.repeats with
  | false =>
      have none : restarted now (timersOf queue.heap [entry]) = [] := by
        rw [single]
        simp [restarted, repeats]
      rw [none]
      refine ⟨others.update apart _, ?_, kept _, rfl, rfl, fun attended => attended⟩
      exact .of_eq (timersOf_update apartTimers _)
  | true =>
      have again : restarted now (timersOf queue.heap [entry]) = [timer.restart now] := by
        rw [single]
        simp [restarted, repeats, Timer.restart, addTime]
      have key' : (timer.restart now).expiration = now + timer.interval := by
        simp only [Timer.restart, repeats, if_true, addTime]
      have callback : (timer.restart now).callback = timer.callback := by
        simp only [Timer.restart, repeats, if_true]
      have numbered : (timer.restart now).callback < queue.created := by
        rw [callback]
        exact front.numbered timer (by rw [timersOf_cons stored]; exact List.mem_cons_self)
      have fresh : (timer.restart now).callback ∉
          (timersOf (queue.store entry.second (some (timer.restart now))).heap
            (queue.timers.elems ++ held)).map Timer.callback := by
        change _ ∉ (timersOf (Function.update queue.heap _ _) _).map Timer.callback
        rw [timersOf_update apart, callback]
        exact unique
      obtain ⟨inserted, missing, grown, joined⟩ :=
        withEntry_sound (queue.store entry.second (some (timer.restart now)))
          (toLex (now + timer.interval, entry.second)) (others.update apart _)
          (Function.update_self _ _ _) key' apart (front.real entry List.mem_cons_self) numbered fresh
      have inserted : (queue.store entry.second (some (timer.restart now))).insert entry.second =
        .ok ((queue.store entry.second (some (timer.restart now))).withEntry
          (toLex (now + timer.interval, entry.second)), _) := inserted
      have pending : (queue.store entry.second (some (timer.restart now))).pending = queue.pending :=
        timersOf_update apartTimers _
      rw [pending] at joined
      rw [again]
      simp only [if_true, inserted, ok_bind]
      refine ⟨grown, joined, kept _, rfl, rfl, fun attended => ?_⟩
      have former : (queue.store entry.second (some (timer.restart now))).Attended
        (¬ Timestamp.valid ·) := attended
      refine former.withEntry missing fun invalid => absurd ?_ invalid
      have longer : 0 < timer.interval := of_decide_eq_true repeats
      change 0 < now + timer.interval
      omega

theorem restartAll_spec {now : Int} (positive : 0 < now) {expired : List Entry}
    (sound : Sound queue.heap queue.created (queue.timers.elems ++ expired)) :
    Ensures Halt.Benign (expired.foldlM (restartOrDelete now) queue) fun after =>
      Settles queue after [] (restarted now (timersOf queue.heap expired)) := by
  induction expired generalizing queue with
  | nil => exact ⟨sound, .rfl, by simp, rfl, rfl, fun attended => attended⟩
  | cons entry expired ih =>
      rw [List.foldlM_cons]
      refine (restartOrDelete_spec positive sound).bind fun middle settles => ?_
      refine (ih settles.sound).mono fun after settles' => ?_
      have same := timersOf_congr settles.held
      have split : restarted now (timersOf queue.heap (entry :: expired)) =
          restarted now (timersOf queue.heap [entry]) ++ restarted now (timersOf queue.heap expired) := by
        rw [← List.singleton_append, timersOf_append]
        simp only [restarted, List.filter_append, List.map_append]
      rw [same] at settles'
      refine ⟨settles'.sound, ?_, by simp, settles'.created.trans settles.created,
        settles'.ran.trans settles.ran, fun attended => settles'.attended (settles.attended attended)⟩
      rw [split, List.append_assoc]
      exact settles'.pending.trans
        ((settles.pending.append_left _).trans (List.perm_append_comm_assoc _ _ _))

theorem nextExpire_spec (sound : Sound queue.heap queue.created queue.timers.elems) :
    (queue.timers.elems = [] ∧ queue.nextExpire = .ok Timestamp.invalid) ∨
      ∃ first, queue.timers.elems.head? = some first ∧ queue.nextExpire = .ok first.first := by
  unfold nextExpire
  cases elems : queue.timers.elems with
  | nil => exact .inl ⟨rfl, rfl⟩
  | cons first others =>
      rw [elems] at sound
      obtain ⟨timer, stored, key⟩ := sound.keyed first List.mem_cons_self
      refine .inr ⟨first, rfl, ?_⟩
      simp only [List.head?_cons, deref, stored, pure_eq_ok, ok_bind, key]

/-- After `reset` the timerfd awaits the earliest timer, provided that an earliest timer which
is too early to be armed for is awaited already. -/
theorem reset_spec {now : Int} (positive : 0 < now) {expired : List Entry} (clock : Int)
    (sound : Sound queue.heap queue.created (queue.timers.elems ++ expired))
    (attended : queue.Attended (¬ Timestamp.valid ·)) :
    Ensures Halt.Benign (queue.reset expired now clock) fun after =>
      Settles queue after [] (restarted now (timersOf queue.heap expired)) ∧
        after.Attended fun _ => True := by
  refine (restartAll_spec positive sound).bind fun middle settles => ?_
  have kept := settles.attended attended
  have sound' : Sound middle.heap middle.created middle.timers.elems := by
    simpa using settles.sound
  rcases nextExpire_spec sound' with ⟨empty, next⟩ | ⟨first, front, next⟩
  · rw [next, ok_bind, if_neg (show ¬ Timestamp.valid Timestamp.invalid from lt_irrefl 0)]
    refine ⟨settles, fun first front => ?_⟩
    rw [empty] at front
    cases front
  · rw [next, ok_bind]
    by_cases valid : Timestamp.valid first.first
    · rw [if_pos valid]
      refine ⟨⟨settles.sound, settles.pending, settles.held, settles.created, settles.ran, ?_⟩, ?_⟩
      · intro _ other front' invalid
        have same : first = other := Option.some.inj (front.symm.trans front')
        exact absurd (same ▸ valid) invalid
      · intro other front' _
        have same : first = other := Option.some.inj (front.symm.trans front')
        rw [← same]
        exact resetTimerfd_awaits _ _ _
    · rw [if_neg valid]
      refine ⟨settles, fun other front' _ => ?_⟩
      have same : first = other := Option.some.inj (front.symm.trans front')
      exact kept other front' (same ▸ valid)

/-- The pending timers that a call of `handleRead` at `now` has to run, and the others. -/
def due (queue : TimerQueue) (now : Int) : List Timer :=
  queue.pending.filter fun timer => timer.expiration ≤ now

def waiting (queue : TimerQueue) (now : Int) : List Timer :=
  queue.pending.filter fun timer => now < timer.expiration

theorem expiration_of_mem_timersOf {entries : List Entry}
    (sound : Sound queue.heap queue.created entries) (property : Int → Prop)
    (holds : ∀ entry ∈ entries, property entry.first) :
    ∀ timer ∈ timersOf queue.heap entries, property timer.expiration := by
  intro timer found
  obtain ⟨entry, member, stored⟩ := List.mem_filterMap.mp found
  obtain ⟨keyed, stored', key⟩ := sound.keyed entry member
  rw [stored] at stored'
  cases stored'
  rw [key]
  exact holds entry member

theorem length_timersOf {heap : TimerPtr → Option Timer} {created : Nat} {entries : List Entry}
    (sound : Sound heap created entries) : (timersOf heap entries).length = entries.length := by
  induction entries with
  | nil => rfl
  | cons entry entries ih =>
      obtain ⟨timer, stored, _⟩ := sound.keyed entry List.mem_cons_self
      rw [timersOf_cons stored, List.length_cons, List.length_cons,
        ih (sound.sublist (List.sublist_cons_self entry entries))]

/-- The sentry lies behind all entries up to `now`, as no timer has the largest address. -/
theorem getExpired_spec (sound : Sound queue.heap queue.created queue.timers.elems) (now : Int) :
    ∃ expired timers, queue.getExpired now = .ok (expired, { queue with timers }) ∧
      expired ++ timers.elems = queue.timers.elems ∧
      timersOf queue.heap expired = queue.due now ∧
      timersOf queue.heap timers.elems = queue.waiting now ∧
      ∀ entry ∈ timers.elems, now < entry.first := by
  have whole := queue.timers.below_append_rest (toLex (now, UINTPTR_MAX))
  have early : ∀ entry ∈ queue.timers.below (toLex (now, UINTPTR_MAX)), entry.first ≤ now := by
    intro entry found
    rcases Prod.Lex.lt_iff.mp (OrderedSet.lt_of_mem_below found) with before | ⟨same, _⟩
    · exact le_of_lt before
    · exact le_of_eq same
  have late : ∀ entry ∈ (queue.timers.rest (toLex (now, UINTPTR_MAX))).elems, now < entry.first := by
    intro entry found
    have behind := OrderedSet.not_lt_of_mem_rest found
    rcases Prod.Lex.le_iff.mp (le_of_not_gt behind) with after | ⟨_, top⟩
    · exact after
    · have real := sound.real entry (whole ▸ List.mem_append_right _ found)
      exact absurd (le_antisymm (Fin.le_last _) top) real
  have asserted : ∀ first ∈ (queue.timers.rest (toLex (now, UINTPTR_MAX))).elems.head?,
      now < first.first := fun first front => late first (List.mem_of_mem_head? front)
  have soundBelow := sound.sublist (whole ▸ List.sublist_append_left _ _)
  have soundRest := sound.sublist (whole ▸ List.sublist_append_right _ _)
  have dueTimers := expiration_of_mem_timersOf soundBelow (· ≤ now) early
  have waitingTimers := expiration_of_mem_timersOf soundRest (now < ·) late
  have split : queue.pending = timersOf queue.heap (queue.timers.below (toLex (now, UINTPTR_MAX))) ++
      timersOf queue.heap (queue.timers.rest (toLex (now, UINTPTR_MAX))).elems := by
    rw [← timersOf_append, whole]
    rfl
  refine ⟨_, _, ?_, whole, ?_, ?_, late⟩
  · simp only [getExpired, assert_of asserted, ok_bind, pure_eq_ok]
  · rw [due, split, List.filter_append, List.filter_eq_self.mpr, List.filter_eq_nil_iff.mpr,
      List.append_nil]
    · intro timer found
      simpa using waitingTimers timer found
    · intro timer found
      simpa using dueTimers timer found
  · rw [waiting, split, List.filter_append, List.filter_eq_nil_iff.mpr, List.filter_eq_self.mpr,
      List.nil_append]
    · intro timer found
      simpa using waitingTimers timer found
    · intro timer found
      simpa using dueTimers timer found

/-- A call of `handleRead` runs the due timers in order, starts the repeating ones again, and
leaves the others and the new ones waiting; then the timerfd awaits the earliest. -/
theorem handleRead_spec (sound : Sound queue.heap queue.created queue.timers.elems) {alarm : Alarm}
    (positive : 0 < alarm.now) :
    Ensures Halt.Benign (queue.handleRead alarm) fun after =>
      Sound after.heap after.created after.timers.elems ∧
      after.ran = queue.ran ++ queue.due alarm.now ∧
      after.pending.Perm (restarted alarm.now (queue.due alarm.now) ++
        (newTimers queue.created (requestsIn alarm (queue.due alarm.now).length) ++
          queue.waiting alarm.now)) ∧
      after.created = queue.created + (requestsIn alarm (queue.due alarm.now).length).length ∧
      after.Attended fun _ => True := by
  have start : Sound { queue with timerfd := readTimerfd queue.timerfd }.heap
      { queue with timerfd := readTimerfd queue.timerfd }.created
      { queue with timerfd := readTimerfd queue.timerfd }.timers.elems := sound
  obtain ⟨expired, timers, taken, whole, dueTimers, waitingTimers, late⟩ :=
    getExpired_spec start alarm.now
  have dueTimers : timersOf queue.heap expired = queue.due alarm.now := dueTimers
  have waitingTimers : timersOf queue.heap timers.elems = queue.waiting alarm.now := waitingTimers
  have count : expired.length = (queue.due alarm.now).length := by
    rw [← dueTimers, length_timersOf (sound.sublist (whole ▸ List.sublist_append_left _ _))]
  have apart : Sound queue.heap queue.created (timers.elems ++ expired) := by
    refine sound.perm ?_
    rw [← whole]
    exact List.perm_append_comm
  have unread : ({ queue with timerfd := readTimerfd queue.timerfd, timers } : TimerQueue).Attended
      (¬ Timestamp.valid ·) := by
    intro first front invalid
    have later := late first (List.mem_of_mem_head? front)
    exact absurd (positive.trans later) invalid
  simp only [handleRead, taken, ok_bind]
  refine (runAll_spec apart (fun _ out => out) alarm.callbacks).bind fun middle ⟨grows, ran⟩ => ?_
  refine (reset_spec positive alarm.clock grows.sound (grows.attended _ unread)).mono
    fun after ⟨settles, attended⟩ => ?_
  have same : timersOf middle.heap expired = queue.due alarm.now :=
    (timersOf_congr grows.held).trans dueTimers
  have pending := settles.pending
  rw [same] at pending
  have sound' : Sound after.heap after.created after.timers.elems := by
    simpa using settles.sound
  refine ⟨sound', ?_, ?_, ?_, attended⟩
  · rw [settles.ran, ran, dueTimers]
  · refine pending.trans (.append_left _ ?_)
    have grown := grows.pending
    rw [count] at grown
    exact waitingTimers ▸ grown
  · rw [settles.created, grows.created, count]
    rfl

/-- Clock readings are positive. -/
def Admits (_ : TimerQueue) : TimerAction → Prop
  | .handleRead alarm => 0 < alarm.now
  | _ => True

instance (queue : TimerQueue) (action : TimerAction) : Decidable (queue.Admits action) :=
  match action with
  | .addTimer _ => .isTrue trivial
  | .handleRead _ => inferInstanceAs (Decidable (0 < _))
  | .expire => .isTrue trivial

/-- The invariant between the steps of the loop. -/
structure Scheduled (queue : TimerQueue) : Prop where
  sound : Sound queue.heap queue.created queue.timers.elems
  attended : queue.Attended fun _ => True

theorem construct_scheduled : construct.Scheduled :=
  ⟨.nil _ _, fun _ front => nomatch front⟩

theorem addTimer_scheduled (scheduled : queue.Scheduled) (request : NewTimer) :
    Ensures Halt.Benign (queue.addTimer request) fun after =>
      after.Scheduled ∧ after.ran = queue.ran ∧ after.created = queue.created + 1 ∧
        after.pending.Perm (request.timer queue.created :: queue.pending) := by
  have sound : Sound queue.heap queue.created (queue.timers.elems ++ []) := by
    simpa using scheduled.sound
  refine (addTimer_spec sound request).mono fun after ⟨grows, ran⟩ => ?_
  exact ⟨⟨by simpa using grows.sound, grows.attended _ scheduled.attended⟩, ran, grows.created,
    grows.pending⟩

theorem step_scheduled (scheduled : queue.Scheduled) {action : TimerAction}
    (admitted : queue.Admits action) :
    Ensures Halt.Benign (queue.step action) Scheduled := by
  cases action with
  | addTimer request => exact (addTimer_scheduled scheduled request).mono fun _ kept => kept.1
  | handleRead alarm =>
      exact (handleRead_spec scheduled.sound admitted).mono
        fun after ⟨sound, _, _, _, attended⟩ => ⟨sound, attended⟩
  | expire =>
      exact ⟨scheduled.sound, fun first front _ => (scheduled.attended first front trivial).expire⟩

theorem run_scheduled {actions : List TimerAction}
    (run : Execution step Admits construct actions queue) : queue.Scheduled :=
  run.ensures Scheduled construct_scheduled fun _ _ scheduled admitted => step_scheduled scheduled admitted

/-- The timer with this number has been deleted, and of the timers that have run since `ran`
none had it. -/
structure Gone (number : Nat) (ran : List Timer) (queue : TimerQueue) : Prop where
  scheduled : queue.Scheduled
  used : number < queue.created
  absent : ∀ timer ∈ queue.pending, timer.callback ≠ number
  quiet : ∃ newer, queue.ran = ran ++ newer ∧ ∀ timer ∈ newer, timer.callback ≠ number

theorem callback_of_mem_restarted {now : Int} {timers : List Timer}
    (found : timer ∈ restarted now timers) :
    ∃ former ∈ timers, former.repeats = true ∧ timer.callback = former.callback := by
  obtain ⟨former, member, rfl⟩ := List.mem_map.mp found
  obtain ⟨member, repeats⟩ := List.mem_filter.mp member
  exact ⟨former, member, repeats, rfl⟩

theorem step_gone {number : Nat} {ran : List Timer} (gone : queue.Gone number ran)
    {action : TimerAction} (admitted : queue.Admits action) :
    Ensures Halt.Benign (queue.step action) (Gone number ran) := by
  obtain ⟨scheduled, used, absent, newer, quiet, silent⟩ := gone
  cases action with
  | addTimer request =>
      refine (addTimer_scheduled scheduled request).mono fun after ⟨kept, same, created, pending⟩ => ?_
      refine ⟨kept, by omega, fun timer found => ?_, newer, same.trans quiet, silent⟩
      rcases List.mem_cons.mp (pending.mem_iff.mp found) with rfl | former
      · exact ne_of_gt used
      · exact absent timer former
  | handleRead alarm =>
      refine (handleRead_spec scheduled.sound admitted).mono
        fun after ⟨sound, ran', pending, created, attended⟩ => ?_
      have silent' : ∀ timer ∈ queue.due alarm.now, timer.callback ≠ number :=
        fun timer found => absent timer (List.mem_of_mem_filter found)
      refine ⟨⟨sound, attended⟩, by omega, fun timer found => ?_, newer ++ queue.due alarm.now, ?_, ?_⟩
      · rcases List.mem_append.mp (pending.mem_iff.mp found) with again | others
        · obtain ⟨former, member, _, same⟩ := callback_of_mem_restarted again
          exact same ▸ silent' former member
        · rcases List.mem_append.mp others with fresh | left
          · have later := le_callback_of_mem_newTimers fresh
            omega
          · exact absent timer (List.mem_of_mem_filter left)
      · rw [ran', quiet, List.append_assoc]
      · intro timer found
        rcases List.mem_append.mp found with former | now
        · exact silent timer former
        · exact silent' timer now
  | expire =>
      have kept : Ensures Halt.Benign (queue.step .expire) Scheduled :=
        step_scheduled scheduled trivial
      exact ⟨kept, used, absent, newer, quiet, silent⟩

theorem handleRead_gone (scheduled : queue.Scheduled) {alarm : Alarm} (positive : 0 < alarm.now)
    (handled : queue.handleRead alarm = .ok after) (found : timer ∈ queue.due alarm.now)
    (once : timer.repeats = false) : after.Gone timer.callback after.ran := by
  obtain ⟨sound, ran, pending, created, attended⟩ :=
    (handleRead_spec scheduled.sound positive).of_ok handled
  obtain ⟨member, early⟩ := List.mem_filter.mp found
  have used := scheduled.sound.numbered timer member
  have only : ∀ other ∈ queue.pending, other.callback = timer.callback → other = timer :=
    fun other there same => List.inj_on_of_nodup_map scheduled.sound.unique there member same
  refine ⟨⟨sound, attended⟩, by omega, fun other there same => ?_, [], (List.append_nil _).symm, by simp⟩
  rcases List.mem_append.mp (pending.mem_iff.mp there) with again | others
  · obtain ⟨former, formerDue, repeats, same'⟩ := callback_of_mem_restarted again
    rw [only former (List.mem_of_mem_filter formerDue) (same'.symm.trans same), once] at repeats
    cases repeats
  · rcases List.mem_append.mp others with fresh | left
    · have later := le_callback_of_mem_newTimers fresh
      omega
    · obtain ⟨kept, late⟩ := List.mem_filter.mp left
      rw [only other kept same] at late
      have early := of_decide_eq_true early
      have late := of_decide_eq_true late
      omega

theorem due_ascending (sound : Sound queue.heap queue.created queue.timers.elems) (now : Int) :
    (queue.due now).Pairwise fun one other => one.expiration ≤ other.expiration := by
  apply List.Pairwise.filter
  apply List.pairwise_filterMap.mpr
  refine queue.timers.ascending.imp_of_mem fun first second before timer stored other stored' => ?_
  obtain ⟨_, keyed, key⟩ := sound.keyed _ first
  obtain ⟨_, keyed', key'⟩ := sound.keyed _ second
  rw [stored] at keyed
  rw [stored'] at keyed'
  cases keyed
  cases keyed'
  rw [key, key']
  rcases Prod.Lex.lt_iff.mp before with strictly | ⟨same, _⟩
  · exact le_of_lt strictly
  · exact le_of_eq same

/-- Timers fire exactly as scheduled. In every run each entry is keyed by its timer's
expiration, nothing fails, and a call of `handleRead` runs the due timers in order; of these
the repeating ones wait again, the others never come back, and all other timers stay. -/
theorem timers_fire {actions : List TimerAction}
    (run : Execution step Admits construct actions queue) :
    (∀ entry ∈ queue.timers.elems, ∃ timer,
        queue.heap entry.second = some timer ∧ entry.first = timer.expiration) ∧
      (queue.pending.map Timer.callback).Nodup ∧
      (∀ action, queue.Admits action → ∀ halt, queue.step action = .error halt →
        halt = .impossible) ∧
      ∀ alarm after, 0 < alarm.now → queue.handleRead alarm = .ok after →
        (queue.due alarm.now).Pairwise (fun one other => one.expiration ≤ other.expiration) ∧
        after.ran = queue.ran ++ queue.due alarm.now ∧
        after.pending.Perm (restarted alarm.now (queue.due alarm.now) ++
          (newTimers queue.created (requestsIn alarm (queue.due alarm.now).length) ++
            queue.waiting alarm.now)) ∧
        ∀ timer ∈ queue.due alarm.now, timer.repeats = false →
          ∀ later final, Execution step Admits after later final →
            (∀ other ∈ final.pending, other.callback ≠ timer.callback) ∧
            ∃ newer, final.ran = after.ran ++ newer ∧
              ∀ other ∈ newer, other.callback ≠ timer.callback := by
  have scheduled := run_scheduled run
  refine ⟨fun entry found => ?_, scheduled.sound.unique, fun action admitted halt stopped => ?_, ?_⟩
  · obtain ⟨timer, stored, key⟩ := scheduled.sound.keyed entry found
    exact ⟨timer, stored, key.symm⟩
  · exact (step_scheduled scheduled admitted).of_error stopped
  · intro alarm after positive handled
    obtain ⟨_, ran, pending, _, _⟩ := (handleRead_spec scheduled.sound positive).of_ok handled
    refine ⟨due_ascending scheduled.sound _, ran, pending, ?_⟩
    intro timer found once later final rest
    have gone : final.Gone timer.callback after.ran :=
      rest.ensures (Gone timer.callback after.ran) (handleRead_gone scheduled positive handled found once)
        fun _ _ gone admitted => step_gone gone admitted
    exact ⟨gone.absent, gone.quiet⟩

/-- The theorem at a run with a tie, a repeating timer and callbacks that add timers. -/
theorem timers_fire_tie :
    ∃ (alarm : Alarm) (queue after : TimerQueue), queue.handleRead alarm = .ok after ∧
      queue.due alarm.now = [⟨0, 50, 0⟩, ⟨2, 50, 30⟩] ∧
      after.ran = queue.ran ++ queue.due alarm.now ∧
      ∀ other ∈ after.pending, other.callback ≠ 0 := by
  let alarm : Alarm :=
    ⟨50, [[.addTimer ⟨13, 50, 0, 60⟩], [.addTimer ⟨14, -5, 0, 60⟩, .expire]], 61⟩
  let actions : List TimerAction :=
    [.addTimer ⟨10, 50, 0, 1⟩, .addTimer ⟨12, 90, 0, 1⟩, .addTimer ⟨11, 50, 30, 1⟩, .expire]
  have replayed : (replay step Admits .impossible construct actions).toOption.any
      (fun queue => (queue.handleRead alarm).toOption.isSome &&
        decide (queue.due alarm.now = [⟨0, 50, 0⟩, ⟨2, 50, 30⟩])) = true := by decide +kernel
  obtain ⟨queue, run, tested⟩ := Execution.exists_of_replay replayed
  obtain ⟨returns, due⟩ := Bool.and_eq_true_iff.mp tested
  obtain ⟨after, returned⟩ := Option.isSome_iff_exists.mp returns
  have due := of_decide_eq_true due
  have handled : queue.handleRead alarm = .ok after := by
    cases outcome : queue.handleRead alarm with
    | ok value => rw [outcome] at returned; cases returned; rfl
    | error halt => rw [outcome] at returned; cases returned
  obtain ⟨_, ran, _, gone⟩ := (timers_fire run).2.2.2 alarm after (by decide) handled
  have first : (⟨0, 50, 0⟩ : Timer) ∈ queue.due alarm.now := by simp [due]
  exact ⟨alarm, queue, after, handled, due, ran, (gone _ first rfl [] after .nil).1⟩

/-- A pending timer has the timerfd armed for it, or due to be read. -/
theorem timerfd_awaits_earliest {actions : List TimerAction} {first : Entry}
    (run : Execution step Admits construct actions queue)
    (front : queue.timers.elems.head? = some first) :
    (∀ entry ∈ queue.timers.elems, first.first ≤ entry.first) ∧
      queue.timerfd.Awaits first.first := by
  refine ⟨fun entry found => ?_, (run_scheduled run).attended first front trivial⟩
  have ascending := queue.timers.ascending
  obtain ⟨others, elems⟩ := List.head?_eq_some_iff.mp front
  rw [elems] at found ascending
  rcases List.mem_cons.mp found with rfl | later
  · exact le_refl _
  · rcases Prod.Lex.lt_iff.mp (List.rel_of_pairwise_cons ascending later) with strictly | ⟨same, _⟩
    · exact le_of_lt strictly
    · exact le_of_eq same

/-- The theorem at a run whose callback adds a timer with an invalid expiration. -/
theorem timerfd_awaits_earliest_invalid :
    ∃ (queue : TimerQueue) (first : Entry), queue.timers.elems.head? = some first ∧
      first.first = -5 ∧ queue.timerfd.Awaits first.first := by
  let actions : List TimerAction :=
    [.addTimer ⟨10, 50, 0, 1⟩, .expire, .handleRead ⟨50, [[.addTimer ⟨14, -5, 0, 60⟩]], 61⟩]
  have replayed : (replay step Admits .impossible construct actions).toOption.any
      (fun queue => decide (queue.timers.elems.head? = some (toLex (-5, 14)))) = true := by
    decide +kernel
  obtain ⟨queue, run, front⟩ := Execution.exists_of_replay replayed
  have front := of_decide_eq_true front
  exact ⟨queue, _, front, rfl, (timerfd_awaits_earliest run front).2⟩

end TimerQueue

end TransferServer.Net
