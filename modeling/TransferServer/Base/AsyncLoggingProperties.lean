import TransferServer.Lib.Execution
import TransferServer.Base.AsyncLogging

/-! What the logger keeps of the lines it is given. The buffers in use are pairwise distinct as
long as the spare `nextBuffer_` is put to use at most once: it is copied, not moved, into
`currentBuffer_`, so a second use puts one buffer in two places. -/

set_option autoImplicit false

namespace TransferServer.Base.AsyncLogging

open Lib

variable {log after : AsyncLogging} {logline : Bytes}

/-- The buffers of `buffersToWrite` that are still to be written. -/
def unwritten (log : AsyncLogging) : List BufferPtr :=
  match log.backend with
  | .writing index => log.buffersToWrite.drop index
  | _ => []

def contentsOf (heap : BufferPtr → FixedBuffer kLargeBuffer) (buffers : List BufferPtr) : Bytes :=
  buffers.flatMap fun buffer => (heap buffer).contents

/-- All bytes that the logger has passed on or still holds, in the order of the log file. -/
def bytes (log : AsyncLogging) : Bytes :=
  log.output ++ contentsOf log.heap (log.unwritten ++ log.buffers ++ log.currentBuffer.toList)

/-- The buffers at hand, other than the spare `nextBuffer_`. -/
def inUse (log : AsyncLogging) : List BufferPtr :=
  log.currentBuffer.toList ++ log.buffers ++ log.buffersToWrite ++ log.newBuffer1.toList ++
    log.newBuffer2.toList

/-- `append` finds `currentBuffer_` full: `avail() <= len`. -/
def FindsFull (log : AsyncLogging) (logline : Bytes) : Prop :=
  ∃ current ∈ log.currentBuffer, (log.heap current).avail ≤ logline.length

/-- `nextBuffer_` is not at the same time one of the other buffers. -/
def SpareUnused (log : AsyncLogging) : Prop := ∀ next ∈ log.nextBuffer, next ∉ log.inUse

theorem contentsOf_append (heap : BufferPtr → FixedBuffer kLargeBuffer) (buffers others : List BufferPtr) :
    contentsOf heap (buffers ++ others) = contentsOf heap buffers ++ contentsOf heap others :=
  List.flatMap_append

theorem contentsOf_update {heap : BufferPtr → FixedBuffer kLargeBuffer} {buffers : List BufferPtr}
    {buffer : BufferPtr} (apart : buffer ∉ buffers) (content : FixedBuffer kLargeBuffer) :
    contentsOf (Function.update heap buffer content) buffers = contentsOf heap buffers := by
  induction buffers with
  | nil => rfl
  | cons first others ih =>
      rw [List.mem_cons, not_or] at apart
      obtain ⟨different, apart⟩ := apart
      simp only [contentsOf, List.flatMap_cons, Function.update_of_ne (Ne.symm different)]
      exact congrArg _ (ih apart)

/-- A spare buffer, ready for use. -/
def Empty (log : AsyncLogging) (pointer : Option BufferPtr) : Prop :=
  ∃ buffer, pointer = some buffer ∧ (log.heap buffer).contents = []

/-- What the backend's own pointers hold, by where it stands. While it has buffers to write
these are one, or two of which the spare is the last. -/
def Stocked (log : AsyncLogging) (next : BufferPtr) : Prop :=
  match log.backend with
  | .starting => log.running = true ∧ log.newBuffer1 = none ∧ log.newBuffer2 = none ∧
      log.buffersToWrite = []
  | .writing _ | .recycling => log.newBuffer1 = none ∧ log.Empty log.newBuffer2 ∧
      ((∃ last, log.buffersToWrite = [last]) ∨ ∃ first, log.buffersToWrite = [first, next])
  | _ => log.Empty log.newBuffer1 ∧ log.Empty log.newBuffer2 ∧ log.buffersToWrite = []

structure Owned (log : AsyncLogging) (current next : BufferPtr) : Prop where
  currentIs : log.currentBuffer = some current
  nextIs : log.nextBuffer = some next
  distinct : log.inUse.Nodup
  allocated : next < log.allocated ∧ ∀ buffer ∈ log.inUse, buffer < log.allocated
  spare : next ∉ log.inUse → (log.heap next).contents = []
  buffers : log.buffers = [] ∨ ∃ full, log.buffers = [full] ∧ current = next
  stocked : log.Stocked next
  conserved : log.bytes = log.appended.flatten

theorem start_owned : start.Owned 0 1 where
  currentIs := rfl
  nextIs := rfl
  distinct := by simp [start, inUse]
  allocated := by simp [start, inUse]
  spare := fun _ => rfl
  buffers := .inl rfl
  stocked := ⟨rfl, rfl, rfl, rfl⟩
  conserved := rfl

variable {current next : BufferPtr}

theorem store_stocked {buffer : BufferPtr} (stocked : log.Stocked next)
    (apart : buffer ∉ log.newBuffer1.toList ++ log.newBuffer2.toList)
    (content : FixedBuffer kLargeBuffer) : (log.store buffer content).Stocked next := by
  have kept : ∀ pointer, buffer ∉ pointer.toList → log.Empty pointer →
      (log.store buffer content).Empty pointer := by
    rintro pointer apart ⟨spare, rfl, empty⟩
    refine ⟨spare, rfl, ?_⟩
    have different : spare ≠ buffer := by
      intro same
      exact apart (by simp [same])
    simpa only [store, Function.update_of_ne different] using empty
  rw [List.mem_append, not_or] at apart
  obtain ⟨apart1, apart2⟩ := apart
  unfold Stocked at *
  have backend : (log.store buffer content).backend = log.backend := rfl
  rw [backend]
  cases standing : log.backend with
  | starting => rw [standing] at stocked; exact stocked
  | writing index =>
      rw [standing] at stocked
      exact ⟨stocked.1, kept _ apart2 stocked.2.1, stocked.2.2⟩
  | recycling =>
      rw [standing] at stocked
      exact ⟨stocked.1, kept _ apart2 stocked.2.1, stocked.2.2⟩
  | _ =>
      rw [standing] at stocked
      exact ⟨kept _ apart1 stocked.1, kept _ apart2 stocked.2.1, stocked.2.2⟩

theorem contentsOf_congr {heap heap' : BufferPtr → FixedBuffer kLargeBuffer}
    {buffers : List BufferPtr} (same : ∀ buffer ∈ buffers, heap' buffer = heap buffer) :
    contentsOf heap' buffers = contentsOf heap buffers := by
  have contents : ∀ buffer ∈ buffers, (heap' buffer).contents = (heap buffer).contents := by
    intro buffer found
    rw [same buffer found]
  rw [contentsOf, contentsOf, List.flatMap_def, List.flatMap_def, List.map_congr_left contents]

theorem Owned.apart (owned : log.Owned current next) :
    current ∉ log.unwritten ++ log.buffers ∧
      current ∉ log.newBuffer1.toList ++ log.newBuffer2.toList := by
  have distinct := owned.distinct
  rw [inUse, owned.currentIs] at distinct
  simp only [Option.toList_some, List.cons_append, List.nil_append, List.append_assoc,
    List.nodup_cons, List.mem_append, not_or] at distinct
  obtain ⟨⟨buffers, toWrite, new1, new2⟩, _⟩ := distinct
  have unwritten : current ∉ log.unwritten := by
    unfold AsyncLogging.unwritten
    split
    · exact fun found => toWrite (List.mem_of_mem_drop found)
    · exact List.not_mem_nil
  simp only [List.mem_append, not_or]
  exact ⟨⟨unwritten, buffers⟩, new1, new2⟩

theorem appendCurrent_eq_ok (currentIs : log.currentBuffer = some current) :
    log.appendCurrent logline = .ok (log.store current ((log.heap current).append logline)) := by
  simp only [appendCurrent, deref, currentIs, pure_eq_ok, ok_bind]

theorem store_owned (owned : log.Owned current next)
    (room : (logline.length : Int) < (log.heap current).avail) :
    (({ log with appended := log.appended ++ [logline] } : AsyncLogging).store current
      ((log.heap current).append logline)).Owned current next := by
  obtain ⟨apart, apartSpares⟩ := owned.apart
  have added : (log.heap current).append logline = ⟨(log.heap current).contents ++ logline⟩ :=
    FixedBuffer.append_of_avail (by decide) room
  have inUse : current ∈ log.inUse := by simp [AsyncLogging.inUse, owned.currentIs]
  refine ⟨owned.currentIs, owned.nextIs, owned.distinct, owned.allocated, fun unused => ?_,
    owned.buffers, store_stocked owned.stocked apartSpares _, ?_⟩
  · have different : next ≠ current := by
      intro same
      rw [same] at unused
      exact unused inUse
    simpa only [store, Function.update_of_ne different] using owned.spare unused
  · have conserved := owned.conserved
    unfold bytes at conserved ⊢
    rw [owned.currentIs, contentsOf_append] at conserved
    have kept : contentsOf (Function.update log.heap current _) (log.unwritten ++ log.buffers) = _ :=
      contentsOf_update apart ((log.heap current).append logline)
    change log.output ++ contentsOf (Function.update log.heap current _)
      (log.unwritten ++ log.buffers ++ log.currentBuffer.toList) = (log.appended ++ [logline]).flatten
    rw [owned.currentIs, contentsOf_append, kept, List.flatten_append, ← conserved, added]
    simp [contentsOf]

theorem adopt_owned (owned : log.Owned current next) (unused : next ∉ log.inUse) :
    ({ log with
      buffers := log.buffers ++ [current]
      currentBuffer := some next } : AsyncLogging).Owned next next := by
  have none : log.buffers = [] := by
    rcases owned.buffers with none | ⟨_, _, same⟩
    · exact none
    · exact absurd (by simp [inUse, owned.currentIs, same]) unused
  have moved : ({ log with
      buffers := log.buffers ++ [current]
      currentBuffer := some next } : AsyncLogging).inUse = next :: log.inUse := by
    simp [inUse, none, owned.currentIs]
  refine ⟨rfl, owned.nextIs, ?_, ⟨owned.allocated.1, ?_⟩, ?_, .inr ⟨current, ?_, rfl⟩, owned.stocked, ?_⟩
  · rw [moved]
    exact List.nodup_cons.mpr ⟨unused, owned.distinct⟩
  · rw [moved]
    intro buffer found
    rcases List.mem_cons.mp found with rfl | former
    · exact owned.allocated.1
    · exact owned.allocated.2 buffer former
  · rw [moved]
    exact fun unused => absurd List.mem_cons_self unused
  · rw [none, List.nil_append]
  · have conserved := owned.conserved
    have empty := owned.spare unused
    unfold bytes at conserved ⊢
    change log.output ++ contentsOf log.heap (log.unwritten ++ (log.buffers ++ [current]) ++ [next]) =
      log.appended.flatten
    rw [← conserved, owned.currentIs]
    simp [contentsOf, empty]

/-- What the surroundings of the logger grant it. -/
def Admits (log : AsyncLogging) : LogAction → Prop
  | .append logline => logline.length < kLargeBuffer ∧ (log.FindsFull logline → log.SpareUnused)
  | _ => True

instance (log : AsyncLogging) (action : LogAction) : Decidable (log.Admits action) :=
  match action with
  | .append logline =>
      have : Decidable (log.FindsFull logline) := inferInstanceAs (Decidable (∃ _ ∈ _, _))
      have : Decidable log.SpareUnused := inferInstanceAs (Decidable (∀ _ ∈ _, _))
      inferInstanceAs (Decidable (_ ∧ (_ → _)))
  | .backend => .isTrue trivial
  | .stop => .isTrue trivial

theorem append_of_room (currentIs : log.currentBuffer = some current)
    (room : (logline.length : Int) < (log.heap current).avail) :
    log.append logline =
      .ok (({ log with appended := log.appended ++ [logline] } : AsyncLogging).store current
        ((log.heap current).append logline)) := by
  have found : deref log.currentBuffer = .ok current := by
    rw [currentIs]
    rfl
  unfold append
  dsimp only
  rw [found, ok_bind, if_pos room]
  exact appendCurrent_eq_ok currentIs

theorem append_of_full (currentIs : log.currentBuffer = some current)
    (nextIs : log.nextBuffer = some next) (full : (log.heap current).avail ≤ logline.length) :
    log.append logline =
      .ok (({ log with
        appended := log.appended ++ [logline]
        buffers := log.buffers ++ [current]
        currentBuffer := some next } : AsyncLogging).store next
          ((log.heap next).append logline)) := by
  have found : deref log.currentBuffer = .ok current := by
    rw [currentIs]
    rfl
  unfold append
  dsimp only
  rw [found, ok_bind, if_neg (Int.not_lt.mpr full)]
  split
  · next spare spareIs =>
      rw [nextIs] at spareIs
      cases spareIs
      exact appendCurrent_eq_ok rfl
  · next missing =>
      rw [nextIs] at missing
      cases missing

theorem append_owned (owned : log.Owned current next)
    (admitted : log.Admits (.append logline)) :
    ∃ after current', log.append logline = .ok after ∧ after.Owned current' next := by
  obtain ⟨short, spare⟩ := admitted
  by_cases room : (logline.length : Int) < (log.heap current).avail
  · exact ⟨_, current, append_of_room owned.currentIs room, store_owned owned room⟩
  · have full := Int.not_lt.mp room
    have unused : next ∉ log.inUse := spare ⟨current, owned.currentIs, full⟩ next owned.nextIs
    have empty : (log.heap next).avail = kLargeBuffer := by
      simp [FixedBuffer.avail, owned.spare unused]
    have room' : (logline.length : Int) < (log.heap next).avail := by
      rw [empty]
      exact Int.ofNat_lt.mpr short
    exact ⟨_, next, append_of_full owned.currentIs owned.nextIs full,
      store_owned (adopt_owned owned unused) room'⟩

theorem Owned.proceed (owned : log.Owned current next) {running : Bool} {backend : Backend}
    {output flushed : Bytes}
    (stocked : ({ log with running, backend, output, flushed } : AsyncLogging).Stocked next)
    (conserved : ({ log with running, backend, output, flushed } : AsyncLogging).bytes =
      log.appended.flatten) :
    ({ log with running, backend, output, flushed } : AsyncLogging).Owned current next :=
  ⟨owned.currentIs, owned.nextIs, owned.distinct, owned.allocated, owned.spare, owned.buffers,
    stocked, conserved⟩

theorem beginThread_owned (owned : log.Owned current next) (standing : log.backend = .starting) :
    ∃ after, log.beginThread = .ok after ∧ after.Owned current next := by
  have stocked := owned.stocked
  have conserved := owned.conserved
  unfold Stocked at stocked
  unfold bytes unwritten at conserved
  rw [standing] at stocked conserved
  obtain ⟨running, none1, none2, empty⟩ := stocked
  have started : ∃ heap, log.beginThread = .ok { log with
      newBuffer1 := some log.allocated
      newBuffer2 := some (log.allocated + 1)
      buffersToWrite := []
      backend := .testing
      allocated := log.allocated + 2
      heap } ∧ (heap log.allocated).contents = [] ∧ (heap (log.allocated + 1)).contents = [] ∧
      ∀ buffer < log.allocated, heap buffer = log.heap buffer := by
    let fresh := log.allocate.2.allocate.2
    let zeroed := fresh.store log.allocated (fresh.heap log.allocated).bzero
    let zeroed2 := zeroed.store (log.allocated + 1) (zeroed.heap (log.allocated + 1)).bzero
    refine ⟨zeroed2.heap, ?_, ?_, ?_, fun buffer older => ?_⟩
    · unfold beginThread
      rw [assert_of running, ok_bind]
      simp only [zeroed2, zeroed, fresh, allocate, store, pure_eq_ok]
    · simp [zeroed2, zeroed, fresh, allocate, store, FixedBuffer.bzero, FixedBuffer.fresh]
    · simp [zeroed2, zeroed, fresh, allocate, store, FixedBuffer.bzero, FixedBuffer.fresh]
    · have apart1 : buffer ≠ log.allocated := by omega
      have apart2 : buffer ≠ log.allocated + 1 := by omega
      simp only [zeroed2, zeroed, fresh, allocate, store, Function.update_of_ne apart1,
        Function.update_of_ne apart2]
  obtain ⟨heap, started, empty1, empty2, kept⟩ := started
  have grown : ({ log with
      newBuffer1 := some log.allocated
      newBuffer2 := some (log.allocated + 1)
      buffersToWrite := []
      backend := .testing
      allocated := log.allocated + 2
      heap } : AsyncLogging).inUse = log.inUse ++ [log.allocated, log.allocated + 1] := by
    simp [inUse, none1, none2, empty]
  have older := owned.allocated.2
  refine ⟨_, started, owned.currentIs, owned.nextIs, ?_, ?_, fun unused => ?_, owned.buffers,
    ⟨⟨_, rfl, empty1⟩, ⟨_, rfl, empty2⟩, rfl⟩, ?_⟩
  · rw [grown]
    refine List.nodup_append.mpr ⟨owned.distinct, by simp, fun buffer found other fresh => ?_⟩
    have bound := older buffer found
    simp only [List.mem_cons, List.not_mem_nil, or_false] at fresh
    rcases fresh with rfl | rfl
    · exact Nat.ne_of_lt bound
    · exact Nat.ne_of_lt (Nat.lt_succ_of_lt bound)
  · rw [grown]
    refine ⟨Nat.lt_of_lt_of_le owned.allocated.1 (Nat.le_add_right _ 2), fun buffer found => ?_⟩
    rcases List.mem_append.mp found with former | fresh
    · exact Nat.lt_of_lt_of_le (older buffer former) (Nat.le_add_right _ 2)
    · simp only [List.mem_cons, List.not_mem_nil, or_false] at fresh
      rcases fresh with rfl | rfl
      · exact Nat.lt_add_of_pos_right Nat.zero_lt_two
      · exact Nat.lt_succ_self _
  · rw [grown, List.mem_append, not_or] at unused
    dsimp only
    rw [kept next owned.allocated.1]
    exact owned.spare unused.1
  · rw [← conserved]
    refine congrArg (log.output ++ ·) (contentsOf_congr fun buffer found => kept buffer (older buffer ?_))
    simp only [inUse, List.mem_append]
    simp only [List.mem_append] at found
    tauto

theorem test_owned (owned : log.Owned current next) (standing : log.backend = .testing) :
    log.test.Owned current next := by
  have stocked := owned.stocked
  have conserved := owned.conserved
  unfold Stocked at stocked
  unfold bytes unwritten at conserved
  rw [standing] at stocked conserved
  unfold test
  cases log.running with
  | true => exact owned.proceed stocked conserved
  | false => exact owned.proceed stocked conserved

theorem Empty.spare {pointer : Option BufferPtr} (empty : log.Empty pointer) : log.Spare pointer := by
  obtain ⟨buffer, rfl, empty⟩ := empty
  exact ⟨buffer, rfl, by rw [FixedBuffer.length, empty]; rfl⟩

theorem check_owned (owned : log.Owned current next) (standing : log.backend = .checking) :
    ∃ after, log.check = .ok after ∧ after.Owned current next := by
  have stocked := owned.stocked
  have conserved := owned.conserved
  unfold Stocked at stocked
  unfold bytes unwritten at conserved
  rw [standing] at stocked conserved
  obtain ⟨empty1, empty2, written⟩ := stocked
  unfold check
  rw [assert_of empty1.spare, assert_of empty2.spare, assert_of written]
  exact ⟨_, rfl, owned.proceed ⟨empty1, empty2, written⟩ conserved⟩

theorem flush_owned {backend : Backend} (owned : log.Owned current next)
    (standing : log.backend = .flushing ∧ backend = .testing ∨
      log.backend = .finishing ∧ backend = .finished) :
    (log.flush backend).Owned current next := by
  have stocked := owned.stocked
  have conserved := owned.conserved
  unfold Stocked at stocked
  unfold bytes unwritten at conserved
  rcases standing with ⟨standing, rfl⟩ | ⟨standing, rfl⟩
  · rw [standing] at stocked conserved
    exact owned.proceed stocked conserved
  · rw [standing] at stocked conserved
    exact owned.proceed stocked conserved

theorem write_owned (owned : log.Owned current next) {index : Nat}
    (standing : log.backend = .writing index) : (log.write index).Owned current next := by
  have stocked := owned.stocked
  have conserved := owned.conserved
  unfold Stocked at stocked
  unfold bytes unwritten at conserved
  rw [standing] at stocked conserved
  unfold write
  cases found : log.buffersToWrite[index]? with
  | none =>
      have past : log.buffersToWrite.drop index = [] :=
        List.drop_eq_nil_of_le (List.getElem?_eq_none_iff.mp found)
      dsimp only at conserved
      rw [past] at conserved
      exact owned.proceed stocked conserved
  | some buffer =>
      obtain ⟨inside, here⟩ := List.getElem?_eq_some_iff.mp found
      dsimp only at conserved
      rw [List.drop_eq_getElem_cons inside, here] at conserved
      refine owned.proceed stocked ?_
      unfold bytes unwritten
      rw [← conserved]
      simp [contentsOf]

theorem swap_eq_ok (owned : log.Owned current next) :
    log.swap = .ok { log with
      buffers := log.buffersToWrite
      buffersToWrite := log.buffers ++ [current]
      currentBuffer := log.newBuffer1
      newBuffer1 := none
      backend := .writing 0 } := by
  have found : deref log.currentBuffer = .ok current := by
    rw [owned.currentIs]
    rfl
  have spare : ¬ log.nextBuffer = none := by
    rw [owned.nextIs]
    exact nofun
  have filled : log.buffers ++ [current] ≠ [] := by simp
  unfold swap
  rw [found, ok_bind]
  dsimp only
  rw [if_neg spare, assert_of filled]
  rfl

theorem swap_owned (owned : log.Owned current next) (standing : log.backend = .swapping) :
    ∃ after current', log.swap = .ok after ∧ after.Owned current' next := by
  have stocked := owned.stocked
  have conserved := owned.conserved
  unfold Stocked at stocked
  unfold bytes unwritten at conserved
  rw [standing] at stocked conserved
  obtain ⟨⟨spare, spareIs, empty⟩, empty2, written⟩ := stocked
  have moved : ({ log with
      buffers := log.buffersToWrite
      buffersToWrite := log.buffers ++ [current]
      currentBuffer := log.newBuffer1
      newBuffer1 := none
      backend := .writing 0 } : AsyncLogging).inUse.Perm log.inUse := by
    unfold inUse
    dsimp only
    rw [owned.currentIs, spareIs, written]
    apply List.perm_iff_count.mpr
    intro buffer
    simp only [List.count_append, Option.toList_some, Option.toList_none, List.count_nil]
    omega
  refine ⟨_, spare, swap_eq_ok owned, spareIs, owned.nextIs, moved.nodup_iff.mpr owned.distinct,
    ⟨owned.allocated.1, fun buffer found => owned.allocated.2 buffer (moved.mem_iff.mp found)⟩,
    fun unused => owned.spare fun found => unused (moved.mem_iff.mpr found), .inl written,
    ⟨rfl, empty2, ?_⟩, ?_⟩
  · rcases owned.buffers with none | ⟨full, buffers, same⟩
    · exact .inl ⟨current, by rw [none, List.nil_append]⟩
    · exact .inr ⟨full, by rw [buffers, same]; rfl⟩
  · rw [← conserved, owned.currentIs]
    unfold bytes unwritten
    dsimp only
    rw [spareIs, written]
    simp [contentsOf, empty]

theorem popBack_eq_ok {earlier : List BufferPtr} {last : BufferPtr}
    (buffersToWrite : log.buffersToWrite = earlier ++ [last]) :
    log.popBack = .ok (last, { log.store last (log.heap last).reset with
      buffersToWrite := earlier }) := by
  unfold popBack
  rw [buffersToWrite, List.getLast?_concat]
  simp only [List.dropLast_concat, pure_eq_ok]

theorem recycle_eq_ok {earlier : List BufferPtr} {last : BufferPtr}
    (buffersToWrite : log.buffersToWrite = earlier ++ [last]) (short : earlier.length ≤ 1)
    (none1 : log.newBuffer1 = none) (some2 : log.newBuffer2 ≠ none) :
    log.recycle = .ok { log.store last (log.heap last).reset with
      buffersToWrite := []
      newBuffer1 := some last
      backend := .flushing } := by
  have whole : log.buffersToWrite.take 2 = earlier ++ [last] := by
    rw [buffersToWrite]
    apply List.take_of_length_le
    simp only [List.length_append, List.length_singleton]
    omega
  have popped : ({ log with buffersToWrite := log.buffersToWrite.take 2 } : AsyncLogging).popBack =
      .ok (last, { log.store last (log.heap last).reset with buffersToWrite := earlier }) :=
    popBack_eq_ok whole
  unfold recycle
  dsimp only
  rw [if_pos none1, popped, ok_bind]
  dsimp only [pure_eq_ok, ok_bind]
  exact if_neg some2

/-- When the backend recycles, one written buffer is left, or two of which the spare is the last. -/
theorem Owned.recyclable (owned : log.Owned current next) (standing : log.backend = .recycling) :
    ∃ earlier last, log.buffersToWrite = earlier ++ [last] ∧ earlier.length ≤ 1 ∧
      (earlier ≠ [] → last = next) ∧ log.newBuffer1 = none ∧ log.Empty log.newBuffer2 := by
  have stocked := owned.stocked
  unfold Stocked at stocked
  rw [standing] at stocked
  obtain ⟨none1, empty2, held⟩ := stocked
  rcases held with ⟨last, whole⟩ | ⟨first, whole⟩
  · exact ⟨[], last, whole, Nat.zero_le 1, fun some => absurd rfl some, none1, empty2⟩
  · exact ⟨[first], next, whole, Nat.le_refl 1, fun _ => rfl, none1, empty2⟩

/-- The last written buffer becomes the backend's spare; the other one is given up. -/
theorem recycle_owned (owned : log.Owned current next) (standing : log.backend = .recycling) :
    ∃ after, log.recycle = .ok after ∧ after.Owned current next := by
  have conserved := owned.conserved
  unfold bytes unwritten at conserved
  rw [standing] at conserved
  obtain ⟨earlier, last, whole, short, only, none1, spare2, spareIs2, empty2⟩ :=
    owned.recyclable standing
  have some2 : log.newBuffer2 ≠ none := by
    rw [spareIs2]
    exact nofun
  have dropped : log.inUse.Perm (earlier ++ ({ log.store last (log.heap last).reset with
      buffersToWrite := []
      newBuffer1 := some last
      backend := .flushing } : AsyncLogging).inUse) := by
    unfold inUse store
    dsimp only
    rw [whole, none1]
    apply List.perm_iff_count.mpr
    intro buffer
    simp only [List.count_append, Option.toList_some, Option.toList_none, List.count_nil]
    omega
  have distinct := (List.nodup_append.mp (dropped.nodup_iff.mp owned.distinct)).2.1
  have apart : last ∉ log.currentBuffer.toList ++ log.buffers ++ log.newBuffer2.toList := by
    have separate := distinct
    unfold inUse store at separate
    dsimp only at separate
    intro found
    simp only [List.mem_append] at found
    simp only [List.nodup_append, List.mem_append, Option.toList_some, List.mem_singleton] at separate
    rcases found with (found | found) | found
    · exact separate.1.2.2 last (.inl (.inl found)) last rfl rfl
    · exact separate.1.2.2 last (.inl (.inr found)) last rfl rfl
    · exact separate.2.2 last (.inr rfl) last found rfl
  simp only [List.mem_append, not_or] at apart
  obtain ⟨⟨apartCurrent, apartBuffers⟩, apart2⟩ := apart
  refine ⟨_, recycle_eq_ok whole short none1 some2, owned.currentIs, owned.nextIs, distinct,
    ⟨owned.allocated.1, fun buffer found => owned.allocated.2 buffer
      (dropped.mem_iff.mpr (List.mem_append_right earlier found))⟩, fun unused => ?_, owned.buffers,
    ⟨⟨last, rfl, ?_⟩, ⟨spare2, spareIs2, ?_⟩, rfl⟩, ?_⟩
  · have different : next ≠ last := by
      intro same
      apply unused
      simp [inUse, same]
    have empty := owned.spare fun found => by
      rcases List.mem_append.mp (dropped.mem_iff.mp found) with early | late
      · exact different (only (List.ne_nil_of_mem early)).symm
      · exact unused late
    simpa only [store, Function.update_of_ne different] using empty
  · simp [store, FixedBuffer.reset]
  · have different : spare2 ≠ last := by
      intro same
      apply apart2
      simp [spareIs2, same]
    simpa only [store, Function.update_of_ne different] using empty2
  · refine Eq.trans ?_ conserved
    have apart : last ∉ log.buffers ++ log.currentBuffer.toList := by
      rw [List.mem_append, not_or]
      exact ⟨apartBuffers, apartCurrent⟩
    have kept : contentsOf (Function.update log.heap last (log.heap last).reset)
        (log.buffers ++ log.currentBuffer.toList) = _ := contentsOf_update apart _
    exact congrArg (log.output ++ ·) kept

theorem advance_owned (owned : log.Owned current next) :
    Ensures Halt.Benign log.advance fun after => ∃ current', after.Owned current' next := by
  have proceeds : ∀ {computation : Outcome AsyncLogging} {current' : BufferPtr},
      (∃ after, computation = .ok after ∧ after.Owned current' next) →
      Ensures Halt.Benign computation fun after => ∃ current', after.Owned current' next := by
    rintro computation current' ⟨after, rfl, owned⟩
    exact ⟨current', owned⟩
  unfold advance
  cases standing : log.backend with
  | starting => exact proceeds (beginThread_owned owned standing)
  | testing => exact ⟨current, test_owned owned standing⟩
  | checking => exact proceeds (check_owned owned standing)
  | swapping =>
      obtain ⟨after, current', swapped, owned⟩ := swap_owned owned standing
      exact proceeds ⟨after, swapped, owned⟩
  | writing index => exact ⟨current, write_owned owned standing⟩
  | recycling => exact proceeds (recycle_owned owned standing)
  | flushing => exact ⟨current, flush_owned owned (.inl ⟨standing, rfl⟩)⟩
  | finishing => exact ⟨current, flush_owned owned (.inr ⟨standing, rfl⟩)⟩
  | finished => exact Ensures.error rfl

theorem step_owned (owned : log.Owned current next) {action : LogAction}
    (admitted : log.Admits action) :
    Ensures Halt.Benign (log.step action) fun after => ∃ current', after.Owned current' next := by
  cases action with
  | append logline =>
      obtain ⟨after, current', appended, owned⟩ := append_owned owned admitted
      rw [step, appended]
      exact ⟨current', owned⟩
  | backend => exact advance_owned owned
  | stop =>
      refine ensures_assume fun started => ⟨current, owned.proceed ?_ owned.conserved⟩
      have stocked := owned.stocked
      unfold Stocked at stocked ⊢
      dsimp only
      cases standing : log.backend with
      | starting => exact absurd standing started
      | _ => rw [standing] at stocked; exact stocked

/-- While the spare is put to use at most once, the log file and the buffers hold the appended
lines in lock order, and no assertion of `threadFunc` fails. -/
theorem lines_conserved {actions : List LogAction}
    (run : Execution step Admits start actions log) :
    log.bytes = log.appended.flatten ∧
      ∀ action, log.Admits action → ∀ halt, log.step action = .error halt → halt = .impossible := by
  obtain ⟨current, owned⟩ := run.ensures (fun log => ∃ current, log.Owned current 1)
    ⟨0, start_owned⟩ fun _ _ ⟨_, owned⟩ admitted => step_owned owned admitted
  exact ⟨owned.conserved, fun _ admitted _ stopped => (step_owned owned admitted).of_error stopped⟩

/-- The theorem at a run in which lines arrive before the swap and while a buffer is written. -/
theorem lines_conserved_interleaved :
    ∃ log : AsyncLogging, log.output = [1, 2] ∧ log.bytes = [1, 2, 3] := by
  let actions : List LogAction := [
    .append [1], .backend, .backend, .append [], .backend, .append [2], .backend, .append [3],
    .backend, .backend, .backend, .stop, .backend, .backend]
  have replayed : (replay step Admits .impossible start actions).toOption.any
      (fun log => decide (log.output = [1, 2] ∧ log.appended.flatten = [1, 2, 3])) = true := by
    decide +kernel
  obtain ⟨log, run, reached⟩ := Execution.exists_of_replay replayed
  obtain ⟨output, appended⟩ := of_decide_eq_true reached
  exact ⟨log, output, (lines_conserved run).1.trans appended⟩

/-- The lines of a run are shorter than a buffer. -/
def Short (_ : AsyncLogging) : LogAction → Prop
  | .append logline => logline.length < kLargeBuffer
  | _ => True

/-- Three lines that fill a buffer each: the third finds the spare already current. -/
theorem third_line_dropped {first second third : Bytes} (length : first.length + 1 = kLargeBuffer)
    (length2 : second.length + 1 = kLargeBuffer) (length3 : third.length + 1 = kLargeBuffer) :
    ∃ log, Execution step Short start [.append first, .append second, .append third] log ∧
      log.bytes = first ++ second ++ second ∧ log.appended = [first, second, third] := by
  have fits : ∀ {line : Bytes}, line.length + 1 = kLargeBuffer →
      (FixedBuffer.fresh : FixedBuffer kLargeBuffer).append line = ⟨line⟩ := by
    intro line length
    refine FixedBuffer.append_of_avail (by decide) ?_
    simp only [FixedBuffer.avail, FixedBuffer.fresh, List.length_nil]
    omega
  have full : ∀ {line other : Bytes}, line.length + 1 = kLargeBuffer →
      other.length + 1 = kLargeBuffer →
      (⟨line⟩ : FixedBuffer kLargeBuffer).avail ≤ other.length := by
    intro line other length length'
    have two : 2 ≤ kLargeBuffer := by decide
    simp only [FixedBuffer.avail]
    omega
  have room : (first.length : Int) < (start.heap 0).avail := by
    simp only [start, FixedBuffer.avail, FixedBuffer.fresh, List.length_nil]
    omega
  have room : (first.length : Int) < (start.heap 0).avail := room
  obtain ⟨log1, one⟩ : ∃ log1, log1 = ({ start with appended := [first] } : AsyncLogging).store 0
    ⟨first⟩ := ⟨_, rfl⟩
  have step1 : start.append first = .ok log1 := by
    rw [append_of_room rfl room, one, ← fits length]
    rfl
  have heap1 : log1.heap 0 = ⟨first⟩ ∧ log1.heap 1 = .fresh := by
    rw [one]
    exact ⟨rfl, rfl⟩
  obtain ⟨log2, two⟩ : ∃ log2, log2 = ({ log1 with
      appended := [first, second]
      buffers := [0]
      currentBuffer := some 1 } : AsyncLogging).store 1 ⟨second⟩ := ⟨_, rfl⟩
  have step2 : log1.append second = .ok log2 := by
    have full1 : (log1.heap 0).avail ≤ second.length := by
      rw [heap1.1]
      exact full length length2
    rw [append_of_full (by rw [one]; rfl) (by rw [one]; rfl) full1, two, heap1.2, fits length2, one]
    rfl
  have heap2 : log2.heap 0 = ⟨first⟩ ∧ log2.heap 1 = ⟨second⟩ := by
    rw [two]
    exact ⟨heap1.1, rfl⟩
  have full2 : (log2.heap 1).avail ≤ third.length := by
    rw [heap2.2]
    exact full length2 length3
  have dropped : (⟨second⟩ : FixedBuffer kLargeBuffer).append third = ⟨second⟩ := by
    rw [FixedBuffer.append, if_neg]
    unfold toSizeT FixedBuffer.avail
    have two : kLargeBuffer = 4000000 := by decide
    dsimp only
    omega
  obtain ⟨log3, three⟩ : ∃ log3, log3 = ({ log2 with
      appended := [first, second, third]
      buffers := [0, 1]
      currentBuffer := some 1 } : AsyncLogging).store 1 ⟨second⟩ := ⟨_, rfl⟩
  have step3 : log2.append third = .ok log3 := by
    rw [append_of_full (by rw [two]; rfl) (by rw [two, one]; rfl) full2, heap2.2, dropped, three, two]
    rfl
  have heap3 : log3.heap 0 = ⟨first⟩ ∧ log3.heap 1 = ⟨second⟩ := by
    rw [three]
    exact ⟨heap2.1, rfl⟩
  have run1 : Execution step Short start [.append first] log1 :=
    Execution.nil.snoc (show first.length < kLargeBuffer by omega) step1
  have run2 : Execution step Short start [.append first, .append second] log2 :=
    run1.snoc (show second.length < kLargeBuffer by omega) step2
  have run3 : Execution step Short start [.append first, .append second, .append third] log3 :=
    run2.snoc (show third.length < kLargeBuffer by omega) step3
  refine ⟨log3, run3, ?_, by rw [three]; rfl⟩
  have held : log3.bytes = [] ++ contentsOf log3.heap [0, 1, 1] := by
    rw [three, two, one]
    rfl
  rw [held, List.nil_append]
  simp [contentsOf, heap3]

/-- Lines that fill the buffers faster than the backend takes them are lost and repeated. -/
theorem lines_not_conserved :
    ¬ ∀ actions log, Execution step Short start actions log → log.bytes = log.appended.flatten := by
  intro conserved
  have length : ∀ byte : Byte, (List.replicate (kLargeBuffer - 1) byte).length + 1 = kLargeBuffer := by
    intro byte
    rw [List.length_replicate]
    decide
  obtain ⟨log, run, bytes, appended⟩ := third_line_dropped (length 1) (length 2) (length 3)
  have same := conserved _ log run
  rw [bytes, appended] at same
  simp only [List.flatten_cons, List.flatten_nil, List.append_nil, List.append_assoc,
    List.append_cancel_left_eq, List.replicate_inj] at same
  revert same
  decide

end TransferServer.Base.AsyncLogging
