import TransferServer.Lib.Execution
import TransferServer.Net.BufferProperties

/-! Buffers refine byte deques. A program owns named buffers, all freshly constructed,
and mixes their operations in any order; its deques are plain byte lists that know
nothing of indices, spare room or the reserved header. -/

set_option autoImplicit false

namespace TransferServer.Net.Buffer

open Lib

inductive Operation where
  | append (data : Bytes)
  | ensureWritableBytes (len : Nat)
  /-- `data` is stored from `beginWrite()` on, then `hasWritten(len)` is called. -/
  | hasWritten (data : Bytes) (len : Nat)
  | prepend (data : Bytes)
  | retrieve (len : Nat)
  /-- The end pointer is given as its distance from `peek()`. -/
  | retrieveUntil (distance : Nat)
  | retrieveAll
  | retrieveAsString
  | readFd (received : Readv)
  deriving DecidableEq, Repr

def perform (buffer : Buffer) : Operation → Outcome Buffer
  | .append data => buffer.append data
  | .ensureWritableBytes len => buffer.ensureWritableBytes len
  | .hasWritten data len => do
      let filled ← buffer.copyTo buffer.beginWrite data
      return filled.hasWritten len
  | .prepend data => buffer.prepend data
  | .retrieve len => buffer.retrieve len
  | .retrieveUntil distance => buffer.retrieveUntil (buffer.peek + distance)
  | .retrieveAll => return buffer.retrieveAll
  | .retrieveAsString => return buffer.retrieveAsString.2
  | .readFd received => do
      let (_, _, after) ← buffer.readFd received
      return after

/-- What the caller, or `readv(2)`, guarantees about an operation's argument. -/
def Operation.Legal (buffer : Buffer) : Operation → Prop
  | .hasWritten data len => data.length ≤ buffer.writableBytes ∧ len ≤ data.length
  | .prepend data => data.length ≤ buffer.prependableBytes
  | .retrieve len => len ≤ buffer.readableBytes
  | .retrieveUntil distance => distance ≤ buffer.readableBytes
  | .readFd (.ok bytes) => bytes.length ≤ buffer.writableBytes + kExtraSize
  | _ => True

instance (buffer : Buffer) (operation : Operation) : Decidable (operation.Legal buffer) :=
  match operation with
  | .append _ => .isTrue trivial
  | .ensureWritableBytes _ => .isTrue trivial
  | .hasWritten _ _ => inferInstanceAs (Decidable (_ ∧ _))
  | .prepend _ => inferInstanceAs (Decidable (_ ≤ _))
  | .retrieve _ => inferInstanceAs (Decidable (_ ≤ _))
  | .retrieveUntil _ => inferInstanceAs (Decidable (_ ≤ _))
  | .retrieveAll => .isTrue trivial
  | .retrieveAsString => .isTrue trivial
  | .readFd (.ok _) => inferInstanceAs (Decidable (_ ≤ _))
  | .readFd (.error _) => .isTrue trivial

/-- The same operation on a deque of bytes. -/
def Operation.onDeque (content : Bytes) : Operation → Bytes
  | .append data => content ++ data
  | .ensureWritableBytes _ => content
  | .hasWritten data len => content ++ data.take len
  | .prepend data => data ++ content
  | .retrieve len => content.drop len
  | .retrieveUntil distance => content.drop distance
  | .retrieveAll => []
  | .retrieveAsString => []
  | .readFd (.ok bytes) => content ++ bytes
  | .readFd (.error _) => content

/-- A legal operation on a valid buffer runs through and does to the readable bytes
what it does to a deque. -/
theorem perform_spec {buffer : Buffer} (valid : buffer.Valid) {operation : Operation}
    (legal : operation.Legal buffer) :
    ∃ after, buffer.perform operation = .ok after ∧ after.Valid ∧
      after.readable = operation.onDeque buffer.readable := by
  cases operation with
  | append data => exact append_spec valid data
  | ensureWritableBytes len =>
      obtain ⟨after, made, kept, same, _⟩ := ensureWritableBytes_spec valid len
      exact ⟨after, made, kept, same⟩
  | hasWritten data len =>
      obtain ⟨filled, copied, kept, joined⟩ := hasWritten_spec valid legal.1 legal.2
      exact ⟨filled.hasWritten len, by simp only [perform, copied, ok_bind, pure_eq_ok], kept, joined⟩
  | prepend data => exact prepend_spec valid legal
  | retrieve len => exact retrieve_spec valid legal
  | retrieveUntil distance =>
      have upper : buffer.peek + distance ≤ buffer.beginWrite := by
        have ordered := valid.ordered
        change distance ≤ buffer.writerIndex - buffer.readerIndex at legal
        change buffer.readerIndex + distance ≤ buffer.writerIndex
        omega
      obtain ⟨after, retrieved, kept, dropped⟩ :=
        retrieveUntil_spec valid (Nat.le_add_right _ _) upper
      exact ⟨after, retrieved, kept, by rw [dropped, Nat.add_sub_cancel_left]; rfl⟩
  | retrieveAll => exact ⟨_, rfl, retrieveAll_valid valid, readable_retrieveAll buffer⟩
  | retrieveAsString => exact ⟨_, rfl, retrieveAll_valid valid, readable_retrieveAll buffer⟩
  | readFd received =>
      cases received with
      | error errno => exact ⟨buffer, rfl, valid, rfl⟩
      | ok bytes =>
          obtain ⟨after, read, kept, joined⟩ := readFd_spec valid legal
          exact ⟨after, by simp only [perform, read, ok_bind, pure_eq_ok], kept, joined⟩

section Pool

variable {Name : Type} [DecidableEq Name]

inductive PoolAction (Name : Type) where
  | on (name : Name) (operation : Operation)
  | swap (left right : Name)

def poolStep (pool : Name → Buffer) : PoolAction Name → Outcome (Name → Buffer)
  | .on name operation => do
      let after ← (pool name).perform operation
      return Function.update pool name after
  | .swap left right =>
      let (first, second) := (pool left).swap (pool right)
      return Function.update (Function.update pool right second) left first

def PoolAction.Legal (pool : Name → Buffer) : PoolAction Name → Prop
  | .on name operation => operation.Legal (pool name)
  | .swap _ _ => True

instance (pool : Name → Buffer) (action : PoolAction Name) : Decidable (action.Legal pool) :=
  match action with
  | .on name operation => inferInstanceAs (Decidable (operation.Legal (pool name)))
  | .swap _ _ => .isTrue trivial

def dequeStep (deques : Name → Bytes) : PoolAction Name → Name → Bytes
  | .on name operation => Function.update deques name (operation.onDeque (deques name))
  | .swap left right => Function.update (Function.update deques right (deques left)) left (deques right)

/-- Every buffer of the pool is valid and shows the content of the deque of its name. -/
def Represents (pool : Name → Buffer) (deques : Name → Bytes) : Prop :=
  ∀ name, (pool name).Valid ∧ (pool name).readable = deques name

omit [DecidableEq Name] in
theorem fresh_represents : Represents (fun _ : Name => fresh) (fun _ => []) :=
  fun _ => ⟨fresh_valid, readable_fresh⟩

theorem Represents.update {pool : Name → Buffer} {deques : Name → Bytes}
    (represents : Represents pool deques) {name : Name} {after : Buffer} {content : Bytes}
    (valid : after.Valid) (same : after.readable = content) :
    Represents (Function.update pool name after) (Function.update deques name content) := by
  intro other
  by_cases here : other = name
  · subst here
    simpa only [Function.update_self] using ⟨valid, same⟩
  · simpa only [Function.update_of_ne here] using represents other

theorem poolStep_spec {pool : Name → Buffer} {deques : Name → Bytes}
    (represents : Represents pool deques) {action : PoolAction Name} (legal : action.Legal pool) :
    ∃ after, poolStep pool action = .ok after ∧ Represents after (dequeStep deques action) := by
  cases action with
  | on name operation =>
      obtain ⟨valid, same⟩ := represents name
      obtain ⟨after, performed, kept, matched⟩ := perform_spec valid legal
      refine ⟨Function.update pool name after, ?_, represents.update kept ?_⟩
      · simp only [poolStep, performed, ok_bind, pure_eq_ok]
      · rw [matched, same]
  | swap left right =>
      obtain ⟨validLeft, sameLeft⟩ := represents left
      obtain ⟨validRight, sameRight⟩ := represents right
      exact ⟨_, rfl, (represents.update validLeft sameLeft).update validRight sameRight⟩

/-- For every mix of legal operations on freshly constructed buffers the indices stay
ordered inside the storage, no assertion fails, and the readable bytes are those of
the deques on which the same operations were performed. -/
theorem buffers_refine_deques {actions : List (PoolAction Name)} {pool : Name → Buffer}
    (run : Execution poolStep (fun pool action => action.Legal pool) (fun _ => fresh) actions pool) :
    construct = .ok fresh ∧
      (∀ name, (pool name).readerIndex ≤ (pool name).writerIndex ∧
        (pool name).writerIndex ≤ (pool name).buffer.length) ∧
      (∀ name, (pool name).readable = actions.foldl dequeStep (fun _ => []) name) ∧
      ∀ action, action.Legal pool → ∃ after, poolStep pool action = .ok after := by
  have represents : Represents pool (actions.foldl dequeStep (fun _ => [])) := by
    refine run.simulates fresh_represents fun before action after deques represents legal stepped => ?_
    obtain ⟨result, performed, kept⟩ := poolStep_spec represents legal
    rw [stepped] at performed
    cases performed
    exact kept
  refine ⟨construct_eq_ok, fun name => ?_, fun name => (represents name).2, fun action legal => ?_⟩
  · exact ⟨(represents name).1.ordered, (represents name).1.inside⟩
  · obtain ⟨after, performed, _⟩ := poolStep_spec represents legal
    exact ⟨after, performed⟩

end Pool

/-- The theorem at a run in which a read slides the buffer and another one is swapped in. -/
theorem buffers_refine_deques_slide :
    ∃ pool : Bool → Buffer, (pool true).readerIndex ≤ (pool true).writerIndex ∧
      (pool true).readable = [9, 9, 1, 2] ∧ (pool false).readable = [5] := by
  let actions : List (PoolAction Bool) := [
    .on true (.append (List.replicate 1020 0)), .on true (.retrieve 1020),
    .on true (.readFd (.ok [1, 2, 3, 4, 5])), .on true (.ensureWritableBytes 1000),
    .on false (.append [5]), .on true (.prepend []), .on true (.retrieveUntil 3),
    .on true .retrieveAll, .on true (.readFd (.ok [1, 2])), .on true (.prepend [9, 9]),
    .on true (.readFd (.error 11)), .swap true false, .swap false true]
  have replayed : (replay poolStep (fun pool action => action.Legal pool) .impossible
      (fun _ : Bool => fresh) actions).toOption.any (fun _ => true) = true := by decide +kernel
  obtain ⟨pool, run, _⟩ := Execution.exists_of_replay replayed
  obtain ⟨_, indices, contents, _⟩ := buffers_refine_deques run
  exact ⟨pool, (indices true).1, contents true, contents false⟩

end TransferServer.Net.Buffer
