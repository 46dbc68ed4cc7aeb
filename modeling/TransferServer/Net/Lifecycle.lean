import TransferServer.Lib.Family
import TransferServer.Net.TcpConnection

/-! The life of one connection, from its entry in `connections_` to `connectDestroyed`, as its
server means it to go: the functors that wait for it, and who may ask for its removal. -/

set_option autoImplicit false

namespace TransferServer.Net

/-- What can wait for a connection in the queue of its loop. -/
inductive Errand where
  | establish
  | destroy
  | send
  deriving DecidableEq, Repr

structure Life where
  state : StateE
  /-- How often `connections_` holds it. -/
  entries : Nat
  agenda : List Errand
  /-- How many calls of `removeConnectionInLoop` wait for it in the base loop. -/
  requests : Nat
  erasures : Nat
  destructions : Nat
  deriving DecidableEq, Repr

/-- Between `connectEstablished` and `connectDestroyed`. -/
def StateE.Up (state : StateE) : Prop := state = .kConnected ∨ state = .kDisconnecting

instance (state : StateE) : Decidable state.Up := inferInstanceAs (Decidable (_ ∨ _))

theorem StateE.Up.ne_kConnecting {state : StateE} (up : state.Up) : state ≠ .kConnecting := by
  rintro rfl
  rcases up with up | up <;> cases up

theorem StateE.Up.ne_kDisconnected {state : StateE} (up : state.Up) : state ≠ .kDisconnected := by
  rintro rfl
  rcases up with up | up <;> cases up

namespace Life

def erase (life : Life) : Life :=
  { life with
    entries := life.entries - 1, erasures := life.erasures + 1, agenda := life.agenda ++ [.destroy] }

/-- A connection is established at once where its loop is the base loop, else in its queue. -/
inductive Born : Life → Prop where
  | queued : Born ⟨.kConnecting, 1, [.establish], 0, 0, 0⟩
  | inline : Born ⟨.kConnected, 1, [], 0, 0, 0⟩

/-- A removal is asked for in time if the connection is still listed and nobody has asked yet. -/
def Removable (life : Life) : Prop := life.entries = 1 ∧ life.requests = 0

instance (life : Life) : Decidable life.Removable := inferInstanceAs (Decidable (_ ∧ _))

/-- What one step does to a life; `timely` says that removals are asked for in time only. -/
inductive Moves (timely : Prop) : Life → Life → Prop where
  | establish {life : Life} {rest : List Errand} :
      life.state = .kConnecting → life.agenda = .establish :: rest →
      Moves timely life { life with state := .kConnected, agenda := rest }
  | send {life : Life} : life.state = .kConnected →
      Moves timely life { life with agenda := life.agenda ++ [.send] }
  | sent {life : Life} {rest : List Errand} : life.agenda = .send :: rest →
      Moves timely life { life with agenda := rest }
  | request {life : Life} : (timely → life.Removable) →
      Moves timely life { life with requests := life.requests + 1 }
  | erase {life : Life} : (timely → life.Removable) → life.entries = 1 →
      Moves timely life life.erase
  | grant {life : Life} {requests : Nat} : life.requests = requests + 1 → life.entries = 1 →
      Moves timely life { life.erase with requests }
  | destroy {life : Life} {rest : List Errand} :
      life.state.Up → life.agenda = .destroy :: rest →
      Moves timely life
        { life with state := .kDisconnected, agenda := rest, destructions := life.destructions + 1 }

/-- `connectDestroyed` waits exactly between the erasure and the destruction, behind a
`connectEstablished` that still waits; nothing is sent before that has run. -/
structure Valid (timely : Prop) (life : Life) : Prop where
  listed : life.entries + life.erasures = 1
  ended : life.destructions = if life.state = .kDisconnected then 1 else 0
  unlisted : life.state = .kDisconnected → life.entries = 0
  waiting : life.agenda.filter (· ≠ .send) =
    (if life.state = .kConnecting then [.establish] else []) ++
    (if life.entries = 0 ∧ life.state ≠ .kDisconnected then [.destroy] else [])
  unsent : life.state = .kConnecting → .send ∉ life.agenda
  orderly : timely → life.requests ≤ 1 ∧ (life.requests = 1 → life.entries = 1)

variable {timely : Prop} {life next : Life} {rest : List Errand}

theorem Born.valid (born : life.Born) : life.Valid timely := by
  cases born with
  | queued => constructor <;> simp
  | inline => constructor <;> simp

theorem Valid.erase (valid : life.Valid timely) (listed : life.entries = 1) {requests : Nat}
    (none : timely → requests = 0) : Valid timely { life.erase with requests } := by
  have erasures : life.erasures = 0 := by
    have := valid.listed
    omega
  have existing : life.state ≠ .kDisconnected := by
    intro gone
    have := valid.unlisted gone
    omega
  constructor
  · simp [Life.erase, listed, erasures]
  · exact valid.ended
  · intro _
    simp [Life.erase, listed]
  · have waiting : life.agenda.filter (· ≠ .send) =
        if life.state = .kConnecting then [.establish] else [] := by
      simpa [listed] using valid.waiting
    change (life.agenda ++ [Errand.destroy]).filter (· ≠ Errand.send) =
      (if life.state = .kConnecting then [.establish] else []) ++
      (if life.entries - 1 = 0 ∧ life.state ≠ .kDisconnected then [.destroy] else [])
    rw [List.filter_append, waiting]
    simp [listed, existing]
  · intro connecting
    simpa [Life.erase] using valid.unsent connecting
  · intro time
    simp [none time]

theorem Valid.up_of_destroy (valid : life.Valid timely) (next : life.agenda = .destroy :: rest) :
    life.state.Up := by
  have waiting := valid.waiting
  rw [next] at waiting
  cases state : life.state with
  | kConnecting => simp [state] at waiting
  | kConnected => exact .inl rfl
  | kDisconnecting => exact .inr rfl
  | kDisconnected => simp [state] at waiting

theorem Valid.ne_kConnecting_of_send (valid : life.Valid timely)
    (next : life.agenda = .send :: rest) : life.state ≠ .kConnecting := by
  intro connecting
  apply valid.unsent connecting
  rw [next]
  exact List.mem_cons_self

theorem Valid.moves (valid : life.Valid timely) (moves : Moves timely life next) :
    next.Valid timely := by
  cases moves with
  | establish connecting first =>
      have waiting := valid.waiting
      rw [first] at waiting
      constructor
      · exact valid.listed
      · simpa [connecting] using valid.ended
      · nofun
      · simpa [connecting] using waiting
      · nofun
      · exact valid.orderly
  | send connected =>
      constructor
      · exact valid.listed
      · exact valid.ended
      · exact valid.unlisted
      · simpa [List.filter_append] using valid.waiting
      · intro connecting
        rw [connected] at connecting
        cases connecting
      · exact valid.orderly
  | sent first =>
      have waiting := valid.waiting
      rw [first] at waiting
      constructor
      · exact valid.listed
      · exact valid.ended
      · exact valid.unlisted
      · simpa using waiting
      · intro connecting
        exact absurd connecting (valid.ne_kConnecting_of_send first)
      · exact valid.orderly
  | request removable =>
      constructor
      · exact valid.listed
      · exact valid.ended
      · exact valid.unlisted
      · exact valid.waiting
      · exact valid.unsent
      · intro time
        obtain ⟨listed, unasked⟩ := removable time
        exact ⟨by simp [unasked], fun _ => listed⟩
  | erase removable listed => exact valid.erase listed fun time => (removable time).2
  | grant asked listed =>
      refine valid.erase listed fun time => ?_
      have := (valid.orderly time).1
      omega
  | destroy up first =>
      have waiting := valid.waiting
      rw [first] at waiting
      have unlisted : life.entries = 0 := by
        by_contra listed
        simp [listed, up.ne_kConnecting] at waiting
      constructor
      · exact valid.listed
      · simp [valid.ended, up.ne_kDisconnected]
      · exact fun _ => unlisted
      · simpa [unlisted, up.ne_kConnecting, up.ne_kDisconnected] using waiting
      · nofun
      · exact valid.orderly

/-- Every connection is erased at most once and destroyed at most once. -/
theorem Valid.once (valid : life.Valid timely) : life.erasures ≤ 1 ∧ life.destructions ≤ 1 := by
  have listed := valid.listed
  have ended := valid.ended
  split at ended <;> omega

end Life

end TransferServer.Net
