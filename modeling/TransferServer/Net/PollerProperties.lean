import Mathlib.Data.Set.Card
import TransferServer.Lib.Execution
import TransferServer.Lib.SlotTable
import TransferServer.Net.Poller

/-! The table of a poller over any sequence of changes of interest and removals: `pollfds_`,
`channels_` and the indices agree. What a `pollfd` shows of its channel is a parameter, since the
sign of the descriptor is right only while no ignored channel comes back. -/

set_option autoImplicit false

namespace TransferServer.Net

open Lib

/-- The members of `Channel` that change its interest and then call `update()`. -/
inductive InterestCall where
  | enableReading
  | enableWriting
  | disableWriting
  | disableAll
  deriving DecidableEq, Repr

def InterestCall.apply : InterestCall → Channel → Channel
  | .enableReading => Channel.enableReading
  | .enableWriting => Channel.enableWriting
  | .disableWriting => Channel.disableWriting
  | .disableAll => Channel.disableAll

inductive ChannelAction (κ : Type) where
  | update (key : κ) (call : InterestCall)
  | removeChannel (key : κ)
  deriving DecidableEq, Repr

def ChannelAction.key {κ : Type} : ChannelAction κ → κ
  | .update key _ => key
  | .removeChannel key => key

/-- The channels of one loop with its poller. -/
structure ChannelSystem (κ : Type) where
  channels : κ → Channel
  poller : Poller κ
  removed : List κ

namespace ChannelSystem

variable {κ : Type}

def construct (fd : κ → Int) : ChannelSystem κ where
  channels := fun key => .construct (fd key)
  poller := .construct
  removed := []

/-- In `channels_`. -/
def Registered (system : ChannelSystem κ) (key : κ) : Prop :=
  ∃ fd, system.poller.channels fd = some key

/-- `pollfds_[channel->index()]` -/
def pollfd? (system : ChannelSystem κ) (key : κ) : Option PollFd :=
  system.poller.pollfds[(system.poller.index key).toNat]?

variable [DecidableEq κ]

def step (system : ChannelSystem κ) : ChannelAction κ → Outcome (ChannelSystem κ)
  | .update key call => do
      let channel := call.apply (system.channels key)
      let poller ← system.poller.updateChannel key channel
      return { system with channels := Function.update system.channels key channel, poller }
  | .removeChannel key => do
      let poller ← system.poller.removeChannel key (system.channels key)
      return { system with poller, removed := key :: system.removed }

/-- A channel's descriptor is not negative and not that of another registered channel; a removed
channel is not used again. -/
def Admits (system : ChannelSystem κ) : ChannelAction κ → Prop
  | .update key _ => key ∉ system.removed ∧ 0 ≤ (system.channels key).fd ∧
      ∀ other ∈ system.poller.channels (system.channels key).fd, other = key
  | .removeChannel key => key ∉ system.removed

/-- What is updated has an open descriptor. -/
def Opened (system : ChannelSystem κ) : ChannelAction κ → Prop
  | .update key _ => 0 ≤ (system.channels key).fd
  | .removeChannel _ => True

omit [DecidableEq κ] in
theorem Admits.opened {system : ChannelSystem κ} {action : ChannelAction κ}
    (admitted : system.Admits action) : system.Opened action := by
  cases action with
  | update key call => exact admitted.2.1
  | removeChannel key => trivial

instance (system : ChannelSystem κ) (action : ChannelAction κ) : Decidable (system.Admits action) :=
  match action with
  | .update _ _ => inferInstanceAs (Decidable (_ ∧ _ ∧ ∀ other ∈ _, _))
  | .removeChannel _ => inferInstanceAs (Decidable (_ ∉ _))

/-- The assertions that `removeChannel` checks on entry. -/
def Removable (system : ChannelSystem κ) (key : κ) : Prop :=
  system.poller.channels (system.channels key).fd = some key ∧
    (system.channels key).isNoneEvent = true ∧
    (0 ≤ system.poller.index key ∧ system.poller.index key < system.poller.pollfds.length) ∧
    ∃ pfd, system.pollfd? key = some pfd ∧
      pfd.fd = -(system.channels key).fd - 1 ∧ pfd.events.signExtend 32 = (system.channels key).events

end ChannelSystem

namespace Channel

/-- Only flags that fit the `short` of a `pollfd`. -/
def Narrow (channel : Channel) : Prop := channel.events &&& 7 = channel.events

theorem Narrow.apply {channel : Channel} (narrow : channel.Narrow) (call : InterestCall) :
    (call.apply channel).Narrow := by
  have joined (flags : Events) (small : flags &&& 7 = flags) :
      (channel.events ||| flags) &&& 7 = channel.events ||| flags := by
    rw [BitVec.and_comm, BitVec.and_or_distrib_left, BitVec.and_comm 7, BitVec.and_comm 7, narrow, small]
  cases call with
  | enableReading => exact joined kReadEvent (by decide)
  | enableWriting => exact joined kWriteEvent (by decide)
  | disableWriting =>
      change channel.events &&& ~~~kWriteEvent &&& 7 = channel.events &&& ~~~kWriteEvent
      rw [BitVec.and_assoc, BitVec.and_comm (~~~kWriteEvent), ← BitVec.and_assoc, narrow]
  | disableAll =>
      change kNoneEvent &&& 7 = kNoneEvent
      decide

theorem Narrow.signExtend_setWidth {channel : Channel} (narrow : channel.Narrow) :
    (channel.events.setWidth 16).signExtend 32 = channel.events := by
  have small : channel.events.toNat < 8 := by
    rw [← narrow, BitVec.toNat_and]
    exact Nat.lt_of_le_of_lt Nat.and_le_right (by decide)
  have masks : ∀ value : Fin 8,
      ((BitVec.ofNat 32 value).setWidth 16).signExtend 32 = BitVec.ofNat 32 value := by decide
  have same : BitVec.ofNat 32 channel.events.toNat = channel.events := by simp
  rw [← same]
  exact masks ⟨channel.events.toNat, small⟩

@[simp] theorem fd_apply (channel : Channel) (call : InterestCall) :
    (call.apply channel).fd = channel.fd := by
  cases call <;> rfl

end Channel

namespace Poller

variable {κ : Type} {poller after : Poller κ} {key : κ} {channel : Channel}

theorem pollfd_eq_ok {idx : Int} {pfd : PollFd} :
    poller.pollfd idx = .ok pfd ↔ poller.pollfds[idx.toNat]? = some pfd := by
  unfold pollfd
  split <;> simp_all

variable [DecidableEq κ]

theorem listed_of_addChannel {other : κ} {fd : Int}
    (listed : (poller.addChannel key channel).channels fd = some other) :
    (other = key ∧ channel.fd = fd) ∨ poller.channels fd = some other := by
  simp only [addChannel, Function.update_apply] at listed
  split at listed
  · next same => exact .inl ⟨(Option.some.inj listed).symm, same.symm⟩
  · exact .inr listed

/-- A channel without an index is added; one with an index has its `pollfd` rewritten. -/
theorem updateChannel_eq_ok (updated : poller.updateChannel key channel = .ok after) :
    (poller.index key < 0 ∧ poller.channels channel.fd = none ∧ after = poller.addChannel key channel) ∨
    (0 ≤ poller.index key ∧ poller.channels channel.fd = some key ∧ ∃ pfd,
      poller.pollfds[(poller.index key).toNat]? = some pfd ∧ after = { poller with
        pollfds := poller.pollfds.set (poller.index key).toNat
          ⟨if channel.isNoneEvent then -channel.fd - 1 else pfd.fd, channel.events.setWidth 16, 0⟩ }) := by
  unfold updateChannel at updated
  by_cases new : poller.index key < 0
  · rw [if_pos new] at updated
    obtain ⟨absent, added⟩ := assert_bind_eq_ok.mp updated
    exact .inl ⟨new, absent, (Except.ok.inj added).symm⟩
  · rw [if_neg new] at updated
    obtain ⟨_, updated⟩ := assert_bind_eq_ok.mp updated
    obtain ⟨listed, updated⟩ := assert_bind_eq_ok.mp updated
    obtain ⟨range, updated⟩ := assert_bind_eq_ok.mp updated
    obtain ⟨pfd, found, updated⟩ := bind_eq_ok.mp updated
    obtain ⟨_, updated⟩ := assert_bind_eq_ok.mp updated
    exact .inr ⟨range.1, listed, pfd, pollfd_eq_ok.mp found, (Except.ok.inj updated).symm⟩

/-- What the assertions of `removeChannel` require on entry, and its two ways to shrink the table. -/
theorem removeChannel_eq_ok (removed : poller.removeChannel key channel = .ok after) :
    poller.channels channel.fd = some key ∧ ∃ pfd,
      poller.pollfds[(poller.index key).toNat]? = some pfd ∧
      after.channels = Function.update poller.channels channel.fd none ∧
      (((poller.index key).toNat = poller.pollfds.length - 1 ∧ after.index = poller.index ∧
          after.pollfds = poller.pollfds.dropLast) ∨
        ((poller.index key).toNat ≠ poller.pollfds.length - 1 ∧ ∃ back other,
          poller.pollfds[poller.pollfds.length - 1]? = some back ∧
          after.channels (if back.fd < 0 then -back.fd - 1 else back.fd) = some other ∧
          after.index = Function.update poller.index other (poller.index key) ∧
          after.pollfds = swapPop poller.pollfds (poller.index key).toNat back pfd)) := by
  obtain ⟨_, removed⟩ := assert_bind_eq_ok.mp removed
  obtain ⟨listed, removed⟩ := assert_bind_eq_ok.mp removed
  obtain ⟨_, removed⟩ := assert_bind_eq_ok.mp removed
  obtain ⟨_, removed⟩ := assert_bind_eq_ok.mp removed
  obtain ⟨pfd, found, removed⟩ := bind_eq_ok.mp removed
  obtain ⟨_, removed⟩ := assert_bind_eq_ok.mp removed
  obtain ⟨_, removed⟩ := assert_bind_eq_ok.mp removed
  refine ⟨listed, pfd, pollfd_eq_ok.mp found, ?_⟩
  split at removed
  · next last =>
      cases removed
      exact ⟨rfl, .inl ⟨last, rfl, rfl⟩⟩
  · next middle =>
      obtain ⟨back, atEnd, removed⟩ := bind_eq_ok.mp removed
      dsimp only at removed
      split at removed
      · cases removed
      · next other moved =>
          cases removed
          refine ⟨rfl, .inr ⟨middle, back, other, ?_, moved, rfl, rfl⟩⟩
          simpa using pollfd_eq_ok.mp atEnd

/-- A channel that is listed, with a `pollfd` of its own, is updated. -/
theorem updateChannel_of_listed {pfd : PollFd} (listed : poller.channels channel.fd = some key)
    (known : 0 ≤ poller.index key) (found : poller.pollfds[(poller.index key).toNat]? = some pfd)
    (shown : pfd.fd = channel.fd ∨ pfd.fd = -channel.fd - 1) :
    poller.updateChannel key channel = .ok { poller with
      pollfds := poller.pollfds.set (poller.index key).toNat
        ⟨if channel.isNoneEvent then -channel.fd - 1 else pfd.fd, channel.events.setWidth 16, 0⟩ } := by
  have old : ¬ poller.index key < 0 := Int.not_lt.mpr known
  have present : poller.channels channel.fd ≠ none := by simp [listed]
  have place := (List.getElem?_eq_some_iff.mp found).1
  have range : 0 ≤ poller.index key ∧ poller.index key < poller.pollfds.length := ⟨known, by omega⟩
  have taken : poller.pollfd (poller.index key) = .ok pfd := pollfd_eq_ok.mpr found
  simp only [updateChannel, if_neg old, assert_of present, assert_of listed, assert_of range, taken,
    assert_of shown, ok_bind, pure_eq_ok]

/-- The tables have gained known channels only. -/
structure Gains (known : κ → Prop) (before after : Poller κ) : Prop where
  channels : ∀ fd key, after.channels fd = some key → before.channels fd = some key ∨ known key
  index : ∀ key, 0 ≤ after.index key →
    0 ≤ before.index key ∨ (∃ fd, before.channels fd = some key) ∨ known key

theorem updateChannel_gains {known : κ → Prop} (own : known key)
    (updated : poller.updateChannel key channel = .ok after) : Gains known poller after := by
  rcases updateChannel_eq_ok updated with ⟨_, _, rfl⟩ | ⟨_, _, _, _, rfl⟩
  · constructor
    · intro fd other listed
      rcases listed_of_addChannel listed with ⟨rfl, _⟩ | earlier
      · exact .inr own
      · exact .inl earlier
    · intro other positive
      by_cases same : other = key
      · exact .inr (.inr (same ▸ own))
      · simp only [addChannel, Function.update_of_ne same] at positive
        exact .inl positive
  · exact ⟨fun _ _ listed => .inl listed, fun _ positive => .inl positive⟩

theorem removeChannel_gains {known : κ → Prop} (removed : poller.removeChannel key channel = .ok after) :
    Gains known poller after := by
  obtain ⟨_, _, _, channels, shrunk⟩ := removeChannel_eq_ok removed
  have listed {fd : Int} {other : κ} (there : after.channels fd = some other) :
      poller.channels fd = some other := by
    rw [channels, Function.update_apply] at there
    split at there
    · cases there
    · exact there
  refine ⟨fun _ _ there => .inl (listed there), fun other positive => ?_⟩
  rcases shrunk with ⟨_, index, _⟩ | ⟨_, _, moved, _, atEnd, index, _⟩
  · exact .inl (index ▸ positive)
  · by_cases same : other = moved
    · exact .inr (.inl ⟨_, same ▸ listed atEnd⟩)
    · rw [index, Function.update_of_ne same] at positive
      exact .inl positive

end Poller

namespace ChannelSystem

variable {κ : Type} {shows : Channel → PollFd → Prop} {system before after : ChannelSystem κ} {key : κ}

/-- The descriptor a `pollfd` holds is that of its channel, or encodes it. -/
def Signed (shows : Channel → PollFd → Prop) : Prop :=
  ∀ channel pfd, shows channel pfd → pfd.fd = channel.fd ∨ pfd.fd = -channel.fd - 1

/-- The three tables agree, and each `pollfd` shows what it should of its channel. -/
structure Tabled (shows : Channel → PollFd → Prop) (system : ChannelSystem κ) : Prop where
  narrow : ∀ key, (system.channels key).Narrow
  keyed : ∀ fd key, system.poller.channels fd = some key → (system.channels key).fd = fd ∧ 0 ≤ fd
  indexed : ∀ key, system.Registered key → 0 ≤ system.poller.index key
  slotted : Slotted (fun key pfd => shows (system.channels key) pfd) {key | system.Registered key}
    (fun key => (system.poller.index key).toNat) system.poller.pollfds

theorem construct_tabled (fd : κ → Int) : (construct fd).Tabled shows where
  narrow := by simp [construct, Channel.construct, Channel.Narrow, Channel.kNoneEvent]
  keyed := nofun
  indexed := nofun
  slotted := by
    have unregistered : {key | (construct fd).Registered key} = ∅ := by
      simp [Registered, construct, Poller.construct]
    exact unregistered ▸ .empty

theorem Tabled.channels_fd (tabled : system.Tabled shows) (registered : system.Registered key) :
    system.poller.channels (system.channels key).fd = some key := by
  obtain ⟨fd, listed⟩ := registered
  rw [(tabled.keyed fd key listed).1]
  exact listed

/-- The descriptor of the last `pollfd`, decoded, is that of its channel. -/
theorem Tabled.decode (tabled : system.Tabled shows) (signed : Signed shows) {back : PollFd}
    (registered : system.Registered key) (shown : shows (system.channels key) back) :
    (if back.fd < 0 then -back.fd - 1 else back.fd) = (system.channels key).fd := by
  have positive := (tabled.keyed _ key (tabled.channels_fd registered)).2
  rcases signed _ _ shown with same | encoded <;> split <;> omega

theorem Tabled.pollfd_shows (tabled : system.Tabled shows) (registered : system.Registered key) :
    ∃ pfd, system.pollfd? key = some pfd ∧ shows (system.channels key) pfd :=
  tabled.slotted.shown key registered

theorem Tabled.injOn_fd (tabled : system.Tabled shows) :
    Set.InjOn (fun key => (system.channels key).fd) {key | system.Registered key} := by
  intro key registered other registered' same
  have listed := tabled.channels_fd registered
  rw [show (system.channels key).fd = (system.channels other).fd from same,
    tabled.channels_fd registered'] at listed
  exact (Option.some.inj listed).symm

theorem Tabled.encard_channels (tabled : system.Tabled shows) :
    Set.encard {fd | system.poller.channels fd ≠ none} = system.poller.pollfds.length := by
  have fds : {fd | system.poller.channels fd ≠ none} =
      (fun key => (system.channels key).fd) '' {key | system.Registered key} := by
    ext fd
    simp only [Set.mem_ofPred_eq, Set.mem_image, ne_eq, Option.ne_none_iff_exists']
    constructor
    · rintro ⟨key, listed⟩
      exact ⟨key, ⟨fd, listed⟩, (tabled.keyed fd key listed).1⟩
    · rintro ⟨key, registered, rfl⟩
      exact ⟨key, tabled.channels_fd registered⟩
  calc Set.encard {fd | system.poller.channels fd ≠ none}
      = Set.encard {key | system.Registered key} := by rw [fds, tabled.injOn_fd.encard_image]
    _ = Set.encard (Set.Iio system.poller.pollfds.length) := by
        rw [← tabled.slotted.dense.image_eq, tabled.slotted.dense.injOn.encard_image]
    _ = system.poller.pollfds.length := Set.Nat.encard_range _

theorem registered_remove (tabled : system.Tabled shows) (registered : system.Registered key) :
    {other | ∃ fd, Function.update system.poller.channels (system.channels key).fd none fd = some other} =
      {other | system.Registered other} \ {key} := by
  ext other
  simp only [Set.mem_ofPred_eq, Set.mem_sdiff, Set.mem_singleton_iff, Function.update_apply]
  constructor
  · rintro ⟨fd, listed⟩
    split at listed
    · cases listed
    · next apart =>
        refine ⟨⟨fd, listed⟩, ?_⟩
        rintro rfl
        exact apart (tabled.keyed fd other listed).1.symm
  · rintro ⟨there, apart⟩
    refine ⟨(system.channels other).fd, ?_⟩
    have listed := tabled.channels_fd there
    have elsewhere : (system.channels other).fd ≠ (system.channels key).fd := by
      intro shared
      rw [shared, tabled.channels_fd registered] at listed
      exact apart (Option.some.inj listed).symm
    rw [if_neg elsewhere, listed]

variable [DecidableEq κ]

theorem registered_add {channel : Channel} (absent : system.poller.channels channel.fd = none) :
    {other | ∃ fd, (system.poller.addChannel key channel).channels fd = some other} =
      insert key {other | system.Registered other} := by
  ext other
  simp only [Poller.addChannel, Set.mem_ofPred_eq, Set.mem_insert_iff, Registered, Function.update_apply]
  constructor
  · rintro ⟨fd, listed⟩
    split at listed
    · exact .inl (Option.some.inj listed).symm
    · exact .inr ⟨fd, listed⟩
  · rintro (rfl | ⟨fd, listed⟩)
    · exact ⟨channel.fd, if_pos rfl⟩
    · have apart : fd ≠ channel.fd := by
        rintro rfl
        rw [absent] at listed
        cases listed
      exact ⟨fd, by rw [if_neg apart, listed]⟩

theorem slot_update {poller : Poller κ} {slot : Nat} :
    (fun other => (Function.update poller.index key (slot : Int) other).toNat) =
      Function.update (fun other => (poller.index other).toNat) key slot := by
  funext other
  simp only [Function.update_apply]
  split <;> simp

/-- The interest of a channel changed, the poller not told yet. -/
def changed (system : ChannelSystem κ) (key : κ) (call : InterestCall) : κ → Channel :=
  Function.update system.channels key (call.apply (system.channels key))

theorem changed_self (call : InterestCall) :
    system.changed key call key = call.apply (system.channels key) :=
  Function.update_self ..

theorem changed_of_ne {other : κ} (apart : other ≠ key) (call : InterestCall) :
    system.changed key call other = system.channels other :=
  Function.update_of_ne apart ..

theorem fd_changed (call : InterestCall) (other : κ) :
    (system.changed key call other).fd = (system.channels other).fd := by
  by_cases same : other = key
  · subst same
    rw [changed_self, Channel.fd_apply]
  · rw [changed_of_ne same]

theorem Tabled.narrow_changed (tabled : system.Tabled shows) (key : κ) (call : InterestCall)
    (other : κ) :
    (system.changed key call other).Narrow := by
  by_cases same : other = key
  · subst same
    rw [changed_self]
    exact (tabled.narrow other).apply call
  · rw [changed_of_ne same]
    exact tabled.narrow other

theorem Tabled.add {call : InterestCall} (tabled : system.Tabled shows)
    (new : system.poller.index key < 0) (positive : 0 ≤ (system.channels key).fd)
    (absent : system.poller.channels (system.changed key call key).fd = none)
    (shown : shows (system.changed key call key)
      ⟨(system.changed key call key).fd, (system.changed key call key).events.setWidth 16, 0⟩) :
    { system with
      channels := system.changed key call
      poller := system.poller.addChannel key (system.changed key call key) : ChannelSystem κ }.Tabled
        shows where
  narrow := tabled.narrow_changed key call
  keyed := by
    intro fd other listed
    simp only [Poller.addChannel, Function.update_apply] at listed
    rw [fd_changed]
    split at listed
    · next same =>
        cases listed
        rw [same, fd_changed]
        exact ⟨rfl, positive⟩
    · exact tabled.keyed fd other listed
  indexed := by
    intro other there
    simp only [Poller.addChannel, Function.update_apply]
    split
    · exact Int.natCast_nonneg _
    · next apart =>
        have there : other ∈ insert key {other | system.Registered other} :=
          registered_add absent ▸ there
        exact tabled.indexed other (there.resolve_left apart)
  slotted := by
    have unregistered : ¬ system.Registered key :=
      fun there => absurd (tabled.indexed key there) (Int.not_le.mpr new)
    have added := tabled.slotted.append (fun other pfd => shows (system.changed key call other) pfd)
      unregistered shown fun other there pfd shows => by
        have apart : other ≠ key := by
          rintro rfl
          exact unregistered there
        rwa [changed_of_ne apart]
    rw [← registered_add absent, ← slot_update] at added
    exact added

theorem Tabled.set {call : InterestCall} {pfd : PollFd} (tabled : system.Tabled shows)
    (registered : system.Registered key) (shown : shows (system.changed key call key) pfd) :
    { system with
      channels := system.changed key call
      poller := { system.poller with
        pollfds := system.poller.pollfds.set (system.poller.index key).toNat pfd }
      : ChannelSystem κ }.Tabled shows where
  narrow := tabled.narrow_changed key call
  keyed := by
    intro fd other listed
    rw [fd_changed]
    exact tabled.keyed fd other listed
  indexed := tabled.indexed
  slotted := tabled.slotted.set (fun other pfd => shows (system.changed key call other) pfd) registered
    shown fun other _ apart pfd shows => by rwa [changed_of_ne apart]

theorem update_eq_ok {call : InterestCall} (stepped : before.step (.update key call) = .ok after) :
    ∃ poller, before.poller.updateChannel key (before.changed key call key) = .ok poller ∧
      after = { before with channels := before.changed key call, poller } := by
  obtain ⟨poller, updated, stepped⟩ := bind_eq_ok.mp stepped
  rw [← changed_self call] at updated
  exact ⟨poller, updated, (Except.ok.inj stepped).symm⟩

theorem remove_eq_ok (stepped : before.step (.removeChannel key) = .ok after) :
    ∃ poller, before.poller.removeChannel key (before.channels key) = .ok poller ∧
      after = { before with poller, removed := key :: before.removed } := by
  obtain ⟨poller, removed, stepped⟩ := bind_eq_ok.mp stepped
  exact ⟨poller, removed, (Except.ok.inj stepped).symm⟩

theorem registered_update_iff {call : InterestCall}
    (stepped : before.step (.update key call) = .ok after) (other : κ) :
    after.Registered other ↔ other = key ∨ before.Registered other := by
  obtain ⟨poller, updated, rfl⟩ := update_eq_ok stepped
  rcases Poller.updateChannel_eq_ok updated with ⟨_, absent, rfl⟩ | ⟨_, listed, _, _, rfl⟩
  · exact Set.ext_iff.mp (registered_add absent) other
  · constructor
    · exact .inr
    · rintro (rfl | there)
      · exact ⟨_, listed⟩
      · exact there

theorem registered_remove_iff (tabled : before.Tabled shows)
    (stepped : before.step (.removeChannel key) = .ok after) (other : κ) :
    after.Registered other ↔ before.Registered other ∧ other ≠ key := by
  obtain ⟨poller, removed, rfl⟩ := remove_eq_ok stepped
  obtain ⟨listed, _, _, channels, _⟩ := Poller.removeChannel_eq_ok removed
  have registered := Set.ext_iff.mp (registered_remove tabled ⟨_, listed⟩) other
  rw [← channels] at registered
  exact registered

theorem update_tabled {call : InterestCall} (tabled : before.Tabled shows)
    (opened : before.Opened (.update key call)) (stepped : before.step (.update key call) = .ok after)
    (fresh : before.poller.index key < 0 → shows (before.changed key call key)
      ⟨(before.changed key call key).fd, (before.changed key call key).events.setWidth 16, 0⟩)
    (again : ∀ pfd, before.Registered key → shows (before.channels key) pfd →
      shows (before.changed key call key) ⟨if (before.changed key call key).isNoneEvent then
        -(before.changed key call key).fd - 1 else pfd.fd,
          (before.changed key call key).events.setWidth 16, 0⟩) : after.Tabled shows := by
  obtain ⟨poller, updated, rfl⟩ := update_eq_ok stepped
  rcases Poller.updateChannel_eq_ok updated with ⟨new, absent, rfl⟩ | ⟨_, listed, pfd, found, rfl⟩
  · exact tabled.add new opened absent (fresh new)
  · have registered : before.Registered key := ⟨_, listed⟩
    obtain ⟨held, found', shown⟩ := tabled.slotted.shown key registered
    obtain rfl : pfd = held := Option.some.inj (found.symm.trans found')
    exact tabled.set registered (again pfd registered shown)

theorem remove_tabled (signed : Signed shows) (tabled : before.Tabled shows)
    (stepped : before.step (.removeChannel key) = .ok after) : after.Tabled shows ∧
      ∀ other, before.Registered other → other ≠ key →
        after.Registered other ∧ after.channels other = before.channels other ∧
          after.pollfd? other = before.pollfd? other := by
  obtain ⟨poller, removed, rfl⟩ := remove_eq_ok stepped
  obtain ⟨listed, pfd, found, channels, shrunk⟩ := Poller.removeChannel_eq_ok removed
  have registered : before.Registered key := ⟨_, listed⟩
  have fewer := registered_remove tabled registered
  rw [← channels] at fewer
  have size := tabled.slotted.lt_length registered
  obtain ⟨last, final, atEnd⟩ := tabled.slotted.exists_last (by omega)
  obtain ⟨back, listed', shown⟩ := tabled.slotted.shown last final
  rw [atEnd] at listed'
  have moved : (∀ other, 0 ≤ before.poller.index other → 0 ≤ poller.index other) ∧
      (fun other => (poller.index other).toNat) = Function.update
        (fun other => (before.poller.index other).toNat) last (before.poller.index key).toNat ∧
      poller.pollfds = swapPop before.poller.pollfds (before.poller.index key).toNat back pfd := by
    rcases shrunk with ⟨same, index, pollfds⟩ | ⟨apart, back', other, listed, known, index, pollfds⟩
    · obtain rfl : last = key := tabled.slotted.dense.injOn final registered (atEnd.trans same.symm)
      rw [index, pollfds, Function.update_eq_self, same, swapPop_last]
      exact ⟨fun _ known => known, rfl, rfl⟩
    · obtain rfl : back = back' := Option.some.inj (listed'.symm.trans listed)
      have other_eq : other = last := by
        have elsewhere : (before.channels last).fd ≠ (before.channels key).fd := by
          intro shared
          have held := tabled.channels_fd final
          rw [shared, tabled.channels_fd registered] at held
          exact apart (Option.some.inj held ▸ atEnd)
        rw [tabled.decode signed final shown, channels, Function.update_of_ne elsewhere,
          tabled.channels_fd final] at known
        exact (Option.some.inj known).symm
      subst other_eq
      have place := Int.toNat_of_nonneg (tabled.indexed key registered)
      refine ⟨fun other known => ?_, ?_, pollfds⟩
      · rw [index, Function.update_apply]
        split
        · exact tabled.indexed key registered
        · exact known
      · rw [index, ← slot_update, place]
  obtain ⟨indexed, slots, pollfds⟩ := moved
  have kept := tabled.slotted.remove pfd registered final atEnd listed'
  refine ⟨⟨tabled.narrow, ?_, ?_, ?_⟩, ?_⟩
  · intro fd other listed
    rw [channels, Function.update_apply] at listed
    split at listed
    · cases listed
    · exact tabled.keyed fd other listed
  · intro other there
    have there : other ∈ {other | before.Registered other} \ {key} := fewer ▸ there
    exact indexed other (tabled.indexed other there.1)
  · rw [← fewer, ← slots, ← pollfds] at kept
    exact kept
  · intro other there apart
    have there' : other ∈ {other | before.Registered other} \ {key} := ⟨there, apart⟩
    have kept' : other ∈ {other | ∃ fd, poller.channels fd = some other} := fewer ▸ there'
    refine ⟨kept', rfl, ?_⟩
    have same := tabled.slotted.getElem?_remove pfd registered final atEnd listed' there apart
    rw [← slots, ← pollfds] at same
    exact same

section Runs

variable {fd : κ → Int} {actions : List (ChannelAction κ)}

/-- The descriptor, possibly encoded, and the interest of the channel. -/
def Shown (channel : Channel) (pfd : PollFd) : Prop :=
  (pfd.fd = channel.fd ∨ pfd.fd = -channel.fd - 1) ∧ pfd.events.signExtend 32 = channel.events

theorem step_tabled {action : ChannelAction κ} (tabled : before.Tabled Shown)
    (opened : before.Opened action) (stepped : before.step action = .ok after) :
    after.Tabled Shown := by
  cases action with
  | update key call =>
      have cast := (tabled.narrow_changed key call key).signExtend_setWidth
      refine update_tabled tabled opened stepped (fun _ => ⟨.inl rfl, cast⟩) ?_
      intro pfd registered shown
      refine ⟨?_, cast⟩
      split
      · exact .inr rfl
      · rw [fd_changed]
        exact shown.1
  | removeChannel key => exact (remove_tabled (fun _ _ => And.left) tabled stepped).1

omit [DecidableEq κ] in
theorem Tabled.registered_iff (tabled : system.Tabled shows) :
    system.Registered key ↔ system.poller.channels (system.channels key).fd = some key :=
  ⟨tabled.channels_fd, fun listed => ⟨_, listed⟩⟩

theorem update_registered {call : InterestCall} (stepped : before.step (.update key call) = .ok after) :
    after.Registered key ∧ after.removed = before.removed ∧
      after.channels = before.changed key call := by
  have registered := (registered_update_iff stepped key).mpr (.inl rfl)
  obtain ⟨poller, _, rfl⟩ := update_eq_ok stepped
  exact ⟨registered, rfl, rfl⟩

theorem Tabled.update_ok (tabled : system.Tabled Shown) (registered : system.Registered key)
    (call : InterestCall) : ∃ after, system.step (.update key call) = .ok after := by
  obtain ⟨pfd, found, shown, _⟩ := tabled.slotted.shown key registered
  have listed : system.poller.channels (call.apply (system.channels key)).fd = some key := by
    rw [Channel.fd_apply]
    exact tabled.channels_fd registered
  have updated := Poller.updateChannel_of_listed listed (tabled.indexed key registered) found
    (by rwa [Channel.fd_apply])
  exact ⟨_, bind_eq_ok.mpr ⟨_, updated, rfl⟩⟩

theorem removable_of_ok (stepped : before.step (.removeChannel key) = .ok after) :
    before.Removable key := by
  obtain ⟨poller, removed, _⟩ := remove_eq_ok stepped
  obtain ⟨_, removed⟩ := assert_bind_eq_ok.mp removed
  obtain ⟨listed, removed⟩ := assert_bind_eq_ok.mp removed
  obtain ⟨ignored, removed⟩ := assert_bind_eq_ok.mp removed
  obtain ⟨range, removed⟩ := assert_bind_eq_ok.mp removed
  obtain ⟨pfd, found, removed⟩ := bind_eq_ok.mp removed
  obtain ⟨shown, _⟩ := assert_bind_eq_ok.mp removed
  exact ⟨listed, ignored, range, pfd, Poller.pollfd_eq_ok.mp found, shown⟩

/-- Past its entry a removal cannot fail: the descriptor at the end of the table is decoded to one
that is listed. -/
theorem Tabled.remove_ok (tabled : system.Tabled shows) (signed : Signed shows)
    (removable : system.Removable key) :
    ∃ after, system.step (.removeChannel key) = .ok after := by
  obtain ⟨listed, ignored, range, pfd, found, shown⟩ := removable
  have registered : system.Registered key := ⟨_, listed⟩
  have present : system.poller.channels (system.channels key).fd ≠ none := by simp [listed]
  have taken : system.poller.pollfd (system.poller.index key) = .ok pfd := Poller.pollfd_eq_ok.mpr found
  have one : (if (system.poller.channels (system.channels key).fd).isSome then 1 else 0) = 1 := by
    simp [listed]
  have returns : ∃ poller, system.poller.removeChannel key (system.channels key) = .ok poller := by
    simp only [Poller.removeChannel, assert_of present, assert_of listed, assert_of ignored,
      assert_of range, taken, assert_of shown, assert_of one, ok_bind]
    split
    · exact ⟨_, rfl⟩
    · next middle =>
        obtain ⟨last, final, atEnd⟩ := tabled.slotted.exists_last (by omega)
        obtain ⟨back, held, displayed⟩ := tabled.slotted.shown last final
        rw [atEnd] at held
        have apart : (system.channels last).fd ≠ (system.channels key).fd := fun shared =>
          middle (tabled.injOn_fd final registered shared ▸ atEnd)
        have atEnd : system.poller.pollfd (system.poller.pollfds.length - 1) = .ok back := by
          refine Poller.pollfd_eq_ok.mpr ?_
          rw [← held]
          congr 1
          omega
        rw [atEnd, ok_bind, tabled.decode signed final displayed, Function.update_of_ne apart, tabled.channels_fd final]
        exact ⟨_, rfl⟩
  obtain ⟨poller, returned⟩ := returns
  exact ⟨_, bind_eq_ok.mpr ⟨poller, returned, rfl⟩⟩

/-- What has an index is registered, or was. -/
def Accounted (system : ChannelSystem κ) : Prop :=
  ∀ key, 0 ≤ system.poller.index key → system.Registered key ∨ key ∈ system.removed

omit [DecidableEq κ] in
theorem construct_accounted (fd : κ → Int) : (construct fd).Accounted := by
  simp [Accounted, construct, Poller.construct]

theorem Accounted.step {action : ChannelAction κ} (accounted : before.Accounted)
    (tabled : before.Tabled shows) (signed : Signed shows) (stepped : before.step action = .ok after) :
    after.Accounted := by
  intro other known
  cases action with
  | update key call =>
      have registered := registered_update_iff stepped other
      obtain ⟨poller, updated, rfl⟩ := update_eq_ok stepped
      by_cases same : other = key
      · exact .inl (registered.mpr (.inl same))
      · have earlier : 0 ≤ before.poller.index other := by
          rcases Poller.updateChannel_eq_ok updated with ⟨_, _, rfl⟩ | ⟨_, _, _, _, rfl⟩
          · simpa only [Poller.addChannel, Function.update_of_ne same] using known
          · exact known
        exact (accounted other earlier).imp_left fun there => registered.mpr (.inr there)
  | removeChannel key =>
      by_cases same : other = key
      · obtain ⟨poller, _, rfl⟩ := remove_eq_ok stepped
        exact .inr (same ▸ List.mem_cons_self)
      · have kept : before.Registered other → after.Registered other := fun there =>
          ((remove_tabled signed tabled stepped).2 other there same).1
        obtain ⟨poller, removed, rfl⟩ := remove_eq_ok stepped
        have gains : Poller.Gains (fun _ => False) before.poller poller :=
          Poller.removeChannel_gains removed
        rcases gains.index other known with known | there | none
        · exact (accounted other known).imp kept (List.mem_cons_of_mem key)
        · exact .inl (kept there)
        · exact none.elim

/-- An update whose channel was not removed and whose descriptor is nobody else's returns. -/
theorem Tabled.update_returns {call : InterestCall} (tabled : system.Tabled Shown)
    (accounted : system.Accounted) (admitted : system.Admits (.update key call)) :
    ∃ after, system.step (.update key call) = .ok after := by
  obtain ⟨unremoved, _, own⟩ := admitted
  by_cases new : system.poller.index key < 0
  · have absent : system.poller.channels (call.apply (system.channels key)).fd = none := by
      rw [Channel.fd_apply, Option.eq_none_iff_forall_not_mem]
      intro other listed
      obtain rfl := own other listed
      exact absurd (tabled.indexed other ⟨_, listed⟩) (Int.not_le.mpr new)
    have added : system.poller.updateChannel key (call.apply (system.channels key)) =
        .ok (system.poller.addChannel key (call.apply (system.channels key))) := by
      rw [Poller.updateChannel, if_pos new, assert_of absent]
      rfl
    exact ⟨_, bind_eq_ok.mpr ⟨_, added, rfl⟩⟩
  · exact tabled.update_ok ((accounted key (Int.not_lt.mp new)).resolve_right unremoved) call

theorem Tabled.pollfd_update {call : InterestCall} (tabled : before.Tabled shows)
    (registered : before.Registered key) (stepped : before.step (.update key call) = .ok after)
    {other : κ} (registered' : before.Registered other) (apart : other ≠ key) :
    after.pollfd? other = before.pollfd? other := by
  obtain ⟨poller, updated, rfl⟩ := update_eq_ok stepped
  rcases Poller.updateChannel_eq_ok updated with ⟨new, _, _⟩ | ⟨_, _, pfd, _, rfl⟩
  · exact absurd new (Int.not_lt.mpr (tabled.indexed key registered))
  · refine List.getElem?_set_ne fun same => apart ?_
    exact (tabled.slotted.dense.injOn registered registered' same).symm

theorem step_apart {action : ChannelAction κ} (tabled : before.Tabled shows)
    (stepped : before.step action = .ok after) {other : κ} (apart : action.key ≠ other) :
    after.channels other = before.channels other ∧
      (after.Registered other ↔ before.Registered other) ∧
      (other ∈ after.removed ↔ other ∈ before.removed) := by
  cases action with
  | update key call =>
      have apart : other ≠ key := Ne.symm apart
      have registered := registered_update_iff stepped other
      obtain ⟨poller, _, rfl⟩ := update_eq_ok stepped
      refine ⟨changed_of_ne apart call, registered.trans ?_, Iff.rfl⟩
      exact ⟨fun there => there.resolve_left apart, .inr⟩
  | removeChannel key =>
      have apart : other ≠ key := Ne.symm apart
      have registered := registered_remove_iff tabled stepped other
      obtain ⟨poller, _, rfl⟩ := remove_eq_ok stepped
      exact ⟨rfl, registered.trans ⟨And.left, fun there => ⟨there, apart⟩⟩, by simp [apart]⟩

theorem remove_unregistered (tabled : before.Tabled shows)
    (stepped : before.step (.removeChannel key) = .ok after) :
    ¬ after.Registered key ∧ after.channels = before.channels := by
  have registered := registered_remove_iff tabled stepped key
  obtain ⟨poller, _, rfl⟩ := remove_eq_ok stepped
  exact ⟨fun there => (registered.mp there).2 rfl, rfl⟩

theorem run_accounted (run : Execution step Admits (construct fd) actions system) :
    system.Tabled Shown ∧ system.Accounted := by
  have kept (before : ChannelSystem κ) (action : ChannelAction κ) (after : ChannelSystem κ)
      (agree : before.Tabled Shown ∧ before.Accounted) (admitted : before.Admits action)
      (stepped : before.step action = .ok after) : after.Tabled Shown ∧ after.Accounted :=
    ⟨step_tabled agree.1 admitted.opened stepped, agree.2.step agree.1 (fun _ _ => And.left) stepped⟩
  exact run.invariant ⟨construct_tabled fd, construct_accounted fd⟩ kept

/-- In every run the poller's three tables agree. Every further change of interest returns, and a
removal does if the assertions on its entry hold; it leaves the other channels alone. -/
theorem tables_agree (run : Execution step Admits (construct fd) actions system) :
    Set.encard {fd | system.poller.channels fd ≠ none} = system.poller.pollfds.length ∧
      (∀ key, system.Registered key →
        system.poller.channels (system.channels key).fd = some key ∧
        0 ≤ system.poller.index key ∧ system.poller.index key < system.poller.pollfds.length ∧
        ∃ pfd, system.pollfd? key = some pfd ∧
          (pfd.fd = (system.channels key).fd ∨ pfd.fd = -(system.channels key).fd - 1) ∧
          pfd.events.signExtend 32 = (system.channels key).events) ∧
      (∀ key other, system.Registered key → system.Registered other →
        system.poller.index key = system.poller.index other → key = other) ∧
      (∀ key call, system.Admits (.update key call) →
        ∃ after, system.step (.update key call) = .ok after) ∧
      (∀ key, (∃ after, system.step (.removeChannel key) = .ok after) ↔ system.Removable key) ∧
      ∀ key after, system.step (.removeChannel key) = .ok after →
        ∀ other, system.Registered other → other ≠ key →
          after.Registered other ∧ after.channels other = system.channels other ∧
            after.pollfd? other = system.pollfd? other := by
  have signed : Signed Shown := fun _ _ => And.left
  obtain ⟨tabled, accounted⟩ := run_accounted run
  refine ⟨tabled.encard_channels, fun key registered => ?_,
    fun key other registered registered' same => ?_,
    fun key call => tabled.update_returns accounted,
    fun key => ⟨fun ⟨after, stepped⟩ => removable_of_ok stepped, tabled.remove_ok signed⟩,
    fun key after removed => (remove_tabled signed tabled removed).2⟩
  · have place := tabled.slotted.lt_length registered
    have positive := tabled.indexed key registered
    exact ⟨tabled.channels_fd registered, positive, by omega, tabled.pollfd_shows registered⟩
  · exact tabled.slotted.dense.injOn registered registered' (congrArg Int.toNat same)

/-- The theorem at a run in which the last channel moves into the slot of a removed one. -/
theorem tables_agree_swap : ∃ system : ChannelSystem Nat,
    system.poller.pollfds = [⟨7, 3, 0⟩, ⟨0, 4, 0⟩] ∧
      Set.encard {fd | system.poller.channels fd ≠ none} = system.poller.pollfds.length := by
  let actions : List (ChannelAction Nat) := [
    .update 4 .enableReading, .update 0 .enableReading, .update 7 .enableReading,
    .update 0 .enableWriting, .update 4 .disableAll, .update 0 .disableAll,
    .removeChannel 4, .removeChannel 0, .update 1 .enableWriting]
  let fd : Nat → Int := fun key => if key = 1 then 0 else key
  have replayed : (replay step Admits .impossible (construct fd) actions).toOption.any
      (fun system => decide (system.poller.pollfds = [⟨7, 3, 0⟩, ⟨0, 4, 0⟩])) = true := by
    decide +kernel
  obtain ⟨system, run, reached⟩ := Execution.exists_of_replay replayed
  exact ⟨system, of_decide_eq_true reached, (tables_agree run).1⟩

/-- As `Shown`, with the descriptor encoded exactly while there is no interest. -/
def Polled (channel : Channel) (pfd : PollFd) : Prop :=
  pfd.fd = (if channel.isNoneEvent then -channel.fd - 1 else channel.fd) ∧
    pfd.events.signExtend 32 = channel.events

/-- A new channel begins with some interest, and one that has lost all interest gains none. -/
def Steady (system : ChannelSystem κ) : ChannelAction κ → Prop
  | .update key call =>
      (system.poller.index key < 0 → (call.apply (system.channels key)).isNoneEvent = false) ∧
      (0 ≤ system.poller.index key → (system.channels key).isNoneEvent = true →
        (call.apply (system.channels key)).isNoneEvent = true)
  | .removeChannel _ => True

instance (system : ChannelSystem κ) (action : ChannelAction κ) : Decidable (system.Steady action) :=
  match action with
  | .update _ _ => inferInstanceAs (Decidable ((_ → _) ∧ (_ → _ → _)))
  | .removeChannel _ => .isTrue trivial

theorem polled_signed : Signed Polled := by
  intro channel pfd ⟨fd, _⟩
  split at fd
  · exact .inr fd
  · exact .inl fd

theorem step_polled {action : ChannelAction κ} (tabled : before.Tabled Polled)
    (admitted : before.Admits action) (steady : before.Steady action)
    (stepped : before.step action = .ok after) : after.Tabled Polled := by
  cases action with
  | update key call =>
      have cast := (tabled.narrow_changed key call key).signExtend_setWidth
      obtain ⟨begun, dropped⟩ := steady
      rw [← changed_self call] at begun dropped
      refine update_tabled tabled admitted.opened stepped (fun new => ⟨?_, cast⟩) ?_
      · rw [begun new]
        rfl
      · intro pfd registered shown
        refine ⟨?_, cast⟩
        cases none : (before.changed key call key).isNoneEvent with
        | true => rfl
        | false =>
            have interested : (before.channels key).isNoneEvent = false := by
              rw [← Bool.not_eq_true]
              intro ignored
              rw [dropped (tabled.indexed key registered) ignored] at none
              cases none
            have fd := shown.1
            rw [interested] at fd
            rw [fd_changed]
            exact fd
  | removeChannel key => exact (remove_tabled polled_signed tabled stepped).1

/-- Where no channel begins ignored and no ignored channel comes back, poll(2) is told the
descriptor and interest of each registered channel with interest and ignores the others. -/
theorem interest_polled
    (run : Execution step (fun system action => system.Admits action ∧ system.Steady action)
      (construct fd) actions system) (registered : system.Registered key) :
    ∃ pfd, system.pollfd? key = some pfd ∧
      ((system.channels key).events ≠ Channel.kNoneEvent →
        pfd.fd = (system.channels key).fd ∧
          pfd.events.signExtend 32 = (system.channels key).events) ∧
      ((system.channels key).events = Channel.kNoneEvent → pfd.fd = -(system.channels key).fd - 1) := by
  have tabled : system.Tabled Polled :=
    run.invariant (construct_tabled fd) fun _ _ _ tabled admitted stepped =>
      step_polled tabled admitted.1 admitted.2 stepped
  obtain ⟨pfd, found, shown, cast⟩ := tabled.pollfd_shows registered
  refine ⟨pfd, found, fun interested => ?_, fun none => ?_⟩
  · exact ⟨by simpa [Channel.isNoneEvent, interested] using shown, cast⟩
  · simpa [Channel.isNoneEvent, none] using shown

/-- The theorem at a channel that loses its interest in two steps, another one added between. -/
theorem interest_polled_ignored : ∃ (system : ChannelSystem Nat) (pfd : PollFd),
    system.pollfd? 5 = some pfd ∧ pfd.fd = -6 := by
  let actions : List (ChannelAction Nat) := [
    .update 5 .enableReading, .update 5 .enableWriting, .update 6 .enableWriting,
    .update 5 .disableWriting, .update 5 .disableAll, .update 5 .disableWriting]
  have replayed : (replay step (fun system action => system.Admits action ∧ system.Steady action)
      .impossible (construct fun key : Nat => (key : Int)) actions).toOption.any (fun system => decide
        (system.poller.channels 5 = some 5 ∧ (system.channels 5).events = Channel.kNoneEvent ∧
          (system.channels 5).fd = 5)) = true := by
    decide +kernel
  obtain ⟨system, run, reached⟩ := Execution.exists_of_replay replayed
  obtain ⟨registered, none, fd⟩ := of_decide_eq_true reached
  obtain ⟨pfd, found, -, ignored⟩ := interest_polled run ⟨5, registered⟩
  exact ⟨system, pfd, found, by simpa [fd] using ignored none⟩

/-- A channel that is enabled again after `disableAll` stays ignored. -/
theorem interest_not_polled : ∃ (system : ChannelSystem Nat) (actions : List (ChannelAction Nat)),
    Execution step Admits (construct fun key : Nat => (key : Int)) actions system ∧ system.Registered 5 ∧
      (system.channels 5).events ≠ Channel.kNoneEvent ∧
      ∀ pfd, system.pollfd? 5 = some pfd → pfd.fd ≠ (system.channels 5).fd := by
  let actions : List (ChannelAction Nat) := [
    .update 5 .enableReading, .update 5 .disableAll, .update 5 .enableReading]
  have replayed : (replay step Admits .impossible (construct fun key : Nat => (key : Int))
      actions).toOption.any (fun system => decide
        (system.poller.channels 5 = some 5 ∧ (system.channels 5).events ≠ Channel.kNoneEvent ∧
          (system.channels 5).fd = 5 ∧ (system.pollfd? 5).map PollFd.fd = some (-6))) = true := by
    decide +kernel
  obtain ⟨system, run, reached⟩ := Execution.exists_of_replay replayed
  obtain ⟨registered, interested, fd, held⟩ := of_decide_eq_true reached
  refine ⟨system, actions, run, ⟨5, registered⟩, interested, fun pfd found => ?_⟩
  rw [found] at held
  have negative : pfd.fd = -6 := Option.some.inj held
  rw [fd, negative]
  decide

end Runs

end ChannelSystem

end TransferServer.Net
