import TransferServer.Net.PollDispatch

/-! What a poller shows of channels that read: while a channel keeps its interest in reading, its
`pollfd` holds the descriptor itself. -/

set_option autoImplicit false

namespace TransferServer.Net

open Lib

namespace Channel

/-- All flags of `kReadEvent` are set. -/
def Reading (channel : Channel) : Prop := channel.events &&& kReadEvent = kReadEvent

instance (channel : Channel) : Decidable channel.Reading := inferInstanceAs (Decidable (_ = _))

theorem reading_enableReading (channel : Channel) : channel.enableReading.Reading := by
  change (channel.events ||| kReadEvent) &&& kReadEvent = kReadEvent
  ext index
  simp only [BitVec.getElem_and, BitVec.getElem_or]
  cases channel.events[index] <;> simp

theorem reading_enableWriting_iff {channel : Channel} :
    channel.enableWriting.Reading ↔ channel.Reading := by
  have kept : (channel.events ||| kWriteEvent) &&& kReadEvent = channel.events &&& kReadEvent := by
    rw [BitVec.and_comm, BitVec.and_or_distrib_left, show kReadEvent &&& kWriteEvent = 0#32 by decide,
      BitVec.or_zero, BitVec.and_comm]
  exact (congrArg (· = kReadEvent) kept).to_iff

theorem reading_disableWriting_iff {channel : Channel} :
    channel.disableWriting.Reading ↔ channel.Reading := by
  have kept : channel.events &&& ~~~kWriteEvent &&& kReadEvent = channel.events &&& kReadEvent := by
    rw [BitVec.and_assoc, show ~~~kWriteEvent &&& kReadEvent = kReadEvent by decide]
  exact (congrArg (· = kReadEvent) kept).to_iff

/-- Only `enableReading` begins to read. -/
theorem Reading.of_apply {channel : Channel} {call : InterestCall}
    (reading : (call.apply channel).Reading) (other : call ≠ .enableReading) : channel.Reading := by
  cases call with
  | enableReading => exact absurd rfl other
  | enableWriting => exact reading_enableWriting_iff.mp reading
  | disableWriting => exact reading_disableWriting_iff.mp reading
  | disableAll => exact absurd reading (by change ¬ kNoneEvent &&& kReadEvent = kReadEvent; decide)

theorem Reading.isNoneEvent {channel : Channel} (reading : channel.Reading) :
    channel.isNoneEvent = false := by
  apply decide_eq_false
  intro none
  rw [Reading, none] at reading
  exact absurd reading (by decide)

theorem enableReading_enableReading (channel : Channel) :
    channel.enableReading.enableReading = channel.enableReading := by
  unfold enableReading
  rw [BitVec.or_assoc, BitVec.or_self]

end Channel

namespace ChannelSystem

variable {κ : Type} {system before after : ChannelSystem κ} {key : κ}

/-- As `Shown`, with the descriptor itself where the channel reads. -/
def Heeded (channel : Channel) (pfd : PollFd) : Prop :=
  Shown channel pfd ∧ (channel.Reading → pfd.fd = channel.fd)

theorem Tabled.shown (tabled : system.Tabled Heeded) : system.Tabled Shown :=
  { tabled with
    slotted := tabled.slotted.of_entries rfl fun _ _ pfd found heeded => ⟨pfd, found, heeded.1⟩ }

/-- What a poll or the handlers change of the channels and of the table does not matter. -/
theorem Tabled.similar (tabled : before.Tabled Heeded)
    (channels : ∀ key, (after.channels key).fd = (before.channels key).fd ∧
      (after.channels key).events = (before.channels key).events)
    (listed : after.poller.channels = before.poller.channels)
    (index : after.poller.index = before.poller.index)
    (entries : after.poller.pollfds.map (fun pfd => (pfd.fd, pfd.events)) =
      before.poller.pollfds.map fun pfd => (pfd.fd, pfd.events)) : after.Tabled Heeded := by
  have registered : ∀ key, after.Registered key ↔ before.Registered key := by
    simp only [Registered, listed, implies_true]
  refine ⟨fun key => ?_, fun fd key there => ?_, fun key there => ?_, ?_⟩
  · rw [Channel.Narrow, (channels key).2]
    exact tabled.narrow key
  · rw [(channels key).1]
    exact tabled.keyed fd key (listed ▸ there)
  · rw [index]
    exact tabled.indexed key ((registered key).mp there)
  · rw [show {key | after.Registered key} = {key | before.Registered key} from Set.ext registered, index]
    have length := congrArg List.length entries
    rw [List.length_map, List.length_map] at length
    apply tabled.slotted.of_entries length
    intro key there pfd found heeded
    have entry := congrArg (·[(before.poller.index key).toNat]?) entries
    simp only [List.getElem?_map, found, Option.map_some, Option.map_eq_some_iff] at entry
    obtain ⟨pfd', found', same⟩ := entry
    obtain ⟨fd, events⟩ := Prod.mk.inj same
    refine ⟨pfd', found', ?_⟩
    rw [Heeded, Shown, Channel.Reading, fd, events, (channels key).1, (channels key).2]
    exact heeded

variable [DecidableEq κ]

/-- A channel that the poller does not know may be any. -/
theorem Tabled.unlisted {shows : Channel → PollFd → Prop} (tabled : system.Tabled shows)
    (absent : ¬ system.Registered key) {channel : Channel} (narrow : channel.Narrow) :
    { system with channels := Function.update system.channels key channel }.Tabled shows where
  narrow := by
    intro other
    dsimp only
    rw [Function.update_apply]
    split
    · exact narrow
    · exact tabled.narrow other
  keyed := by
    intro fd other listed
    have apart : other ≠ key := by
      rintro rfl
      exact absent ⟨fd, listed⟩
    dsimp only
    rw [Function.update_of_ne apart]
    exact tabled.keyed fd other listed
  indexed := tabled.indexed
  slotted := by
    apply tabled.slotted.of_entries rfl
    intro other registered pfd found shown
    have apart : other ≠ key := by
      rintro rfl
      exact absent registered
    refine ⟨pfd, found, ?_⟩
    dsimp only
    rw [Function.update_of_ne apart]
    exact shown

/-- A channel that reads already is added. -/
theorem Tabled.begun (tabled : system.Tabled Heeded) (key : κ)
    (reads : (system.channels key).enableReading = system.channels key)
    (new : system.poller.index key < 0) (positive : 0 ≤ (system.channels key).fd)
    (absent : system.poller.channels (system.channels key).fd = none) :
    { system with poller := system.poller.addChannel key (system.channels key) }.Tabled Heeded := by
  have unchanged : system.changed key .enableReading = system.channels :=
    Function.update_eq_self_iff.mpr reads
  have cast := (tabled.narrow key).signExtend_setWidth
  have added : ({ system with
      channels := system.changed key .enableReading
      poller := system.poller.addChannel key (system.changed key .enableReading key) } :
        ChannelSystem κ).Tabled Heeded :=
    tabled.add new positive (unchanged ▸ absent) (unchanged ▸ ⟨⟨.inl rfl, cast⟩, fun _ => rfl⟩)
  rw [unchanged] at added
  exact added

/-- A channel begins to read when it is added only. -/
theorem step_heeded {action : ChannelAction κ} (tabled : before.Tabled Heeded)
    (opened : before.Opened action)
    (once : ∀ key, action = .update key .enableReading → before.poller.index key < 0)
    (stepped : before.step action = .ok after) : after.Tabled Heeded := by
  cases action with
  | update key call =>
      have cast := (tabled.narrow_changed key call key).signExtend_setWidth
      apply update_tabled tabled opened stepped
      · exact fun _ => ⟨⟨.inl rfl, cast⟩, fun _ => rfl⟩
      · intro pfd registered heeded
        refine ⟨⟨?_, cast⟩, fun reading => ?_⟩
        · split
          · exact .inr rfl
          · rw [fd_changed]
            exact heeded.1.1
        · rw [if_neg (by rw [reading.isNoneEvent]; decide), fd_changed]
          rw [changed_self] at reading
          apply heeded.2
          apply reading.of_apply
          rintro rfl
          exact absurd (once key rfl) (Int.not_lt.mpr (tabled.indexed key registered))
  | removeChannel key => exact (remove_tabled (fun _ _ heeded => heeded.1.1) tabled stepped).1

omit [DecidableEq κ] in
theorem Tabled.poller_poll_eq {reported : List (BitVec 16)} (tabled : system.Tabled Shown)
    (reports : system.Reports reported) : system.poller.poll system.channels (some reported) =
      .ok ({ system.poller with pollfds := system.answered reported }, system.active reported) := by
  have promised : reported.length = system.poller.pollfds.length ∧
      ∀ entry ∈ system.poller.pollfds.zip reported, entry.1.fd < 0 → entry.2 = 0 :=
    ⟨reports.1, fun entry there => (reports.2 entry there).1⟩
  have filled := tabled.fill reports
  unfold answered at filled
  simp only [Poller.poll, assume, require_of promised, ok_bind, filled, pure_eq_ok]
  rfl

end ChannelSystem

end TransferServer.Net
