import TransferServer.Net.PollerProperties

/-! From a result of poll(2) to the active channels: `Poller::poll` on the table of any run. -/

set_option autoImplicit false

namespace TransferServer.Net

open Lib

namespace Poller

variable {κ : Type} {poller : Poller κ} {channelOf : κ → Channel}

/-- The channel that is to be called for a `pollfd`, with its `revents`. -/
def active? (poller : Poller κ) (pfd : PollFd) : Option (κ × Events) :=
  if 0 < pfd.revents.toInt then
    (poller.channels pfd.fd).map fun key => (key, pfd.revents.signExtend 32)
  else none

theorem active?_eq_some {pfd : PollFd} {key : κ} {revents : Events} :
    poller.active? pfd = some (key, revents) ↔ 0 < pfd.revents.toInt ∧
      poller.channels pfd.fd = some key ∧ pfd.revents.signExtend 32 = revents := by
  unfold active?
  split <;> simp_all

/-- A count of the ready entries that is not too small stops the loop behind the last of them. -/
theorem fillActiveChannels_eq {pollfds : List PollFd} {numEvents : Int}
    (known : ∀ pfd ∈ pollfds, 0 < pfd.revents.toInt →
      ∃ key, poller.channels pfd.fd = some key ∧ (channelOf key).fd = pfd.fd)
    (enough : pollfds.countP (fun pfd => 0 < pfd.revents.toInt) ≤ numEvents) :
    poller.fillActiveChannels channelOf numEvents pollfds = .ok (pollfds.filterMap poller.active?) := by
  induction pollfds generalizing numEvents with
  | nil => rfl
  | cons pfd pollfds ih =>
      have known' := fun pfd' there => known pfd' (List.mem_cons_of_mem pfd there)
      rw [fillActiveChannels]
      by_cases ready : 0 < pfd.revents.toInt
      · rw [List.countP_cons, if_pos (decide_eq_true ready)] at enough
        obtain ⟨key, listed, same⟩ := known pfd List.mem_cons_self ready
        have found : poller.active? pfd = some (key, pfd.revents.signExtend 32) :=
          active?_eq_some.mpr ⟨ready, listed, rfl⟩
        rw [if_pos (by omega), if_pos ready, listed, List.filterMap_cons, found]
        simp only [assert_of same, ok_bind, ih known' (show _ ≤ numEvents - 1 by omega), pure_eq_ok]
      · have skipped : poller.active? pfd = none := if_neg ready
        rw [List.countP_cons, if_neg (by simpa using ready), Nat.add_zero] at enough
        rw [if_neg ready, List.filterMap_cons, skipped, ih known' enough]
        split
        · rfl
        · next stopped =>
            -- nothing that is ready is left
            have none : pollfds.countP (fun pfd => 0 < pfd.revents.toInt) = 0 := by omega
            have unready : pollfds.filterMap poller.active? = [] := by
              apply List.filterMap_eq_nil_iff.mpr
              intro pfd' there
              have idle := List.countP_eq_zero.mp none pfd' there
              exact if_neg (by simpa using idle)
            rw [unready]
            rfl

end Poller

namespace ChannelSystem

variable {κ : Type}

/-- A result of poll(2): nothing for an ignored entry, and elsewhere flags that were asked for or
that are always reported. -/
def Reports (system : ChannelSystem κ) (reported : List (BitVec 16)) : Prop :=
  reported.length = system.poller.pollfds.length ∧
    ∀ entry ∈ system.poller.pollfds.zip reported, (entry.1.fd < 0 → entry.2 = 0) ∧
      entry.2 &&& ~~~(entry.1.events ||| (POLLERR ||| POLLHUP ||| POLLNVAL).setWidth 16) = 0

instance (system : ChannelSystem κ) (reported : List (BitVec 16)) :
    Decidable (system.Reports reported) :=
  inferInstanceAs (Decidable (_ ∧ _))

variable [DecidableEq κ]

/-- `set_revents` of the active channels. -/
def setRevents (channels : κ → Channel) (active : List (κ × Events)) : κ → Channel :=
  active.foldl (fun channels (key, revents) =>
    Function.update channels key { channels key with revents }) channels

/-- `poll` with the channels it is called for, in order. -/
def poll (system : ChannelSystem κ) (reported : Option (List (BitVec 16))) :
    Outcome (ChannelSystem κ × List κ) := do
  let (poller, active) ← system.poller.poll system.channels reported
  let channels := setRevents system.channels active
  return ({ system with channels, poller }, active.map Prod.fst)

/-- What the loop that owns a poller does with it. -/
inductive PollerAction (κ : Type) where
  | change (action : ChannelAction κ)
  | poll (reported : Option (List (BitVec 16)))
  deriving DecidableEq, Repr

def pollerStep (system : ChannelSystem κ) : PollerAction κ → Outcome (ChannelSystem κ)
  | .change action => system.step action
  | .poll reported => do
      let (system, _) ← system.poll reported
      return system

def PollerAdmits (system : ChannelSystem κ) : PollerAction κ → Prop
  | .change action => system.Opened action
  | .poll _ => True

section Marks

variable {channels : κ → Channel} {active : List (κ × Events)} {key : κ} {revents : Events}

theorem setRevents_cons (first : κ × Events) : setRevents channels (first :: active) =
    setRevents (Function.update channels first.1 { channels first.1 with revents := first.2 })
      active := rfl

theorem setRevents_frame (channels : κ → Channel) (active : List (κ × Events)) (key : κ) :
    (setRevents channels active key).fd = (channels key).fd ∧
      (setRevents channels active key).events = (channels key).events := by
  induction active generalizing channels with
  | nil => exact ⟨rfl, rfl⟩
  | cons first active ih =>
      rw [setRevents_cons, (ih ..).1, (ih ..).2, Function.update_apply]
      split
      · next same => exact ⟨same ▸ rfl, same ▸ rfl⟩
      · exact ⟨rfl, rfl⟩

theorem setRevents_of_notMem (absent : key ∉ active.map Prod.fst) :
    setRevents channels active key = channels key := by
  induction active generalizing channels with
  | nil => rfl
  | cons first active ih =>
      rw [List.map_cons, List.mem_cons, not_or] at absent
      rw [setRevents_cons, ih absent.2, Function.update_of_ne absent.1]

theorem setRevents_of_mem (once : (active.map Prod.fst).Nodup) (present : (key, revents) ∈ active) :
    setRevents channels active key = { channels key with revents } := by
  induction active generalizing channels with
  | nil => cases present
  | cons first active ih =>
      obtain ⟨fresh, once⟩ := List.nodup_cons.mp once
      rw [setRevents_cons]
      rcases List.mem_cons.mp present with rfl | later
      · rw [setRevents_of_notMem fresh, Function.update_self]
      · have apart : key ≠ first.1 := by
          rintro rfl
          exact fresh (List.mem_map.mpr ⟨_, later, rfl⟩)
        rw [ih once later, Function.update_of_ne apart]

end Marks

section Runs

variable {system before after : ChannelSystem κ} {key : κ} {reported : List (BitVec 16)}

/-- `pollfds_` as poll(2) leaves it. -/
def answered (system : ChannelSystem κ) (reported : List (BitVec 16)) : List PollFd :=
  List.zipWith (fun pfd revents => { pfd with revents }) system.poller.pollfds reported

omit [DecidableEq κ] in
theorem answered_getElem? (length : reported.length = system.poller.pollfds.length) {index : Nat}
    {pfd : PollFd} (found : system.poller.pollfds[index]? = some pfd) :
    ∃ revents, reported[index]? = some revents ∧
      (system.answered reported)[index]? = some { pfd with revents } := by
  have inside := (List.getElem?_eq_some_iff.mp found).1
  have listed : reported[index]? = some reported[index] := List.getElem?_eq_getElem (by omega)
  refine ⟨_, listed, ?_⟩
  rw [answered, List.getElem?_zipWith, found, listed]

theorem tabled_poll (tabled : before.Tabled Shown) {reported : Option (List (BitVec 16))}
    {active : List κ} (polled : before.poll reported = .ok (after, active)) :
    after.Tabled Shown := by
  obtain ⟨⟨poller, entries⟩, fetched, returned⟩ := bind_eq_ok.mp polled
  cases returned
  cases reported with
  | none =>
      cases fetched
      exact tabled
  | some reported =>
      obtain ⟨⟨length, _⟩, fetched⟩ := assume_bind_eq_ok.mp fetched
      obtain ⟨found, filled, returned⟩ := bind_eq_ok.mp fetched
      cases returned
      have frame (key : κ) := setRevents_frame before.channels entries key
      refine ⟨fun key => ?_, fun fd key listed => ?_, tabled.indexed, ?_⟩
      · rw [Channel.Narrow, (frame key).2]
        exact tabled.narrow key
      · rw [(frame key).1]
        exact tabled.keyed fd key listed
      · refine tabled.slotted.of_entries ?_ fun key _ pfd found shown => ?_
        · rw [List.length_zipWith]
          omega
        · obtain ⟨revents, _, answer⟩ := answered_getElem? length found
          refine ⟨_, answer, ?_⟩
          rw [Shown, (frame key).1, (frame key).2]
          exact shown

theorem run_tabled {fd : κ → Int} {actions : List (PollerAction κ)}
    (run : Execution pollerStep PollerAdmits (construct fd) actions system) :
    system.Tabled Shown := by
  refine run.invariant (construct_tabled fd) fun before action after tabled admitted stepped => ?_
  cases action with
  | change action => exact step_tabled tabled admitted stepped
  | poll reported =>
      obtain ⟨⟨polled, active⟩, found, returned⟩ := bind_eq_ok.mp stepped
      cases returned
      exact tabled_poll tabled found

/-- The sign of `revents` only depends on flags that are never asked for. -/
theorem ready_iff {channel : Channel} {pfd : PollFd} {revents : BitVec 16}
    (narrow : channel.Narrow) (cast : pfd.events.signExtend 32 = channel.events)
    (flags : revents &&& ~~~(pfd.events ||| (POLLERR ||| POLLHUP ||| POLLNVAL).setWidth 16) = 0) :
    0 < revents.toInt ↔ revents ≠ 0 := by
  have unsigned : pfd.events.msb = false := by
    have small : (7 : Events).msb = false := by decide
    have masked := congrArg BitVec.msb narrow
    rw [← cast, BitVec.msb_and, small, Bool.and_false, BitVec.msb_signExtend] at masked
    simpa using masked.symm
  have positive : revents.msb = false := by
    have always : ((POLLERR ||| POLLHUP ||| POLLNVAL).setWidth 16).msb = false := by decide
    have masked := congrArg BitVec.msb flags
    rw [BitVec.msb_and, BitVec.msb_not, BitVec.msb_or, unsigned, always] at masked
    simpa using masked
  rw [BitVec.toInt_eq_toNat_of_msb positive]
  constructor
  · rintro some rfl
    exact absurd some (by decide)
  · intro some
    have nonzero : revents.toNat ≠ 0 := fun zero => some (BitVec.eq_of_toNat_eq zero)
    omega

omit [DecidableEq κ] in
/-- The `pollfd` of a registered channel, as poll(2) has answered it. -/
theorem Tabled.answer (tabled : system.Tabled Shown) (reports : system.Reports reported)
    (registered : system.Registered key) :
    ∃ pfd, (system.answered reported)[(system.poller.index key).toNat]? = some pfd ∧
      reported[(system.poller.index key).toNat]? = some pfd.revents ∧
      (0 < pfd.revents.toInt ↔ pfd.revents ≠ 0) ∧
      (pfd.revents ≠ 0 → system.poller.channels pfd.fd = some key) := by
  obtain ⟨pfd, found, shown, cast⟩ := tabled.slotted.shown key registered
  obtain ⟨revents, listed, answer⟩ := answered_getElem? reports.1 found
  have entry : (pfd, revents) ∈ system.poller.pollfds.zip reported := by
    apply List.mem_of_getElem? (i := (system.poller.index key).toNat)
    rw [List.getElem?_zip_eq_some]
    exact ⟨found, listed⟩
  obtain ⟨ignored, flags⟩ := reports.2 _ entry
  refine ⟨_, answer, listed, ready_iff (tabled.narrow key) cast flags, fun some => ?_⟩
  have positive := (tabled.keyed _ key (tabled.channels_fd registered)).2
  have open' : pfd.fd = (system.channels key).fd := by
    rcases shown with same | encoded
    · exact same
    · exact absurd (ignored (show pfd.fd < 0 by omega)) some
  change system.poller.channels pfd.fd = _
  rw [open']
  exact tabled.channels_fd registered

omit [DecidableEq κ] in
theorem Tabled.exists_owner (tabled : system.Tabled Shown) {index : Nat} {pfd : PollFd}
    (found : (system.answered reported)[index]? = some pfd) :
    ∃ owner, system.Registered owner ∧ (system.poller.index owner).toNat = index := by
  have place := (List.getElem?_eq_some_iff.mp found).1
  rw [answered, List.length_zipWith] at place
  have inside : index < system.poller.pollfds.length := by omega
  exact tabled.slotted.dense.surjOn inside

omit [DecidableEq κ] in
/-- An answered slot is ready for the channel whose slot it is. -/
theorem Tabled.active_iff (tabled : system.Tabled Shown) (reports : system.Reports reported)
    {index : Nat} {pfd : PollFd} {revents : Events}
    (found : (system.answered reported)[index]? = some pfd) :
    system.poller.active? pfd = some (key, revents) ↔
      (system.Registered key ∧ (system.poller.index key).toNat = index) ∧ pfd.revents ≠ 0 ∧
        pfd.revents.signExtend 32 = revents := by
  obtain ⟨owner, registered, rfl⟩ := tabled.exists_owner found
  obtain ⟨_, answer, _, ready, listed⟩ := tabled.answer reports registered
  obtain rfl := Option.some.inj (answer.symm.trans found)
  rw [Poller.active?_eq_some, ready]
  constructor
  · rintro ⟨some, holds, same⟩
    obtain rfl := Option.some.inj ((listed some).symm.trans holds)
    exact ⟨⟨registered, rfl⟩, some, same⟩
  · rintro ⟨⟨registered', same⟩, some, cast⟩
    obtain rfl := tabled.slotted.dense.injOn registered' registered same
    exact ⟨some, listed some, cast⟩

omit [DecidableEq κ] in
theorem countP_answered (length : reported.length = system.poller.pollfds.length) :
    (system.answered reported).countP (fun pfd => 0 < pfd.revents.toInt) ≤
      reported.countP (· ≠ 0) := by
  have fields : (system.answered reported).map PollFd.revents = reported := by
    rw [answered, List.map_zipWith]
    exact (List.map_zip_eq_zipWith (f := Prod.snd)).symm.trans (List.map_snd_zip (by omega))
  calc (system.answered reported).countP (fun pfd => 0 < pfd.revents.toInt)
      = ((system.answered reported).map PollFd.revents).countP (fun revents => 0 < revents.toInt) := by
        rw [List.countP_map]
        rfl
    _ = reported.countP (fun revents => 0 < revents.toInt) := by rw [fields]
    _ ≤ reported.countP (· ≠ 0) := by
        apply List.countP_mono_left
        intro revents _ positive
        simp only [decide_eq_true_eq] at positive ⊢
        rintro rfl
        exact absurd positive (by decide)

/-- The channels that are ready, with what poll(2) has reported for them. -/
def active (system : ChannelSystem κ) (reported : List (BitVec 16)) : List (κ × Events) :=
  (system.answered reported).filterMap system.poller.active?

omit [DecidableEq κ] in
theorem Tabled.fill (tabled : system.Tabled Shown) (reports : system.Reports reported) :
    { system.poller with pollfds := system.answered reported }.fillActiveChannels system.channels
      (reported.countP (· ≠ 0) : Nat) (system.answered reported) = .ok (system.active reported) := by
  apply Poller.fillActiveChannels_eq
  · intro pfd there ready
    obtain ⟨index, found⟩ := List.mem_iff_getElem?.mp there
    obtain ⟨owner, registered, rfl⟩ := tabled.exists_owner found
    obtain ⟨_, answer, _, signed, listed⟩ := tabled.answer reports registered
    obtain rfl := Option.some.inj (answer.symm.trans found)
    have holds := listed (signed.mp ready)
    exact ⟨owner, holds, (tabled.keyed _ owner holds).1⟩
  · exact Int.ofNat_le.mpr (countP_answered reports.1)

theorem Tabled.poll_eq (tabled : system.Tabled Shown) (reports : system.Reports reported) :
    system.poll (some reported) = .ok
      ({ system with
          channels := setRevents system.channels (system.active reported)
          poller := { system.poller with pollfds := system.answered reported } },
        (system.active reported).map Prod.fst) := by
  have promised : reported.length = system.poller.pollfds.length ∧
      ∀ entry ∈ system.poller.pollfds.zip reported, entry.1.fd < 0 → entry.2 = 0 :=
    ⟨reports.1, fun entry there => (reports.2 entry there).1⟩
  have filled := tabled.fill reports
  unfold answered at filled
  simp only [poll, Poller.poll, assume, require_of promised, ok_bind, filled, pure_eq_ok]
  rfl

omit [DecidableEq κ] in
theorem Tabled.mem_active (tabled : system.Tabled Shown) (reports : system.Reports reported)
    {revents : Events} : (key, revents) ∈ system.active reported ↔
      system.Registered key ∧ ∃ flags, reported[(system.poller.index key).toNat]? = some flags ∧
        flags ≠ 0 ∧ flags.signExtend 32 = revents := by
  rw [active, List.mem_filterMap]
  constructor
  · rintro ⟨pfd, there, found⟩
    obtain ⟨index, listed⟩ := List.mem_iff_getElem?.mp there
    obtain ⟨⟨registered, rfl⟩, some, cast⟩ := (tabled.active_iff reports listed).mp found
    obtain ⟨_, answer, flags, _⟩ := tabled.answer reports registered
    obtain rfl := Option.some.inj (answer.symm.trans listed)
    exact ⟨registered, _, flags, some, cast⟩
  · rintro ⟨registered, flags, listed, some, cast⟩
    obtain ⟨pfd, answer, flags', _⟩ := tabled.answer reports registered
    obtain rfl := Option.some.inj (listed.symm.trans flags')
    exact ⟨pfd, List.mem_of_getElem? answer,
      (tabled.active_iff reports answer).mpr ⟨⟨registered, rfl⟩, some, cast⟩⟩

omit [DecidableEq κ] in
theorem Tabled.active_ordered (tabled : system.Tabled Shown) (reports : system.Reports reported) :
    ((system.active reported).map Prod.fst).Pairwise fun key later =>
      system.poller.index key < system.poller.index later := by
  have ordered : (system.active reported).Pairwise fun found later =>
      (system.poller.index found.1).toNat < (system.poller.index later.1).toNat :=
    ordered_filterMap fun index pfd found listed finds =>
      ((tabled.active_iff reports listed).mp finds).1.2
  rw [List.pairwise_map]
  refine ordered.imp_of_mem fun {found later} there there' before => ?_
  have registered := ((tabled.mem_active reports).mp there).1
  have positive := tabled.indexed found.1 registered
  omega

/-- In every run, a result of poll(2) activates exactly the channels whose `pollfd` is ready, once
each and in the order of the table; they alone are given what was reported. -/
theorem poll_exact {fd : κ → Int} {actions : List (PollerAction κ)}
    (run : Execution pollerStep PollerAdmits (construct fd) actions system)
    (reports : system.Reports reported) :
    ∃ after active, system.poll (some reported) = .ok (after, active) ∧
      (∀ key, key ∈ active ↔ system.Registered key ∧
        ∃ flags, reported[(system.poller.index key).toNat]? = some flags ∧ flags ≠ 0) ∧
      active.Pairwise (fun key later => system.poller.index key < system.poller.index later) ∧
      (∀ key ∈ active, ∀ flags, reported[(system.poller.index key).toNat]? = some flags →
        after.channels key = { system.channels key with revents := flags.signExtend 32 }) ∧
      (∀ key, key ∉ active → after.channels key = system.channels key) ∧
      after.poller = { system.poller with pollfds := system.answered reported } := by
  have tabled := run_tabled run
  have ordered := tabled.active_ordered reports
  have member (key : κ) : key ∈ (system.active reported).map Prod.fst ↔ system.Registered key ∧
      ∃ flags, reported[(system.poller.index key).toNat]? = some flags ∧ flags ≠ 0 := by
    rw [List.mem_map]
    constructor
    · rintro ⟨⟨key, revents⟩, there, rfl⟩
      obtain ⟨registered, flags, listed, some, _⟩ := (tabled.mem_active reports).mp there
      exact ⟨registered, flags, listed, some⟩
    · rintro ⟨registered, flags, listed, some⟩
      exact ⟨_, (tabled.mem_active reports).mpr ⟨registered, flags, listed, some, rfl⟩, rfl⟩
  refine ⟨_, _, tabled.poll_eq reports, member, ordered, fun key there flags listed => ?_,
    fun key absent => setRevents_of_notMem absent, rfl⟩
  obtain ⟨registered, flags', listed', some⟩ := (member key).mp there
  obtain rfl := Option.some.inj (listed.symm.trans listed')
  have once : ((system.active reported).map Prod.fst).Nodup := by
    apply ordered.imp
    rintro key _ before rfl
    exact Int.lt_irrefl _ before
  exact setRevents_of_mem once
    ((tabled.mem_active reports).mpr ⟨registered, flags, listed, some, rfl⟩)

instance (system : ChannelSystem κ) (action : PollerAction κ) :
    Decidable (system.PollerAdmits action) :=
  match action with
  | .change (.update _ _) => inferInstanceAs (Decidable (_ ≤ _))
  | .change (.removeChannel _) => .isTrue trivial
  | .poll _ => .isTrue trivial

/-- The theorem where a removal has moved the last entry and the count stops the loop early. -/
theorem poll_exact_swapped : ∃ (system : ChannelSystem Nat) (after : ChannelSystem Nat)
    (active : List Nat), system.poller.pollfds.map PollFd.fd = [7, -7, 5] ∧
      system.poll (some [0x11, 0, 0]) = .ok (after, active) ∧ 7 ∈ active ∧ 5 ∉ active := by
  let actions : List (PollerAction Nat) := [
    .change (.update 4 .enableReading), .change (.update 6 .enableReading),
    .change (.update 5 .enableReading), .change (.update 7 .enableReading), .poll (some [1, 0, 0, 0]),
    .change (.update 4 .disableAll), .change (.removeChannel 4), .change (.update 6 .disableAll)]
  have replayed : (replay pollerStep PollerAdmits .impossible
      (construct fun key : Nat => (key : Int)) actions).toOption.any (fun system => decide
        (system.poller.pollfds.map PollFd.fd = [7, -7, 5] ∧ system.Reports [0x11, 0, 0] ∧
          system.poller.channels 7 = some 7 ∧ system.poller.index 7 = 0 ∧
          system.poller.index 5 = 2)) = true := by
    decide +kernel
  obtain ⟨system, run, reached⟩ := Execution.exists_of_replay replayed
  obtain ⟨table, reports, registered, first, last⟩ := of_decide_eq_true reached
  obtain ⟨after, active, polled, exact', _⟩ := poll_exact run reports
  refine ⟨system, after, active, table, polled, (exact' 7).mpr ⟨⟨7, registered⟩, 0x11, ?_⟩, ?_⟩
  · rw [first]
    exact ⟨rfl, by decide⟩
  · intro there
    obtain ⟨_, flags, listed, some⟩ := (exact' 5).mp there
    rw [last] at listed
    cases listed
    exact some rfl

end Runs

end ChannelSystem

end TransferServer.Net
