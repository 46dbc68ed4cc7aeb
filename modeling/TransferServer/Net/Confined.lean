import TransferServer.Net.PollerProperties
import TransferServer.Net.TcpConnectionStanding
import TransferServer.Net.TcpServer

/-! What a computation of the server returns, and whether it fails `assertInLoopThread` (EventLoop.h),
read off the shape of the computation. -/

set_option autoImplicit false

namespace TransferServer.Net

open Base Lib

/-- Whatever the computation returns satisfies `post`. -/
abbrev Returns {Value : Type} (computation : Outcome Value) (post : Value → Prop) : Prop :=
  Ensures (fun _ : Halt => True) computation post

/-- The computation does not fail an assertion on the thread that makes it. -/
abbrev Confined {Value : Type} (computation : Outcome Value) (post : Value → Prop) : Prop :=
  Ensures (fun halt : Halt => halt ≠ .assertion .assertInLoopThread) computation post

theorem Confined.returns {Value : Type} {computation : Outcome Value} {post : Value → Prop}
    (confined : Confined computation post) : Returns computation post :=
  Ensures.relax confined fun _ _ => trivial

theorem confined_of_inner {Value : Type} {computation : Outcome Value} {post : Value → Prop}
    (inner : Ensures Halt.Inner computation post) : Confined computation post := by
  refine inner.relax fun halt inner => ?_
  obtain ⟨_, _, _, _, _, other⟩ := inner
  exact other

theorem confined_check {Value : Type} {which : Assertion} {condition : Prop} [Decidable condition]
    {next : Unit → Outcome Value} {post : Value → Prop} (other : which ≠ .assertInLoopThread)
    (continued : condition → Confined (next ()) post) :
    Confined (assert which condition >>= next) post :=
  .guard (fun same => other (Halt.assertion.inj same)) continued

theorem returns_check {Value : Type} {which : Assertion} {condition : Prop} [Decidable condition]
    {next : Unit → Outcome Value} {post : Value → Prop}
    (continued : condition → Returns (next ()) post) :
    Returns (assert which condition >>= next) post :=
  .guard trivial continued

theorem returns_any {Value : Type} (computation : Outcome Value) :
    Returns computation fun _ => True := by
  cases computation with
  | ok value => exact .ok trivial
  | error halt => exact .error trivial

namespace TcpServer

variable {server : TcpServer} {caller loop : LoopId} {conn : ConnId}

theorem confined_deref {Value : Type} {next : TcpConnection → Outcome Value} {post : Value → Prop}
    (continued : ∀ object, server.conns conn = some object → Confined (next object) post) :
    Confined (server.deref conn >>= next) post := by
  unfold deref
  cases found : server.conns conn with
  | none => exact .error nofun
  | some object => exact continued object found

theorem returns_deref {Value : Type} {next : TcpConnection → Outcome Value} {post : Value → Prop}
    (continued : ∀ object, server.conns conn = some object → Returns (next object) post) :
    Returns (server.deref conn >>= next) post := by
  unfold deref
  cases found : server.conns conn with
  | none => exact .error trivial
  | some object => exact continued object found

theorem confined_assertInLoopThread {next : Unit → Outcome TcpServer} {post : TcpServer → Prop}
    (here : server.isInLoopThread caller loop = true) (continued : Confined (next ()) post) :
    Confined (server.assertInLoopThread caller loop >>= next) post :=
  .require here continued

end TcpServer

namespace Poller

variable {κ : Type} {poller : Poller κ} {channelOf : κ → Channel}

theorem pollfd_confined (idx : Int) : Confined (poller.pollfd idx) fun _ => True := by
  unfold pollfd
  split
  · exact .ok trivial
  · exact .error nofun

theorem fillActiveChannels_confined (numEvents : Int) (pollfds : List PollFd) :
    Confined (poller.fillActiveChannels channelOf numEvents pollfds) fun activeChannels =>
      ∀ active ∈ activeChannels, ∃ fd, poller.channels fd = some active.1 := by
  induction pollfds generalizing numEvents with
  | nil => exact .ok nofun
  | cons pfd pollfds ih =>
      unfold fillActiveChannels
      split
      · split
        · split
          · exact .error nofun
          · next key listed =>
              refine confined_check (by decide) fun _ => ?_
              apply (ih _).bind
              intro activeChannels registered
              exact .ok (List.forall_mem_cons.mpr ⟨⟨pfd.fd, listed⟩, registered⟩)
        · exact ih _
      · exact .ok nofun

theorem poll_confined (reported : Option (List (BitVec 16))) :
    Confined (poller.poll channelOf reported) fun result =>
      ∀ active ∈ result.2, ∃ fd, poller.channels fd = some active.1 := by
  cases reported with
  | none => exact .ok nofun
  | some reported =>
      refine .guard nofun fun _ => ?_
      exact (fillActiveChannels_confined _ _).bind fun _ registered => .ok registered

variable [DecidableEq κ]

theorem updateChannel_confined (key : κ) (channel : Channel) :
    Confined (poller.updateChannel key channel) fun _ => True := by
  unfold updateChannel
  split
  · exact confined_check (by decide) fun _ => .ok trivial
  · refine confined_check (by decide) fun _ => ?_
    refine confined_check (by decide) fun _ => ?_
    refine confined_check (by decide) fun _ => ?_
    apply (pollfd_confined _).bind
    intro _ _
    exact confined_check (by decide) fun _ => .ok trivial

theorem removeChannel_confined (key : κ) (channel : Channel) :
    Confined (poller.removeChannel key channel) fun _ => True := by
  unfold removeChannel
  refine confined_check (by decide) fun _ => ?_
  refine confined_check (by decide) fun _ => ?_
  refine confined_check (by decide) fun _ => ?_
  refine confined_check (by decide) fun _ => ?_
  apply (pollfd_confined _).bind
  intro _ _
  refine confined_check (by decide) fun _ => ?_
  refine confined_check (by decide) fun _ => ?_
  split
  · exact .ok trivial
  · apply (pollfd_confined _).bind
    intro back _
    dsimp only
    split
    · exact .error nofun
    · exact .ok trivial

/-- No entry of the table of channels is lost. -/
theorem updateChannel_listed {key : κ} {channel : Channel} {after : Poller κ}
    (updated : poller.updateChannel key channel = .ok after) {fd : Int} {other : κ}
    (listed : poller.channels fd = some other) : after.channels fd = some other := by
  rcases updateChannel_eq_ok updated with ⟨_, absent, rfl⟩ | ⟨_, _, pfd, _, rfl⟩
  · have apart : fd ≠ channel.fd := by
      rintro rfl
      rw [absent] at listed
      cases listed
    exact (Function.update_of_ne apart ..).trans listed
  · exact listed

end Poller

end TransferServer.Net
