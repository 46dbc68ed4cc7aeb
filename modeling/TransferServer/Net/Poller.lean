import Mathlib.Logic.Function.Basic
import TransferServer.Base.Outcome
import TransferServer.Net.Channel

/-! `muduo::Poller` (Poller.h, Poller.cpp) over any kind of channel. A channel is named by a
key, as the source names it by its address; `index_`, which only the poller uses, is kept here. -/

set_option autoImplicit false

namespace TransferServer.Net

/-- `struct pollfd`, with its fields of type `short`. -/
structure PollFd where
  fd : Int
  events : BitVec 16
  revents : BitVec 16
  deriving DecidableEq, Repr

structure Poller (κ : Type) where
  pollfds : List PollFd
  channels : Int → Option κ
  index : κ → Int

namespace Poller

variable {κ : Type}

def construct : Poller κ := ⟨[], fun _ => none, fun _ => -1⟩

/-- `pollfds_[idx]` -/
def pollfd (poller : Poller κ) (idx : Int) : Outcome PollFd :=
  match poller.pollfds[idx.toNat]? with
  | some pfd => return pfd
  | none => throw .outOfBounds

/-- The channels to be called and the `revents` they are given. -/
def fillActiveChannels (poller : Poller κ) (channelOf : κ → Channel) (numEvents : Int) :
    List PollFd → Outcome (List (κ × Events))
  | [] => return []
  | pfd :: pollfds =>
      if 0 < numEvents then
        if 0 < pfd.revents.toInt then
          match poller.channels pfd.fd with
          | none => throw (.assertion .fillActiveChannels)
          | some key => do
              assert .fillActiveChannels ((channelOf key).fd = pfd.fd)
              let activeChannels ← poller.fillActiveChannels channelOf (numEvents - 1) pollfds
              return (key, pfd.revents.signExtend 32) :: activeChannels
        else poller.fillActiveChannels channelOf numEvents pollfds
      else return []

/-- `poll`, with what poll(2) stores to the `revents` fields, or nothing where it fails. -/
def poll (poller : Poller κ) (channelOf : κ → Channel) (reported : Option (List (BitVec 16))) :
    Outcome (Poller κ × List (κ × Events)) :=
  match reported with
  | none => return (poller, [])
  | some reported => do
      assume (reported.length = poller.pollfds.length ∧
        ∀ entry ∈ poller.pollfds.zip reported, entry.1.fd < 0 → entry.2 = 0)
      let pollfds := List.zipWith (fun pfd revents => { pfd with revents }) poller.pollfds reported
      let poller := { poller with pollfds }
      let activeChannels ← poller.fillActiveChannels channelOf (reported.countP (· ≠ 0)) pollfds
      return (poller, activeChannels)

section

variable [DecidableEq κ]

/-- The branch of `updateChannel` for a channel that has no index yet. -/
def addChannel (poller : Poller κ) (key : κ) (channel : Channel) : Poller κ where
  pollfds := poller.pollfds ++ [⟨channel.fd, channel.events.setWidth 16, 0⟩]
  channels := Function.update poller.channels channel.fd (some key)
  index := Function.update poller.index key poller.pollfds.length

def updateChannel (poller : Poller κ) (key : κ) (channel : Channel) : Outcome (Poller κ) :=
  if poller.index key < 0 then do
    assert .updateChannel (poller.channels channel.fd = none)
    return poller.addChannel key channel
  else do
    assert .updateChannel (poller.channels channel.fd ≠ none)
    assert .updateChannel (poller.channels channel.fd = some key)
    let idx := poller.index key
    assert .updateChannel (0 ≤ idx ∧ idx < poller.pollfds.length)
    let pfd ← poller.pollfd idx
    assert .updateChannel (pfd.fd = channel.fd ∨ pfd.fd = -channel.fd - 1)
    -- `pfd.fd` stays negative once it is: only ignoring a descriptor writes to it
    let fd := if channel.isNoneEvent then -channel.fd - 1 else pfd.fd
    return { poller with
      pollfds := poller.pollfds.set idx.toNat ⟨fd, channel.events.setWidth 16, 0⟩ }

def removeChannel (poller : Poller κ) (key : κ) (channel : Channel) : Outcome (Poller κ) := do
  assert .removeChannel (poller.channels channel.fd ≠ none)
  assert .removeChannel (poller.channels channel.fd = some key)
  assert .removeChannel (channel.isNoneEvent = true)
  let idx := poller.index key
  assert .removeChannel (0 ≤ idx ∧ idx < poller.pollfds.length)
  let pfd ← poller.pollfd idx
  assert .removeChannel
    (pfd.fd = -channel.fd - 1 ∧ pfd.events.signExtend 32 = channel.events)
  let n := if (poller.channels channel.fd).isSome then 1 else 0
  let channels := Function.update poller.channels channel.fd none
  assert .removeChannel (n = 1)
  if idx.toNat = poller.pollfds.length - 1 then
    return { poller with channels, pollfds := poller.pollfds.dropLast }
  else
    let back ← poller.pollfd (poller.pollfds.length - 1)
    let channelAtEnd := if back.fd < 0 then -back.fd - 1 else back.fd
    match channels channelAtEnd with
    | none => throw .dangling
    | some other =>
        return { poller with
          channels
          pollfds := ((poller.pollfds.set idx.toNat back).set (poller.pollfds.length - 1) pfd).dropLast
          index := Function.update poller.index other idx }

end

end Poller

end TransferServer.Net
