import TransferServer.Base.Outcome

/-! `muduo::Channel` (Channel.h, Channel.cpp): the interest of one file descriptor and the
callbacks that a poll result selects. `update()` is the owning loop's affair. -/

set_option autoImplicit false

namespace TransferServer.Net

/-- An `int` of poll(2) flags. -/
abbrev Events := BitVec 32

def POLLIN : Events := 0x1
def POLLPRI : Events := 0x2
def POLLOUT : Events := 0x4
def POLLERR : Events := 0x8
def POLLHUP : Events := 0x10
def POLLNVAL : Events := 0x20
def POLLRDHUP : Events := 0x2000

structure Channel where
  fd : Int
  events : Events
  revents : Events
  deriving DecidableEq, Repr

inductive Callback where
  | close
  | error
  | read
  | write
  deriving DecidableEq, Repr

namespace Channel

def kNoneEvent : Events := 0
def kReadEvent : Events := POLLIN ||| POLLPRI
def kWriteEvent : Events := POLLOUT

def construct (fd : Int) : Channel := ⟨fd, kNoneEvent, 0⟩

def enableReading (channel : Channel) : Channel :=
  { channel with events := channel.events ||| kReadEvent }

def enableWriting (channel : Channel) : Channel :=
  { channel with events := channel.events ||| kWriteEvent }

def disableWriting (channel : Channel) : Channel :=
  { channel with events := channel.events &&& ~~~kWriteEvent }

def disableAll (channel : Channel) : Channel :=
  { channel with events := kNoneEvent }

def isNoneEvent (channel : Channel) : Bool := channel.events = kNoneEvent

def isWriting (channel : Channel) : Bool := channel.events &&& kWriteEvent ≠ 0

/-- The callbacks `handleEvent` calls, in its order. -/
def handleEvent (revents : Events) : List Callback :=
  (if revents &&& POLLHUP ≠ 0 ∧ revents &&& POLLIN = 0 then [.close] else []) ++
  (if revents &&& (POLLERR ||| POLLNVAL) ≠ 0 then [.error] else []) ++
  (if revents &&& (POLLIN ||| POLLPRI ||| POLLRDHUP) ≠ 0 then [.read] else []) ++
  (if revents &&& POLLOUT ≠ 0 then [.write] else [])

@[simp] theorem isWriting_enableWriting (channel : Channel) :
    channel.enableWriting.isWriting = true := by
  have absorbed : (channel.events ||| kWriteEvent) &&& kWriteEvent = kWriteEvent := by
    ext index
    simp only [BitVec.getElem_and, BitVec.getElem_or]
    cases channel.events[index] <;> simp
  simp only [isWriting, enableWriting, absorbed]
  decide

@[simp] theorem isWriting_disableWriting (channel : Channel) :
    channel.disableWriting.isWriting = false := by
  have cleared : channel.events &&& ~~~kWriteEvent &&& kWriteEvent = 0 := by
    ext index
    simp
  simp only [isWriting, disableWriting, cleared]
  decide

@[simp] theorem isWriting_enableReading (channel : Channel) :
    channel.enableReading.isWriting = channel.isWriting := by
  have apart : kReadEvent &&& kWriteEvent = 0#32 := by decide
  have kept : (channel.events ||| kReadEvent) &&& kWriteEvent = channel.events &&& kWriteEvent := by
    rw [BitVec.and_comm, BitVec.and_or_distrib_left, BitVec.and_comm kWriteEvent kReadEvent, apart,
      BitVec.or_zero, BitVec.and_comm]
  simp only [isWriting, enableReading, kept]

@[simp] theorem isWriting_construct (fd : Int) : (construct fd).isWriting = false := by
  simp [isWriting, construct, kNoneEvent]

end Channel

end TransferServer.Net
