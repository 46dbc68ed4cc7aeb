import TransferServer.Net.EventLoop
import TransferServer.Net.PollerProperties
import TransferServer.Net.TcpConnection

/-! One `muduo::TcpConnection` shared between threads (TcpConnection.cpp, TcpServer.cpp):
`send` and `shutdown` from any of them, cut where another thread can come in between, the
functors they leave in the loop, and the holders of its `shared_ptr` while it is closed. -/

set_option autoImplicit false

namespace TransferServer.Net

/-- The functors for one connection. -/
inductive Job (τ : Type) where
  /-- The thread whose `send` it comes from is not part of the functor. -/
  | sendInLoop (sender : τ) (message : Bytes)
  | shutdownInLoop
  | connectDestroyed
  | writeComplete
  deriving DecidableEq, Repr

/-- Binds a `shared_ptr` to the connection, not the bare `this`. -/
def Job.holds {τ : Type} : Job τ → Bool
  | .sendInLoop _ _ => false
  | .shutdownInLoop => false
  | .connectDestroyed => true
  | .writeComplete => true

namespace LoopAction

variable {τ F : Type}

def actor (threadId : τ) : LoopAction τ F → τ
  | .call caller _ _ => caller
  | .push caller => caller
  | .wakeup caller => caller
  | .quit caller => caller
  | _ => threadId

/-- Neither makes a call nor runs functors. -/
def internal : LoopAction τ F → Bool
  | .call _ _ _ => false
  | .start => false
  | .finish => false
  | _ => true

end LoopAction

/-- Who holds a `shared_ptr` to the connection, outside the functors of its loop. -/
structure Holders (τ : Type) where
  /-- In `connections_`. -/
  listed : Bool
  /-- The threads with a copy of their own. -/
  copies : List τ
  /-- The `removeConnectionInLoop` functors that wait in the base loop. -/
  removals : Nat
  /-- The functors of the running batch that have been called; the batch still holds them. -/
  called : List (Job τ)
  deriving DecidableEq, Repr

/-- A record of the calls of `send` and `shutdown`. -/
structure Ledger (τ : Type) where
  /-- For each thread the messages that passed the test of `send`. -/
  accepted : τ → List Bytes
  /-- The messages in the order in which `sendInLoop` has taken them. -/
  order : List (τ × Bytes)
  /-- How many messages of each thread the last effective call of `shutdown` came after. -/
  due : τ → Nat

structure SharedConnection (τ κ : Type) where
  calls : LoopSystem τ (Job τ)
  /-- The thread of the server's loop. -/
  base : τ
  conn : TcpConnection
  key : κ
  channels : ChannelSystem κ
  /-- The threads in `shutdown`, past its test. -/
  closing : τ → Bool
  holders : Holders τ
  /-- Whether `connectDestroyed` has run. -/
  destroyed : Bool
  ledger : Ledger τ

inductive SharedAction (τ κ : Type) where
  | connectEstablished
  | acquire (caller : τ)
  | release (caller : τ)
  | send (caller : τ) (message : Bytes) (returned : Int)
  /-- `shutdown`, up to its test. -/
  | shutdown (caller : τ)
  /-- The rest of `shutdown`. -/
  | disconnect (caller : τ)
  | handleWrite (returned : Int)
  | handleClose
  | removeConnection (caller : τ)
  | removeConnectionInLoop
  /-- A call on another channel of the loop. -/
  | others (action : ChannelAction κ)
  /-- The next functor, with the return value of a `::write` in it. -/
  | start (returned : Int)
  | finish
  | advance (action : LoopAction τ (Job τ))
  deriving DecidableEq, Repr

/-- Goes on with a call that the thread is in. -/
def SharedAction.resumes {τ κ : Type} : SharedAction τ κ → Bool
  | .disconnect _ => true
  | _ => false

namespace SharedConnection

variable {τ κ : Type}

/-- As `newConnection` leaves it, before its call of `connectEstablished`. -/
def construct (threadId base : τ) (key : κ) (fd : κ → Int) (loop : Nat) (peerAddr : Bytes)
    (writeCompleteCallback : Bool) : SharedConnection τ κ where
  calls := .construct threadId
  base
  conn := .construct loop (fd key) peerAddr writeCompleteCallback
  key
  channels := .construct fd
  closing := fun _ => false
  holders := ⟨true, [], 0, []⟩
  destroyed := false
  ledger := ⟨fun _ => [], [], fun _ => 0⟩

def actor (system : SharedConnection τ κ) : SharedAction τ κ → τ
  | .acquire caller => caller
  | .release caller => caller
  | .send caller _ _ => caller
  | .shutdown caller => caller
  | .disconnect caller => caller
  | .removeConnection caller => caller
  | .removeConnectionInLoop => system.base
  | .advance action => action.actor system.calls.loop.threadId
  | _ => system.calls.loop.threadId

/-- Somebody holds a `shared_ptr`, so the connection has not been deleted. -/
def Held (system : SharedConnection τ κ) : Prop :=
  system.holders.listed = true ∨ system.holders.copies ≠ [] ∨ 0 < system.holders.removals ∨
    ∃ job ∈ system.holders.called ++ (system.calls.loop.functors ++ system.calls.loop.pendingFunctors),
      job.holds = true

/-- The poller has the channel of the connection. -/
def Registered (system : SharedConnection τ κ) : Prop :=
  system.channels.poller.channels system.conn.channel.fd = some system.key

def setConn (system : SharedConnection τ κ) (conn : TcpConnection) : SharedConnection τ κ :=
  { system with conn }

def shutdownInLoop (system : SharedConnection τ κ) : SharedConnection τ κ :=
  system.setConn system.conn.shutdownInLoop

section

variable [DecidableEq τ] [DecidableEq κ]

instance (system : SharedConnection τ κ) : Decidable system.Held :=
  inferInstanceAs (Decidable (_ = _ ∨ _ ∨ _ ∨ ∃ job ∈ _, Job.holds job = true))

instance (system : SharedConnection τ κ) : Decidable system.Registered :=
  inferInstanceAs (Decidable (_ = _))

def onLoop (system : SharedConnection τ κ) (action : LoopAction τ (Job τ)) :
    Outcome (SharedConnection τ κ) := do
  let calls ← system.calls.step action
  return { system with calls }

/-- `loop_->updateChannel(this)`, called by the channel -/
def updateChannel (system : SharedConnection τ κ) : Outcome (SharedConnection τ κ) := do
  let poller ← system.channels.poller.updateChannel system.key system.conn.channel
  let channels := Function.update system.channels.channels system.key system.conn.channel
  return { system with channels := { system.channels with channels, poller } }

def removeChannel (system : SharedConnection τ κ) : Outcome (SharedConnection τ κ) := do
  let channels ← system.channels.step (.removeChannel system.key)
  return { system with channels }

/-- What a member asks of the loop, from the loop's thread. -/
def request (system : SharedConnection τ κ) : Request → Outcome (SharedConnection τ κ)
  | .updateChannel => system.updateChannel
  | .writeComplete => do
      let caller := system.calls.loop.threadId
      let system ← system.onLoop (.call caller .queueInLoop .writeComplete)
      let system ← system.onLoop (.push caller)
      system.onLoop (.wakeup caller)

def perform (system : SharedConnection τ κ) (result : TcpConnection × List Request) :
    Outcome (SharedConnection τ κ) :=
  result.2.foldlM request (system.setConn result.1)

def accept (system : SharedConnection τ κ) (caller : τ) (message : Bytes) : SharedConnection τ κ :=
  { system with ledger := { system.ledger with
      accepted := Function.update system.ledger.accepted caller
        (system.ledger.accepted caller ++ [message]) } }

def sendInLoop (system : SharedConnection τ κ) (sender : τ) (message : Bytes) (returned : Int) :
    Outcome (SharedConnection τ κ) := do
  let result ← system.conn.sendInLoop message returned
  let ledger := { system.ledger with order := system.ledger.order ++ [(sender, message)] }
  { system with ledger }.perform result

def send (system : SharedConnection τ κ) (caller : τ) (message : Bytes) (returned : Int) :
    Outcome (SharedConnection τ κ) :=
  if system.conn.state = .kConnected then
    let system := system.accept caller message
    if system.calls.loop.isInLoopThread caller then system.sendInLoop caller message returned
    else system.onLoop (.call caller .runInLoop (.sendInLoop caller message))
  else return system

def shutdown (system : SharedConnection τ κ) (caller : τ) : SharedConnection τ κ :=
  if system.conn.state = .kConnected then
    { system with
      closing := Function.update system.closing caller true
      ledger := { system.ledger with due := fun sender => (system.ledger.accepted sender).length } }
  else system

/-- `setState(kDisconnecting)` and the call of `runInLoop`. -/
def disconnect (system : SharedConnection τ κ) (caller : τ) : Outcome (SharedConnection τ κ) := do
  let system := { system with
    conn := { system.conn with state := .kDisconnecting }
    closing := Function.update system.closing caller false }
  let system ← system.onLoop (.call caller .runInLoop .shutdownInLoop)
  if system.calls.loop.isInLoopThread caller then return system.shutdownInLoop else return system

def removeConnectionInLoop (system : SharedConnection τ κ) : Outcome (SharedConnection τ κ) := do
  assert .removeConnectionInLoop (system.holders.listed = true)
  let holders := { system.holders with
    listed := false
    -- the argument `conn`
    copies := system.base :: system.holders.copies }
  { system with holders }.onLoop (.call system.base .queueInLoop .connectDestroyed)

/-- `loop_->runInLoop(...)` with the loop of the server -/
def removeConnection (system : SharedConnection τ κ) (caller : τ) :
    Outcome (SharedConnection τ κ) :=
  if caller = system.base then system.removeConnectionInLoop
  else return { system with
    holders := { system.holders with removals := system.holders.removals + 1 } }

def connectDestroyed (system : SharedConnection τ κ) : Outcome (SharedConnection τ κ) := do
  let result ← system.conn.connectDestroyed
  let system ← system.perform result
  let system ← system.removeChannel
  return { system with destroyed := true }

/-- The call of a functor; one that binds the bare `this` needs the connection to exist. -/
def run (system : SharedConnection τ κ) (job : Job τ) (returned : Int) :
    Outcome (SharedConnection τ κ) := do
  Lib.require .dangling (job.holds = true ∨ system.Held)
  match job with
  | .sendInLoop sender message => system.sendInLoop sender message returned
  | .shutdownInLoop => return system.shutdownInLoop
  | .connectDestroyed => system.connectDestroyed
  | .writeComplete => return system

def start (system : SharedConnection τ κ) (returned : Int) : Outcome (SharedConnection τ κ) :=
  match system.calls.loop.functors with
  | [] => throw .impossible
  | job :: _ => do
      let system ← system.onLoop .start
      let holders := { system.holders with called := system.holders.called ++ [job] }
      { system with holders }.run job returned

def step (system : SharedConnection τ κ) (action : SharedAction τ κ) :
    Outcome (SharedConnection τ κ) := do
  assume (system.closing (system.actor action) = action.resumes)
  match action with
  | .connectEstablished => do
      assume (system.calls.MayCall system.calls.loop.threadId)
      let result ← system.conn.connectEstablished
      system.perform result
  | .acquire caller => do
      assume system.Held
      let copies := caller :: system.holders.copies
      return { system with holders := { system.holders with copies } }
  | .release caller => do
      assume (caller ∈ system.holders.copies ∧ system.calls.status caller = .idle)
      let copies := system.holders.copies.erase caller
      return { system with holders := { system.holders with copies } }
  | .send caller message returned => do
      assume (caller ∈ system.holders.copies ∧ system.calls.MayCall caller)
      system.send caller message returned
  | .shutdown caller => do
      assume (caller ∈ system.holders.copies ∧ system.calls.MayCall caller)
      return system.shutdown caller
  | .disconnect caller => system.disconnect caller
  | .handleWrite returned => do
      assume (system.calls.At .dispatching ∧ system.Registered)
      let result ← system.conn.handleWrite returned
      system.perform result
  | .handleClose => do
      assume (system.calls.At .dispatching ∧ system.Registered)
      let result ← system.conn.handleClose
      let system ← system.perform result
      system.removeConnection system.calls.loop.threadId
  | .removeConnection caller => do
      assume (caller ∈ system.holders.copies ∧ system.calls.MayCall caller)
      system.removeConnection caller
  | .removeConnectionInLoop => do
      assume (0 < system.holders.removals ∧ system.calls.MayCall system.base)
      let holders := { system.holders with removals := system.holders.removals - 1 }
      { system with holders }.removeConnectionInLoop
  | .others action => do
      assume (action.key ≠ system.key)
      let channels ← system.channels.step action
      return { system with channels }
  | .start returned => system.start returned
  | .finish => do
      let system ← system.onLoop .finish
      return { system with holders := { system.holders with called := [] } }
  | .advance action => do
      assume (action.internal = true)
      system.onLoop action

end

end SharedConnection

end TransferServer.Net
