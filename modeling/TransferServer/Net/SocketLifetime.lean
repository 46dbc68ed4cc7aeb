import TransferServer.Net.TcpServerInvariants

/-! The lifetime of the connections of `muduo::TcpServer` (TcpConnection.h, Socket.cpp): a
`TcpConnection` is deleted after the last `TcpConnectionPtr` to it is gone, `~Socket` closes its
descriptor, and accept(2) may return that descriptor again. -/

set_option autoImplicit false

namespace TransferServer.Net

/-- The connection that the functor binds by a `TcpConnectionPtr`, not by the bare `this`. -/
def Functor.holds : Functor → Option ConnId
  | .connectEstablished conn => some conn
  | .removeConnectionInLoop conn => some conn
  | .connectDestroyed conn => some conn
  | .sendInLoop _ _ => none
  | .writeComplete conn => some conn

/-- The connections that a handler on the stack has pointers to between steps. The callbacks of a
channel are bound to the bare `this`. -/
def Task.holds : Task → List ConnId
  | .relay sender _ receiver => [sender, receiver]
  | _ => []

/-- The connection whose members the task calls. -/
def Task.target : Task → Option ConnId
  | .handleEvent (.connection conn) => some conn
  | .callback (.connection conn) _ => some conn
  | .relay _ _ receiver => some receiver
  | _ => none

namespace TcpServer

variable (server : TcpServer)

/-- The loops that run. -/
def running : List LoopId := List.range (server.numThreads + 1)

/-- Somebody has a `TcpConnectionPtr` to the connection. -/
def Held (conn : ConnId) : Prop :=
  conn ∈ server.connections ∨ ∃ loop ∈ server.running,
    (∃ functor ∈ server.agenda loop, functor.holds = some conn) ∨
      ∃ task ∈ server.todo loop, conn ∈ task.holds

instance (conn : ConnId) : Decidable (server.Held conn) :=
  inferInstanceAs (Decidable (_ ∨ ∃ loop ∈ server.running, (∃ _ ∈ _, _) ∨ ∃ _ ∈ _, _))

/-- The connection whose members the step calls. -/
def target : Action → Option ConnId
  | .handle loop _ => (server.todo loop).head?.bind Task.target
  | .run loop _ => (server.loops loop).functors.head?.map Functor.conn
  | _ => none

/-- What accept(2) returns in the step. -/
def accepts : Action → Option Int
  | .handle loop input =>
      if (server.todo loop).head? = some (.callback .accept .read) then input.accepted.map Prod.fst
      else none
  | _ => none

end TcpServer

structure ServerObjects where
  server : TcpServer
  /-- The connections that have been deleted, whose sockets are closed. -/
  deleted : List ConnId

inductive ObjectAction where
  | step (action : TcpServer.Action)
  /-- `~TcpConnection` and `~Socket`, on whatever thread dropped the last pointer. -/
  | delete (conn : ConnId)

namespace ServerObjects

def start (numThreads : Nat) (wakeupFd : LoopId → Int) (acceptFd : Int) : ServerObjects :=
  ⟨.start numThreads wakeupFd acceptFd, []⟩

def step (handshake : Handshake) (objects : ServerObjects) :
    ObjectAction → Outcome ServerObjects
  | .step action =>
      if ∃ conn ∈ objects.server.target action, conn ∈ objects.deleted then throw .dangling
      else do
        let server ← objects.server.step handshake action
        return { objects with server }
  | .delete conn => do
      assume (objects.server.conns conn ≠ none ∧ conn ∉ objects.deleted ∧ ¬ objects.server.Held conn)
      return { objects with deleted := conn :: objects.deleted }

variable (objects : ServerObjects)

/-- The channels whose descriptors are open in the process. -/
def openChannels : List ChannelId :=
  .accept :: objects.server.running.map .wakeup ++
    ((List.range objects.server.nextConnId).filter fun conn =>
      objects.server.conns conn ≠ none ∧ conn ∉ objects.deleted).map .connection

def openFds : List Int :=
  objects.openChannels.map fun channel => (objects.server.channelOf channel).fd

/-- accept(2) returns no descriptor that is open. -/
def Admits : ObjectAction → Prop
  | .step action => ∀ fd ∈ objects.server.accepts action, 0 ≤ fd → fd ∉ objects.openFds
  | .delete _ => True

instance (action : ObjectAction) : Decidable (objects.Admits action) :=
  match action with
  | .step action =>
      inferInstanceAs (Decidable (∀ fd ∈ objects.server.accepts action, 0 ≤ fd → fd ∉ objects.openFds))
  | .delete _ => .isTrue trivial

end ServerObjects

end TransferServer.Net
