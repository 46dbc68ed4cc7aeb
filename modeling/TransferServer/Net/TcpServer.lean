import Mathlib.Data.Char
import Mathlib.Data.List.Lex
import Mathlib.Data.List.Sort
import TransferServer.Base.RegisterTable
import TransferServer.Net.EventLoop
import TransferServer.Net.Poller
import TransferServer.Net.TcpConnection

/-! `muduo::TcpServer` (TcpServer.cpp, Acceptor.cpp, EventLoopThreadPool.cpp) with the callbacks
of test_multithreads.cc, on all its loops at once. A step is one callback of a handler round,
one entry of the dispatcher's `for` loop, one functor, or one move of a loop between these. -/

set_option autoImplicit false

namespace TransferServer.Net

open Base

/-- A loop with its thread: the base loop, then the loops of the pool in order. -/
abbrev LoopId := Nat

def baseLoop : LoopId := 0

/-- The number in a connection's name, which no other connection has. -/
abbrev ConnId := Nat

inductive ChannelId where
  | wakeup (loop : LoopId)
  | accept
  | connection (conn : ConnId)
  deriving DecidableEq, Repr

inductive Functor where
  | connectEstablished (conn : ConnId)
  | removeConnectionInLoop (conn : ConnId)
  | connectDestroyed (conn : ConnId)
  | sendInLoop (conn : ConnId) (message : Bytes)
  | writeComplete (conn : ConnId)
  deriving DecidableEq, Repr

/-- What a loop thread has still to do among the handlers of its active channels. -/
inductive Task where
  | handleEvent (channel : ChannelId)
  | callback (channel : ChannelId) (callback : Callback)
  /-- One entry of the dispatcher's loop over its copy of the connections. -/
  | relay (sender : ConnId) (message : Bytes) (receiver : ConnId)
  deriving DecidableEq, Repr

/-- What has happened to the connections, in order. -/
inductive Event where
  | accepted (conn : ConnId)
  | established (conn : ConnId)
  | handled (conn : ConnId) (callback : Callback)
  | closed (conn : ConnId)
  /-- The branch that prints `identify success`. -/
  | identified (conn : ConnId)
  | relayed (sender receiver : ConnId)
  | erased (conn : ConnId)
  | destroyed (conn : ConnId)
  deriving DecidableEq, Repr

/-- What the system calls of a step return. -/
structure Input where
  /-- accept(2): the descriptor and the peer's `ip:port`. -/
  accepted : Option (Int × Bytes)
  received : Readv
  written : Int

/-- The input of a step that makes no system call, or only reads the end of a stream. -/
def Input.nothing : Input := ⟨none, .ok [], 0⟩

/-- `serPacket.getPacketAsString()`: `"cdefghijklmnopqrstuv"` and `"1"`. -/
def serPacket : Bytes :=
  [99, 100, 101, 102, 103, 104, 105, 106, 107, 108, 109, 110, 111, 112, 113, 114, 115, 116, 117, 118, 49]

/-- What `onMessage` computes from a client's packets. -/
structure Handshake where
  /-- The reply to the first packet; nothing where computing it throws or goes out of bounds. -/
  firstReply : Bytes → Option Bytes
  /-- The comparison on the second packet. -/
  accepts : Bytes → Bool

structure TcpServer where
  registerTable : RegisterTable
  /-- `RegisterTable::count_` -/
  count : Int
  nextConnId : ConnId
  /-- The keys of `connections_` in their order. -/
  connections : List ConnId
  /-- `loops_.size()` and `next_` of the thread pool. -/
  numThreads : Nat
  next : Nat
  conns : ConnId → Option TcpConnection
  loops : LoopId → EventLoop LoopId Functor
  pollers : LoopId → Poller ChannelId
  wakeupChannel : LoopId → Channel
  acceptChannel : Channel
  todo : LoopId → List Task
  trace : List Event

namespace TcpServer

section Objects

variable (server : TcpServer)

/-- The connection that a `TcpConnectionPtr` points to. -/
def deref (conn : ConnId) : Outcome TcpConnection :=
  match server.conns conn with
  | some object => return object
  | none => throw .dangling

def setConn (conn : ConnId) (object : TcpConnection) : TcpServer :=
  { server with conns := Function.update server.conns conn (some object) }

def setLoop (loop : LoopId) (object : EventLoop LoopId Functor) : TcpServer :=
  { server with loops := Function.update server.loops loop object }

def setPoller (loop : LoopId) (poller : Poller ChannelId) : TcpServer :=
  { server with pollers := Function.update server.pollers loop poller }

def setTodo (loop : LoopId) (tasks : List Task) : TcpServer :=
  { server with todo := Function.update server.todo loop tasks }

def record (event : Event) : TcpServer := { server with trace := server.trace ++ [event] }

def channelOf : ChannelId → Channel
  | .wakeup loop => server.wakeupChannel loop
  | .accept => server.acceptChannel
  | .connection conn => match server.conns conn with
      | some object => object.channel
      | none => .construct (-1)

def setRevents (channel : ChannelId) (revents : Events) : TcpServer :=
  match channel with
  | .wakeup loop => { server with
      wakeupChannel := Function.update server.wakeupChannel loop
        { server.wakeupChannel loop with revents } }
  | .accept => { server with acceptChannel := { server.acceptChannel with revents } }
  | .connection conn => match server.conns conn with
      | some object => server.setConn conn { object with channel := { object.channel with revents } }
      | none => server

/-- `loop->isInLoopThread()` on the thread of `caller`. -/
def isInLoopThread (caller loop : LoopId) : Bool := (server.loops loop).isInLoopThread caller

def assertInLoopThread (caller loop : LoopId) : Outcome Unit :=
  assert .assertInLoopThread (server.isInLoopThread caller loop = true)

def queueInLoop (caller loop : LoopId) (cb : Functor) : TcpServer :=
  server.setLoop loop ((server.loops loop).queueInLoop caller cb)

/-- What a member of the connection has asked of its loop. -/
def perform (caller : LoopId) (conn : ConnId) (request : Request) : Outcome TcpServer := do
  let object ← server.deref conn
  match request with
  | .updateChannel => do
      server.assertInLoopThread caller object.loop
      let poller ← (server.pollers object.loop).updateChannel (.connection conn) object.channel
      return server.setPoller object.loop poller
  | .writeComplete => return server.queueInLoop caller object.loop (.writeComplete conn)

/-- The connection as a member leaves it, and the calls the member makes on the loop. -/
def commit (caller : LoopId) (conn : ConnId) (result : TcpConnection × List Request) :
    Outcome TcpServer :=
  result.2.foldlM (fun server request => server.perform caller conn request)
    (server.setConn conn result.1)

end Objects

section Teardown

variable (server : TcpServer) (caller : LoopId) (conn : ConnId)

def removeConnectionInLoop : Outcome TcpServer := do
  server.assertInLoopThread caller baseLoop
  let object ← server.deref conn
  let n := server.connections.count conn
  let server := { server with connections := server.connections.erase conn }
  assert .removeConnectionInLoop (n = 1)
  return (server.record (.erased conn)).queueInLoop caller object.loop (.connectDestroyed conn)

def removeConnection : Outcome TcpServer :=
  if server.isInLoopThread caller baseLoop then server.removeConnectionInLoop caller conn
  else return server.queueInLoop caller baseLoop (.removeConnectionInLoop conn)

def handleClose : Outcome TcpServer := do
  let object ← server.deref conn
  server.assertInLoopThread caller object.loop
  let result ← object.handleClose
  let server ← (server.record (.closed conn)).commit caller conn result
  server.removeConnection caller conn

/-- `onConnection` only prints here, since the connection is down. -/
def connectDestroyed : Outcome TcpServer := do
  let object ← server.deref conn
  server.assertInLoopThread caller object.loop
  let result ← object.connectDestroyed
  let server ← (server.record (.destroyed conn)).commit caller conn result
  let poller ← (server.pollers object.loop).removeChannel (.connection conn) result.1.channel
  return server.setPoller object.loop poller

end Teardown

section Sending

variable (server : TcpServer) (caller : LoopId) (conn : ConnId) (message : Bytes) (written : Int)

def sendInLoop : Outcome TcpServer := do
  let object ← server.deref conn
  server.assertInLoopThread caller object.loop
  let result ← object.sendInLoop message written
  server.commit caller conn result

def send : Outcome TcpServer := do
  let object ← server.deref conn
  if object.state = .kConnected then
    if server.isInLoopThread caller object.loop then server.sendInLoop caller conn message written
    else return server.queueInLoop caller object.loop (.sendInLoop conn message)
  else return server

def handleWrite : Outcome TcpServer := do
  let object ← server.deref conn
  server.assertInLoopThread caller object.loop
  let result ← object.handleWrite written
  server.commit caller conn result

end Sending

section Arrival

variable (server : TcpServer) (caller : LoopId)

def onConnection (conn : ConnId) (written : Int) : Outcome TcpServer := do
  let object ← server.deref conn
  if object.state = .kConnected then server.send caller conn serPacket written else return server

def connectEstablished (conn : ConnId) (written : Int) : Outcome TcpServer := do
  let object ← server.deref conn
  server.assertInLoopThread caller object.loop
  let result ← object.connectEstablished
  let server ← (server.record (.established conn)).commit caller conn result
  server.onConnection caller conn written

/-- `getNextLoop`: the loop, and `next_` afterwards. -/
def getNextLoop : LoopId × Nat :=
  if server.numThreads = 0 then (baseLoop, server.next)
  else (server.next + 1, if server.numThreads ≤ server.next + 1 then 0 else server.next + 1)

/-- The order of the keys of `connections_`, which differ in their last part only. -/
def connName (conn : ConnId) : List Char := Nat.toDigits 10 conn

def newConnection (sockfd : Int) (peerAddr : Bytes) (written : Int) : Outcome TcpServer := do
  server.assertInLoopThread caller baseLoop
  let conn := server.nextConnId
  let (ioLoop, next) := server.getNextLoop
  let object := TcpConnection.construct ioLoop sockfd peerAddr false
  let server := { server.setConn conn object with
    nextConnId := conn + 1
    next
    connections :=
      server.connections.orderedInsert (fun left right => connName left ≤ connName right) conn }
  let server := server.record (.accepted conn)
  if server.isInLoopThread caller ioLoop then server.connectEstablished caller conn written
  else return server.queueInLoop caller ioLoop (.connectEstablished conn)

/-- `Acceptor::handleRead` -/
def acceptConnection (accepted : Option (Int × Bytes)) (written : Int) : Outcome TcpServer := do
  server.assertInLoopThread caller baseLoop
  match accepted with
  | some (connfd, peerAddr) =>
      if 0 ≤ connfd then server.newConnection caller connfd peerAddr written else return server
  | none => return server

end Arrival

section Messages

variable (handshake : Handshake) (server : TcpServer) (caller : LoopId)

/-- `buf->retrieveAsString()` on the input buffer. -/
def retrieveAsString (conn : ConnId) (object : TcpConnection) : Bytes × TcpServer :=
  let (data, inputBuffer) := object.inputBuffer.retrieveAsString
  (data, server.setConn conn { object with inputBuffer })

def onMessage (conn : ConnId) (written : Int) : Outcome TcpServer := do
  let object ← server.deref conn
  let str := object.peerAddr
  let (registerTable, count) := server.registerTable.myRegister server.count str
  let (data, server) := { server with registerTable, count }.retrieveAsString conn object
  if registerTable.getValue str = 1 then
    let server := { server with registerTable := registerTable.addValue str }
    match handshake.firstReply data with
    | some sendInfo => server.send caller conn sendInfo written
    | none => throw .outOfBounds
  else if registerTable.getValue str = 2 then
    let server := { server with registerTable := registerTable.addValue str }
    if handshake.accepts data then
      -- `cliPacket1` was never filled in here
      (server.record (.identified conn)).send caller conn [] written
    else
      let server ← server.removeConnection caller conn
      return { server with registerTable := server.registerTable.myUnregister str }
  else
    let connections := server.connections
    return server.setTodo caller (connections.map (.relay conn data) ++ server.todo caller)

def relay (sender : ConnId) (message : Bytes) (receiver : ConnId) (written : Int) :
    Outcome TcpServer :=
  if receiver ≠ sender then do
    let object ← server.deref receiver
    if server.registerTable.getValue object.peerAddr = 0 then server.removeConnection caller receiver
    else (server.record (.relayed sender receiver)).send caller receiver message written
  else return server

/-- `handleError` only logs. -/
def handleRead (conn : ConnId) (received : Readv) (written : Int) : Outcome TcpServer := do
  let object ← server.deref conn
  let (object, n) ← object.handleRead received
  let server := server.setConn conn object
  if 0 < n then server.onMessage handshake caller conn written
  else if n = 0 then server.handleClose caller conn
  else return server

end Messages

section Steps

variable (handshake : Handshake) (server : TcpServer) (loop : LoopId)

/-- The callbacks that are set: all four of a connection, elsewhere the read callback. -/
def callback (channel : ChannelId) (callback : Callback) (input : Input) : Outcome TcpServer :=
  match channel, callback with
  | .wakeup ownerLoop, .read =>
      return server.setLoop ownerLoop (server.loops ownerLoop).handleRead
  | .accept, .read => server.acceptConnection loop input.accepted input.written
  | .connection conn, called =>
      let server := server.record (.handled conn called)
      match called with
      | .close => server.handleClose loop conn
      | .error => return server
      | .read => server.handleRead handshake loop conn input.received input.written
      | .write => server.handleWrite loop conn input.written
  | _, _ => return server

def runTask (task : Task) (input : Input) : Outcome TcpServer :=
  match task with
  | .handleEvent channel =>
      let callbacks := Channel.handleEvent (server.channelOf channel).revents
      return server.setTodo loop (callbacks.map (.callback channel) ++ server.todo loop)
  | .callback channel called => server.callback handshake loop channel called input
  | .relay sender message receiver => server.relay loop sender message receiver input.written

def runFunctor (functor : Functor) (input : Input) : Outcome TcpServer :=
  match functor with
  | .connectEstablished conn => server.connectEstablished loop conn input.written
  | .removeConnectionInLoop conn => server.removeConnectionInLoop loop conn
  | .connectDestroyed conn => server.connectDestroyed loop conn
  | .sendInLoop conn message => server.sendInLoop loop conn message input.written
  | .writeComplete _ => return server

end Steps

inductive Action where
  | poll (loop : LoopId) (reported : Option (List (BitVec 16)))
  | handle (loop : LoopId) (input : Input)
  | prepare (loop : LoopId)
  | swap (loop : LoopId)
  | run (loop : LoopId) (input : Input)
  | finish (loop : LoopId)

def Action.loop : Action → LoopId
  | .poll loop _ => loop
  | .handle loop _ => loop
  | .prepare loop => loop
  | .swap loop => loop
  | .run loop _ => loop
  | .finish loop => loop

def poll (server : TcpServer) (loop : LoopId) (reported : Option (List (BitVec 16))) :
    Outcome TcpServer := do
  assume ((server.loops loop).phase = .polling)
  let (poller, activeChannels) ← (server.pollers loop).poll server.channelOf reported
  let polled := (server.setPoller loop poller).setLoop loop (server.loops loop).poll
  let marked := activeChannels.foldl
    (fun server (active : ChannelId × Events) => server.setRevents active.1 active.2) polled
  return marked.setTodo loop (activeChannels.map fun active => .handleEvent active.1)

def step (handshake : Handshake) (server : TcpServer) (action : Action) : Outcome TcpServer := do
  assume (action.loop ≤ server.numThreads)
  match action with
  | .poll loop reported => server.poll loop reported
  | .handle loop input => do
      assume ((server.loops loop).phase = .dispatching)
      match server.todo loop with
      | [] => throw .impossible
      | task :: tasks => (server.setTodo loop tasks).runTask handshake loop task input
  | .prepare loop => do
      assume ((server.loops loop).phase = .dispatching ∧ server.todo loop = [])
      return server.setLoop loop (server.loops loop).prepare
  | .swap loop => do
      assume ((server.loops loop).phase = .swapping)
      return server.setLoop loop (server.loops loop).swap
  | .run loop input => do
      assume ((server.loops loop).phase = .running)
      match (server.loops loop).functors with
      | [] => throw .impossible
      | functor :: functors =>
          (server.setLoop loop { server.loops loop with functors }).runFunctor loop functor input
  | .finish loop => do
      assume ((server.loops loop).phase = .running ∧ (server.loops loop).functors = [])
      return server.setLoop loop (server.loops loop).finish.test

/-- The server listening, with every loop about to poll for the first time. The timerfd channels are
left out: no timer is ever armed, so none of them is reported. -/
def start (numThreads : Nat) (wakeupFd : LoopId → Int) (acceptFd : Int) : TcpServer :=
  let wakeupChannel := fun loop => (Channel.construct (wakeupFd loop)).enableReading
  let acceptChannel := (Channel.construct acceptFd).enableReading
  { registerTable := .empty
    count := 0
    nextConnId := 1
    connections := []
    numThreads
    next := 0
    conns := fun _ => none
    loops := fun loop => { EventLoop.construct loop with phase := .polling, looping := true }
    pollers := fun loop =>
      let poller := Poller.construct.addChannel (.wakeup loop) (wakeupChannel loop)
      if loop = baseLoop then poller.addChannel .accept acceptChannel else poller
    wakeupChannel
    acceptChannel
    todo := fun _ => []
    trace := [] }

end TcpServer

end TransferServer.Net
