import TransferServer.Net.Buffer
import TransferServer.Net.Channel

/-! `muduo::TcpConnection` (TcpConnection.cpp): what its members do to the socket, the output
buffer and the channel's interest. Calls on the event loop are returned as requests. -/

set_option autoImplicit false

namespace TransferServer.Net

inductive StateE where
  | kConnecting
  | kConnected
  | kDisconnecting
  | kDisconnected
  deriving DecidableEq, Repr

/-- The kernel's end of the connection. -/
structure Socket where
  /-- The bytes that write(2) has taken, in order. -/
  accepted : Bytes
  /-- For each `shutdownWrite()`, what the output buffer still held at the call. -/
  shutdowns : List Bytes
  deriving DecidableEq, Repr

def Socket.fresh : Socket := ⟨[], []⟩

def Socket.transmit (socket : Socket) (bytes : Bytes) : Socket :=
  { socket with accepted := socket.accepted ++ bytes }

/-- `::write` of `data` with the given return value. -/
def Socket.write (socket : Socket) (data : Bytes) (returned : Int) : Outcome Socket := do
  assume (-1 ≤ returned ∧ returned ≤ data.length)
  return socket.transmit (data.take returned.toNat)

def Socket.shutdownWrite (socket : Socket) (unsent : Bytes) : Socket :=
  { socket with shutdowns := socket.shutdowns ++ [unsent] }

/-- `strlen(message.data())` stops at the first NUL, be it the terminator or one inside. -/
def strlen (message : Bytes) : Nat := (message.takeWhile (· ≠ 0)).length

/-- Calls on the event loop. -/
inductive Request where
  | updateChannel
  /-- `queueInLoop(writeCompleteCallback_)` -/
  | writeComplete
  deriving DecidableEq, Repr

structure TcpConnection where
  loop : Nat
  peerAddr : Bytes
  state : StateE
  socket : Socket
  channel : Channel
  /-- Whether a write complete callback is set. -/
  writeCompleteCallback : Bool
  inputBuffer : Buffer
  outputBuffer : Buffer
  deriving DecidableEq, Repr

namespace TcpConnection

def construct (loop : Nat) (sockfd : Int) (peerAddr : Bytes) (writeCompleteCallback : Bool) :
    TcpConnection where
  loop
  peerAddr
  state := .kConnecting
  socket := .fresh
  channel := .construct sockfd
  writeCompleteCallback
  inputBuffer := .fresh
  outputBuffer := .fresh

/-- Up to the call of `connectionCallback_`. -/
def connectEstablished (conn : TcpConnection) : Outcome (TcpConnection × List Request) := do
  assert .connectEstablished (conn.state = .kConnecting)
  return ({ conn with state := .kConnected, channel := conn.channel.enableReading }, [.updateChannel])

/-- `if (writeCompleteCallback_) loop_->queueInLoop(...)` -/
def writeCompleteRequest (conn : TcpConnection) : List Request :=
  if conn.writeCompleteCallback then [.writeComplete] else []

/-- The attempt at a direct write in `sendInLoop`: the connection, `nwrote`, and the requests. -/
def writeDirectly (conn : TcpConnection) (message : Bytes) (returned : Int) :
    Outcome (TcpConnection × Int × List Request) :=
  if conn.outputBuffer.readableBytes = 0 ∧ conn.channel.isWriting = false then do
    let socket ← conn.socket.write (message.take (strlen message)) returned
    let requests :=
      if 0 ≤ returned ∧ message.length ≤ returned.toNat then conn.writeCompleteRequest else []
    return ({ conn with socket }, returned, requests)
  else return (conn, 0, [])

def sendInLoop (conn : TcpConnection) (message : Bytes) (returned : Int) :
    Outcome (TcpConnection × List Request) := do
  let (conn, nwrote, requests) ← conn.writeDirectly message returned
  assert .sendInLoop (0 ≤ nwrote)
  if nwrote.toNat < message.length then
    let outputBuffer ← conn.outputBuffer.append (message.drop nwrote.toNat)
    let conn := { conn with outputBuffer }
    if conn.channel.isWriting then return (conn, requests)
    else return ({ conn with channel := conn.channel.enableWriting }, requests ++ [.updateChannel])
  else return (conn, requests)

/-- `send` called on the thread of the connection's loop. -/
def send (conn : TcpConnection) (message : Bytes) (returned : Int) :
    Outcome (TcpConnection × List Request) :=
  if conn.state = .kConnected then conn.sendInLoop message returned else return (conn, [])

def shutdownInLoop (conn : TcpConnection) : TcpConnection :=
  if conn.channel.isWriting then conn
  else { conn with socket := conn.socket.shutdownWrite conn.outputBuffer.readable }

/-- `shutdown` called on the thread of the connection's loop. -/
def shutdown (conn : TcpConnection) : TcpConnection :=
  if conn.state = .kConnected then { conn with state := .kDisconnecting }.shutdownInLoop else conn

def handleWrite (conn : TcpConnection) (returned : Int) : Outcome (TcpConnection × List Request) :=
  if conn.channel.isWriting then do
    let socket ← conn.socket.write conn.outputBuffer.readable returned
    if 0 < returned then
      let outputBuffer ← conn.outputBuffer.retrieve returned.toNat
      let conn := { conn with socket, outputBuffer }
      if outputBuffer.readableBytes = 0 then
        let conn := { conn with channel := conn.channel.disableWriting }
        let requests := .updateChannel :: conn.writeCompleteRequest
        if conn.state = .kDisconnecting then return (conn.shutdownInLoop, requests)
        else return (conn, requests)
      else return (conn, [])
    else return ({ conn with socket }, [])
  else return (conn, [])

/-- The part of `handleRead` before its branches: the connection, and what `readFd` returns. -/
def handleRead (conn : TcpConnection) (received : Readv) : Outcome (TcpConnection × Int) := do
  let (n, _, inputBuffer) ← conn.inputBuffer.readFd received
  return ({ conn with inputBuffer }, n)

/-- Up to the call of `closeCallback_`. -/
def handleClose (conn : TcpConnection) : Outcome (TcpConnection × List Request) := do
  assert .handleClose (conn.state = .kConnected ∨ conn.state = .kDisconnecting)
  return ({ conn with channel := conn.channel.disableAll }, [.updateChannel])

/-- Up to the call of `connectionCallback_`. -/
def connectDestroyed (conn : TcpConnection) : Outcome (TcpConnection × List Request) := do
  assert .connectDestroyed (conn.state = .kConnected ∨ conn.state = .kDisconnecting)
  return ({ conn with state := .kDisconnected, channel := conn.channel.disableAll }, [.updateChannel])

@[simp] theorem state_shutdownInLoop (conn : TcpConnection) :
    conn.shutdownInLoop.state = conn.state := by
  unfold shutdownInLoop
  split <;> rfl

@[simp] theorem channel_shutdownInLoop (conn : TcpConnection) :
    conn.shutdownInLoop.channel = conn.channel := by
  unfold shutdownInLoop
  split <;> rfl

end TcpConnection

end TransferServer.Net
