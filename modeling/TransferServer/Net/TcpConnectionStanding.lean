import TransferServer.Lib.Ensures
import TransferServer.Net.Lifecycle
import TransferServer.Net.TcpConnection

/-! What the members of a connection do to its standing, and which assertions they can fail. -/

set_option autoImplicit false

namespace TransferServer.Net

open Lib

/-- Where a connection stands. Only its state ever changes. -/
structure Standing where
  loop : Nat
  fd : Int
  peerAddr : Bytes
  state : StateE
  writeCompleteCallback : Bool

def TcpConnection.standing (object : TcpConnection) : Standing :=
  ⟨object.loop, object.channel.fd, object.peerAddr, object.state, object.writeCompleteCallback⟩

/-- Everything but the assertions on the teardown of a connection; where removals need not be
timely, that includes the one of `removeConnectionInLoop`. -/
def Halt.Tolerated (timely : Prop) (halt : Halt) : Prop :=
  halt ≠ .assertion .handleClose ∧ halt ≠ .assertion .connectDestroyed ∧
    (timely → halt ≠ .assertion .removeConnectionInLoop)

/-- Neither an assertion on the thread, on the poller or on the teardown, nor the use of a dead
object. -/
def Halt.Inner (halt : Halt) : Prop :=
  halt ≠ .dangling ∧ halt ≠ .assertion .updateChannel ∧ halt ≠ .assertion .handleClose ∧
    halt ≠ .assertion .connectDestroyed ∧ halt ≠ .assertion .removeConnectionInLoop ∧
      halt ≠ .assertion .assertInLoopThread

variable {timely : Prop}

theorem Halt.Inner.tolerated {halt : Halt} (inner : Halt.Inner halt) :
    Halt.Tolerated timely halt := by
  obtain ⟨_, _, close, destroyed, removed, _⟩ := inner
  exact ⟨close, destroyed, fun _ => removed⟩

/-- A check whose failure is tolerated may be taken to succeed. -/
theorem ensures_check {Value : Type} {which : Assertion} {condition : Prop} [Decidable condition]
    {next : Unit → Outcome Value} {post : Value → Prop}
    (tolerated : Halt.Tolerated timely (.assertion which))
    (continued : condition → Ensures (Halt.Tolerated timely) (next ()) post) :
    Ensures (Halt.Tolerated timely) (assert which condition >>= next) post :=
  .guard tolerated continued

namespace Buffer

variable (buffer : Buffer)

theorem copyTo_inner (position : Nat) (data : Bytes) :
    Ensures Halt.Inner (buffer.copyTo position data) fun _ => True :=
  .guard (by simp [Halt.Inner]) fun _ => .ok trivial

theorem makeSpace_inner (len : Nat) : Ensures Halt.Inner (buffer.makeSpace len) fun _ => True := by
  unfold makeSpace
  split
  · exact .ok trivial
  · refine .guard (by simp [Halt.Inner]) fun _ => ?_
    refine (buffer.copyTo_inner _ _).bind fun _ _ => ?_
    exact .guard (by simp [Halt.Inner]) fun _ => .ok trivial

theorem append_inner (data : Bytes) : Ensures Halt.Inner (buffer.append data) fun _ => True := by
  have roomy : Ensures Halt.Inner (buffer.ensureWritableBytes data.length) fun _ => True := by
    unfold ensureWritableBytes
    split
    · refine (buffer.makeSpace_inner _).bind fun _ _ => ?_
      exact .guard (by simp [Halt.Inner]) fun _ => .ok trivial
    · exact .guard (by simp [Halt.Inner]) fun _ => .ok trivial
  refine roomy.bind fun roomy _ => ?_
  exact (roomy.copyTo_inner _ _).bind fun _ _ => .ok trivial

theorem retrieve_inner (len : Nat) : Ensures Halt.Inner (buffer.retrieve len) fun _ => True :=
  .guard (by simp [Halt.Inner]) fun _ => .ok trivial

/-- What `readFd` returns. -/
def readReturn : Readv → Int
  | .error _ => -1
  | .ok bytes => bytes.length

theorem eq_ok_of_readReturn_pos {received : Readv} (positive : 0 < readReturn received) :
    ∃ bytes, received = .ok bytes ∧ bytes ≠ [] := by
  cases received with
  | error errno => exact absurd positive (by simp [readReturn])
  | ok bytes =>
      refine ⟨bytes, rfl, ?_⟩
      rintro rfl
      simp [readReturn] at positive

theorem eq_ok_of_readReturn_eq_zero {received : Readv} (none : readReturn received = 0) :
    received = .ok [] := by
  cases received with
  | error errno => exact absurd none (by simp [readReturn])
  | ok bytes => simpa [readReturn] using none

theorem readFd_inner (received : Readv) :
    Ensures Halt.Inner (buffer.readFd received)
      fun result => result.1 = readReturn received := by
  cases received with
  | error errno => exact .ok rfl
  | ok bytes =>
      refine .guard (by simp [Halt.Inner]) fun _ => ?_
      refine (buffer.copyTo_inner _ _).bind fun filled _ => ?_
      split
      · exact .ok rfl
      · exact (append_inner _ _).bind fun _ _ => .ok rfl

end Buffer

namespace TcpConnection

variable (object : TcpConnection)

/-- The member leaves the connection standing as it was, with the input it had, and asks for channel
updates only, unless there is a write complete callback to run. -/
structure Keeps (result : TcpConnection × List Request) : Prop where
  standing : result.1.standing = object.standing
  input : result.1.inputBuffer = object.inputBuffer
  silent : object.writeCompleteCallback = false → ∀ request ∈ result.2, request = .updateChannel

theorem write_inner (socket : Socket) (data : Bytes) (returned : Int) :
    Ensures Halt.Inner (socket.write data returned) fun _ => True :=
  .guard (by simp [Halt.Inner]) fun _ => .ok trivial

theorem writeDirectly_inner (message : Bytes) (returned : Int) :
    Ensures Halt.Inner (object.writeDirectly message returned)
      fun result => object.Keeps (result.1, result.2.2) := by
  unfold writeDirectly
  split
  · refine (write_inner _ _ _).bind fun socket _ => .ok ⟨rfl, rfl, fun silent => ?_⟩
    simp [writeCompleteRequest, silent]
  · exact .ok ⟨rfl, rfl, fun _ => by simp⟩

theorem sendInLoop_inner (message : Bytes) (returned : Int) :
    Ensures Halt.Inner (object.sendInLoop message returned) object.Keeps := by
  refine (object.writeDirectly_inner message returned).bind fun ⟨written, nwrote, requests⟩ keeps => ?_
  obtain ⟨same, input, silent⟩ := keeps
  refine .guard (by simp [Halt.Inner]) fun _ => ?_
  split
  · refine (Buffer.append_inner _ _).bind fun outputBuffer _ => ?_
    dsimp only
    split
    · exact .ok ⟨same, input, silent⟩
    · refine .ok ⟨same, input, fun uncalled request asked => ?_⟩
      rcases List.mem_append.mp asked with earlier | update
      · exact silent uncalled request earlier
      · exact List.mem_singleton.mp update
  · exact .ok ⟨same, input, silent⟩

theorem sendInLoop_keeps (message : Bytes) (returned : Int) :
    Ensures (Halt.Tolerated timely) (object.sendInLoop message returned) object.Keeps :=
  (object.sendInLoop_inner message returned).relax fun _ => Halt.Inner.tolerated

theorem handleWrite_inner (returned : Int) :
    Ensures Halt.Inner (object.handleWrite returned) object.Keeps := by
  unfold handleWrite
  split
  · refine (write_inner _ _ _).bind fun socket _ => ?_
    split
    · refine (Buffer.retrieve_inner _ _).bind fun outputBuffer _ => ?_
      dsimp only
      split
      · split
        · refine .ok ⟨?_, ?_, fun uncalled => ?_⟩
          · unfold shutdownInLoop
            split <;> rfl
          · unfold shutdownInLoop
            split <;> rfl
          · simp [writeCompleteRequest, uncalled]
        · exact .ok ⟨rfl, rfl, fun uncalled => by simp [writeCompleteRequest, uncalled]⟩
      · exact .ok ⟨rfl, rfl, fun _ => by simp⟩
    · exact .ok ⟨rfl, rfl, fun _ => by simp⟩
  · exact .ok ⟨rfl, rfl, fun _ => by simp⟩

theorem handleWrite_keeps (returned : Int) :
    Ensures (Halt.Tolerated timely) (object.handleWrite returned) object.Keeps :=
  (object.handleWrite_inner returned).relax fun _ => Halt.Inner.tolerated

theorem handleRead_inner (received : Readv) :
    Ensures Halt.Inner (object.handleRead received) fun result =>
      result.1.standing = object.standing ∧ result.2 = Buffer.readReturn received :=
  (Buffer.readFd_inner _ _).bind fun _ returned => .ok ⟨rfl, returned⟩

theorem handleRead_keeps (received : Readv) :
    Ensures (Halt.Tolerated timely) (object.handleRead received) fun result =>
      result.1.standing = object.standing ∧ result.2 = Buffer.readReturn received :=
  (object.handleRead_inner received).relax fun _ => Halt.Inner.tolerated

theorem handleClose_of_up (up : object.state.Up) : object.handleClose =
    .ok ({ object with channel := object.channel.disableAll }, [.updateChannel]) :=
  assert_bind_eq_ok.mpr ⟨up, rfl⟩

theorem connectDestroyed_of_up (up : object.state.Up) : object.connectDestroyed =
    .ok ({ object with state := .kDisconnected, channel := object.channel.disableAll },
      [.updateChannel]) :=
  assert_bind_eq_ok.mpr ⟨up, rfl⟩

theorem connectEstablished_tolerated :
    Ensures (Halt.Tolerated timely) object.connectEstablished fun result =>
      object.state = .kConnecting ∧
        result = ({ object with state := .kConnected, channel := object.channel.enableReading },
          [.updateChannel]) :=
  ensures_check (by simp [Halt.Tolerated]) fun connecting => .ok ⟨connecting, rfl⟩

end TcpConnection

end TransferServer.Net
