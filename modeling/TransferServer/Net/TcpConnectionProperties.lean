import TransferServer.Lib.Execution
import TransferServer.Net.BufferProperties
import TransferServer.Net.TcpConnection

/-! The output side of one established connection. The bytes taken by the kernel and then
those in the output buffer make one stream, to which only a send adds; write interest is on
exactly while something is buffered, which is what delays the half-close. -/

set_option autoImplicit false

namespace TransferServer.Net.TcpConnection

open Lib

/-- The bytes of the connection so far, sent or waiting, in order. -/
def stream (conn : TcpConnection) : Bytes :=
  conn.socket.accepted ++ conn.outputBuffer.readable

structure Flowing (conn : TcpConnection) : Prop where
  valid : conn.outputBuffer.Valid
  interest : conn.channel.isWriting = true ↔ conn.outputBuffer.readable ≠ []
  flushed : ∀ unsent ∈ conn.socket.shutdowns, unsent = []

theorem Flowing.not_isWriting {conn : TcpConnection} (flowing : conn.Flowing) :
    conn.channel.isWriting = false ↔ conn.outputBuffer.readable = [] := by
  rw [← Bool.not_eq_true, flowing.interest, not_not]

theorem write_eq_ok {socket : Socket} {data : Bytes} {returned : Int} (lower : -1 ≤ returned)
    (upper : returned ≤ data.length) :
    socket.write data returned = .ok (socket.transmit (data.take returned.toNat)) := by
  have possible : -1 ≤ returned ∧ returned ≤ data.length := ⟨lower, upper⟩
  simp only [Socket.write, assume_of possible, ok_bind, pure_eq_ok]

theorem strlen_le (message : Bytes) : strlen message ≤ message.length :=
  (List.takeWhile_sublist _).length_le

/-- A direct write happens only on an empty buffer; it moves a front part of the message,
which ends at the first NUL at the latest, to the kernel. -/
theorem writeDirectly_spec {conn : TcpConnection} (flowing : conn.Flowing) {message : Bytes}
    {returned : Int} (lower : 0 ≤ returned) (upper : returned ≤ strlen message) :
    ∃ (count : Nat) (requests : List Request), count ≤ message.length ∧
      conn.writeDirectly message returned =
        .ok ({ conn with socket := conn.socket.transmit (message.take count) }, count, requests) ∧
      (count ≠ 0 → conn.outputBuffer.readable = []) := by
  unfold writeDirectly
  by_cases direct : conn.outputBuffer.readableBytes = 0 ∧ conn.channel.isWriting = false
  · have short := strlen_le message
    have requested : (message.take (strlen message)).length = strlen message := by
      rw [List.length_take, Nat.min_eq_left short]
    obtain ⟨count, rfl⟩ := Int.eq_ofNat_of_zero_le lower
    have within : count ≤ strlen message := by omega
    have written : conn.socket.write (message.take (strlen message)) count =
        .ok (conn.socket.transmit ((message.take (strlen message)).take (count : Int).toNat)) :=
      write_eq_ok (by omega) (by omega)
    rw [Int.toNat_natCast, List.take_take, Nat.min_eq_left within] at written
    rw [if_pos direct, written]
    exact ⟨count, _, Nat.le_trans within short, rfl, fun _ => flowing.not_isWriting.mp direct.2⟩
  · rw [if_neg direct]
    refine ⟨0, [], Nat.zero_le _, ?_, fun nonzero => absurd rfl nonzero⟩
    simp [Socket.transmit]

/-- Splitting a message between the kernel and the back of the buffer keeps the stream in
order as long as the kernel's part is taken while nothing is buffered. -/
theorem stream_split {conn : TcpConnection} {count : Nat} (message : Bytes)
    (emptied : count ≠ 0 → conn.outputBuffer.readable = []) :
    conn.socket.accepted ++ message.take count ++ (conn.outputBuffer.readable ++ message.drop count) =
      conn.stream ++ message := by
  cases count with
  | zero => simp [stream]
  | succ count => simp [stream, emptied (Nat.succ_ne_zero count)]

/-- A message joins the stream whole, in whatever parts the kernel and the buffer take it. -/
theorem sendInLoop_spec {conn : TcpConnection} (flowing : conn.Flowing) {message : Bytes}
    {returned : Int} (lower : 0 ≤ returned) (upper : returned ≤ strlen message) :
    ∃ after requests, conn.sendInLoop message returned = .ok (after, requests) ∧ after.Flowing ∧
      after.stream = conn.stream ++ message ∧ after.state = conn.state := by
  obtain ⟨count, requests, bound, written, emptied⟩ := writeDirectly_spec flowing lower upper
  have whole := stream_split message emptied
  have nonneg : (0 : Int) ≤ (count : Int) := Int.natCast_nonneg count
  simp only [sendInLoop, written, ok_bind, assert_of nonneg, Int.toNat_natCast]
  by_cases rest : count < message.length
  · obtain ⟨outputBuffer, appended, kept, joined⟩ :=
      Buffer.append_spec flowing.valid (message.drop count)
    have pending : outputBuffer.readable ≠ [] := by
      rw [joined, ne_eq, List.append_eq_nil_iff, List.drop_eq_nil_iff]
      omega
    rw [← joined] at whole
    simp only [if_pos rest, appended, ok_bind]
    cases writing : conn.channel.isWriting with
    | true => exact ⟨_, _, rfl, ⟨kept, by simp [writing, pending], flowing.flushed⟩, whole, rfl⟩
    | false => exact ⟨_, _, rfl, ⟨kept, by simp [pending], flowing.flushed⟩, whole, rfl⟩
  · rw [List.drop_of_length_le (by omega), List.append_nil] at whole
    simp only [if_neg rest]
    exact ⟨_, _, rfl, ⟨flowing.valid, flowing.interest, flowing.flushed⟩, whole, rfl⟩

theorem write_bounds {socket after : Socket} {data : Bytes} {returned : Int}
    (written : socket.write data returned = .ok after) : -1 ≤ returned ∧ returned ≤ data.length :=
  (assume_bind_eq_ok.mp written).1

theorem sendInLoop_indirect {conn : TcpConnection}
    (indirect : ¬ (conn.outputBuffer.readableBytes = 0 ∧ conn.channel.isWriting = false))
    (message : Bytes) (returned : Int) :
    conn.sendInLoop message returned = conn.sendInLoop message 0 := by
  simp only [sendInLoop, writeDirectly, if_neg indirect]

/-- A send that fails no assertion needs no assumption on what `::write` returned. -/
theorem sendInLoop_eq_ok {conn after : TcpConnection} {requests : List Request}
    (flowing : conn.Flowing) {message : Bytes} {returned : Int}
    (sent : conn.sendInLoop message returned = .ok (after, requests)) :
    after.Flowing ∧ after.stream = conn.stream ++ message ∧ after.state = conn.state := by
  obtain ⟨written, lower, upper, same⟩ : ∃ written : Int, 0 ≤ written ∧ written ≤ strlen message ∧
      conn.sendInLoop message returned = conn.sendInLoop message written := by
    by_cases direct : conn.outputBuffer.readableBytes = 0 ∧ conn.channel.isWriting = false
    · obtain ⟨result, attempted, sent⟩ := bind_eq_ok.mp sent
      obtain ⟨nonneg, _⟩ := assert_bind_eq_ok.mp sent
      rw [writeDirectly, if_pos direct] at attempted
      obtain ⟨socket, written, attempted⟩ := bind_eq_ok.mp attempted
      cases attempted
      have upper := (write_bounds written).2
      have short := strlen_le message
      rw [List.length_take, Nat.min_eq_left short] at upper
      exact ⟨returned, nonneg, upper, rfl⟩
    · exact ⟨0, Int.le_refl 0, Int.natCast_nonneg _, sendInLoop_indirect direct message returned⟩
  obtain ⟨conn', requests', performed, kept, joined, state⟩ := sendInLoop_spec flowing lower upper
  rw [same, performed] at sent
  cases sent
  exact ⟨kept, joined, state⟩

theorem shutdownInLoop_spec {conn : TcpConnection} (flowing : conn.Flowing) :
    conn.shutdownInLoop.Flowing ∧ conn.shutdownInLoop.stream = conn.stream ∧
      conn.shutdownInLoop.state = conn.state := by
  unfold shutdownInLoop
  cases writing : conn.channel.isWriting with
  | true => exact ⟨flowing, rfl, rfl⟩
  | false =>
      refine ⟨⟨flowing.valid, flowing.interest, ?_⟩, rfl, rfl⟩
      intro unsent logged
      rcases List.mem_append.mp logged with earlier | now
      · exact flowing.flushed unsent earlier
      · rw [List.mem_singleton.mp now]
        exact flowing.not_isWriting.mp writing

theorem shutdown_spec {conn : TcpConnection} (flowing : conn.Flowing) :
    conn.shutdown.Flowing ∧ conn.shutdown.stream = conn.stream := by
  unfold shutdown
  split
  · have closing : { conn with state := .kDisconnecting }.Flowing :=
      ⟨flowing.valid, flowing.interest, flowing.flushed⟩
    obtain ⟨kept, same, _⟩ := shutdownInLoop_spec closing
    exact ⟨kept, same⟩
  · exact ⟨flowing, rfl⟩

/-- A writable event only moves bytes from the front of the buffer to the kernel. When the
buffer runs empty the write interest goes with it, and then a delayed half-close is due. -/
theorem handleWrite_spec {conn : TcpConnection} (flowing : conn.Flowing) {returned : Int}
    (lower : -1 ≤ returned) (upper : returned ≤ conn.outputBuffer.readableBytes) :
    ∃ after requests, conn.handleWrite returned = .ok (after, requests) ∧ after.Flowing ∧
      after.stream = conn.stream := by
  unfold handleWrite
  cases writing : conn.channel.isWriting with
  | false => exact ⟨conn, [], rfl, flowing, rfl⟩
  | true =>
      have size := Buffer.length_readable flowing.valid
      have written : conn.socket.write conn.outputBuffer.readable returned =
          .ok (conn.socket.transmit (conn.outputBuffer.readable.take returned.toNat)) :=
        write_eq_ok lower (size ▸ upper)
      simp only [↓reduceIte, written, ok_bind]
      by_cases progress : 0 < returned
      · obtain ⟨outputBuffer, retrieved, kept, rest⟩ :=
          Buffer.retrieve_spec flowing.valid (Int.toNat_le.mpr upper)
        have whole : conn.socket.accepted ++ conn.outputBuffer.readable.take returned.toNat ++
            outputBuffer.readable = conn.stream := by
          rw [rest, List.append_assoc, List.take_append_drop]
          rfl
        simp only [if_pos progress, retrieved, ok_bind]
        by_cases emptied : outputBuffer.readableBytes = 0
        · have empty := (Buffer.readableBytes_eq_zero_iff kept).mp emptied
          have idle : { conn with
              socket := conn.socket.transmit (conn.outputBuffer.readable.take returned.toNat)
              outputBuffer
              channel := conn.channel.disableWriting }.Flowing :=
            ⟨kept, by simp [empty], flowing.flushed⟩
          simp only [if_pos emptied]
          split
          · obtain ⟨kept', same, _⟩ := shutdownInLoop_spec idle
            exact ⟨_, _, rfl, kept', same.trans whole⟩
          · exact ⟨_, _, rfl, idle, whole⟩
        · have pending := (Buffer.readableBytes_eq_zero_iff kept).not.mp emptied
          simp only [if_neg emptied]
          exact ⟨_, _, rfl, ⟨kept, by simp [writing, pending], flowing.flushed⟩, whole⟩
      · have none : returned.toNat = 0 := by omega
        simp only [if_neg progress, none, List.take_zero]
        refine ⟨_, _, rfl, ⟨flowing.valid, flowing.interest, flowing.flushed⟩, ?_⟩
        simp [stream, Socket.transmit]

theorem handleWrite_eq_ok {conn after : TcpConnection} {requests : List Request}
    (flowing : conn.Flowing) {returned : Int}
    (handled : conn.handleWrite returned = .ok (after, requests)) :
    after.Flowing ∧ after.stream = conn.stream := by
  cases writing : conn.channel.isWriting with
  | false =>
      simp only [handleWrite, writing, Bool.false_eq_true, if_false] at handled
      cases handled
      exact ⟨flowing, rfl⟩
  | true =>
      have attempted := handled
      rw [handleWrite, if_pos writing] at attempted
      obtain ⟨socket, written, _⟩ := bind_eq_ok.mp attempted
      obtain ⟨lower, upper⟩ := write_bounds written
      rw [Buffer.length_readable flowing.valid] at upper
      obtain ⟨conn', requests', performed, kept, same⟩ := handleWrite_spec flowing lower upper
      rw [performed] at handled
      cases handled
      exact ⟨kept, same⟩

theorem sendInLoop_shutdowns {conn after : TcpConnection} {requests : List Request} {message : Bytes}
    {returned : Int} (sent : conn.sendInLoop message returned = .ok (after, requests)) :
    after.socket.shutdowns = conn.socket.shutdowns := by
  obtain ⟨⟨written, nwrote, asked⟩, direct, sent⟩ := bind_eq_ok.mp sent
  have same : written.socket.shutdowns = conn.socket.shutdowns := by
    unfold writeDirectly at direct
    split at direct
    · obtain ⟨socket, transmitted, direct⟩ := bind_eq_ok.mp direct
      obtain ⟨_, transmitted⟩ := assume_bind_eq_ok.mp transmitted
      cases transmitted
      cases direct
      rfl
    · cases direct
      rfl
  obtain ⟨_, sent⟩ := assert_bind_eq_ok.mp sent
  split at sent
  · obtain ⟨outputBuffer, _, sent⟩ := bind_eq_ok.mp sent
    dsimp only at sent
    split at sent <;> cases sent <;> exact same
  · cases sent
    exact same

theorem shutdownInLoop_shutdowns {conn : TcpConnection}
    (shut : conn.shutdownInLoop.socket.shutdowns ≠ conn.socket.shutdowns) :
    conn.channel.isWriting = false ∧ conn.shutdownInLoop.channel.isWriting = false := by
  cases writing : conn.channel.isWriting with
  | true => exact absurd (by simp [shutdownInLoop, writing]) shut
  | false => simp [shutdownInLoop, writing]

/-- A writable event half-closes only when it empties the buffer of a connection that is
shutting down. -/
theorem handleWrite_shutdowns {conn after : TcpConnection} {requests : List Request} {returned : Int}
    (flowing : conn.Flowing) (handled : conn.handleWrite returned = .ok (after, requests)) :
    after.state = conn.state ∧ (after.socket.shutdowns ≠ conn.socket.shutdowns →
      conn.channel.isWriting = true ∧ conn.state = .kDisconnecting ∧
        returned = conn.outputBuffer.readableBytes ∧ after.channel.isWriting = false) := by
  unfold handleWrite at handled
  split at handled
  · next writing =>
      obtain ⟨socket, written, handled⟩ := bind_eq_ok.mp handled
      obtain ⟨bounds, written⟩ := assume_bind_eq_ok.mp written
      cases written
      split at handled
      · next progress =>
          obtain ⟨outputBuffer, retrieved, handled⟩ := bind_eq_ok.mp handled
          have size := Buffer.length_readable flowing.valid
          obtain ⟨rest, retrieved', kept, left⟩ :=
            Buffer.retrieve_spec flowing.valid (Int.toNat_le.mpr (size ▸ bounds.2))
          rw [retrieved] at retrieved'
          cases retrieved'
          dsimp only at handled
          split at handled
          · next emptied =>
              have whole : returned = conn.outputBuffer.readableBytes := by
                rw [Buffer.readableBytes_eq_zero_iff kept, left, List.drop_eq_nil_iff] at emptied
                omega
              split at handled
              · next disconnecting =>
                  cases handled
                  exact ⟨by simp, fun _ => ⟨writing, disconnecting, whole, by simp⟩⟩
              · cases handled
                exact ⟨rfl, fun changed => absurd rfl changed⟩
          · cases handled
            exact ⟨rfl, fun changed => absurd rfl changed⟩
      · cases handled
        exact ⟨rfl, fun changed => absurd rfl changed⟩
  · cases handled
    exact ⟨rfl, fun changed => absurd rfl changed⟩

inductive StreamAction where
  | send (message : Bytes) (returned : Int)
  /-- A functor that another thread's `send` queued while the connection was `kConnected`. -/
  | sendInLoop (message : Bytes) (returned : Int)
  | handleWrite (returned : Int)
  | shutdown
  deriving DecidableEq, Repr

/-- The connection with the messages it has accepted, in the order of the calls. -/
structure Session where
  conn : TcpConnection
  accepted : List Bytes
  deriving DecidableEq, Repr

/-- A connection whose `connectEstablished` has run. -/
def Session.establish (loop : Nat) (sockfd : Int) (peerAddr : Bytes)
    (writeCompleteCallback : Bool) : Outcome Session := do
  let (conn, _) ← (construct loop sockfd peerAddr writeCompleteCallback).connectEstablished
  return ⟨conn, []⟩

def Session.step (session : Session) : StreamAction → Outcome Session
  | .send message returned => do
      let (conn, _) ← session.conn.send message returned
      if session.conn.state = .kConnected then
        return ⟨conn, session.accepted ++ [message]⟩
      else return ⟨conn, session.accepted⟩
  | .sendInLoop message returned => do
      let (conn, _) ← session.conn.sendInLoop message returned
      return ⟨conn, session.accepted ++ [message]⟩
  | .handleWrite returned => do
      let (conn, _) ← session.conn.handleWrite returned
      return ⟨conn, session.accepted⟩
  | .shutdown => return ⟨session.conn.shutdown, session.accepted⟩

/-- What `::write` may return to each call: here a direct write does not fail. -/
def Session.Admits (session : Session) : StreamAction → Prop
  | .send message returned => 0 ≤ returned ∧ returned ≤ strlen message
  | .sendInLoop message returned => 0 ≤ returned ∧ returned ≤ strlen message
  | .handleWrite returned => -1 ≤ returned ∧ returned ≤ session.conn.outputBuffer.readableBytes
  | .shutdown => True

instance (session : Session) (action : StreamAction) : Decidable (session.Admits action) :=
  match action with
  | .send _ _ => inferInstanceAs (Decidable (_ ∧ _))
  | .sendInLoop _ _ => inferInstanceAs (Decidable (_ ∧ _))
  | .handleWrite _ => inferInstanceAs (Decidable (_ ∧ _))
  | .shutdown => .isTrue trivial

structure Session.Conserved (session : Session) : Prop where
  flowing : session.conn.Flowing
  whole : session.conn.stream = session.accepted.flatten

theorem Session.establish_spec (loop : Nat) (sockfd : Int) (peerAddr : Bytes)
    (writeCompleteCallback : Bool) :
    ∃ session, Session.establish loop sockfd peerAddr writeCompleteCallback = .ok session ∧
      session.Conserved := by
  refine ⟨_, rfl, ⟨Buffer.fresh_valid, ?_, ?_⟩, ?_⟩
  · simp [construct, Buffer.readable_fresh]
  · simp [construct, Socket.fresh]
  · simp [stream, construct, Socket.fresh, Buffer.readable_fresh]

theorem Session.step_spec {session : Session} (conserved : session.Conserved)
    {action : StreamAction} (admitted : session.Admits action) :
    ∃ after, session.step action = .ok after ∧ after.Conserved := by
  obtain ⟨flowing, whole⟩ := conserved
  cases action with
  | send message returned =>
      unfold Session.step TcpConnection.send
      by_cases connected : session.conn.state = .kConnected
      · obtain ⟨conn, requests, sent, kept, joined, _⟩ :=
          sendInLoop_spec flowing admitted.1 admitted.2
        refine ⟨⟨conn, session.accepted ++ [message]⟩, ?_, kept, ?_⟩
        · simp only [if_pos connected, sent, ok_bind, pure_eq_ok]
        · simp [joined, whole]
      · exact ⟨session, by simp only [if_neg connected, pure_eq_ok, ok_bind], flowing, whole⟩
  | sendInLoop message returned =>
      obtain ⟨conn, requests, sent, kept, joined, _⟩ :=
        sendInLoop_spec flowing admitted.1 admitted.2
      refine ⟨⟨conn, session.accepted ++ [message]⟩, ?_, kept, ?_⟩
      · simp only [Session.step, sent, ok_bind, pure_eq_ok]
      · simp [joined, whole]
  | handleWrite returned =>
      obtain ⟨conn, requests, handled, kept, same⟩ := handleWrite_spec flowing admitted.1 admitted.2
      exact ⟨⟨conn, session.accepted⟩, by simp only [Session.step, handled, ok_bind, pure_eq_ok],
        kept, same.trans whole⟩
  | shutdown =>
      obtain ⟨kept, same⟩ := shutdown_spec flowing
      exact ⟨_, rfl, kept, same.trans whole⟩

/-- In every run of an established connection the kernel's bytes and then the buffered ones
are the accepted messages in order, write interest marks a non-empty buffer, each half-close
found the buffer empty, and no assertion fails. -/
theorem output_stream {loop : Nat} {sockfd : Int} {peerAddr : Bytes} {writeCompleteCallback : Bool}
    {start final : Session} {actions : List StreamAction}
    (established : Session.establish loop sockfd peerAddr writeCompleteCallback = .ok start)
    (run : Execution Session.step Session.Admits start actions final) :
    final.conn.socket.accepted ++ final.conn.outputBuffer.readable = final.accepted.flatten ∧
      (final.conn.channel.isWriting = true ↔ final.conn.outputBuffer.readable ≠ []) ∧
      (∀ unsent ∈ final.conn.socket.shutdowns, unsent = []) ∧
      ∀ action, final.Admits action → ∃ after, final.step action = .ok after := by
  have conserved : final.Conserved := by
    refine run.invariant ?_ fun before action after conserved admitted stepped => ?_
    · obtain ⟨session, opened, initial⟩ :=
        Session.establish_spec loop sockfd peerAddr writeCompleteCallback
      rw [established] at opened
      cases opened
      exact initial
    · obtain ⟨result, performed, kept⟩ := Session.step_spec conserved admitted
      rw [stepped] at performed
      cases performed
      exact kept
  obtain ⟨flowing, whole⟩ := conserved
  refine ⟨whole, flowing.interest, flowing.flushed, fun action admitted => ?_⟩
  obtain ⟨after, performed, _⟩ := Session.step_spec ⟨flowing, whole⟩ admitted
  exact ⟨after, performed⟩

/-- The theorem at a run with a NUL inside a message, partial writes, a failed one, and a
half-close that waits for the buffer. -/
theorem output_stream_half_close :
    ∃ session : Session, session.conn.socket.accepted ++ session.conn.outputBuffer.readable =
      [1, 2, 0, 3, 4, 5] ∧ ∀ unsent ∈ session.conn.socket.shutdowns, unsent = [] := by
  let actions : List StreamAction := [
    .send [1, 2, 0, 3] 1, .send [] 0, .handleWrite 2, .handleWrite (-1), .send [4, 5] 0, .shutdown,
    .send [6] 0, .handleWrite 1, .handleWrite 2]
  obtain ⟨start, established, _⟩ := Session.establish_spec 0 9 [] true
  have replayed : (replay Session.step Session.Admits .impossible start actions).toOption.any
      (fun session => decide (session.accepted.flatten = [1, 2, 0, 3, 4, 5])) = true := by
    cases established
    decide +kernel
  obtain ⟨session, run, accepted⟩ := Execution.exists_of_replay replayed
  obtain ⟨whole, _, flushed, _⟩ := output_stream established run
  exact ⟨session, whole.trans (of_decide_eq_true accepted), flushed⟩

/-- What a sender may expect when the socket cannot take data now: nothing of the message
is lost, all of it waits in the output buffer and the channel waits to write. -/
def Session.Retains (session : Session) (message : Bytes) (attempt : StreamAction) : Prop :=
  ∃ after, session.step attempt = .ok after ∧
    after.conn.outputBuffer.readable = session.conn.outputBuffer.readable ++ message ∧
    after.conn.channel.isWriting = true ∧
    after.conn.socket.accepted ++ after.conn.outputBuffer.readable = after.accepted.flatten

theorem sendInLoop_failed {conn : TcpConnection}
    (direct : conn.outputBuffer.readableBytes = 0 ∧ conn.channel.isWriting = false)
    (message : Bytes) : conn.sendInLoop message (-1) = .error (.assertion .sendInLoop) := by
  have attempted : conn.socket.write (message.take (strlen message)) (-1) =
      .ok (conn.socket.transmit ((message.take (strlen message)).take (-1 : Int).toNat)) :=
    write_eq_ok (Int.le_refl (-1)) (by omega)
  simp only [sendInLoop, writeDirectly, if_pos direct, attempted, ok_bind, pure_eq_ok]
  rfl

/-- A direct write that fails is logged and then fails the assertion on `nwrote`, whatever the
state of the connection, the message, and the thread that called `send`. -/
theorem failed_write_aborts {session : Session}
    (direct : session.conn.outputBuffer.readableBytes = 0 ∧ session.conn.channel.isWriting = false)
    (message : Bytes) :
    session.step (.sendInLoop message (-1)) = .error (.assertion .sendInLoop) ∧
      ¬ session.Retains message (.sendInLoop message (-1)) ∧
      (session.conn.state = .kConnected →
        session.step (.send message (-1)) = .error (.assertion .sendInLoop) ∧
          ¬ session.Retains message (.send message (-1))) := by
  have failed := sendInLoop_failed direct message
  have queued : session.step (.sendInLoop message (-1)) = .error (.assertion .sendInLoop) := by
    simp only [Session.step, failed]
    rfl
  refine ⟨queued, ?_, fun connected => ?_⟩
  · rintro ⟨after, stepped, _⟩
    rw [queued] at stepped
    cases stepped
  · have sent : session.step (.send message (-1)) = .error (.assertion .sendInLoop) := by
      simp only [Session.step, TcpConnection.send, if_pos connected, failed]
      rfl
    refine ⟨sent, ?_⟩
    rintro ⟨after, stepped, _⟩
    rw [sent] at stepped
    cases stepped

/-- The first message on a connection that has just been established. -/
theorem failed_write_aborts_established :
    ∃ session : Session, Session.establish 0 9 [] false = .ok session ∧
      session.step (.send [1, 2] (-1)) = .error (.assertion .sendInLoop) := by
  obtain ⟨session, established, _⟩ := Session.establish_spec 0 9 [] false
  have opened := established
  cases opened
  exact ⟨_, established, ((failed_write_aborts ⟨by decide, rfl⟩ [1, 2]).2.2 rfl).1⟩

/-- The same after a write that the kernel took in full. -/
theorem failed_write_loses_message :
    ∃ start session : Session, Session.establish 0 9 [] false = .ok start ∧
      Execution Session.step Session.Admits start [.send [1, 2] 2] session ∧
      ¬ session.Retains [3] (.send [3] (-1)) := by
  obtain ⟨start, established, _⟩ := Session.establish_spec 0 9 [] false
  have replayed : (replay Session.step Session.Admits .impossible start
      [.send [1, 2] 2]).toOption.any (fun session => decide
        (session.step (.send [3] (-1)) = .error (.assertion .sendInLoop))) = true := by
    cases established
    decide +kernel
  obtain ⟨session, run, failed⟩ := Execution.exists_of_replay replayed
  refine ⟨start, session, established, run, ?_⟩
  rintro ⟨after, stepped, _⟩
  rw [of_decide_eq_true failed] at stepped
  cases stepped

end TransferServer.Net.TcpConnection
