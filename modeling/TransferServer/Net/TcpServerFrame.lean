import Mathlib.Logic.Relation
import TransferServer.Net.Confined
import TransferServer.Net.SocketLifetime
import TransferServer.Net.TcpServerProperties

/-! What one thread does to the server in a function of it, one change at a time, and the events that
it puts on record. What every such change keeps, every function keeps. -/

set_option autoImplicit false

namespace TransferServer.Net

open Base Lib

/-- The channel whose handlers a task calls. -/
def Task.channel : Task → Option ChannelId
  | .handleEvent channel => some channel
  | .callback channel _ => some channel
  | .relay _ _ _ => none

namespace TcpServer

variable {handshake : Handshake} {server before middle after : TcpServer} {caller loop : LoopId}
variable {permits wider : Event → Prop} {conn : ConnId} {written : Int} {object changed : TcpConnection}

/-- The channel of a connection that has been accepted. -/
def Knows (server : TcpServer) (channel : ChannelId) : Prop :=
  ∃ conn, channel = .connection conn ∧ server.conns conn ≠ none

/-- The thread is the one of the connection's loop. -/
def Hosts (server : TcpServer) (caller : LoopId) (conn : ConnId) : Prop :=
  ∀ object, server.conns conn = some object → server.isInLoopThread caller object.loop = true

/-- What is so when the event is put on record. -/
def Warrants (server : TcpServer) : Event → Prop
  | .handled conn _ => .destroyed conn ∉ server.trace ∧
      ∃ standing, server.standing conn = some standing ∧ standing.state.Up
  | .destroyed conn => ∃ standing, server.standing conn = some standing ∧ standing.state.Up
  | _ => True

/-- How a function may leave a connection. Only the read callback changes its input. -/
structure Revises (server : TcpServer) (permits : Event → Prop) (conn : ConnId)
    (object changed : TcpConnection) : Prop where
  loop : changed.loop = object.loop
  fd : changed.channel.fd = object.channel.fd
  peerAddr : changed.peerAddr = object.peerAddr
  begun : changed.state ≠ .kConnecting →
    object.state ≠ .kConnecting ∨ .established conn ∈ server.trace
  input : changed.inputBuffer = object.inputBuffer ∨ permits (.handled conn .read)

theorem TcpConnection.Keeps.revises {result : TcpConnection × List Request}
    (keeps : object.Keeps result) : server.Revises permits conn object result.1 where
  loop := congrArg Standing.loop keeps.standing
  fd := congrArg Standing.fd keeps.standing
  peerAddr := congrArg Standing.peerAddr keeps.standing
  begun := by
    have same : result.1.state = object.state := congrArg Standing.state keeps.standing
    exact fun past => .inl (same ▸ past)
  input := .inl keeps.input

/-- A change by the thread of the loop `caller` to what is its own, or to what waits in the queue of
another loop; where events other than those permitted stay off the record, so does all that goes
with them. -/
inductive Edit (caller : LoopId) (permits : Event → Prop) (server : TcpServer) : TcpServer → Prop where
  | record (event : Event) : permits event → server.Warrants event →
      Edit caller permits server (server.record event)
  | object {conn : ConnId} {object changed : TcpConnection} : server.conns conn = some object →
      server.isInLoopThread caller object.loop = true →
      server.Revises permits conn object changed →
      Edit caller permits server (server.setConn conn changed)
  /-- Channels leave the poller only when their connection is destroyed. -/
  | poller {loop : LoopId} {poller : Poller ChannelId} : server.isInLoopThread caller loop = true →
      (server.pollers loop).Gains server.Knows poller →
      (∀ fd channel, (server.pollers loop).channels fd = some channel →
        poller.channels fd = some channel ∨
          ∃ conn, channel = .connection conn ∧ .destroyed conn ∈ server.trace) →
      Edit caller permits server (server.setPoller loop poller)
  | queue (loop : LoopId) (functor : Functor) :
      (∀ conn, functor = .removeConnectionInLoop conn → permits (.erased conn)) →
      Edit caller permits server (server.queueInLoop caller loop functor)
  | relays (conn : ConnId) (tasks : List Task) : permits (.handled conn .read) →
      (∀ task ∈ tasks, task.channel = none) →
      Edit caller permits server (server.setTodo caller (tasks ++ server.todo caller))
  | table (conn : ConnId) (registerTable : RegisterTable) (count : Int) :
      permits (.handled conn .read) →
      Edit caller permits server (server.withTable registerTable count)
  | erase (conn : ConnId) : server.isInLoopThread caller baseLoop = true → permits (.erased conn) →
      Edit caller permits server { server with connections := server.connections.erase conn }

def Edits (before : TcpServer) (caller : LoopId) (permits : Event → Prop) (after : TcpServer) : Prop :=
  Relation.ReflTransGen (Edit caller permits) before after

theorem Edits.refl (server : TcpServer) : server.Edits caller permits server :=
  Relation.ReflTransGen.refl

theorem Edits.trans (first : before.Edits caller permits middle)
    (second : middle.Edits caller permits after) : before.Edits caller permits after :=
  Relation.ReflTransGen.trans first second

theorem Edit.edits (edit : Edit caller permits before after) : before.Edits caller permits after :=
  Relation.ReflTransGen.single edit

section Changes

theorem isInLoopThread_queueInLoop {other : LoopId} {functor : Functor} {thread : LoopId} :
    (server.queueInLoop caller other functor).isInLoopThread thread loop =
      server.isInLoopThread thread loop := by
  unfold isInLoopThread queueInLoop setLoop
  by_cases same : loop = other
  · subst same
    dsimp only
    rw [Function.update_self]
    unfold EventLoop.queueInLoop EventLoop.wakeupUnlessIdle
    split <;> rfl
  · dsimp only
    rw [Function.update_of_ne same]

/-- No loop moves to another thread. -/
theorem Edit.isInLoopThread {thread : LoopId} (edit : Edit caller permits before after) :
    after.isInLoopThread thread loop = before.isInLoopThread thread loop := by
  cases edit with
  | queue other functor => exact isInLoopThread_queueInLoop
  | _ => rfl

theorem Edits.isInLoopThread {thread : LoopId} (edits : before.Edits caller permits after) :
    after.isInLoopThread thread loop = before.isInLoopThread thread loop := by
  induction edits with
  | refl => rfl
  | tail _ edit ih => exact edit.isInLoopThread.trans ih

/-- The assertion at the head of a member. -/
theorem hosts_of_conns (found : server.conns conn = some object)
    (here : server.isInLoopThread caller object.loop = true) : server.Hosts caller conn := by
  intro present there
  cases found.symm.trans there
  exact here

theorem Edit.hosts {thread : LoopId} (edit : Edit caller permits before after)
    (here : before.Hosts thread conn) : after.Hosts thread conn := by
  cases edit with
  | @object other present changed found own revises =>
      intro later there
      simp only [setConn, Function.update_apply] at there
      split at there
      · next same =>
          cases there
          rw [revises.loop]
          exact here present (same ▸ found)
      · exact here later there
  | queue loop functor =>
      intro later there
      rw [isInLoopThread_queueInLoop]
      exact here later there
  | _ => exact here

theorem Edits.hosts {thread : LoopId} (edits : before.Edits caller permits after)
    (here : before.Hosts thread conn) : after.Hosts thread conn := by
  induction edits with
  | refl => exact here
  | tail _ edit ih => exact edit.hosts ih

theorem Edit.recorded {event : Event} (edit : Edit caller permits before after)
    (earlier : event ∈ before.trace) : event ∈ after.trace := by
  cases edit with
  | record other => exact List.mem_append_left [other] earlier
  | _ => exact earlier

theorem Edits.recorded {event : Event} (edits : before.Edits caller permits after)
    (earlier : event ∈ before.trace) : event ∈ after.trace := by
  induction edits with
  | refl => exact earlier
  | tail _ edit ih => exact edit.recorded ih

theorem Edit.mono (edit : Edit caller permits before after)
    (weaker : ∀ event, permits event → wider event) : Edit caller wider before after := by
  cases edit with
  | record event permitted warranted => exact .record event (weaker event permitted) warranted
  | object found here revises =>
      exact .object found here { revises with input := revises.input.imp_right (weaker _) }
  | poller here gains kept => exact .poller here gains kept
  | queue loop functor erases => exact .queue loop functor fun conn same => weaker _ (erases conn same)
  | relays conn tasks reads silent => exact .relays conn tasks (weaker _ reads) silent
  | table conn registerTable count reads => exact .table conn registerTable count (weaker _ reads)
  | erase conn here erases => exact .erase conn here (weaker _ erases)

theorem Edits.mono (edits : before.Edits caller permits after)
    (weaker : ∀ event, permits event → wider event) : before.Edits caller wider after := by
  induction edits with
  | refl => exact .refl before
  | tail _ edit ih => exact ih.trans (edit.mono weaker).edits

/-- Events that are not permitted stay off the record. -/
theorem Edit.count_trace {event : Event} (edit : Edit caller permits before after)
    (banned : ¬ permits event) : after.trace.count event = before.trace.count event := by
  cases edit with
  | record other permitted =>
      have apart : other ≠ event := by
        rintro rfl
        exact banned permitted
      simp only [TcpServer.record, List.count_append, List.count_singleton]
      rw [if_neg (by simpa using apart), Nat.add_zero]
  | _ => rfl

theorem Edits.count_trace {event : Event} (edits : before.Edits caller permits after)
    (banned : ¬ permits event) : after.trace.count event = before.trace.count event := by
  induction edits with
  | refl => rfl
  | tail _ edit ih => exact (edit.count_trace banned).trans ih

theorem Edits.mem_trace {event : Event} (edits : before.Edits caller permits after)
    (banned : ¬ permits event) : event ∈ after.trace ↔ event ∈ before.trace := by
  rw [← List.count_pos_iff, edits.count_trace banned, List.count_pos_iff]

end Changes

section Functions

theorem record_edits {event : Event} (permitted : permits event) (warranted : server.Warrants event) :
    server.Edits caller permits (server.record event) :=
  (Edit.record event permitted warranted).edits

theorem queueInLoop_edits {functor : Functor}
    (erases : ∀ conn, functor = .removeConnectionInLoop conn → permits (.erased conn)) :
    server.Edits caller permits (server.queueInLoop caller loop functor) :=
  (Edit.queue loop functor erases).edits

theorem perform_edits (request : Request) (here : server.Hosts caller conn) :
    Confined (server.perform caller conn request) (server.Edits caller permits) := by
  refine confined_deref fun object found => ?_
  cases request with
  | updateChannel =>
      apply confined_assertInLoopThread (here object found)
      have known : server.Knows (.connection conn) := ⟨conn, rfl, by simp [found]⟩
      have confined : Confined ((server.pollers object.loop).updateChannel _ _) _ :=
        Poller.updateChannel_confined (.connection conn) object.channel
      cases updated : (server.pollers object.loop).updateChannel (.connection conn) object.channel with
      | error halt => exact .error (confined.of_error updated)
      | ok poller =>
          have edit : Edit caller permits server (server.setPoller object.loop poller) :=
            .poller (here object found) (Poller.updateChannel_gains known updated)
              fun fd channel listed => .inl (Poller.updateChannel_listed updated listed)
          exact .ok edit.edits
  | writeComplete => exact .ok (queueInLoop_edits (by simp))

theorem commit_edits {result : TcpConnection × List Request} (here : server.Hosts caller conn)
    (found : server.conns conn = some object) (revises : server.Revises permits conn object result.1) :
    Confined (server.commit caller conn result) (server.Edits caller permits) := by
  have begun : server.Edits caller permits (server.setConn conn result.1) :=
    (Edit.object found (here object found) revises).edits
  refine Ensures.foldlM (fun _ after => server.Edits caller permits after) begun ?_
  intro request rest middle edits
  exact (perform_edits request (edits.hosts here)).mono fun _ => edits.trans

theorem record_commit_edits {event : Event} {result : TcpConnection × List Request}
    (here : server.Hosts caller conn) (found : server.conns conn = some object)
    (permitted : permits event) (warranted : server.Warrants event)
    (revises : (server.record event).Revises permits conn object result.1) :
    Confined ((server.record event).commit caller conn result) (server.Edits caller permits) := by
  have recorded : server.Edits caller permits (server.record event) := record_edits permitted warranted
  have found : (server.record event).conns conn = some object := found
  exact (commit_edits (recorded.hosts here) found revises).mono fun _ => recorded.trans

theorem removeConnectionInLoop_edits (here : server.isInLoopThread caller baseLoop = true)
    (erases : permits (.erased conn)) :
    Confined (server.removeConnectionInLoop caller conn) (server.Edits caller permits) := by
  apply confined_assertInLoopThread here
  refine confined_deref fun object _ => ?_
  refine confined_check (by decide) fun _ => .ok ?_
  have erasing : server.Edits caller permits
      { server with connections := server.connections.erase conn } := (Edit.erase conn here erases).edits
  exact (erasing.trans (record_edits erases trivial)).trans (queueInLoop_edits (by simp))

theorem removeConnection_edits (erases : permits (.erased conn)) :
    Confined (server.removeConnection caller conn) (server.Edits caller permits) := by
  unfold removeConnection
  split
  · next here => exact removeConnectionInLoop_edits here erases
  · refine .ok (queueInLoop_edits fun other same => ?_)
    cases same
    exact erases

theorem handleClose_edits (here : server.Hosts caller conn) (closes : permits (.closed conn))
    (erases : permits (.erased conn)) :
    Confined (server.handleClose caller conn) (server.Edits caller permits) := by
  refine confined_deref fun object found => ?_
  apply confined_assertInLoopThread (here object found)
  have closing : Confined object.handleClose fun result =>
      (server.record (.closed conn)).Revises permits conn object result.1 :=
    confined_check (by decide) fun _ => .ok ⟨rfl, rfl, rfl, .inl, .inl rfl⟩
  refine closing.bind fun result revises => ?_
  refine (record_commit_edits here found closes trivial revises).bind fun committed edits => ?_
  exact (removeConnection_edits erases).mono fun _ => edits.trans

theorem connectDestroyed_edits (here : server.Hosts caller conn) (destroys : permits (.destroyed conn)) :
    Confined (server.connectDestroyed caller conn) (server.Edits caller permits) := by
  refine confined_deref fun object found => ?_
  apply confined_assertInLoopThread (here object found)
  have destroying : Confined object.connectDestroyed fun result => object.state.Up ∧
      (server.record (.destroyed conn)).Revises permits conn object result.1 :=
    confined_check (by decide) fun up => .ok
      ⟨up, rfl, rfl, rfl, fun _ => .inl (StateE.Up.ne_kConnecting up), .inl rfl⟩
  refine destroying.bind fun result ⟨up, revises⟩ => ?_
  have warranted : server.Warrants (.destroyed conn) := ⟨object.standing, standing_of_conns found, up⟩
  have recorded : Edit caller permits server (server.record (.destroyed conn)) :=
    .record _ destroys warranted
  have found : (server.record (.destroyed conn)).conns conn = some object := found
  refine (commit_edits (recorded.hosts here) found revises).bind fun committed edits => ?_
  have gone : .destroyed conn ∈ committed.trace :=
    edits.recorded (List.mem_append_right _ (List.mem_singleton.mpr rfl))
  have confined : Confined ((committed.pollers object.loop).removeChannel _ _) _ :=
    Poller.removeChannel_confined (.connection conn) result.1.channel
  cases removed : (committed.pollers object.loop).removeChannel (.connection conn) result.1.channel with
  | error halt => exact .error (confined.of_error removed)
  | ok poller =>
      obtain ⟨listed, _, _, channels, _⟩ := Poller.removeChannel_eq_ok removed
      refine .ok ((recorded.edits.trans edits).trans (Edit.poller ?_
        (Poller.removeChannel_gains removed) fun fd channel there => ?_).edits)
      · exact edits.isInLoopThread.trans (here object found)
      · by_cases own : fd = result.1.channel.fd
        · subst own
          cases listed.symm.trans there
          exact .inr ⟨conn, rfl, gone⟩
        · exact .inl (by rw [channels, Function.update_of_ne own, there])

theorem sendInLoop_edits {message : Bytes} (here : server.Hosts caller conn) :
    Confined (server.sendInLoop caller conn message written) (server.Edits caller permits) := by
  refine confined_deref fun object found => ?_
  apply confined_assertInLoopThread (here object found)
  refine (confined_of_inner (object.sendInLoop_inner message written)).bind fun result keeps => ?_
  exact commit_edits here found (TcpConnection.Keeps.revises keeps)

/-- `send` asks on which thread it is before it goes on. -/
theorem send_edits {message : Bytes} :
    Confined (server.send caller conn message written) (server.Edits caller permits) := by
  refine confined_deref fun object found => ?_
  split
  · split
    · next here => exact sendInLoop_edits (hosts_of_conns found here)
    · exact .ok (queueInLoop_edits (by simp))
  · exact .ok (.refl server)

theorem handleWrite_edits (here : server.Hosts caller conn) :
    Confined (server.handleWrite caller conn written) (server.Edits caller permits) := by
  refine confined_deref fun object found => ?_
  apply confined_assertInLoopThread (here object found)
  refine (confined_of_inner (object.handleWrite_inner written)).bind fun result keeps => ?_
  exact commit_edits here found (TcpConnection.Keeps.revises keeps)

theorem onConnection_edits :
    Confined (server.onConnection caller conn written) (server.Edits caller permits) := by
  refine confined_deref fun object _ => ?_
  split
  · exact send_edits
  · exact .ok (.refl server)

theorem connectEstablished_edits (here : server.Hosts caller conn)
    (establishes : permits (.established conn)) :
    Confined (server.connectEstablished caller conn written) (server.Edits caller permits) := by
  refine confined_deref fun object found => ?_
  apply confined_assertInLoopThread (here object found)
  have begun : .established conn ∈ (server.record (.established conn)).trace :=
    List.mem_append_right _ (List.mem_singleton.mpr rfl)
  have connecting : Confined object.connectEstablished fun result =>
      (server.record (.established conn)).Revises permits conn object result.1 :=
    confined_check (by decide) fun _ => .ok ⟨rfl, rfl, rfl, fun _ => .inr begun, .inl rfl⟩
  refine connecting.bind fun result revises => ?_
  refine (record_commit_edits here found establishes trivial revises).bind fun committed edits => ?_
  exact onConnection_edits.mono fun _ => edits.trans

/-- What a function makes of the server that may admit a connection first, under the descriptor that
accept(2) has returned. -/
def Yields (before : TcpServer) (caller : LoopId) (permits : Event → Prop) (accepted : Option Int)
    (after : TcpServer) : Prop :=
  before.Edits caller permits after ∨ ∃ sockfd peerAddr, accepted = some sockfd ∧ 0 ≤ sockfd ∧
    before.isInLoopThread caller baseLoop = true ∧
      (before.admitted sockfd peerAddr).Edits caller permits after

theorem acceptConnection_yields {accepted : Option (Int × Bytes)}
    (here : server.isInLoopThread caller baseLoop = true)
    (establishes : permits (.established server.nextConnId)) :
    Confined (server.acceptConnection caller accepted written)
      (server.Yields caller permits (accepted.map Prod.fst)) := by
  have stays : server.Yields caller permits (accepted.map Prod.fst) server := .inl (.refl server)
  apply confined_assertInLoopThread here
  split
  · next connfd peerAddr =>
      split
      · next valid =>
          apply confined_assertInLoopThread here
          have admitting {after : TcpServer} (edits : (server.admitted connfd peerAddr).Edits caller
              permits after) : server.Yields caller permits (some connfd) after :=
            .inr ⟨connfd, peerAddr, rfl, valid, here, edits⟩
          change Confined (if (server.admitted connfd peerAddr).isInLoopThread caller server.getNextLoop.1
            then (server.admitted connfd peerAddr).connectEstablished caller server.nextConnId written
            else .ok ((server.admitted connfd peerAddr).queueInLoop caller server.getNextLoop.1
              (.connectEstablished server.nextConnId))) _
          split
          · next near =>
              have hosts : (server.admitted connfd peerAddr).Hosts caller server.nextConnId :=
                hosts_of_conns (Function.update_self ..) near
              exact (connectEstablished_edits hosts establishes).mono fun _ => admitting
          · exact .ok (admitting (queueInLoop_edits (by simp)))
      · exact .ok stays
  · exact .ok stays

theorem setConn_reads (here : server.Hosts caller conn) (found : server.conns conn = some object)
    (reads : permits (.handled conn .read)) (same : changed.standing = object.standing) :
    server.Edits caller permits (server.setConn conn changed) := by
  have state : changed.state = object.state := congrArg Standing.state same
  exact (Edit.object found (here object found) ⟨congrArg Standing.loop same, congrArg Standing.fd same,
    congrArg Standing.peerAddr same, fun past => .inl (state ▸ past), .inr reads⟩).edits

theorem onMessage_edits (here : server.Hosts caller conn) (reads : permits (.handled conn .read))
    (identifies : permits (.identified conn))
    (erases : ∀ object, server.conns conn = some object →
      handshake.accepts object.inputBuffer.readable = false →
      (server.registerTable.myRegister server.count object.peerAddr).1.getValue object.peerAddr = 2 →
      permits (.erased conn)) :
    Confined (server.onMessage handshake caller conn written) (server.Edits caller permits) := by
  cases found : server.conns conn with
  | none =>
      unfold onMessage deref
      rw [found]
      exact .error nofun
  | some object =>
      obtain ⟨table, count, registered⟩ : ∃ table count,
          server.registerTable.myRegister server.count object.peerAddr = (table, count) := ⟨_, _, rfl⟩
      obtain ⟨drained, draining⟩ : ∃ drained, drained = server.setConn conn
          { object with inputBuffer := object.inputBuffer.retrieveAll } := ⟨_, rfl⟩
      have emptied : server.Edits caller permits drained :=
        draining ▸ setConn_reads here found reads rfl
      have counted (registerTable : RegisterTable) :
          server.Edits caller permits (drained.withTable registerTable count) :=
        emptied.trans (Edit.table conn registerTable count reads).edits
      have erases := erases object found
      rw [registered] at erases
      rw [onMessage_of_conns found draining registered]
      split
      · split
        · exact send_edits.mono fun _ => (counted _).trans
        · exact .error nofun
      · split
        · next second =>
            split
            · have marked := (counted (table.addValue object.peerAddr)).trans
                (record_edits identifies trivial)
              exact send_edits.mono fun _ => marked.trans
            · next rejected =>
                have erased := erases (by simpa using rejected) second
                exact (removeConnection_edits erased).bind fun _ removed =>
                  .ok (((counted _).trans removed).trans (Edit.table conn _ _ reads).edits)
        · have silent : ∀ task ∈ server.connections.map (Task.relay conn object.inputBuffer.readable),
              task.channel = none := List.forall_mem_map.mpr fun _ _ => rfl
          have dispatched : (drained.withTable table count).Edits caller permits
              ((drained.withTable table count).setTodo caller (server.connections.map (.relay conn
                object.inputBuffer.readable) ++ (drained.withTable table count).todo caller)) :=
            (Edit.relays conn _ reads silent).edits
          subst draining
          exact .ok ((counted table).trans dispatched)

theorem relay_edits {sender receiver : ConnId} {message : Bytes}
    (relays : permits (.relayed sender receiver))
    (erases : receiver ≠ sender → ∀ object, server.conns receiver = some object →
      server.registerTable.getValue object.peerAddr = 0 → permits (.erased receiver)) :
    Confined (server.relay caller sender message receiver written) (server.Edits caller permits) := by
  unfold relay
  split
  · next other =>
      refine confined_deref fun object found => ?_
      split
      · next unregistered => exact removeConnection_edits (erases other object found unregistered)
      · have recorded : server.Edits caller permits (server.record (.relayed sender receiver)) :=
          record_edits relays trivial
        exact send_edits.mono fun _ => recorded.trans
  · exact .ok (.refl server)

theorem refuses_of_read {received : Readv} {filled : TcpConnection} {n : Int}
    (found : server.conns conn = some object) (read : object.handleRead received = .ok (filled, n))
    (positive : 0 < n) (rejected : handshake.accepts filled.inputBuffer.readable = false)
    (second : (server.registerTable.myRegister server.count filled.peerAddr).1.getValue
      filled.peerAddr = 2) : server.refuses handshake conn received = true := by
  simp [refuses, found, read, positive, rejected, second]

/-- `handleRead` alone does not ask on which thread it is. -/
theorem handleRead_edits {received : Readv} (here : server.Hosts caller conn)
    (reads : permits (.handled conn .read)) (identifies : permits (.identified conn))
    (closes : received = .ok [] → permits (.closed conn))
    (erases : received = .ok [] ∨ server.refuses handshake conn received = true →
      permits (.erased conn)) :
    Confined (server.handleRead handshake caller conn received written)
      (server.Edits caller permits) := by
  refine confined_deref fun object found => ?_
  have inner := object.handleRead_inner received
  cases read : object.handleRead received with
  | error halt => exact .error ((confined_of_inner inner).of_error read)
  | ok result =>
      obtain ⟨filled, n⟩ := result
      obtain ⟨same, returned⟩ := inner.of_ok read
      have reading : server.Edits caller permits (server.setConn conn filled) :=
        setConn_reads here found reads same
      have hosts := reading.hosts here
      rw [ok_bind]
      dsimp only
      split
      · next positive =>
          refine (onMessage_edits hosts reads identifies fun present there rejected second => ?_).mono
            fun _ => reading.trans
          cases conns_setConn.symm.trans there
          exact erases (.inr (refuses_of_read found read positive rejected second))
      · split
        · next none =>
            have ended := Buffer.eq_ok_of_readReturn_eq_zero (returned.symm.trans none)
            exact (handleClose_edits hosts (closes ended) (erases (.inl ended))).mono fun _ => reading.trans
        · exact .ok reading

end Functions

end TcpServer

end TransferServer.Net
