import TransferServer.Net.Conversation
import TransferServer.Net.HandshakeProperties

/-! A read of a client (`handleRead`, `onMessage`): all that it has brought is taken for one packet,
whose place in the handshake the counter of the address tells. -/

set_option autoImplicit false

namespace TransferServer.Net

open Base Lib

namespace TcpServer

variable {timely : Prop} {handshake : Handshake} {server before middle after : TcpServer}
variable {loop : LoopId} {conn : ConnId} {str bytes : Bytes} {written : Int} {progress : Progress}
variable {table : RegisterTable} {count : Int} {value : Option Int} {object : TcpConnection}

section Reading

/-- What the server has made of the client so far. -/
structure Counts (conn : ConnId) (str : Bytes) (progress : Progress) (server : TcpServer) : Prop where
  held : server.registerTable.find str = progress.stage.counter
  identified : .identified conn ∈ server.trace ↔ progress.accepted = true
  removed : server.Removed conn ↔ progress.rejected = true

theorem removed_congr (departures : after.departures conn = before.departures conn) :
    after.Removed conn ↔ before.Removed conn := by
  rw [← departures_pos, departures, departures_pos]

/-- The input of the client has been taken, and no entry but its own has changed. -/
structure Taken (conn : ConnId) (str : Bytes) (before after : TcpServer) : Prop where
  consistent : after.registerTable.Consistent after.count
  foreign : ∀ name, name ≠ str → after.registerTable.find name = before.registerTable.find name
  client : ∃ object later, before.conns conn = some object ∧ after.conns conn = some later ∧
    later.loop = object.loop ∧ later.peerAddr = object.peerAddr ∧ later.inputBuffer.Valid ∧
      later.inputBuffer.readable = []
  others : ∀ other, other ≠ conn → ∀ object, before.conns other = some object →
    ∃ later, after.conns other = some later ∧ later.peerAddr = object.peerAddr

theorem Taken.unheard (taken : before.Taken conn str middle) (unheard : middle.Unheard after) :
    before.Taken conn str after where
  consistent := unheard.registerTable ▸ unheard.count ▸ taken.consistent
  foreign := fun name other => unheard.registerTable ▸ taken.foreign name other
  client := by
    obtain ⟨object, between, found, there, loop, peer, valid, empty⟩ := taken.client
    obtain ⟨later, kept, loopLater, peerLater, input⟩ := unheard.object conn between there
    exact ⟨object, later, found, kept, loopLater.trans loop, peerLater.trans peer, input ▸ valid,
      input ▸ empty⟩
  others := by
    intro other apart object found
    obtain ⟨between, there, peer⟩ := taken.others other apart object found
    obtain ⟨later, kept, _, peerLater, _⟩ := unheard.object other between there
    exact ⟨later, kept, peerLater.trans peer⟩

/-- What a read of the client amounts to. -/
structure Heard (handshake : Handshake) (loop : LoopId) (conn : ConnId) (str bytes : Bytes)
    (progress : Progress) (before after : TcpServer) : Prop extends Taken conn str before after where
  counts : after.Counts conn str (progress.hear handshake bytes)
  todo : after.todo = if progress.stage = .verified then (before.setTodo loop
    (before.connections.map (.relay conn bytes) ++ before.todo loop)).todo else before.todo
  kept : ∀ other, other ≠ conn → after.departures other = before.departures other
  answered : progress.stage = .greeting → handshake.firstReply bytes ≠ none

theorem Heard.edits (heard : Heard handshake loop conn str bytes progress before middle)
    (edits : middle.Edits loop (fun _ => False) after) :
    Heard handshake loop conn str bytes progress before after where
  toTaken := heard.toTaken.unheard (edits.unheard fun _ => id).1
  counts := by
    obtain ⟨held, identified, removed⟩ := heard.counts
    refine ⟨(edits.unheard fun _ => id).1.registerTable ▸ held, ?_, ?_⟩
    · exact (edits.mem_trace id).trans identified
    · exact (removed_congr (edits.departures id)).trans removed
  todo := (edits.unheard fun _ => id).2.trans heard.todo
  kept := fun other apart => (edits.departures id).trans (heard.kept other apart)
  answered := heard.answered

section Branches

theorem registered_stage (consistent : server.registerTable.Consistent server.count)
    (held : server.registerTable.find str = progress.stage.counter)
    (registered : server.registerTable.myRegister server.count str = (table, count)) :
    table.Consistent count ∧ table.getValue str = progress.stage.counter.getD 1 ∧
      table.find = Function.update server.registerTable.find str (some (progress.stage.counter.getD 1)) ∧
      (table.addValue str).find =
        Function.update server.registerTable.find str (some (progress.stage.counter.getD 1 + 1)) := by
  obtain ⟨consistent', find⟩ := consistent.registered registered
  rw [held] at find
  refine ⟨consistent', ?_, find, find_addValue_registered consistent' find⟩
  rw [getValue_update find, if_pos rfl, Option.getD_some]

/-- The server when `onMessage` has read the packet and counted it. -/
def counted (server : TcpServer) (conn : ConnId) (object : TcpConnection) (table : RegisterTable)
    (count : Int) : TcpServer :=
  (server.setConn conn { object with inputBuffer := object.inputBuffer.retrieveAll }).withTable table count

theorem taken_counted (found : server.conns conn = some object) (valid : object.inputBuffer.Valid)
    (consistent : table.Consistent count)
    (find : table.find = Function.update server.registerTable.find object.peerAddr value) :
    server.Taken conn object.peerAddr (server.counted conn object table count) where
  consistent := consistent
  foreign := by
    intro name other
    change table.find name = _
    rw [find, Function.update_of_ne other]
  client := ⟨object, { object with inputBuffer := object.inputBuffer.retrieveAll }, found, conns_setConn,
    rfl, rfl, Buffer.retrieveAll_valid valid, Buffer.readable_retrieveAll object.inputBuffer⟩
  others := fun other apart present there => ⟨present, (Function.update_of_ne apart ..).trans there, rfl⟩

theorem heard_greeting (found : server.conns conn = some object) (valid : object.inputBuffer.Valid)
    (counts : server.Counts conn object.peerAddr progress) (stage : progress.stage = .greeting)
    (answered : handshake.firstReply bytes ≠ none) (consistent : table.Consistent count)
    (find : table.find = Function.update server.registerTable.find object.peerAddr (some 2)) :
    Heard handshake loop conn object.peerAddr bytes progress server
      (server.counted conn object table count) where
  toTaken := taken_counted found valid consistent find
  counts := by
    simp only [Progress.hear, stage]
    exact ⟨(congrFun find _).trans (Function.update_self ..), counts.identified, counts.removed⟩
  todo := by
    rw [stage, if_neg (by decide)]
    rfl
  kept := fun _ _ => rfl
  answered := fun _ => answered

theorem heard_accepted (found : server.conns conn = some object) (valid : object.inputBuffer.Valid)
    (counts : server.Counts conn object.peerAddr progress) (stage : progress.stage = .answering)
    (accepts : handshake.accepts bytes = true) (consistent : table.Consistent count)
    (find : table.find = Function.update server.registerTable.find object.peerAddr (some 3)) :
    Heard handshake loop conn object.peerAddr bytes progress server
      ((server.counted conn object table count).record (.identified conn)) where
  toTaken := (taken_counted found valid consistent find).unheard ⟨rfl, rfl, (Unheard.refl _).object⟩
  counts := by
    simp only [Progress.hear, stage, accepts, if_true]
    refine ⟨(congrFun find _).trans (Function.update_self ..), ?_, ?_⟩
    · simp [record]
    · refine Iff.trans ?_ counts.removed
      simp [Removed, record, counted, agenda, setConn, withTable]
  todo := by
    rw [stage, if_neg (by decide)]
    rfl
  kept := by
    intro other _
    simp [departures, record, counted, agenda, setConn, withTable]
  answered := by simp [stage]

theorem heard_payload (found : server.conns conn = some object) (valid : object.inputBuffer.Valid)
    (counts : server.Counts conn object.peerAddr progress) (stage : progress.stage = .verified)
    (consistent : table.Consistent count)
    (find : table.find = Function.update server.registerTable.find object.peerAddr (some 3)) :
    Heard handshake loop conn object.peerAddr bytes progress server
      ((server.counted conn object table count).setTodo loop
        (server.connections.map (.relay conn bytes) ++ server.todo loop)) where
  toTaken := (taken_counted found valid consistent find).unheard ⟨rfl, rfl, (Unheard.refl _).object⟩
  counts := by
    simp only [Progress.hear, stage]
    refine ⟨(congrFun find _).trans (Function.update_self ..), counts.identified, counts.removed⟩
  todo := by
    rw [stage, if_pos rfl]
    rfl
  kept := fun _ _ => rfl
  answered := by simp [stage]

theorem heard_refused (found : server.conns conn = some object) (valid : object.inputBuffer.Valid)
    (counts : server.Counts conn object.peerAddr progress) (stage : progress.stage = .answering)
    (refuses : handshake.accepts bytes = false) (consistent : table.Consistent count)
    (find : table.find = Function.update server.registerTable.find object.peerAddr (some 3)) :
    Returns ((server.counted conn object table count).removeConnection loop conn >>= fun server =>
        .ok (server.withTable (server.registerTable.myUnregister object.peerAddr) server.count))
      (Heard handshake loop conn object.peerAddr bytes progress server) := by
  cases outcome : (server.counted conn object table count).removeConnection loop conn with
  | error halt => exact .error trivial
  | ok after =>
      have removing : Confined ((server.counted conn object table count).removeConnection loop conn)
          ((server.counted conn object table count).Edits loop (· = .erased conn)) :=
        removeConnection_edits rfl
      have edits := removing.of_ok outcome
      have departed : after.departures conn = (server.counted conn object table count).departures conn + 1 :=
        removeConnection_departs.of_ok outcome
      obtain ⟨unheard, todo⟩ := edits.unheard (by simp)
      have taken := (taken_counted found valid consistent find).unheard unheard
      have table : after.registerTable = table := unheard.registerTable
      refine .ok ⟨⟨taken.consistent.myUnregister, fun name other => ?_, taken.client, taken.others⟩,
        ?_, ?_, fun other apart => ?_, by simp [stage]⟩
      · change (after.registerTable.myUnregister object.peerAddr).find name = _
        rw [taken.consistent.find_myUnregister, Function.update_of_ne other]
        exact taken.foreign name other
      · simp only [Progress.hear, stage, refuses, Bool.false_eq_true, if_false]
        refine ⟨?_, (edits.mem_trace (by simp)).trans counts.identified, ?_⟩
        · change (after.registerTable.myUnregister object.peerAddr).find object.peerAddr = _
          rw [taken.consistent.find_myUnregister, Function.update_self]
          rfl
        · refine iff_of_true (departures_pos.mp ?_) rfl
          change 0 < after.departures conn
          omega
      · rw [stage, if_neg (by decide)]
        exact todo
      · exact edits.departures (by simpa using apart)

end Branches

/-- The whole of the input is the packet. -/
theorem onMessage_heard (found : server.conns conn = some object) (valid : object.inputBuffer.Valid)
    (consistent : server.registerTable.Consistent server.count)
    (counts : server.Counts conn object.peerAddr progress) :
    Returns (server.onMessage handshake loop conn written)
      (Heard handshake loop conn object.peerAddr object.inputBuffer.readable progress server) := by
  obtain ⟨table, count, registered⟩ : ∃ table count,
      server.registerTable.myRegister server.count object.peerAddr = (table, count) := ⟨_, _, rfl⟩
  obtain ⟨consistent', value, find, added⟩ := registered_stage consistent counts.held registered
  rw [onMessage_of_conns found rfl registered, value]
  cases stage : progress.stage with
  | greeting =>
      rw [stage] at added
      rw [if_pos (by decide)]
      split
      · next sendInfo answers =>
          have heard : Heard handshake loop conn object.peerAddr object.inputBuffer.readable progress
            server _ := heard_greeting found valid counts stage (by simp [answers]) consistent'.addValue added
          exact send_edits.returns.mono fun _ edits => heard.edits edits
      · exact .error trivial
  | answering =>
      rw [stage] at added
      rw [if_neg (by decide), if_pos (by decide)]
      split
      · next accepts =>
          have heard : Heard handshake loop conn object.peerAddr object.inputBuffer.readable progress
            server _ := heard_accepted found valid counts stage accepts consistent'.addValue added
          exact send_edits.returns.mono fun _ edits => heard.edits edits
      · next refuses =>
          exact heard_refused found valid counts stage (by simpa using refuses) consistent'.addValue added
  | verified =>
      rw [stage] at find
      rw [if_neg (by decide), if_neg (by decide)]
      exact .ok (heard_payload found valid counts stage consistent' find)

theorem handleRead_fills (valid : object.inputBuffer.Valid) (empty : object.inputBuffer.readable = []) :
    Returns (object.handleRead (.ok bytes)) fun result =>
      result.2 = bytes.length ∧ result.1.loop = object.loop ∧ result.1.peerAddr = object.peerAddr ∧
        result.1.inputBuffer.Valid ∧ result.1.inputBuffer.readable = bytes := by
  unfold TcpConnection.handleRead
  cases read : object.inputBuffer.readFd (.ok bytes) with
  | error halt => exact .error trivial
  | ok result =>
      obtain ⟨scattered, -⟩ := assume_bind_eq_ok.mp read
      obtain ⟨filled, returned, valid', readable⟩ := Buffer.readFd_spec valid scattered
      obtain rfl := Except.ok.inj (returned.symm.trans read)
      rw [empty, List.nil_append] at readable
      exact .ok ⟨rfl, rfl, rfl, valid', readable⟩

/-- The client with nothing in its input. -/
def Drained (server : TcpServer) (conn : ConnId) (str : Bytes) (loop : LoopId) : Prop :=
  ∃ object, server.conns conn = some object ∧ object.loop = loop ∧ object.peerAddr = str ∧
    object.inputBuffer.Valid ∧ object.inputBuffer.readable = []

theorem read_heard {caller : LoopId} {input : Input}
    (consistent : server.registerTable.Consistent server.count) (drained : server.Drained conn str loop)
    (counts : server.Counts conn str progress) (received : input.received = .ok bytes)
    (nonempty : bytes ≠ []) :
    Returns (server.callback handshake caller (.connection conn) .read input)
      (Heard handshake caller conn str bytes progress server) := by
  obtain ⟨object, found, rfl, rfl, valid, empty⟩ := drained
  refine returns_deref fun present there => ?_
  cases found.symm.trans there
  rw [received]
  refine (handleRead_fills valid empty).bind fun result fills => ?_
  obtain ⟨filled, n⟩ := result
  obtain ⟨length, loop, peer, valid', readable⟩ := fills
  dsimp only at length loop peer valid' readable ⊢
  have positive : 0 < n := by
    rw [length]
    exact Int.natCast_pos.mpr (List.length_pos_iff.mpr nonempty)
  rw [if_pos positive, ← readable, ← peer]
  have counts' : Counts conn filled.peerAddr progress
      ((server.record (.handled conn .read)).setConn conn filled) := by
    refine ⟨peer ▸ counts.held, ?_, ?_⟩
    · exact Iff.trans (by simp [record, setConn]) counts.identified
    · exact Iff.trans (by simp [Removed, record, setConn, agenda]) counts.removed
  have speaking : Returns (((server.record (.handled conn .read)).setConn conn filled).onMessage handshake
      caller conn input.written) _ := onMessage_heard conns_setConn valid' consistent counts'
  refine speaking.mono fun after heard => ?_
  refine ⟨⟨heard.consistent, heard.foreign, ?_, fun other apart present known => ?_⟩, heard.counts,
    heard.todo, fun other apart => ?_, heard.answered⟩
  · obtain ⟨between, later, there, kept, loop', peer', rest⟩ := heard.client
    cases conns_setConn.symm.trans there
    exact ⟨object, later, found, kept, loop'.trans loop, peer'.trans peer, rest⟩
  · exact heard.others other apart present ((Function.update_of_ne apart ..).trans known)
  · refine (heard.kept other apart).trans ?_
    simp [departures, record, setConn, agenda]

end Reading

end TcpServer

end TransferServer.Net
