import TransferServer.Base.RegisterTableProperties
import TransferServer.Net.Handshake
import TransferServer.Net.TcpServerProperties

/-! The handshake of `onMessage` keeps its progress in the register table, under the peer's address.
Who relays has been identified, as long as no address comes back with a counter left behind. -/

set_option autoImplicit false

namespace TransferServer.Net.TcpServer

open Base Lib

variable {handshake : Handshake} {server before after : TcpServer} {loop : LoopId} {conn : ConnId}
variable {str : Bytes}

section Invariant

/-- The address of the peer while the connection is open: until its close is handled or it is
destroyed. -/
def peerOf (server : TcpServer) (conn : ConnId) : Option Bytes :=
  (server.standing conn).bind fun standing =>
    if standing.state = .kDisconnected ∨ .closed conn ∈ server.trace then none
    else some standing.peerAddr

theorem peerOf_eq_some : server.peerOf conn = some str ↔ ∃ standing,
    server.standing conn = some standing ∧ standing.state ≠ .kDisconnected ∧
      .closed conn ∉ server.trace ∧ standing.peerAddr = str := by
  simp only [peerOf, Option.bind_eq_some_iff]
  refine exists_congr fun standing => and_congr_right fun _ => ?_
  split
  · next ended =>
      refine ⟨nofun, fun ⟨up, unclosed, _⟩ => ?_⟩
      exact ended.elim (absurd · up) (absurd · unclosed)
  · next lasting =>
      rw [not_or] at lasting
      simp [lasting]

/-- Nobody else is open under the name, and a counter past the handshake is the connection's own. -/
structure Owns (server : TcpServer) (conn : ConnId) (str : Bytes) : Prop where
  alone : ∀ other, server.peerOf other = some str → other = conn
  identified : 3 ≤ server.registerTable.getValue str → .identified conn ∈ server.trace

/-- Every open connection owns its counter, and who passes a message on was identified before. -/
structure Vouched (server : TcpServer) : Prop where
  consistent : server.registerTable.Consistent server.count
  positive : ∀ name value, server.registerTable.find name = some value → 1 ≤ value
  owned : ∀ conn str, server.peerOf conn = some str → server.Owns conn str
  relaying : ∀ loop sender message receiver, .relay sender message receiver ∈ server.todo loop →
    .identified sender ∈ server.trace
  relayed : ∀ earlier sender receiver later,
    server.trace = earlier ++ .relayed sender receiver :: later → .identified sender ∈ earlier

theorem start_vouched {numThreads : Nat} {wakeupFd : LoopId → Int} {acceptFd : Int} :
    (start numThreads wakeupFd acceptFd).Vouched where
  consistent := RegisterTable.empty_consistent 0
  positive := by simp [start, RegisterTable.find, RegisterTable.empty]
  owned := by simp [start, peerOf, standing]
  relaying := by simp [start]
  relayed := by simp [start]

theorem Calm.mem_trace (calm : before.Calm after) {event : Event} (found : event ∈ before.trace) :
    event ∈ after.trace := by
  obtain ⟨events, grown, -⟩ := calm.trace
  rw [grown]
  exact List.mem_append_left events found

theorem Calm.peerOf (calm : before.Calm after) (opened : after.peerOf conn = some str) :
    before.peerOf conn = some str := by
  obtain ⟨standing, there, up, unclosed, rfl⟩ := peerOf_eq_some.mp opened
  obtain ⟨earlier, found, same, down⟩ := calm.standing conn standing there
  exact peerOf_eq_some.mpr ⟨earlier, found, fun gone => up (down gone),
    fun closed => unclosed (calm.mem_trace closed), same⟩

theorem Calm.owns (calm : before.Calm after) (owns : before.Owns conn str) : after.Owns conn str where
  alone := fun other opened => owns.alone other (calm.peerOf opened)
  identified := fun verified => calm.mem_trace (owns.identified (calm.registerTable ▸ verified))

theorem relayed_earlier {trace events earlier later : List Event} {sender receiver : ConnId}
    (calm : ∀ event ∈ events, ∀ sender receiver, event ≠ .relayed sender receiver)
    (split : trace ++ events = earlier ++ .relayed sender receiver :: later) :
    ∃ rest, trace = earlier ++ .relayed sender receiver :: rest := by
  have recent : .relayed sender receiver ∉ events := fun found => calm _ found sender receiver rfl
  rcases List.append_eq_append_iff.mp split with ⟨added, -, rfl⟩ | ⟨added, before, rest⟩
  · exact absurd (List.mem_append_right added List.mem_cons_self) recent
  · cases added with
    | nil =>
        rw [List.nil_append] at rest
        exact absurd (rest ▸ List.mem_cons_self) recent
    | cons event added =>
        obtain ⟨rfl, -⟩ := List.cons.inj rest
        exact ⟨added, before⟩

theorem Vouched.calm (vouched : before.Vouched) (calm : before.Calm after) : after.Vouched where
  consistent := calm.registerTable ▸ calm.count ▸ vouched.consistent
  positive := calm.registerTable ▸ vouched.positive
  owned := fun conn str opened => calm.owns (vouched.owned conn str (calm.peerOf opened))
  relaying := fun loop sender message receiver waiting => calm.mem_trace
    (vouched.relaying loop sender message receiver (calm.todo loop sender message receiver waiting))
  relayed := by
    intro earlier sender receiver later split
    obtain ⟨events, grown, silent⟩ := calm.trace
    rw [grown] at split
    obtain ⟨rest, before⟩ := relayed_earlier silent split
    exact vouched.relayed earlier sender receiver rest before

end Invariant

section Counting

variable {table : RegisterTable} {count : Int}

theorem getValue_update {changed : RegisterTable} {value : Option Int}
    (find : changed.find = Function.update table.find str value) (other : Bytes) :
    changed.getValue other = if other = str then value.getD 0 else table.getValue other := by
  unfold RegisterTable.getValue
  rw [find, Function.update_apply]
  split <;> rfl

/-- The owner of a counter may move it, to no more than the trace vouches for. -/
theorem Vouched.withTable {value : Option Int} (vouched : server.Vouched)
    (owns : server.Owns conn str) (consistent : table.Consistent count)
    (find : table.find = Function.update server.registerTable.find str value)
    (positive : ∀ counter, value = some counter → 1 ≤ counter)
    (verified : 3 ≤ value.getD 0 → .identified conn ∈ server.trace) :
    (server.withTable table count).Vouched where
  consistent := consistent
  positive := by
    intro name counter found
    change table.find name = some counter at found
    rw [find, Function.update_apply] at found
    split at found
    · exact positive counter found
    · exact vouched.positive name counter found
  owned := by
    intro other name opened
    have owned := vouched.owned other name opened
    refine ⟨owned.alone, fun counted => ?_⟩
    change 3 ≤ table.getValue name at counted
    rw [getValue_update find] at counted
    split at counted
    · next same =>
        obtain rfl := owns.alone other (same ▸ opened)
        exact verified counted
    · exact owned.identified counted
  relaying := vouched.relaying
  relayed := vouched.relayed

/-- The counter is positive then: the one that was there, or one. -/
theorem Vouched.registered (vouched : server.Vouched)
    (registered : server.registerTable.myRegister server.count str = (table, count)) :
    table.Consistent count ∧ ∃ value, 1 ≤ value ∧ table.getValue str = value ∧
      table.find = Function.update server.registerTable.find str (some value) ∧
        (value = 1 ∨ value = server.registerTable.getValue str) := by
  obtain ⟨consistent, find⟩ := vouched.consistent.registered registered
  refine ⟨consistent, (server.registerTable.find str).getD 1, ?_, ?_, find, ?_⟩
  · cases found : server.registerTable.find str with
    | none => exact Int.le_refl 1
    | some value => exact vouched.positive str value found
  · rw [getValue_update find, if_pos rfl, Option.getD_some]
  · unfold RegisterTable.getValue
    cases server.registerTable.find str with
    | none => exact .inl rfl
    | some value => exact .inr rfl

theorem find_addValue_registered {updated : RegisterTable} {value : Int}
    (consistent : updated.Consistent count)
    (find : updated.find = Function.update table.find str (some value)) :
    (updated.addValue str).find = Function.update table.find str (some (value + 1)) := by
  rw [consistent.find_addValue, find, Function.update_idem, Function.update_self, Option.map_some]

theorem Judged.vouched {judged : TcpServer} {data : Bytes} (vouched : server.Vouched)
    (owns : server.Owns conn str) (judging : Judged handshake server loop conn str data judged) :
    judged.Vouched := by
  cases judging with
  | first registered once =>
      obtain ⟨consistent, value, -, counter, find, -⟩ := vouched.registered registered
      obtain rfl : value = 1 := counter.symm.trans once
      exact vouched.withTable owns consistent.addValue (find_addValue_registered consistent find)
        (by simp) (by simp)
  | @identified table count registered twice accepted =>
      obtain ⟨consistent, value, -, counter, find, -⟩ := vouched.registered registered
      obtain rfl : value = 2 := counter.symm.trans twice
      have recording : server.Quiet (server.record (.identified conn)) := record_quiet trivial
      have recorded : ((server.record (.identified conn)).withTable (table.addValue str) count).Vouched :=
        (vouched.calm recording.calm).withTable (recording.calm.owns owns) consistent.addValue
          (find_addValue_registered consistent find) (by simp) (by simp [record])
      exact recorded
  | @refused table count registered twice rejected =>
      obtain ⟨consistent, value, -, counter, find, -⟩ := vouched.registered registered
      have removed : ((table.addValue str).myUnregister str).find = _ :=
        consistent.addValue.find_myUnregister
      rw [find_addValue_registered consistent find, Function.update_idem] at removed
      exact vouched.withTable owns consistent.addValue.myUnregister removed (by simp) (by simp)
  | dispatched registered notOnce notTwice =>
      obtain ⟨consistent, value, positive, counter, find, origin⟩ := vouched.registered registered
      rw [counter] at notOnce notTwice
      have before : value = server.registerTable.getValue str := origin.resolve_left notOnce
      have identified : .identified conn ∈ server.trace := owns.identified (by omega)
      have counted := vouched.withTable owns consistent find (by simpa using positive)
        fun _ => identified
      exact { counted with
        owned := by
          intro other name opened
          have owned := counted.owned other name opened
          exact ⟨owned.alone, owned.identified⟩
        relaying := by
          intro other sender message receiver waiting
          simp only [setTodo, Function.update_apply] at waiting
          split at waiting
          · rcases List.mem_append.mp waiting with relay | earlier
            · obtain ⟨receiver', -, same⟩ := List.mem_map.mp relay
              cases same
              exact identified
            · exact vouched.relaying loop sender message receiver earlier
          · exact vouched.relaying other sender message receiver waiting }

end Counting

section Steps

variable {action : Action}

/-- The address that the step accepts a connection from, if any. -/
def acceptedFrom (server : TcpServer) : Action → Option Bytes
  | .handle loop input =>
      match (server.todo loop).head? with
      | some (.callback .accept .read) =>
          (input.accepted.filter fun offered => 0 ≤ offered.1).map Prod.snd
      | _ => none
  | _ => none

/-- The connection that the step receives bytes on, if any. -/
def receivedOn (server : TcpServer) : Action → Option ConnId
  | .handle loop input =>
      match (server.todo loop).head? with
      | some (.callback (.connection conn) .read) =>
          if 0 < Buffer.readReturn input.received then some conn else none
      | _ => none
  | _ => none

/-- Open connections have different peers, and nothing comes from a connection that is not open. -/
def Networked (server : TcpServer) (action : Action) : Prop :=
  (∀ str ∈ server.acceptedFrom action, ∀ conn < server.nextConnId, server.peerOf conn ≠ some str) ∧
    ∀ conn ∈ server.receivedOn action, .closed conn ∉ server.trace

/-- No connection is accepted from an address whose counter is past the handshake. -/
def Fresh (server : TcpServer) (action : Action) : Prop :=
  ∀ str ∈ server.acceptedFrom action, server.registerTable.getValue str < 3

instance (server : TcpServer) (action : Action) : Decidable (server.Networked action) :=
  inferInstanceAs (Decidable ((∀ str ∈ _, ∀ conn < _, _) ∧ ∀ conn ∈ _, _))

instance (server : TcpServer) (action : Action) : Decidable (server.Fresh action) :=
  inferInstanceAs (Decidable (∀ str ∈ _, _))

theorem peerOf_admitted {sockfd : Int} {name : Bytes}
    (found : (server.admitted sockfd str).peerOf conn = some name) :
    (conn = server.nextConnId ∧ name = str) ∨ server.peerOf conn = some name := by
  obtain ⟨standing, there, up, unclosed, rfl⟩ := peerOf_eq_some.mp found
  rw [standing_admitted, Function.update_apply] at there
  split at there
  · next same =>
      cases there
      exact .inl ⟨same, rfl⟩
  · refine .inr (peerOf_eq_some.mpr ⟨standing, there, up, fun closed => unclosed ?_, rfl⟩)
    exact List.mem_append_left _ closed

theorem peerOf_recordRelayed {sender receiver : ConnId} :
    (server.record (.relayed sender receiver)).peerOf = server.peerOf := by
  funext other
  simp [peerOf, record, standing]

theorem Vouched.admitted {sockfd : Int} (vouched : server.Vouched)
    (apart : ∀ conn, server.peerOf conn ≠ some str) (fresh : server.registerTable.getValue str < 3) :
    (server.admitted sockfd str).Vouched := by
  have grown : (server.admitted sockfd str).trace = server.trace ++ [.accepted server.nextConnId] := rfl
  exact {
    consistent := vouched.consistent
    positive := vouched.positive
    owned := by
      intro conn name found
      rcases peerOf_admitted found with ⟨rfl, rfl⟩ | earlier
      · refine ⟨fun other found => ?_, fun verified => absurd fresh (Int.not_lt.mpr verified)⟩
        exact (peerOf_admitted found).elim And.left fun earlier => absurd earlier (apart other)
      · have owned := vouched.owned conn name earlier
        refine ⟨fun other found => ?_, fun verified => ?_⟩
        · rcases peerOf_admitted found with ⟨-, rfl⟩ | earlier'
          · exact absurd earlier (apart conn)
          · exact owned.alone other earlier'
        · exact grown ▸ List.mem_append_left _ (owned.identified verified)
    relaying := fun loop sender message receiver waiting =>
      grown ▸ List.mem_append_left _ (vouched.relaying loop sender message receiver waiting)
    relayed := by
      intro earlier sender receiver later split
      rw [grown] at split
      obtain ⟨rest, before⟩ := relayed_earlier (by simp) split
      exact vouched.relayed earlier sender receiver rest before }

theorem Vouched.recordRelayed {sender receiver : ConnId} (vouched : server.Vouched)
    (identified : .identified sender ∈ server.trace) :
    (server.record (.relayed sender receiver)).Vouched := {
  consistent := vouched.consistent
  positive := vouched.positive
  owned := by
    intro conn name found
    have owned := vouched.owned conn name (peerOf_recordRelayed ▸ found)
    exact ⟨fun other found => owned.alone other (peerOf_recordRelayed ▸ found),
      fun verified => List.mem_append_left _ (owned.identified verified)⟩
  relaying := fun loop sender message receiver waiting =>
    List.mem_append_left _ (vouched.relaying loop sender message receiver waiting)
  relayed := by
    intro earlier sender' receiver' later split
    rcases List.append_eq_append_iff.mp split with ⟨added, rfl, last⟩ | ⟨added, before, rest⟩
    · cases added with
      | nil =>
          obtain ⟨⟨⟩, -⟩ := List.cons.inj last
          simpa using identified
      | cons event added => simp at last
    · cases added with
      | nil =>
          obtain ⟨⟨⟩, -⟩ := List.cons.inj rest
          simpa [before] using identified
      | cons event added =>
          obtain ⟨rfl, -⟩ := List.cons.inj rest
          exact vouched.relayed earlier sender' receiver' added before }

theorem WellFormed.lt_of_peerOf (formed : server.WellFormed) (opened : server.peerOf conn = some str) :
    conn < server.nextConnId := by
  obtain ⟨standing, there, -⟩ := peerOf_eq_some.mp opened
  by_contra late
  rw [formed.numbered conn (Nat.le_of_not_lt late)] at there
  cases there

theorem Effect.vouched (effect : Effect handshake server action after) (vouched : server.Vouched)
    (formed : server.WellFormed) (networked : server.Networked action) (fresh : server.Fresh action) :
    after.Vouched := by
  rcases effect with calm | ⟨loop, input, task, tasks, rfl, first, effect⟩
  · exact vouched.calm calm
  · have popping : server.Calm (server.setTodo loop tasks) :=
      setTodo_calm fun _ _ _ later => first ▸ List.mem_cons_of_mem task later
    have popped := vouched.calm popping
    cases effect with
    | calm calm => exact popped.calm calm
    | @accepted sockfd peerAddr _ offered valid calm =>
        have accepting : server.acceptedFrom (.handle loop input) = some peerAddr := by
          simp [acceptedFrom, first, offered, valid]
        refine (popped.admitted (fun conn opened => ?_) (fresh peerAddr accepting)).calm calm
        exact networked.1 peerAddr accepting conn (formed.lt_of_peerOf (popping.peerOf opened))
          (popping.peerOf opened)
    | @message conn standing bytes data drained judged _ there up delivered nonempty draining judging calm =>
        have receiving : server.receivedOn (.handle loop input) = some conn := by
          simp [receivedOn, first, delivered, Buffer.readReturn, List.length_pos_iff, nonempty]
        have opened : (server.setTodo loop tasks).peerOf conn = some standing.peerAddr :=
          peerOf_eq_some.mpr ⟨standing, there, up.ne_kDisconnected, networked.2 conn receiving, rfl⟩
        have owns := draining.calm.owns (popped.owned conn standing.peerAddr opened)
        exact (judging.vouched (popped.calm draining.calm) owns).calm calm
    | relayed _ _ calm =>
        have waiting := first ▸ List.mem_cons_self
        exact (popped.recordRelayed (vouched.relaying loop _ _ _ waiting)).calm calm

theorem step_vouched (upheld : server.Upheld False) (vouched : server.Vouched)
    (networked : server.Networked action) (fresh : server.Fresh action) :
    Ensures (Halt.Tolerated False) (step handshake server action)
      fun after => after.Upheld False ∧ after.Vouched :=
  (step_spec upheld.formed upheld.valid nofun).mono fun _ ⟨proceeds, effect⟩ =>
    ⟨proceeds.upheld upheld, effect.vouched vouched upheld.formed networked fresh⟩

end Steps

section Runs

variable {numThreads : Nat} {wakeupFd : LoopId → Int} {acceptFd : Int} {actions : List Action}

theorem run_vouched
    (run : Execution (step handshake) (fun server action => server.Networked action ∧ server.Fresh action)
      (start numThreads wakeupFd acceptFd) actions server) :
    server.Upheld False ∧ server.Vouched :=
  run.ensures (fun server => server.Upheld False ∧ server.Vouched) ⟨start_upheld, start_vouched⟩
    fun _ _ ⟨upheld, vouched⟩ ⟨networked, fresh⟩ => step_vouched upheld vouched networked fresh

/-- Where no address comes back with a counter past the handshake, a connection whose messages
are passed on took the branch that identifies it before. -/
theorem relayed_after_identified
    (run : Execution (step handshake) (fun server action => server.Networked action ∧ server.Fresh action)
      (start numThreads wakeupFd acceptFd) actions server) {earlier later : List Event}
    {sender receiver : ConnId} (split : server.trace = earlier ++ .relayed sender receiver :: later) :
    .identified sender ∈ earlier :=
  (run_vouched run).2.relayed earlier sender receiver later split

/-- The theorem at a connection that completes the handshake and passes a message on. -/
theorem relayed_after_identified_broadcast : ∃ (server : TcpServer) (earlier later : List Event),
    server.trace = earlier ++ .relayed 1 2 :: later ∧ .identified 1 ∈ earlier := by
  let handshake : Handshake := ⟨Handshake.ofPackets.firstReply, fun data => data = [7]⟩
  let actions : List Action :=
    iteration 0 [0, 1] [.nothing, ⟨some (5, [1]), .ok [], 21⟩] [] ++
    iteration 0 [0, 1, 0] [.nothing, ⟨some (6, [2]), .ok [], 21⟩] [] ++
    iteration 0 [0, 0, 1, 1] [.nothing, ⟨none, .ok Handshake.firstMessage, 0⟩, .nothing,
      ⟨none, .ok Handshake.firstMessage, 0⟩] [] ++
    iteration 0 [0, 0, 1, 0] [.nothing, ⟨none, .ok [7], 0⟩] [] ++
    iteration 0 [0, 0, 1, 0] [.nothing, ⟨none, .ok [8], 0⟩, .nothing, ⟨none, .ok [], 1⟩] []
  have replayed : (replay (step handshake)
      (fun server action => server.Networked action ∧ server.Fresh action) .impossible
      (start 0 (fun loop => 4 + loop) 3) actions).toOption.any
        (fun server => decide (.relayed 1 2 ∈ server.trace)) = true := by
    decide +kernel
  obtain ⟨server, run, ended⟩ := Execution.exists_of_replay replayed
  obtain ⟨earlier, later, split⟩ := List.append_of_mem (of_decide_eq_true ended)
  exact ⟨server, earlier, later, split, relayed_after_identified run split⟩

/-- A peer that has been identified leaves; the next one at its address passes on its first
message. -/
theorem relayed_unidentified : ∃ (actions : List Action) (server : TcpServer),
    Execution (step ⟨Handshake.ofPackets.firstReply, fun data => data = [7]⟩) Networked
      (start 0 (fun loop => 4 + loop) 3) actions server ∧
    .relayed 3 2 ∈ server.trace ∧ .identified 3 ∉ server.trace := by
  let actions : List Action :=
    iteration 0 [0, 1] [.nothing, ⟨some (5, [1]), .ok [], 21⟩] [] ++
    iteration 0 [0, 1, 0] [.nothing, ⟨some (6, [2]), .ok [], 21⟩] [] ++
    iteration 0 [0, 0, 1, 1] [.nothing, ⟨none, .ok Handshake.firstMessage, 0⟩, .nothing,
      ⟨none, .ok Handshake.firstMessage, 0⟩] [] ++
    iteration 0 [0, 0, 1, 0] [.nothing, ⟨none, .ok [7], 0⟩] [] ++
    iteration 0 [0, 0, 1, 0] [.nothing, .nothing] [.nothing] ++
    iteration 0 [0, 1, 0] [.nothing, ⟨some (7, [1]), .ok [], 21⟩] [] ++
    iteration 0 [0, 0, 0, 1] [.nothing, ⟨none, .ok [8], 0⟩, ⟨none, .ok [], 1⟩, .nothing] []
  have replayed : (replay (step ⟨Handshake.ofPackets.firstReply, fun data => data = [7]⟩) Networked
      .impossible (start 0 (fun loop => 4 + loop) 3) actions).toOption.any (fun server =>
        decide (.relayed 3 2 ∈ server.trace ∧ .identified 3 ∉ server.trace)) = true := by
    decide +kernel
  obtain ⟨server, run, ended⟩ := Execution.exists_of_replay replayed
  exact ⟨actions, server, run, of_decide_eq_true ended⟩

end Runs

end TransferServer.Net.TcpServer
