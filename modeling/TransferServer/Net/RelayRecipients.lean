import TransferServer.Net.Handshake
import TransferServer.Net.HandshakeProperties

/-! To whom `onMessage` passes messages on: connections whose address has an entry in the register
table. The entry stems from an earlier message of a connection with that address. -/

set_option autoImplicit false

namespace TransferServer.Net.TcpServer

open Base Lib

variable {handshake : Handshake} {server before after : TcpServer} {action : Action}
variable {loop : LoopId} {conn receiver : ConnId} {str : Bytes}

section Registering

/-- The step receives bytes on a connection with the address. -/
def ReceivesFrom (str : Bytes) (server : TcpServer) (action : Action) : Prop :=
  ∃ conn standing, server.receivedOn action = some conn ∧ server.standing conn = some standing ∧
    standing.peerAddr = str

def ReceivesOn (conn : ConnId) (server : TcpServer) (action : Action) : Prop :=
  server.receivedOn action = some conn

/-- The step accepts the connection from an address that has an entry already. -/
def AcceptsEntered (conn : ConnId) (server : TcpServer) (action : Action) : Prop :=
  server.nextConnId = conn ∧
    ∃ str ∈ server.acceptedFrom action, server.registerTable.find str ≠ none

theorem Judged.find {data : Bytes} {judged : TcpServer}
    (consistent : server.registerTable.Consistent server.count)
    (judging : Judged handshake server loop conn str data judged) :
    judged.registerTable.Consistent judged.count ∧
      ∀ name, name ≠ str → judged.registerTable.find name = server.registerTable.find name := by
  have registering {table : RegisterTable} {count : Int}
      (registered : server.registerTable.myRegister server.count str = (table, count)) :
      table.Consistent count ∧
        ∀ name, name ≠ str → table.find name = server.registerTable.find name := by
    obtain ⟨consistent', find⟩ := consistent.registered registered
    exact ⟨consistent', fun name other => by rw [find, Function.update_of_ne other]⟩
  have added {table : RegisterTable} {count : Int}
      (registered : server.registerTable.myRegister server.count str = (table, count)) :
      (table.addValue str).Consistent count ∧
        ∀ name, name ≠ str → (table.addValue str).find name = server.registerTable.find name := by
    obtain ⟨consistent, kept⟩ := registering registered
    refine ⟨consistent.addValue, fun name other => ?_⟩
    rw [consistent.find_addValue, Function.update_of_ne other, kept name other]
  cases judging with
  | first registered => exact added registered
  | identified registered => exact added registered
  | @refused table count registered =>
      obtain ⟨consistent, kept⟩ := added registered
      refine ⟨consistent.myUnregister, fun name other => ?_⟩
      change ((table.addValue str).myUnregister str).find name = _
      rw [consistent.find_myUnregister, Function.update_of_ne other, kept name other]
  | dispatched registered => exact registering registered

/-- An entry that a step brings about stems from the bytes it receives. -/
theorem Effect.registered (effect : Effect handshake server action after)
    (consistent : server.registerTable.Consistent server.count) :
    after.registerTable.Consistent after.count ∧ ∀ name,
      after.registerTable.find name = server.registerTable.find name ∨
        server.ReceivesFrom name action := by
  have calmly {middle : TcpServer} (calm : middle.Calm after)
      (table : middle.registerTable = server.registerTable) (count : middle.count = server.count) :
      after.registerTable.Consistent after.count ∧ ∀ name,
        after.registerTable.find name = server.registerTable.find name ∨
          server.ReceivesFrom name action := by
    rw [calm.registerTable, calm.count, table, count]
    exact ⟨consistent, fun _ => .inl rfl⟩
  rcases effect with calm | ⟨loop, input, task, tasks, rfl, first, effect⟩
  · exact calmly calm rfl rfl
  · cases effect with
    | calm calm => exact calmly calm rfl rfl
    | accepted _ _ calm => exact calmly calm rfl rfl
    | relayed _ _ calm => exact calmly calm rfl rfl
    | @message conn standing bytes data drained judged _ there up delivered nonempty draining judging calm =>
        have receiving : server.receivedOn (.handle loop input) = some conn := by
          simp [receivedOn, first, delivered, Buffer.readReturn, List.length_pos_iff, nonempty]
        obtain ⟨consistent', kept⟩ := judging.find
          (draining.registerTable ▸ draining.count ▸ consistent)
        refine ⟨calm.registerTable ▸ calm.count ▸ consistent', fun name => ?_⟩
        by_cases same : name = standing.peerAddr
        · exact .inr ⟨conn, standing, receiving, there, same.symm⟩
        · refine .inl ?_
          rw [calm.registerTable, kept name same, draining.registerTable]
          rfl

end Registering

section Opening

theorem Judged.peerOf {data : Bytes} {judged : TcpServer} {name : Bytes}
    (judging : Judged handshake server loop conn str data judged) {other : ConnId}
    (opened : judged.peerOf other = some name) : server.peerOf other = some name := by
  cases judging with
  | first => exact opened
  | @identified table count =>
      have recording : (server.withTable (table.addValue str) count).Quiet
          ((server.withTable (table.addValue str) count).record (.identified conn)) :=
        record_quiet trivial
      exact recording.calm.peerOf opened
  | refused => exact opened
  | dispatched => exact opened

theorem Effect.peerOf (effect : Effect handshake server action after)
    (opened : after.peerOf conn = some str) :
    server.peerOf conn = some str ∨
      (server.acceptedFrom action = some str ∧ conn = server.nextConnId) := by
  rcases effect with calm | ⟨loop, input, task, tasks, rfl, first, effect⟩
  · exact .inl (calm.peerOf opened)
  · have popping : server.Calm (server.setTodo loop tasks) :=
      setTodo_calm fun _ _ _ later => first ▸ List.mem_cons_of_mem task later
    cases effect with
    | calm calm => exact .inl (popping.peerOf (calm.peerOf opened))
    | @accepted sockfd peerAddr _ offered valid calm =>
        rcases peerOf_admitted (calm.peerOf opened) with ⟨rfl, rfl⟩ | earlier
        · exact .inr ⟨by simp [acceptedFrom, first, offered, valid], rfl⟩
        · exact .inl (popping.peerOf earlier)
    | message _ _ _ _ draining judging calm =>
        exact .inl (popping.peerOf (draining.calm.peerOf (judging.peerOf (calm.peerOf opened))))
    | relayed _ _ calm => exact .inl (popping.peerOf (peerOf_recordRelayed ▸ calm.peerOf opened))

theorem receivedOn_of_acceptedFrom (accepting : server.acceptedFrom action = some str) :
    server.receivedOn action = none := by
  cases action with
  | handle loop input =>
      simp only [acceptedFrom] at accepting
      split at accepting
      · next first => simp [receivedOn, first]
      · cases accepting
  | _ => cases accepting

theorem WellFormed.receiving_up (formed : server.WellFormed)
    (receiving : server.receivedOn action = some conn) :
    ∃ standing, server.standing conn = some standing ∧ standing.state.Up := by
  cases action with
  | handle loop input =>
      simp only [receivedOn] at receiving
      split at receiving
      · next other first =>
          obtain ⟨tasks, waiting⟩ := List.head?_eq_some_iff.mp first
          have called : .callback (.connection other) .read ∈ server.todo loop :=
            waiting ▸ List.mem_cons_self
          obtain ⟨standing, there, -, up⟩ := formed.scheduled loop _ other called rfl
          split at receiving
          · cases receiving
            exact ⟨standing, there, up⟩
          · cases receiving
      · cases receiving
  | _ => cases receiving

theorem WellFormed.open_of_receiving (formed : server.WellFormed) (networked : server.Networked action)
    (receiving : server.ReceivesFrom str action) :
    ∃ conn, server.receivedOn action = some conn ∧ server.peerOf conn = some str := by
  obtain ⟨conn, standing, received, there, rfl⟩ := receiving
  obtain ⟨standing', there', up⟩ := formed.receiving_up received
  obtain rfl : standing = standing' := Option.some.inj (there.symm.trans there')
  exact ⟨conn, received,
    peerOf_eq_some.mpr ⟨standing, there, up.ne_kDisconnected, networked.2 conn received, rfl⟩⟩

end Opening

section Relaying

/-- More on record, and no message passed on. -/
def Unrelayed (before after : TcpServer) : Prop :=
  ∃ events, after.trace = before.trace ++ events ∧
    ∀ sender receiver, .relayed sender receiver ∉ events

theorem Calm.unrelayed (calm : before.Calm after) : before.Unrelayed after := by
  obtain ⟨events, grown, silent⟩ := calm.trace
  exact ⟨events, grown, fun sender receiver found => silent _ found sender receiver rfl⟩

theorem Unrelayed.trans {middle : TcpServer} (first : before.Unrelayed middle)
    (second : middle.Unrelayed after) : before.Unrelayed after := by
  obtain ⟨events, grown, silent⟩ := first
  obtain ⟨later, grownMore, silentMore⟩ := second
  refine ⟨events ++ later, by rw [grownMore, grown, List.append_assoc], fun sender receiver found => ?_⟩
  exact (List.mem_append.mp found).elim (silent sender receiver) (silentMore sender receiver)

theorem Judged.unrelayed {data : Bytes} {judged : TcpServer}
    (judging : Judged handshake server loop conn str data judged) : server.Unrelayed judged := by
  cases judging with
  | first => exact ⟨[], (List.append_nil _).symm, nofun⟩
  | identified => exact ⟨[.identified conn], rfl, by simp⟩
  | refused => exact ⟨[], (List.append_nil _).symm, nofun⟩
  | dispatched => exact ⟨[], (List.append_nil _).symm, nofun⟩

theorem Effect.relayed (effect : Effect handshake server action after) {events : List Event}
    {sender : ConnId} (grown : after.trace = server.trace ++ events)
    (relayed : .relayed sender receiver ∈ events) :
    ∃ standing, server.standing receiver = some standing ∧
      server.registerTable.getValue standing.peerAddr ≠ 0 := by
  have silent (unrelayed : server.Unrelayed after) : False := by
    obtain ⟨later, grown', silent⟩ := unrelayed
    exact silent sender receiver (List.append_cancel_left (grown.symm.trans grown') ▸ relayed)
  rcases effect with calm | ⟨loop, input, task, tasks, rfl, first, effect⟩
  · exact (silent calm.unrelayed).elim
  · have popping : server.Unrelayed (server.setTodo loop tasks) :=
      ⟨[], (List.append_nil _).symm, nofun⟩
    cases effect with
    | calm calm => exact (silent (popping.trans calm.unrelayed)).elim
    | @accepted sockfd peerAddr _ _ _ calm =>
        have admitting : (server.setTodo loop tasks).Unrelayed
            ((server.setTodo loop tasks).admitted sockfd peerAddr) :=
          ⟨[.accepted (server.setTodo loop tasks).nextConnId], rfl, by simp⟩
        exact (silent (popping.trans (admitting.trans calm.unrelayed))).elim
    | message _ _ _ _ draining judging calm =>
        exact (silent (popping.trans (draining.calm.unrelayed.trans
          (judging.unrelayed.trans calm.unrelayed)))).elim
    | @relayed sender' receiver' message standing _ there entered calm =>
        obtain ⟨later, grown', silent⟩ := calm.unrelayed
        have cut : events = [.relayed sender' receiver'] ++ later := by
          refine List.append_cancel_left (grown.symm.trans (grown'.trans ?_))
          simp [record, setTodo]
        rw [cut] at relayed
        rcases List.mem_append.mp relayed with own | more
        · cases List.mem_singleton.mp own
          exact ⟨standing, there, entered⟩
        · exact absurd more (silent sender receiver)

end Relaying

section Runs

variable {numThreads : Nat} {wakeupFd : LoopId → Int} {acceptFd : Int} {actions : List Action}

/-- Every entry stems from a message of a connection with its name. -/
theorem run_registered
    (run : Execution (step handshake) anyAction (start numThreads wakeupFd acceptFd) actions server) :
    server.Upheld False ∧ server.registerTable.Consistent server.count ∧
      ∀ name, server.registerTable.find name ≠ none →
        Took (step handshake) (start numThreads wakeupFd acceptFd) (ReceivesFrom name) actions := by
  induction run with
  | nil => exact ⟨start_upheld, RegisterTable.empty_consistent 0, fun _ entered => absurd rfl entered⟩
  | @snoc actions before after action run _ stepped ih =>
      obtain ⟨upheld, consistent, stems⟩ := ih
      obtain ⟨proceeds, effect⟩ := (step_spec upheld.formed upheld.valid False.elim).of_ok stepped
      obtain ⟨consistent', kept⟩ := effect.registered consistent
      refine ⟨proceeds.upheld upheld, consistent', fun name entered => ?_⟩
      rcases kept name with same | receiving
      · exact (stems name (same ▸ entered)).later action
      · exact .now run receiving

/-- Open connections have different addresses, and an entry under the address of one stems from a
message of its own, unless it was there when the connection was accepted. -/
structure Tracked (handshake : Handshake) (start : TcpServer) (actions : List Action)
    (server : TcpServer) : Prop where
  alone : ∀ conn other str, server.peerOf conn = some str → server.peerOf other = some str →
    conn = other
  own : ∀ conn str, server.peerOf conn = some str → server.registerTable.find str ≠ none →
    Took (step handshake) start (ReceivesOn conn) actions ∨
      Took (step handshake) start (AcceptsEntered conn) actions

theorem Tracked.step {start : TcpServer} (tracked : Tracked handshake start actions server)
    (run : Execution (step handshake) anyAction start actions server) (formed : server.WellFormed)
    (networked : server.Networked action) (effect : Effect handshake server action after)
    (consistent : server.registerTable.Consistent server.count) :
    Tracked handshake start (actions ++ [action]) after where
  alone := by
    intro conn other str opened openedOther
    have apart {conn : ConnId} (earlier : server.peerOf conn = some str)
        (accepting : server.acceptedFrom action = some str) : False :=
      networked.1 str accepting conn (formed.lt_of_peerOf earlier) earlier
    rcases effect.peerOf opened with earlier | ⟨accepting, new⟩
    · rcases effect.peerOf openedOther with earlierOther | ⟨accepting, -⟩
      · exact tracked.alone conn other str earlier earlierOther
      · exact (apart earlier accepting).elim
    · rcases effect.peerOf openedOther with earlierOther | ⟨-, newOther⟩
      · exact (apart earlierOther accepting).elim
      · exact new.trans newOther.symm
  own := by
    intro conn str opened entered
    have origin : server.registerTable.find str ≠ none ∨ server.ReceivesFrom str action :=
      ((effect.registered consistent).2 str).imp_left fun same => by rwa [same] at entered
    rcases effect.peerOf opened with earlier | ⟨accepting, rfl⟩
    · rcases origin with present | receiving
      · exact (tracked.own conn str earlier present).imp (·.later action) (·.later action)
      · obtain ⟨sender, received, openedSender⟩ := formed.open_of_receiving networked receiving
        obtain rfl := tracked.alone conn sender str earlier openedSender
        exact .inl (.now run received)
    · rcases origin with present | ⟨sender, -, received, -⟩
      · exact .inr (.now run ⟨rfl, str, accepting, present⟩)
      · rw [receivedOn_of_acceptedFrom accepting] at received
        cases received

theorem run_tracked
    (run : Execution (step handshake) Networked (start numThreads wakeupFd acceptFd) actions server) :
    Tracked handshake (start numThreads wakeupFd acceptFd) actions server := by
  induction run with
  | nil => exact ⟨by simp [start, peerOf, standing], by simp [start, peerOf, standing]⟩
  | @snoc actions before after action run networked stepped ih =>
      have run : Execution (TcpServer.step handshake) anyAction _ actions before :=
        run.weaken fun _ _ _ => trivial
      obtain ⟨upheld, consistent, -⟩ := run_registered run
      obtain ⟨-, effect⟩ := (step_spec upheld.formed upheld.valid False.elim).of_ok stepped
      exact ih.step run upheld.formed networked effect consistent

/-- Whenever a message is passed on, the address of the receiver has an entry, which stems from an
earlier message of a connection with that address: of the receiver itself, while it is open, unless
the entry was there when it was accepted. -/
theorem relayed_to_registered
    (run : Execution (step handshake) anyAction (start numThreads wakeupFd acceptFd) actions server)
    (stepped : step handshake server action = .ok after) {events : List Event} {sender : ConnId}
    (grown : after.trace = server.trace ++ events) (relayed : .relayed sender receiver ∈ events) :
    ∃ standing, server.standing receiver = some standing ∧
      server.registerTable.getValue standing.peerAddr ≠ 0 ∧
      Took (step handshake) (start numThreads wakeupFd acceptFd) (ReceivesFrom standing.peerAddr)
        actions ∧
      (Execution (step handshake) Networked (start numThreads wakeupFd acceptFd) actions server →
        server.peerOf receiver = some standing.peerAddr →
        Took (step handshake) (start numThreads wakeupFd acceptFd) (ReceivesOn receiver) actions ∨
        Took (step handshake) (start numThreads wakeupFd acceptFd) (AcceptsEntered receiver) actions) := by
  obtain ⟨upheld, -, stems⟩ := run_registered run
  obtain ⟨-, effect⟩ := (step_spec upheld.formed upheld.valid False.elim).of_ok stepped
  obtain ⟨standing, there, counted⟩ := effect.relayed grown relayed
  have entered : server.registerTable.find standing.peerAddr ≠ none := by
    intro missing
    rw [RegisterTable.getValue, missing] at counted
    exact counted rfl
  exact ⟨standing, there, counted, stems _ entered, fun networked opened =>
    (run_tracked networked).own receiver standing.peerAddr opened entered⟩

/-- The theorem at a receiver that has sent its first packet only. -/
theorem relayed_to_registered_handshaking : ∃ (actions : List Action) (server : TcpServer)
    (standing : Standing), server.standing 2 = some standing ∧
      server.registerTable.getValue standing.peerAddr ≠ 0 ∧
      Took (step ⟨Handshake.ofPackets.firstReply, fun data => data = [7]⟩)
        (start 0 (fun loop => 4 + loop) 3) (ReceivesFrom standing.peerAddr) actions := by
  let actions : List Action :=
    iteration 0 [0, 1] [.nothing, ⟨some (5, [1]), .ok [], 21⟩] [] ++
    iteration 0 [0, 1, 0] [.nothing, ⟨some (6, [2]), .ok [], 21⟩] [] ++
    iteration 0 [0, 0, 1, 1] [.nothing, ⟨none, .ok Handshake.firstMessage, 0⟩, .nothing,
      ⟨none, .ok Handshake.firstMessage, 0⟩] [] ++
    iteration 0 [0, 0, 1, 0] [.nothing, ⟨none, .ok [7], 0⟩] [] ++
    [.poll 0 (some [0, 0, 1, 0]), .handle 0 .nothing, .handle 0 ⟨none, .ok [8], 0⟩,
      .handle 0 .nothing]
  have replayed : (replay (step ⟨Handshake.ofPackets.firstReply, fun data => data = [7]⟩) anyAction
      .impossible (start 0 (fun loop => 4 + loop) 3) actions).toOption.any (fun server =>
        match step ⟨Handshake.ofPackets.firstReply, fun data => data = [7]⟩ server
          (.handle 0 ⟨none, .ok [], 1⟩) with
        | .ok after => decide (after.trace = server.trace ++ [.relayed 1 2])
        | .error _ => false) = true := by
    decide +kernel
  obtain ⟨server, run, passed⟩ := Execution.exists_of_replay replayed
  cases stepped : step ⟨Handshake.ofPackets.firstReply, fun data => data = [7]⟩ server
      (.handle 0 ⟨none, .ok [], 1⟩) with
  | error halt =>
      rw [stepped] at passed
      cases passed
  | ok after =>
      rw [stepped] at passed
      obtain ⟨standing, there, counted, received, -⟩ :=
        relayed_to_registered run stepped (of_decide_eq_true passed) (List.mem_singleton.mpr rfl)
      exact ⟨actions, server, standing, there, counted, received⟩

/-- A message is passed on to a connection that has sent its first packet and was never identified. -/
theorem relayed_to_unidentified : ∃ (actions : List Action) (server : TcpServer),
    Execution (step ⟨Handshake.ofPackets.firstReply, fun data => data = [7]⟩) Networked
      (start 0 (fun loop => 4 + loop) 3) actions server ∧
    .relayed 1 2 ∈ server.trace ∧ .identified 2 ∉ server.trace := by
  let actions : List Action :=
    iteration 0 [0, 1] [.nothing, ⟨some (5, [1]), .ok [], 21⟩] [] ++
    iteration 0 [0, 1, 0] [.nothing, ⟨some (6, [2]), .ok [], 21⟩] [] ++
    iteration 0 [0, 0, 1, 1] [.nothing, ⟨none, .ok Handshake.firstMessage, 0⟩, .nothing,
      ⟨none, .ok Handshake.firstMessage, 0⟩] [] ++
    iteration 0 [0, 0, 1, 0] [.nothing, ⟨none, .ok [7], 0⟩] [] ++
    iteration 0 [0, 0, 1, 0] [.nothing, ⟨none, .ok [8], 0⟩, .nothing, ⟨none, .ok [], 1⟩] []
  have replayed : (replay (step ⟨Handshake.ofPackets.firstReply, fun data => data = [7]⟩) Networked
      .impossible (start 0 (fun loop => 4 + loop) 3) actions).toOption.any (fun server =>
        decide (.relayed 1 2 ∈ server.trace ∧ .identified 2 ∉ server.trace)) = true := by
    decide +kernel
  obtain ⟨server, run, ended⟩ := Execution.exists_of_replay replayed
  exact ⟨actions, server, run, of_decide_eq_true ended⟩

end Runs

end TransferServer.Net.TcpServer
