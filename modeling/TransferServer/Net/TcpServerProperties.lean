import TransferServer.Lib.Execution
import TransferServer.Net.TcpServerLifecycle

/-! Every step of the server moves the lives of its connections; hence a connection is torn down
at most once, and the assertions on its state hold. -/

set_option autoImplicit false

namespace TransferServer.Net.TcpServer

open Base Lib

variable {timely : Prop} {handshake : Handshake} {server before after : TcpServer}
variable {caller loop : LoopId} {conn : ConnId} {written : Int}

/-- What any step may do: it keeps the invariants and moves lives. -/
structure Proceeds (timely : Prop) (before after : TcpServer) : Prop where
  formed : after.WellFormed
  lives : Evolves Life.Born (Life.Moves timely) before.life after.life

theorem Advances.proceeds (advances : before.Advances timely after) : before.Proceeds timely after :=
  ⟨advances.formed, advances.lives⟩

theorem setTodo_wellFormed {tasks : List Task} (formed : server.WellFormed)
    (dispatching : (server.loops loop).phase = .dispatching)
    (scheduled : ∀ task ∈ tasks, ∀ conn, task.conn = some conn →
      ∃ standing, server.standing conn = some standing ∧ standing.loop = loop ∧ standing.state.Up) :
    (server.setTodo loop tasks).WellFormed :=
  { formed with
    busy := by
      intro other idle
      have apart : other ≠ loop := fun same => idle (same ▸ dispatching)
      simpa [setTodo, apart] using formed.busy other idle
    scheduled := by
      intro other task conn waiting called
      simp only [setTodo, Function.update_apply] at waiting
      split at waiting
      · next same => exact same ▸ scheduled task waiting conn called
      · exact formed.scheduled other task conn waiting called }

theorem setTodo_calm {tasks : List Task}
    (relays : ∀ sender message receiver, .relay sender message receiver ∈ tasks →
      .relay sender message receiver ∈ server.todo loop) : server.Calm (server.setTodo loop tasks) where
  todo := by
    intro other sender message receiver waiting
    simp only [setTodo, Function.update_apply] at waiting
    split at waiting
    · next same => exact same ▸ relays sender message receiver waiting
    · exact waiting
  registerTable := rfl
  count := rfl
  trace := ⟨[], by simp [setTodo], nofun⟩
  standing := fun _ later found => ⟨later, found, rfl, id⟩

theorem agenda_setLoop {object : EventLoop LoopId Functor}
    (agenda : object.functors ++ object.pendingFunctors = server.agenda loop) :
    (server.setLoop loop object).agenda = server.agenda := by
  funext other
  by_cases same : other = loop
  · subst same
    simpa [TcpServer.agenda, setLoop] using agenda
  · simp [TcpServer.agenda, setLoop, same]

theorem setLoop_proceeds {object : EventLoop LoopId Functor} (formed : server.WellFormed)
    (thread : object.threadId = loop) (settled : object.phase ≠ .running → object.functors = [])
    (busy : object.phase ≠ .dispatching → server.todo loop = [])
    (agenda : object.functors ++ object.pendingFunctors = server.agenda loop) :
    server.Proceeds timely (server.setLoop loop object) := by
  have agendas : (server.setLoop loop object).agenda = server.agenda := agenda_setLoop agenda
  have lives : (server.setLoop loop object).life = server.life :=
    life_congr rfl agendas rfl fun _ => ⟨rfl, rfl⟩
  refine ⟨{ formed with thread := ?_, settled := ?_, busy := ?_, placed := ?_ }, lives ▸ .refl⟩
  · intro other
    simp only [setLoop, Function.update_apply]
    split
    · next same => exact same ▸ thread
    · exact formed.thread other
  · intro other
    simp only [setLoop, Function.update_apply]
    split
    · exact settled
    · exact formed.settled other
  · intro other
    simp only [setLoop, Function.update_apply]
    split
    · next same => exact same ▸ busy
    · exact formed.busy other
  · rw [agendas]
    exact formed.placed

theorem setLoop_calm {object : EventLoop LoopId Functor} :
    server.Calm (server.setLoop loop object) where
  todo := fun _ _ _ _ found => found
  registerTable := rfl
  count := rfl
  trace := ⟨[], by simp [setLoop], nofun⟩
  standing := fun _ later found => ⟨later, found, rfl, id⟩

section Messages

/-- The server with another register table. -/
def withTable (server : TcpServer) (registerTable : RegisterTable) (count : Int) : TcpServer :=
  { server with registerTable, count }

theorem withTable_wellFormed {registerTable : RegisterTable} {count : Int}
    (formed : server.WellFormed) : (server.withTable registerTable count).WellFormed :=
  { formed with }

/-- What `onMessage` does to the register table, the trace and the handler round, before it
replies or removes: by the counter of the sender's name. -/
inductive Judged (handshake : Handshake) (server : TcpServer) (caller : LoopId) (conn : ConnId)
    (str data : Bytes) : TcpServer → Prop where
  | first {table : RegisterTable} {count : Int} :
      server.registerTable.myRegister server.count str = (table, count) → table.getValue str = 1 →
      Judged handshake server caller conn str data (server.withTable (table.addValue str) count)
  | identified {table : RegisterTable} {count : Int} :
      server.registerTable.myRegister server.count str = (table, count) → table.getValue str = 2 →
      handshake.accepts data = true →
      Judged handshake server caller conn str data
        ((server.withTable (table.addValue str) count).record (.identified conn))
  | refused {table : RegisterTable} {count : Int} :
      server.registerTable.myRegister server.count str = (table, count) → table.getValue str = 2 →
      handshake.accepts data = false →
      Judged handshake server caller conn str data
        (server.withTable ((table.addValue str).myUnregister str) count)
  | dispatched {table : RegisterTable} {count : Int} :
      server.registerTable.myRegister server.count str = (table, count) → table.getValue str ≠ 1 →
      table.getValue str ≠ 2 →
      Judged handshake server caller conn str data
        ((server.withTable table count).setTodo caller
          (server.connections.map (.relay conn data) ++ server.todo caller))

theorem Calm.withTable {registerTable : RegisterTable} {count : Int} (calm : before.Calm after) :
    (before.withTable registerTable count).Calm (after.withTable registerTable count) where
  todo := calm.todo
  registerTable := rfl
  count := rfl
  trace := calm.trace
  standing := calm.standing

/-- `onMessage` by the counter of the sender's name, the input buffer drained. -/
theorem onMessage_of_conns {object : TcpConnection} {drained : TcpServer} {table : RegisterTable}
    {count : Int} (found : server.conns conn = some object)
    (draining : drained =
      server.setConn conn { object with inputBuffer := object.inputBuffer.retrieveAll })
    (registered : server.registerTable.myRegister server.count object.peerAddr = (table, count)) :
    server.onMessage handshake caller conn written =
      if table.getValue object.peerAddr = 1 then
        match handshake.firstReply object.inputBuffer.readable with
        | some sendInfo => (drained.withTable (table.addValue object.peerAddr) count).send caller conn
            sendInfo written
        | none => .error .outOfBounds
      else if table.getValue object.peerAddr = 2 then
        if handshake.accepts object.inputBuffer.readable then
          ((drained.withTable (table.addValue object.peerAddr) count).record
            (.identified conn)).send caller conn [] written
        else
          (drained.withTable (table.addValue object.peerAddr) count).removeConnection caller conn >>=
            fun server =>
              .ok (server.withTable (server.registerTable.myUnregister object.peerAddr) server.count)
      else
        .ok ((drained.withTable table count).setTodo caller
          (server.connections.map (.relay conn object.inputBuffer.readable) ++ server.todo caller)) := by
  subst draining
  simp only [onMessage, deref, found, registered, pure_eq_ok, ok_bind]
  rfl

theorem onMessage_spec {object : TcpConnection} (formed : server.WellFormed)
    (found : server.conns conn = some object)
    (dispatching : (server.loops caller).phase = .dispatching)
    (removable : timely → handshake.accepts object.inputBuffer.readable = false →
      (server.registerTable.myRegister server.count object.peerAddr).1.getValue object.peerAddr = 2 →
      ∀ life, server.life conn = some life → life.Removable) :
    Ensures (Halt.Tolerated timely) (server.onMessage handshake caller conn written) fun after =>
      server.Proceeds timely after ∧ ∃ drained judged, server.Quiet drained ∧
        Judged handshake drained caller conn object.peerAddr object.inputBuffer.readable judged ∧
          judged.Calm after := by
  have there := standing_of_conns found
  let drained := server.setConn conn { object with inputBuffer := object.inputBuffer.retrieveAll }
  have draining : server.Quiet drained := setConn_quiet there
  have formed' := draining.wellFormed formed
  have here : drained.standing conn = some object.standing := draining.standing ▸ there
  obtain ⟨table, count, registered⟩ : ∃ table count,
      server.registerTable.myRegister server.count object.peerAddr = (table, count) := ⟨_, _, rfl⟩
  rw [onMessage_of_conns found rfl registered]
  rw [registered] at removable
  split
  · next first =>
      split
      · refine (send_advances (withTable_wellFormed formed')).mono fun after advances => ?_
        exact ⟨⟨advances.formed, draining.life ▸ advances.lives⟩, drained, _, draining,
          .first registered first, advances.calm⟩
      · exact .error (by simp [Halt.Tolerated])
  · next other =>
      split
      · next second =>
          split
          · next accepted =>
              have marked : (drained.withTable (table.addValue object.peerAddr) count).Quiet
                ((drained.withTable (table.addValue object.peerAddr) count).record (.identified conn)) :=
                  record_quiet trivial
              have formed' := marked.wellFormed (withTable_wellFormed formed')
              refine (send_advances formed').mono fun after advances => ?_
              have lives := advances.lives
              rw [marked.life] at lives
              exact ⟨⟨advances.formed, draining.life ▸ lives⟩, drained, _, draining,
                .identified registered second accepted, advances.calm⟩
          · next rejected =>
              have rejected : handshake.accepts object.inputBuffer.readable = false := by
                simpa using rejected
              have removed : Ensures (Halt.Tolerated timely)
                  ((drained.withTable (table.addValue object.peerAddr) count).removeConnection caller conn)
                  ((drained.withTable (table.addValue object.peerAddr) count).Advances timely) :=
                removeConnection_advances (withTable_wellFormed formed') here fun time =>
                  draining.life ▸ removable time rejected second
              refine removed.bind fun after advances => .ok ?_
              refine ⟨⟨withTable_wellFormed advances.formed, draining.life ▸ advances.lives⟩, drained,
                _, draining, .refused registered second rejected, ?_⟩
              rw [advances.calm.registerTable, advances.calm.count]
              exact advances.calm.withTable
      · next third =>
          refine .ok ⟨⟨setTodo_wellFormed (withTable_wellFormed formed') dispatching ?_, ?_⟩, drained, _,
            draining, .dispatched registered other third, ?_⟩
          · intro task waiting called named
            rcases List.mem_append.mp waiting with relay | earlier
            · obtain ⟨receiver, -, rfl⟩ := List.mem_map.mp relay
              cases named
            · exact formed'.scheduled caller task called earlier named
          · exact draining.life ▸ .refl
          · exact (Quiet.refl _).calm

theorem relayed_wellFormed (formed : server.WellFormed) (sender receiver : ConnId) :
    (server.record (.relayed sender receiver)).WellFormed :=
  { formed with
    known := by
      intro other unknown
      obtain ⟨unlisted, unerased, undestroyed⟩ := formed.known other unknown
      exact ⟨unlisted, by simpa [record] using unerased, by simpa [record] using undestroyed⟩ }

theorem life_relayed (sender receiver : ConnId) :
    (server.record (.relayed sender receiver)).life = server.life :=
  life_congr rfl rfl rfl fun _ => by simp [record]

theorem relay_spec {sender receiver : ConnId} {message : Bytes} (formed : server.WellFormed)
    (removable : timely → receiver ≠ sender → ∀ object, server.conns receiver = some object →
      server.registerTable.getValue object.peerAddr = 0 →
      ∀ life, server.life receiver = some life → life.Removable) :
    Ensures (Halt.Tolerated timely) (server.relay caller sender message receiver written)
      fun after => server.Proceeds timely after ∧ (server.Calm after ∨
        ∃ standing, server.standing receiver = some standing ∧
          server.registerTable.getValue standing.peerAddr ≠ 0 ∧
            (server.record (.relayed sender receiver)).Calm after) := by
  unfold relay
  split
  · next other =>
      refine ensures_deref fun object found => ?_
      split
      · next unregistered =>
          refine (removeConnection_advances formed (standing_of_conns found) fun time =>
            removable time other object found unregistered).mono fun after advances => ?_
          exact ⟨advances.proceeds, .inl advances.calm⟩
      · next registered =>
          refine (send_advances (relayed_wellFormed formed sender receiver)).mono
            fun after advances => ?_
          exact ⟨⟨advances.formed, life_relayed sender receiver ▸ advances.lives⟩,
            .inr ⟨object.standing, standing_of_conns found, registered, advances.calm⟩⟩
  · exact .ok ⟨⟨formed, .refl⟩, .inl (Quiet.refl server).calm⟩

/-- What a read of the connection goes on to. -/
def refuses (handshake : Handshake) (server : TcpServer) (conn : ConnId) (received : Readv) : Bool :=
  match server.conns conn with
  | none => false
  | some object =>
      match object.handleRead received with
      | .error _ => false
      | .ok (object, n) =>
          0 < n ∧ handshake.accepts object.inputBuffer.readable = false ∧
            (server.registerTable.myRegister server.count object.peerAddr).1.getValue
              object.peerAddr = 2

theorem handleRead_spec {standing : Standing} {received : Readv} (formed : server.WellFormed)
    (dispatching : (server.loops caller).phase = .dispatching)
    (there : server.standing conn = some standing) (up : standing.state.Up)
    (removable : timely → received = .ok [] ∨ server.refuses handshake conn received = true →
      ∀ life, server.life conn = some life → life.Removable) :
    Ensures (Halt.Tolerated timely) (server.handleRead handshake caller conn received written)
      fun after => server.Proceeds timely after ∧ (server.Calm after ∨
        ∃ bytes data drained judged, received = .ok bytes ∧ bytes ≠ [] ∧ server.Quiet drained ∧
          Judged handshake drained caller conn standing.peerAddr data judged ∧ judged.Calm after) := by
  refine ensures_deref fun object found => ?_
  rw [standing_of_conns found] at there
  cases there
  have there := standing_of_conns found
  have returned : Ensures (Halt.Tolerated timely) _ _ := object.handleRead_keeps received
  cases read : object.handleRead received with
  | error halt => exact .error (returned.of_error read)
  | ok result =>
      obtain ⟨drained, n⟩ := result
      obtain ⟨same, length⟩ := returned.of_ok read
      obtain rfl : n = Buffer.readReturn received := length
      have reading : server.Quiet (server.setConn conn drained) :=
        setConn_quiet (there.trans (congrArg some same.symm))
      have formed' := reading.wellFormed formed
      rw [ok_bind]
      dsimp only
      split
      · next positive =>
          have peer : drained.peerAddr = object.peerAddr := congrArg Standing.peerAddr same
          have refusal (rejected : handshake.accepts drained.inputBuffer.readable = false)
              (second : (server.registerTable.myRegister server.count drained.peerAddr).1.getValue
                drained.peerAddr = 2) : server.refuses handshake conn received = true := by
            simp [refuses, found, read, positive, rejected, second]
          refine (onMessage_spec formed' conns_setConn dispatching fun time rejected second =>
            reading.life ▸ removable time (.inr (refusal rejected second))).mono
              fun after ⟨proceeds, drained', judged, draining, judging, calm⟩ => ?_
          obtain ⟨bytes, delivered, nonempty⟩ := Buffer.eq_ok_of_readReturn_pos positive
          exact ⟨⟨proceeds.formed, reading.life ▸ proceeds.lives⟩, .inr ⟨bytes, _, drained', judged,
            delivered, nonempty, reading.trans draining, peer ▸ judging, calm⟩⟩
      · split
        · next none =>
            have closing := Buffer.eq_ok_of_readReturn_eq_zero none
            refine (handleClose_advances formed' (fun standing known => ?_) fun time =>
              reading.life ▸ removable time (.inl closing)).mono fun after advances => ?_
            · rw [reading.standing, there] at known
              cases known
              exact up
            · exact ⟨⟨advances.formed, reading.life ▸ advances.lives⟩,
                .inl (reading.calm.trans advances.calm)⟩
        · exact .ok ⟨⟨formed', reading.life ▸ .refl⟩, .inl reading.calm⟩

end Messages

section Tasks

/-- The connection that the task calls `removeConnection` on, if any. -/
def removalBy (handshake : Handshake) (server : TcpServer) (task : Task) (input : Input) :
    Option ConnId :=
  match task with
  | .callback (.connection conn) .close => some conn
  | .callback (.connection conn) .read =>
      if input.received = .ok [] ∨ server.refuses handshake conn input.received = true then some conn
      else none
  | .relay sender _ receiver =>
      match server.conns receiver with
      | none => none
      | some object =>
          if receiver ≠ sender ∧ server.registerTable.getValue object.peerAddr = 0 then some receiver
          else none
  | _ => none

/-- What a task may do beyond ending connections and sending to them. -/
inductive TaskEffect (handshake : Handshake) (server : TcpServer) (loop : LoopId) (input : Input) :
    Task → TcpServer → Prop where
  | calm {task : Task} {after : TcpServer} : server.Calm after →
      TaskEffect handshake server loop input task after
  | accepted {sockfd : Int} {peerAddr : Bytes} {after : TcpServer} :
      input.accepted = some (sockfd, peerAddr) → 0 ≤ sockfd →
      (server.admitted sockfd peerAddr).Calm after →
      TaskEffect handshake server loop input (.callback .accept .read) after
  | message {conn : ConnId} {standing : Standing} {bytes data : Bytes}
      {drained judged after : TcpServer} :
      server.standing conn = some standing → standing.state.Up → input.received = .ok bytes →
      bytes ≠ [] → server.Quiet drained →
      Judged handshake drained loop conn standing.peerAddr data judged → judged.Calm after →
      TaskEffect handshake server loop input (.callback (.connection conn) .read) after
  | relayed {sender receiver : ConnId} {message : Bytes} {standing : Standing} {after : TcpServer} :
      server.standing receiver = some standing →
      server.registerTable.getValue standing.peerAddr ≠ 0 →
      (server.record (.relayed sender receiver)).Calm after →
      TaskEffect handshake server loop input (.relay sender message receiver) after

/-- The hypotheses under which a task is run. -/
structure Runnable (timely : Prop) (handshake : Handshake) (server : TcpServer) (loop : LoopId)
    (task : Task) (input : Input) : Prop where
  formed : server.WellFormed
  dispatching : (server.loops loop).phase = .dispatching
  up : ∀ conn, task.conn = some conn →
    ∃ standing, server.standing conn = some standing ∧ standing.loop = loop ∧ standing.state.Up
  removable : timely → ∀ conn, server.removalBy handshake task input = some conn →
    ∀ life, server.life conn = some life → life.Removable

theorem acceptConnection_spec {input : Input} (formed : server.WellFormed) :
    Ensures (Halt.Tolerated timely) (server.acceptConnection loop input.accepted input.written)
      fun after => server.Proceeds timely after ∧
        TaskEffect handshake server loop input (.callback .accept .read) after := by
  refine ensures_inLoopThread fun _ => ?_
  split
  · next sockfd peerAddr offered =>
      split
      · next valid =>
          refine (newConnection_spec formed).mono fun after ⟨formed, lives, calm⟩ => ?_
          exact ⟨⟨formed, lives⟩, .accepted offered valid calm⟩
      · exact .ok ⟨⟨formed, .refl⟩, .calm (Quiet.refl server).calm⟩
  · exact .ok ⟨⟨formed, .refl⟩, .calm (Quiet.refl server).calm⟩

theorem callback_connection_spec {input : Input} {called : Callback}
    (runnable : server.Runnable timely handshake loop (.callback (.connection conn) called) input) :
    Ensures (Halt.Tolerated timely)
      (server.callback handshake loop (.connection conn) called input) fun after =>
        server.Proceeds timely after ∧
          TaskEffect handshake server loop input (.callback (.connection conn) called) after := by
  obtain ⟨formed, dispatching, alive, removable⟩ := runnable
  obtain ⟨standing, there, -, up⟩ := alive conn rfl
  have recorded : server.Quiet (server.record (.handled conn called)) := record_quiet trivial
  have formed' := recorded.wellFormed formed
  have there' : (server.record (.handled conn called)).standing conn = some standing := there
  have known (other : Standing) (found : server.standing conn = some other) : other.state.Up := by
    rw [there] at found
    cases found
    exact up
  cases called with
  | close =>
      refine (handleClose_advances formed' known fun time =>
        recorded.life ▸ removable time conn rfl).mono fun after advances => ?_
      exact ⟨⟨advances.formed, recorded.life ▸ advances.lives⟩,
        .calm (recorded.calm.trans advances.calm)⟩
  | error => exact .ok ⟨⟨formed', recorded.life ▸ .refl⟩, .calm recorded.calm⟩
  | read =>
      refine (handleRead_spec formed' dispatching there' up fun time asked =>
        recorded.life ▸ removable time conn ?_).mono fun after ⟨proceeds, effect⟩ => ?_
      · exact if_pos asked
      · refine ⟨⟨proceeds.formed, recorded.life ▸ proceeds.lives⟩, ?_⟩
        rcases effect with calm | ⟨bytes, data, drained, judged, delivered, some, draining, judging, calm⟩
        · exact .calm (recorded.calm.trans calm)
        · exact .message there up delivered some (recorded.trans draining) judging calm
  | write =>
      refine (handleWrite_quiet formed' fun other found => (known other found).ne_kConnecting).mono
        fun after writing => ?_
      have quiet := recorded.trans writing
      exact ⟨(quiet.advances formed).proceeds, .calm quiet.calm⟩

theorem runTask_spec {task : Task} {input : Input}
    (runnable : server.Runnable timely handshake loop task input) :
    Ensures (Halt.Tolerated timely) (server.runTask handshake loop task input) fun after =>
      server.Proceeds timely after ∧ TaskEffect handshake server loop input task after := by
  have formed := runnable.formed
  cases task with
  | handleEvent channel =>
      refine .ok ⟨⟨setTodo_wellFormed formed runnable.dispatching ?_, .refl⟩, .calm ?_⟩
      · intro task waiting conn named
        rcases List.mem_append.mp waiting with called | earlier
        · obtain ⟨callback, -, rfl⟩ := List.mem_map.mp called
          refine runnable.up conn ?_
          cases channel with
          | connection other => exact named
          | accept => cases named
          | wakeup ownerLoop => cases named
        · exact formed.scheduled loop task conn earlier named
      · exact setTodo_calm fun sender message receiver waiting => by
          rcases List.mem_append.mp waiting with called | earlier
          · obtain ⟨callback, -, ⟨⟩⟩ := List.mem_map.mp called
          · exact earlier
  | callback channel called =>
      cases channel with
      | connection conn => exact callback_connection_spec runnable
      | accept =>
          cases called with
          | read => exact acceptConnection_spec formed
          | _ => exact .ok ⟨⟨formed, .refl⟩, .calm (Quiet.refl server).calm⟩
      | wakeup ownerLoop =>
          cases called with
          | read =>
              refine .ok ⟨setLoop_proceeds formed (formed.thread ownerLoop) (formed.settled ownerLoop)
                (formed.busy ownerLoop) rfl, .calm setLoop_calm⟩
          | _ => exact .ok ⟨⟨formed, .refl⟩, .calm (Quiet.refl server).calm⟩
  | relay sender message receiver =>
      refine (relay_spec formed fun time other object found unregistered =>
        runnable.removable time receiver ?_).mono fun after ⟨proceeds, effect⟩ => ?_
      · simp [removalBy, found, other, unregistered]
      · rcases effect with calm | ⟨standing, there, registered, calm⟩
        · exact ⟨proceeds, .calm calm⟩
        · exact ⟨proceeds, .relayed there registered calm⟩

end Tasks

section Functors

variable {functor : Functor} {functors : List Functor}

theorem taken_lives (formed : server.WellFormed)
    (first : (server.loops loop).functors = functor :: functors) :
    ∃ life, (server.taken loop functors).life functor.conn = some life ∧
      server.life functor.conn = some (functor.lead life) ∧
      (server.taken loop functors).life = Function.update server.life functor.conn (some life) := by
  have waiting : functor ∈ server.agenda loop := by simp [TcpServer.agenda, first]
  obtain ⟨standing, there, home⟩ := formed.placed loop functor waiting
  have there' : (server.taken loop functors).standing functor.conn = some standing := there
  obtain ⟨life, alive, -⟩ := life_of_standing there'
  have lives := life_taken first there home
  rw [alive, Option.map_some] at lives
  refine ⟨life, alive, by rw [lives, Function.update_self], ?_⟩
  rw [lives, Function.update_idem]
  exact (Function.update_eq_self_iff.mpr alive.symm).symm

theorem runFunctor_spec {input : Input} (formed : server.WellFormed)
    (first : (server.loops loop).functors = functor :: functors)
    (valid : ∀ conn life, server.life conn = some life → life.Valid timely) :
    Ensures (Halt.Tolerated timely) ((server.taken loop functors).runFunctor loop functor input)
      fun after => server.Proceeds timely after ∧ server.Calm after := by
  have formed' := formed.taken first
  have taking : server.Calm (server.taken loop functors) := setLoop_calm
  obtain ⟨life, alive, before, lives⟩ := taken_lives formed first
  have sound := valid _ _ before
  cases functor with
  | connectEstablished conn =>
      refine (connectEstablished_spec formed').mono fun after established => ?_
      obtain ⟨formed, calm, life', alive', connecting, grown⟩ := established
      obtain rfl : life = life' := Option.some.inj (alive.symm.trans alive')
      refine ⟨⟨formed, ?_⟩, taking.trans calm⟩
      rw [grown, lives, Functor.conn, Function.update_idem]
      exact .of_move before (.establish connecting rfl)
  | removeConnectionInLoop conn =>
      have listed (time : timely) (other : Life)
          (found : (server.taken loop functors).life conn = some other) : other.entries = 1 := by
        obtain rfl : life = other := Option.some.inj (alive.symm.trans found)
        obtain ⟨atMostOnce, listed⟩ := sound.orderly time
        exact listed (Nat.le_antisymm atMostOnce (Nat.le_add_left ..))
      refine (removeConnectionInLoop_spec formed' listed).mono fun after removed => ?_
      obtain ⟨formed, calm, life', alive', entries, grown⟩ := removed
      obtain rfl : life = life' := Option.some.inj (alive.symm.trans alive')
      refine ⟨⟨formed, ?_⟩, taking.trans calm⟩
      rw [grown, lives, Functor.conn, Function.update_idem]
      exact .of_move before (.grant rfl entries)
  | connectDestroyed conn =>
      have up := sound.up_of_destroy rfl
      have idle : (server.taken loop functors).todo loop = [] := by
        refine formed.busy loop ?_
        rw [formed.running first]
        decide
      refine (connectDestroyed_spec formed' (fun standing there => ?_) idle).mono
        fun after destroyed => ?_
      · obtain ⟨life', alive', state⟩ := life_of_standing there
        obtain rfl : life = life' := Option.some.inj (alive.symm.trans alive')
        exact state ▸ up
      · obtain ⟨formed, calm, life', alive', grown⟩ := destroyed
        obtain rfl : life = life' := Option.some.inj (alive.symm.trans alive')
        refine ⟨⟨formed, ?_⟩, taking.trans calm⟩
        rw [grown, lives, Functor.conn, Function.update_idem]
        exact .of_move before (.destroy up rfl)
  | sendInLoop conn message =>
      have established := sound.ne_kConnecting_of_send rfl
      refine (sendInLoop_quiet formed' fun standing there => ?_).mono fun after sent => ?_
      · obtain ⟨life', alive', state⟩ := life_of_standing there
        obtain rfl : life = life' := Option.some.inj (alive.symm.trans alive')
        exact state ▸ established
      · refine ⟨⟨sent.wellFormed formed', ?_⟩, taking.trans sent.calm⟩
        rw [sent.life, lives]
        exact .of_move before (.sent rfl)
  | writeComplete conn =>
      refine .ok ⟨⟨formed', ?_⟩, taking⟩
      rw [lives, Function.update_eq_self_iff.mpr before.symm]
      exact .refl

end Functors

section Steps

variable {poller : Poller ChannelId} {channelOf : ChannelId → Channel} {action : Action}

theorem fillActiveChannels_spec (numEvents : Int) (pollfds : List PollFd) :
    Ensures (Halt.Tolerated timely) (poller.fillActiveChannels channelOf numEvents pollfds)
      fun activeChannels => ∀ active ∈ activeChannels, ∃ fd, poller.channels fd = some active.1 := by
  induction pollfds generalizing numEvents with
  | nil => exact .ok nofun
  | cons pfd pollfds ih =>
      unfold Poller.fillActiveChannels
      split
      · split
        · split
          · exact .error (by simp [Halt.Tolerated])
          · next key listed =>
              refine ensures_check (by simp [Halt.Tolerated]) fun _ => ?_
              refine (ih _).bind fun activeChannels registered => .ok fun active found => ?_
              rcases List.mem_cons.mp found with rfl | later
              · exact ⟨pfd.fd, listed⟩
              · exact registered active later
        · exact ih _
      · exact .ok nofun

theorem pollPoller_spec (reported : Option (List (BitVec 16))) :
    Ensures (Halt.Tolerated timely) (poller.poll channelOf reported) fun result =>
      result.1.channels = poller.channels ∧ result.1.index = poller.index ∧
        ∀ active ∈ result.2, ∃ fd, poller.channels fd = some active.1 := by
  cases reported with
  | none => exact .ok ⟨rfl, rfl, nofun⟩
  | some reported =>
      refine .guard (by simp [Halt.Tolerated]) fun _ => ?_
      exact (fillActiveChannels_spec _ _).bind fun _ registered => .ok ⟨rfl, rfl, registered⟩

theorem setAllRevents_quiet (server : TcpServer) (activeChannels : List (ChannelId × Events)) :
    server.Quiet (activeChannels.foldl
      (fun server (active : ChannelId × Events) => server.setRevents active.1 active.2) server) := by
  induction activeChannels generalizing server with
  | nil => exact .refl server
  | cons active activeChannels ih =>
      exact (setRevents_quiet active.1 active.2).trans (ih (server.setRevents active.1 active.2))

theorem poll_spec {reported : Option (List (BitVec 16))} (formed : server.WellFormed) :
    Ensures (Halt.Tolerated timely) (server.poll loop reported) fun after =>
      server.Proceeds timely after ∧ server.Calm after := by
  refine .guard (by simp [Halt.Tolerated]) fun polling => ?_
  refine (pollPoller_spec reported).bind fun result spec => .ok ?_
  obtain ⟨poller, activeChannels⟩ := result
  obtain ⟨channels, index, registered⟩ := spec
  let polled := (server.setPoller loop poller).setLoop loop (server.loops loop).poll
  let marked := activeChannels.foldl
    (fun server (active : ChannelId × Events) => server.setRevents active.1 active.2) polled
  have replaced : server.Quiet (server.setPoller loop poller) := setPoller_quiet channels index
  have idle : (server.loops loop).functors = [] := formed.settled loop (by rw [polling]; decide)
  have dispatching : (server.setPoller loop poller).Proceeds timely polled :=
    setLoop_proceeds (replaced.wellFormed formed) (formed.thread loop) (fun _ => idle)
      (fun other => absurd rfl other) rfl
  have marking : polled.Quiet marked := setAllRevents_quiet polled activeChannels
  have formed' := marking.wellFormed dispatching.formed
  have phase : (marked.loops loop).phase = .dispatching := by
    rw [marking.loops]
    simp [polled, setLoop, EventLoop.poll]
  refine ⟨⟨setTodo_wellFormed formed' phase ?_, ?_⟩, ?_⟩
  · intro task waiting conn named
    obtain ⟨⟨channel, revents⟩, found, rfl⟩ := List.mem_map.mp waiting
    obtain ⟨fd, listed⟩ := registered _ found
    cases channel with
    | connection other =>
        cases named
        rw [marking.standing]
        obtain ⟨standing, there, home, -, up⟩ := formed.registered loop fd conn listed
        exact ⟨standing, there, home, up⟩
    | accept => cases named
    | wakeup ownerLoop => cases named
  · change Evolves _ _ _ marked.life
    rw [marking.life]
    exact replaced.life ▸ dispatching.lives
  · refine (replaced.calm.trans (setLoop_calm.trans marking.calm)).trans (setTodo_calm ?_)
    intro sender message receiver waiting
    obtain ⟨active, -, ⟨⟩⟩ := List.mem_map.mp waiting

/-- The connection that the step calls `removeConnection` on, if any. -/
def removal (handshake : Handshake) (server : TcpServer) : Action → Option ConnId
  | .handle loop input => (server.todo loop).head?.bind fun task => server.removalBy handshake task input
  | _ => none

/-- The step asks for no removal of a connection that has been erased, or whose removal waits in
the base loop already. -/
def Timely (handshake : Handshake) (server : TcpServer) (action : Action) : Prop :=
  ∀ conn ∈ server.removal handshake action,
    conn ∈ server.connections ∧ .removeConnectionInLoop conn ∉ server.agenda baseLoop

instance (handshake : Handshake) (server : TcpServer) (action : Action) :
    Decidable (server.Timely handshake action) :=
  inferInstanceAs (Decidable (∀ conn ∈ server.removal handshake action, _ ∧ _))

/-- What a step may do beyond ending connections and sending to them. -/
def Effect (handshake : Handshake) (server : TcpServer) (action : Action) (after : TcpServer) : Prop :=
  server.Calm after ∨ ∃ loop input task tasks, action = .handle loop input ∧
    server.todo loop = task :: tasks ∧
      TaskEffect handshake (server.setTodo loop tasks) loop input task after

/-- A connection that is listed, with no removal waiting, may be removed. -/
theorem removable_of_listed {life : Life} (alive : server.life conn = some life)
    (valid : life.Valid timely) (listed : conn ∈ server.connections)
    (unasked : .removeConnectionInLoop conn ∉ server.agenda baseLoop) : life.Removable := by
  obtain ⟨entries, requests, -⟩ := counts_of_life alive
  have present : 0 < server.connections.count conn := List.count_pos_iff.mpr listed
  have once := valid.listed
  refine ⟨?_, requests.trans (List.count_eq_zero.mpr unasked)⟩
  omega

theorem handle_spec {input : Input} (formed : server.WellFormed)
    (valid : ∀ conn life, server.life conn = some life → life.Valid timely)
    (time : timely → server.Timely handshake (.handle loop input)) {task : Task} {tasks : List Task}
    (first : server.todo loop = task :: tasks)
    (dispatching : (server.loops loop).phase = .dispatching) :
    Ensures (Halt.Tolerated timely)
      ((server.setTodo loop tasks).runTask handshake loop task input) fun after =>
        server.Proceeds timely after ∧ Effect handshake server (.handle loop input) after := by
  have fewer : ∀ other ∈ tasks, other ∈ server.todo loop := fun other later =>
    first ▸ List.mem_cons_of_mem task later
  have runnable : (server.setTodo loop tasks).Runnable timely handshake loop task input := by
    refine ⟨setTodo_wellFormed formed dispatching fun other later conn named =>
      formed.scheduled loop other conn (fewer other later) named, dispatching, ?_, ?_⟩
    · intro conn named
      exact formed.scheduled loop task conn (first ▸ List.mem_cons_self) named
    · intro soon conn asked life alive
      have removal : conn ∈ server.removal handshake (.handle loop input) := by
        simp only [removal, first, List.head?_cons, Option.bind_some]
        exact asked
      obtain ⟨listed, unasked⟩ := time soon conn removal
      exact removable_of_listed alive (valid conn life alive) listed unasked
  exact (runTask_spec runnable).mono fun after ⟨proceeds, effect⟩ =>
    ⟨⟨proceeds.formed, proceeds.lives⟩, .inr ⟨loop, input, task, tasks, rfl, first, effect⟩⟩

theorem step_spec (formed : server.WellFormed)
    (valid : ∀ conn life, server.life conn = some life → life.Valid timely)
    (time : timely → server.Timely handshake action) :
    Ensures (Halt.Tolerated timely) (step handshake server action) fun after =>
      server.Proceeds timely after ∧ Effect handshake server action after := by
  refine .guard (by simp [Halt.Tolerated]) fun _ => ?_
  cases action with
  | poll loop reported =>
      exact (poll_spec formed).mono fun _ spec => spec.imp_right .inl
  | handle loop input =>
      refine .guard (by simp [Halt.Tolerated]) fun dispatching => ?_
      cases first : server.todo loop with
      | nil => exact .error (by simp [Halt.Tolerated])
      | cons task tasks => exact handle_spec formed valid time first dispatching
  | prepare loop =>
      refine .guard (by simp [Halt.Tolerated]) fun ready => .ok ⟨?_, .inl setLoop_calm⟩
      obtain ⟨dispatching, done⟩ := ready
      have idle := formed.settled loop (by rw [dispatching]; decide)
      exact setLoop_proceeds formed (formed.thread loop) (fun _ => idle) (fun _ => done) rfl
  | swap loop =>
      refine .guard (by simp [Halt.Tolerated]) fun swapping => .ok ⟨?_, .inl setLoop_calm⟩
      have idle := formed.settled loop (by rw [swapping]; decide)
      refine setLoop_proceeds formed (formed.thread loop) (fun other => absurd rfl other)
        (fun _ => formed.busy loop (by rw [swapping]; decide)) ?_
      simp [EventLoop.swap, agenda, idle]
  | run loop input =>
      refine .guard (by simp [Halt.Tolerated]) fun _ => ?_
      cases first : (server.loops loop).functors with
      | nil => exact .error (by simp [Halt.Tolerated])
      | cons functor functors =>
          exact (runFunctor_spec formed first valid).mono fun _ spec => spec.imp_right .inl
  | finish loop =>
      refine .guard (by simp [Halt.Tolerated]) fun ready => .ok ⟨?_, .inl setLoop_calm⟩
      obtain ⟨running, done⟩ := ready
      have free := formed.busy loop (by rw [running]; decide)
      unfold EventLoop.test
      split
      · exact setLoop_proceeds formed (formed.thread loop) (fun _ => done) (fun _ => free) rfl
      · exact setLoop_proceeds formed (formed.thread loop) (fun _ => done) (fun _ => free) rfl

end Steps

section Runs

variable {numThreads : Nat} {wakeupFd : LoopId → Int} {acceptFd : Int} {actions : List Action}

/-- The invariants, and a valid life for every connection. -/
structure Upheld (timely : Prop) (server : TcpServer) : Prop where
  formed : server.WellFormed
  valid : ∀ conn life, server.life conn = some life → life.Valid timely

theorem start_unlisted (loop : LoopId) (fd : Int) (conn : ConnId) :
    ((start numThreads wakeupFd acceptFd).pollers loop).channels fd ≠ some (.connection conn) := by
  simp only [start]
  split <;> simp only [Poller.addChannel, Poller.construct, Function.update_apply] <;> grind

theorem start_upheld : (start numThreads wakeupFd acceptFd).Upheld timely where
  formed := {
    thread := fun _ => rfl
    settled := fun _ _ => rfl
    busy := fun _ _ => rfl
    numbered := fun _ _ => rfl
    known := by simp [start]
    placed := by simp [start, agenda, EventLoop.construct]
    silent := nofun
    registered := fun loop fd conn listed => absurd listed (start_unlisted loop fd conn)
    indexed := nofun
    scheduled := by simp [start] }
  valid := nofun

theorem Proceeds.upheld (proceeds : server.Proceeds timely after) (upheld : server.Upheld timely) :
    after.Upheld timely where
  formed := proceeds.formed
  valid := proceeds.lives.invariant (fun _ => Life.Born.valid) (fun _ _ => Life.Valid.moves)
    upheld.valid

theorem step_upheld {action : Action} (upheld : server.Upheld timely)
    (time : timely → server.Timely handshake action) :
    Ensures (Halt.Tolerated timely) (step handshake server action) (Upheld timely) :=
  (step_spec upheld.formed upheld.valid time).mono fun _ ⟨proceeds, _⟩ => proceeds.upheld upheld

theorem run_upheld {admits : TcpServer → Action → Prop}
    (run : Execution (step handshake) admits (start numThreads wakeupFd acceptFd) actions server)
    (disciplined : ∀ server action, admits server action → timely → server.Timely handshake action) :
    server.Upheld timely :=
  run.ensures (Upheld timely) start_upheld fun _ _ upheld admitted => step_upheld upheld (disciplined _ _ admitted)

theorem Upheld.once (upheld : server.Upheld timely) (conn : ConnId) :
    server.trace.count (.erased conn) ≤ 1 ∧ server.trace.count (.destroyed conn) ≤ 1 := by
  cases there : server.standing conn with
  | none =>
      obtain ⟨-, unerased, undestroyed⟩ := upheld.formed.known conn there
      rw [List.count_eq_zero.mpr unerased, List.count_eq_zero.mpr undestroyed]
      decide
  | some standing =>
      obtain ⟨life, alive, -⟩ := life_of_standing there
      obtain ⟨-, -, erasures, destructions⟩ := counts_of_life alive
      exact erasures ▸ destructions ▸ (upheld.valid conn life alive).once

/-- In every run at all a connection is torn down at most once, and the state assertions of
`handleClose` and `connectDestroyed` hold. -/
theorem run_once (run : Execution (step handshake) anyAction (start numThreads wakeupFd acceptFd)
      actions server) :
    (∀ conn, server.trace.count (.erased conn) ≤ 1 ∧ server.trace.count (.destroyed conn) ≤ 1) ∧
      ∀ action, step handshake server action ≠ .error (.assertion .handleClose) ∧
        step handshake server action ≠ .error (.assertion .connectDestroyed) := by
  have upheld : server.Upheld False := run_upheld run fun _ _ _ => nofun
  refine ⟨upheld.once, fun action => ?_⟩
  have ensured : Ensures (Halt.Tolerated False) (step handshake server action) (Upheld False) :=
    step_upheld upheld nofun
  exact ⟨fun stopped => (ensured.of_error stopped).1 rfl,
    fun stopped => (ensured.of_error stopped).2.1 rfl⟩

/-- One iteration of a loop, its handlers and its functors with the given inputs. -/
def iteration (loop : LoopId) (reported : List (BitVec 16)) (handled run : List Input) : List Action :=
  .poll loop (some reported) :: handled.map (.handle loop) ++
    .prepare loop :: .swap loop :: run.map (.run loop) ++ [.finish loop]

end Runs

end TransferServer.Net.TcpServer
