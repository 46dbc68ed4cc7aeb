import TransferServer.Net.TcpServerInvariants

/-! What the functions of the server that begin, end or use a connection do to its life. -/

set_option autoImplicit false

namespace TransferServer.Net.TcpServer

open Base Lib

variable {timely : Prop} {before middle after : TcpServer} {caller loop : LoopId} {conn : ConnId}

/-- What a function of the server may do without a new connection, a message passed on or a
change of the register table: it keeps the invariants and moves lives. -/
structure Advances (timely : Prop) (before after : TcpServer) : Prop where
  formed : after.WellFormed
  lives : Evolves Life.Born (Life.Moves timely) before.life after.life
  calm : before.Calm after

theorem Advances.trans (first : before.Advances timely middle)
    (second : middle.Advances timely after) : before.Advances timely after where
  formed := second.formed
  lives := first.lives.trans second.lives
  calm := first.calm.trans second.calm

theorem Quiet.advances (quiet : before.Quiet after) (formed : before.WellFormed) :
    before.Advances timely after where
  formed := quiet.wellFormed formed
  lives := quiet.life ▸ .refl
  calm := quiet.calm

section Advancing

variable {server : TcpServer} {functor : Functor} {standing : Standing} {life : Life}

theorem queueInLoop_calm : server.Calm (server.queueInLoop caller loop functor) where
  todo := fun _ _ _ _ found => found
  registerTable := rfl
  count := rfl
  trace := ⟨[], by simp, nofun⟩
  standing := fun _ later found => ⟨later, found, rfl, id⟩

theorem queueInLoop_advances (formed : server.WellFormed)
    (there : server.standing functor.conn = some standing)
    (home : functor.home standing.loop = loop) (alive : server.life functor.conn = some life)
    (moves : Life.Moves timely life (functor.join life)) :
    server.Advances timely (server.queueInLoop caller loop functor) where
  formed := formed.queueInLoop there home
  lives := by
    rw [life_queueInLoop loop functor there rfl home alive]
    exact .of_move alive moves
  calm := queueInLoop_calm

theorem life_of_standing (there : server.standing conn = some standing) :
    ∃ life, server.life conn = some life ∧ life.state = standing.state :=
  ⟨_, by simp only [TcpServer.life, there, Option.map_some]; rfl, rfl⟩

theorem standing_of_life (alive : server.life conn = some life) :
    ∃ standing, server.standing conn = some standing ∧ standing.state = life.state := by
  cases there : server.standing conn with
  | none => simp [TcpServer.life, there] at alive
  | some standing =>
      simp only [TcpServer.life, there, Option.map_some, Option.some.injEq] at alive
      subst alive
      exact ⟨standing, rfl, rfl⟩

theorem send_advances (formed : server.WellFormed) {message : Bytes} {written : Int} :
    Ensures (Halt.Tolerated timely) (server.send caller conn message written)
      (server.Advances timely) := by
  refine ensures_deref fun object found => ?_
  have there := standing_of_conns found
  split
  · next connected =>
      split
      · refine (sendInLoop_quiet formed fun standing found => ?_).mono fun _ quiet =>
          quiet.advances formed
        rw [there] at found
        cases found
        simp [TcpConnection.standing, connected]
      · obtain ⟨life, alive, state⟩ := life_of_standing there
        refine .ok (queueInLoop_advances formed there rfl alive (.send ?_))
        exact state.trans connected
  · exact .ok ((Quiet.refl server).advances formed)

/-- The server with the connection out of `connections_`. -/
def erased (server : TcpServer) (conn : ConnId) : TcpServer :=
  { server with connections := server.connections.erase conn }.record (.erased conn)

theorem standing_erased : (server.erased conn).standing = server.standing := rfl

theorem erased_calm : server.Calm (server.erased conn) where
  todo := fun _ _ _ _ found => found
  registerTable := rfl
  count := rfl
  trace := ⟨[.erased conn], rfl, by simp⟩
  standing := fun _ later found => ⟨later, found, rfl, id⟩

theorem erased_wellFormed (formed : server.WellFormed) (there : server.standing conn = some standing) :
    (server.erased conn).WellFormed :=
  { formed with
    known := by
      intro other unknown
      obtain ⟨unlisted, unerased, undestroyed⟩ := formed.known other unknown
      have apart : conn ≠ other := by
        rintro rfl
        rw [standing_erased, there] at unknown
        cases unknown
      refine ⟨fun listed => unlisted (List.mem_of_mem_erase listed), ?_, ?_⟩
      · simp [erased, record, unerased, Ne.symm apart]
      · simp [erased, record, undestroyed] }

theorem life_erased (alive : server.life conn = some life) :
    (server.erased conn).life = Function.update server.life conn
      (some { life with entries := life.entries - 1, erasures := life.erasures + 1 }) := by
  funext other
  have agenda : (server.erased conn).agenda = server.agenda := rfl
  have connections : (server.erased conn).connections = server.connections.erase conn := rfl
  have trace : (server.erased conn).trace = server.trace ++ [.erased conn] := rfl
  by_cases same : other = conn
  · subst same
    cases there : server.standing other with
    | none => simp [TcpServer.life, there] at alive
    | some standing =>
        simp only [TcpServer.life, there, Option.map_some, Option.some.injEq] at alive
        subst alive
        simp [TcpServer.life, standing_erased, there, agenda, connections, trace]
  · simp [TcpServer.life, standing_erased, agenda, connections, trace, same, Ne.symm same,
      List.count_erase_of_ne]

theorem counts_of_life (alive : server.life conn = some life) :
    life.entries = server.connections.count conn ∧
      life.requests = (server.agenda baseLoop).count (.removeConnectionInLoop conn) ∧
      life.erasures = server.trace.count (.erased conn) ∧
      life.destructions = server.trace.count (.destroyed conn) := by
  cases there : server.standing conn with
  | none => simp [TcpServer.life, there] at alive
  | some standing =>
      simp only [TcpServer.life, there, Option.map_some, Option.some.injEq] at alive
      subst alive
      exact ⟨rfl, rfl, rfl, rfl⟩

/-- What `removeConnectionInLoop` does where it gets past its assertion, which it does for a
connection that is listed. -/
theorem removeConnectionInLoop_spec (formed : server.WellFormed)
    (listed : timely → ∀ life, server.life conn = some life → life.entries = 1) :
    Ensures (Halt.Tolerated timely) (server.removeConnectionInLoop caller conn) fun after =>
      after.WellFormed ∧ server.Calm after ∧
        ∃ life, server.life conn = some life ∧ life.entries = 1 ∧
          after.life = Function.update server.life conn (some life.erase) := by
  refine ensures_inLoopThread fun _ => ?_
  refine ensures_deref fun object found => ?_
  have there : (server.erased conn).standing conn = some object.standing := standing_of_conns found
  obtain ⟨life, alive, -⟩ := life_of_standing (standing_of_conns found)
  refine Ensures.check (fun absent => ?_) fun present => .ok ?_
  · refine ⟨by simp, by simp, fun time => absurd ?_ absent⟩
    exact (counts_of_life alive).1.symm.trans (listed time life alive)
  · have formed := erased_wellFormed formed there
    refine ⟨formed.queueInLoop there rfl, erased_calm.trans queueInLoop_calm, life, alive,
      (counts_of_life alive).1.trans present, ?_⟩
    have entries := life_erased alive
    have unlisted : (server.erased conn).life conn =
        some { life with entries := life.entries - 1, erasures := life.erasures + 1 } := by
      rw [entries, Function.update_self]
    refine (life_queueInLoop object.loop (.connectDestroyed conn) there rfl rfl unlisted).trans ?_
    rw [entries, Function.update_idem]
    rfl

/-- A removal asked for in time goes through, now or in the base loop's queue. -/
theorem removeConnection_advances (formed : server.WellFormed)
    (there : server.standing conn = some standing)
    (removable : timely → ∀ life, server.life conn = some life → life.Removable) :
    Ensures (Halt.Tolerated timely) (server.removeConnection caller conn)
      (server.Advances timely) := by
  unfold removeConnection
  split
  · refine (removeConnectionInLoop_spec formed fun time life alive =>
      (removable time life alive).1).mono fun after removed => ?_
    obtain ⟨formed, calm, life, alive, listed, lives⟩ := removed
    exact ⟨formed, lives ▸ .of_move alive (.erase (fun time => removable time life alive) listed),
      calm⟩
  · obtain ⟨life, alive, -⟩ := life_of_standing there
    exact .ok (queueInLoop_advances formed there rfl alive
      (.request fun time => removable time life alive))

theorem handleClose_advances (formed : server.WellFormed)
    (up : ∀ standing, server.standing conn = some standing → standing.state.Up)
    (removable : timely → ∀ life, server.life conn = some life → life.Removable) :
    Ensures (Halt.Tolerated timely) (server.handleClose caller conn) (server.Advances timely) := by
  refine ensures_deref fun object found => ?_
  refine ensures_inLoopThread fun _ => ?_
  have there := standing_of_conns found
  have closing := up object.standing there
  have recorded : server.Quiet (server.record (.closed conn)) := record_quiet trivial
  rw [object.handleClose_of_up closing, ok_bind]
  have committed : Ensures (Halt.Tolerated timely)
      ((server.record (.closed conn)).commit caller conn
        ({ object with channel := object.channel.disableAll }, [.updateChannel]))
      (server.record (.closed conn)).Quiet :=
    commit_keeps (recorded.wellFormed formed) found closing.ne_kConnecting ⟨rfl, rfl, by simp⟩
  refine committed.bind fun committed committing => ?_
  have quiet := recorded.trans committing
  refine (removeConnection_advances (quiet.wellFormed formed) (quiet.standing ▸ there)
    (quiet.life ▸ removable)).mono fun after removed => ?_
  exact (quiet.advances formed).trans removed

end Advancing

section Establishing

variable {server : TcpServer} {object : TcpConnection} {standing : Standing} {life : Life}

/-- The standings with the state of one connection changed. -/
def Restates (before after : TcpServer) (conn : ConnId) (standing : Standing) (state : StateE) :
    Prop :=
  before.standing conn = some standing ∧
    after.standing = Function.update before.standing conn (some { standing with state })

theorem Restates.eq_none_iff {state : StateE} (restates : before.Restates after conn standing state)
    (other : ConnId) : after.standing other = none ↔ before.standing other = none := by
  obtain ⟨there, standings⟩ := restates
  rw [standings, Function.update_apply]
  split
  · next same => simp [same, there]
  · rfl

theorem Restates.of_some {state : StateE} (restates : before.Restates after conn standing state)
    {other : ConnId} {earlier : Standing} (found : before.standing other = some earlier) :
    ∃ state, after.standing other = some { earlier with state } := by
  obtain ⟨there, standings⟩ := restates
  rw [standings, Function.update_apply]
  split
  · next same =>
      subst same
      rw [there] at found
      cases found
      exact ⟨state, rfl⟩
  · exact ⟨earlier.state, found⟩

theorem Restates.some_of {state : StateE} (restates : before.Restates after conn standing state)
    {other : ConnId} {later : Standing} (found : after.standing other = some later) :
    ∃ state, before.standing other = some { later with state } := by
  obtain ⟨there, standings⟩ := restates
  rw [standings, Function.update_apply] at found
  split at found
  · next same =>
      subst same
      cases found
      exact ⟨standing.state, there⟩
  · exact ⟨later.state, found⟩

theorem WellFormed.restated {state : StateE} (formed : before.WellFormed)
    (restates : before.Restates after conn standing state)
    (nextConnId : after.nextConnId = before.nextConnId) (agenda : after.agenda = before.agenda) :
    (∀ conn, after.nextConnId ≤ conn → after.standing conn = none) ∧
    (∀ loop functor, functor ∈ after.agenda loop →
      ∃ standing, after.standing functor.conn = some standing ∧ functor.home standing.loop = loop) ∧
    (∀ conn standing, after.standing conn = some standing →
      standing.writeCompleteCallback = false) := by
  refine ⟨fun other late => ?_, fun loop functor found => ?_, fun other later found => ?_⟩
  · rw [nextConnId] at late
    exact (restates.eq_none_iff other).mpr (formed.numbered other late)
  · rw [agenda] at found
    obtain ⟨earlier, there, home⟩ := formed.placed loop functor found
    obtain ⟨state, later⟩ := restates.of_some there
    exact ⟨_, later, home⟩
  · obtain ⟨state, there⟩ := restates.some_of found
    exact formed.silent other { later with state } there

/-- An established connection, registered with the poller of its loop. -/
def established (server : TcpServer) (conn : ConnId) (object : TcpConnection) : TcpServer :=
  let object := { object with state := .kConnected, channel := object.channel.enableReading }
  ((server.record (.established conn)).setConn conn object).setPoller object.loop
    ((server.pollers object.loop).addChannel (.connection conn) object.channel)

theorem standing_established : (server.established conn object).standing =
    Function.update server.standing conn (some { object.standing with state := .kConnected }) :=
  standing_setConn

theorem established_calm (found : server.conns conn = some object) (connecting : object.state = .kConnecting) :
    server.Calm (server.established conn object) where
  todo := fun _ _ _ _ found => found
  registerTable := rfl
  count := rfl
  trace := ⟨[.established conn], rfl, by simp⟩
  standing := by
    intro other later there
    rw [standing_established, Function.update_apply] at there
    split at there
    · next same =>
        subst same
        cases there
        refine ⟨object.standing, standing_of_conns found, rfl, fun gone => ?_⟩
        rw [show object.standing.state = _ from connecting] at gone
        cases gone
    · exact ⟨later, there, rfl, id⟩

theorem life_established (found : server.conns conn = some object)
    (alive : server.life conn = some life) :
    (server.established conn object).life =
      Function.update server.life conn (some { life with state := .kConnected }) := by
  funext other
  have agenda : (server.established conn object).agenda = server.agenda := rfl
  have connections : (server.established conn object).connections = server.connections := rfl
  have trace : (server.established conn object).trace = server.trace ++ [.established conn] := rfl
  by_cases same : other = conn
  · subst same
    simp only [TcpServer.life, standing_of_conns found, Option.map_some, Option.some.injEq] at alive
    subst alive
    simp [TcpServer.life, standing_established, agenda, connections, trace]
  · simp [TcpServer.life, standing_established, agenda, connections, trace, same]

theorem established_wellFormed (formed : server.WellFormed) (found : server.conns conn = some object)
    (connecting : object.state = .kConnecting) : (server.established conn object).WellFormed := by
  have there := standing_of_conns found
  have restates : server.Restates (server.established conn object) conn object.standing .kConnected :=
    ⟨there, standing_established⟩
  obtain ⟨numbered, placed, silent⟩ := formed.restated restates rfl rfl
  have stays {other : ConnId} {standing : Standing} (known : server.standing other = some standing)
      (up : standing.state.Up) : (server.established conn object).standing other = some standing := by
    have apart : other ≠ conn := by
      rintro rfl
      rw [there] at known
      cases known
      exact up.ne_kConnecting connecting
    rw [standing_established, Function.update_of_ne apart]
    exact known
  exact {
    thread := formed.thread
    settled := formed.settled
    busy := formed.busy
    numbered
    known := by
      intro other unknown
      obtain ⟨unlisted, unerased, undestroyed⟩ :=
        formed.known other ((restates.eq_none_iff other).mp unknown)
      exact ⟨unlisted, by simp [established, record, setConn, setPoller, unerased],
        by simp [established, record, setConn, setPoller, undestroyed]⟩
    placed
    silent
    registered := by
      intro loop fd other listed
      have earlier : (server.pollers loop).channels fd = some (.connection other) ∨
          (loop = object.loop ∧ fd = object.channel.fd ∧ other = conn) := by
        simp only [established, setPoller, Function.update_apply] at listed
        split at listed
        · next here =>
            simp only [Poller.addChannel, Function.update_apply, Channel.enableReading] at listed
            split at listed
            · next same =>
                cases listed
                exact .inr ⟨here, same, rfl⟩
            · exact .inl (here ▸ listed)
        · exact .inl listed
      rcases earlier with earlier | ⟨rfl, rfl, rfl⟩
      · obtain ⟨standing, found, place, same, up⟩ := formed.registered loop fd other earlier
        exact ⟨standing, stays found up, place, same, up⟩
      · exact ⟨{ object.standing with state := .kConnected }, by simp [standing_established], rfl,
          rfl, .inl rfl⟩
    indexed := by
      intro other standing found begun
      by_cases same : other = conn
      · subst same
        rw [standing_established, Function.update_self] at found
        cases found
        simp [established, setPoller, Poller.addChannel, TcpConnection.standing]
      · rw [standing_established, Function.update_of_ne same] at found
        have known := formed.indexed other standing found begun
        simp only [established, setPoller, Function.update_apply]
        split
        · next here => simpa [Poller.addChannel, same, ← here] using known
        · exact known
    scheduled := by
      intro loop task other waiting called
      obtain ⟨standing, found, place, up⟩ := formed.scheduled loop task other waiting called
      exact ⟨standing, stays found up, place, up⟩ }

theorem commit_established (formed : server.WellFormed) (found : server.conns conn = some object)
    (connecting : object.state = .kConnecting) :
    Ensures (Halt.Tolerated timely)
      ((server.record (.established conn)).commit caller conn
        ({ object with state := .kConnected, channel := object.channel.enableReading },
          [.updateChannel]))
      fun after => after = server.established conn object := by
  have added : Ensures (Halt.Tolerated timely)
      ((server.pollers object.loop).updateChannel (.connection conn) object.channel.enableReading)
      fun poller => poller =
        (server.pollers object.loop).addChannel (.connection conn) object.channel.enableReading := by
    unfold Poller.updateChannel
    split
    · exact ensures_check (by simp [Halt.Tolerated]) fun _ => .ok rfl
    · refine ensures_check (by simp [Halt.Tolerated]) fun _ => ?_
      refine ensures_check (by simp [Halt.Tolerated]) fun listed => ?_
      -- only connections that are up are registered
      obtain ⟨standing, known, -, -, up⟩ := formed.registered _ _ _ listed
      rw [standing_of_conns found] at known
      cases known
      exact absurd connecting up.ne_kConnecting
  have performed : Ensures (Halt.Tolerated timely)
      (((server.record (.established conn)).setConn conn
        { object with state := .kConnected, channel := object.channel.enableReading }).perform caller
          conn .updateChannel)
      fun after => after = server.established conn object := by
    refine ensures_deref fun present there => ?_
    rw [conns_setConn, Option.some.injEq] at there
    subst there
    refine ensures_inLoopThread fun _ => ?_
    exact added.bind fun poller same => .ok (same ▸ rfl)
  unfold commit
  rw [List.foldlM_cons]
  exact performed.bind fun _ same => .ok same

theorem onConnection_quiet (formed : server.WellFormed) {written : Int}
    (there : server.standing conn = some standing) (here : standing.loop = caller)
    (established : standing.state ≠ .kConnecting) :
    Ensures (Halt.Tolerated timely) (server.onConnection caller conn written) server.Quiet := by
  refine ensures_deref fun object found => ?_
  rw [standing_of_conns found] at there
  cases there
  split
  · next connected =>
      refine ensures_deref fun object again => ?_
      rw [found] at again
      cases again
      have inLoopThread : server.isInLoopThread caller object.loop = true :=
        formed.inLoopThread_iff.mpr here.symm
      rw [if_pos connected, if_pos inLoopThread]
      refine sendInLoop_quiet formed fun standing known => ?_
      rw [standing_of_conns found] at known
      cases known
      exact established
  · exact .ok (.refl server)

theorem connectEstablished_spec (formed : server.WellFormed) {written : Int} :
    Ensures (Halt.Tolerated timely) (server.connectEstablished caller conn written) fun after =>
      after.WellFormed ∧ server.Calm after ∧
        ∃ life, server.life conn = some life ∧ life.state = .kConnecting ∧
          after.life = Function.update server.life conn (some { life with state := .kConnected }) := by
  refine ensures_deref fun object found => ?_
  refine ensures_inLoopThread fun here => ?_
  refine object.connectEstablished_tolerated.bind fun result ⟨connecting, called⟩ => ?_
  subst called
  refine (commit_established formed found connecting).bind fun committed same => ?_
  subst same
  have registered := established_wellFormed formed found connecting
  have there : (server.established conn object).standing conn =
      some { object.standing with state := .kConnected } := by
    rw [standing_established, Function.update_self]
  refine (onConnection_quiet registered there (formed.inLoopThread_iff.mp here).symm nofun).mono
    fun after quiet => ?_
  obtain ⟨life, alive, state⟩ := life_of_standing (standing_of_conns found)
  exact ⟨quiet.wellFormed registered, (established_calm found connecting).trans quiet.calm, life,
    alive, state.trans connecting, quiet.life.trans (life_established found alive)⟩

end Establishing

section Destroying

variable {server : TcpServer} {object : TcpConnection} {standing : Standing} {life : Life}

theorem removeChannel_spec {poller : Poller ChannelId} {channel : ChannelId} {data : Channel} :
    Ensures (Halt.Tolerated timely) (poller.removeChannel channel data) fun removed =>
      removed.channels = Function.update poller.channels data.fd none ∧
        ∀ other, 0 ≤ poller.index other → 0 ≤ removed.index other := by
  refine ensures_check (by simp [Halt.Tolerated]) fun _ => ?_
  refine ensures_check (by simp [Halt.Tolerated]) fun _ => ?_
  refine ensures_check (by simp [Halt.Tolerated]) fun _ => ?_
  refine ensures_check (by simp [Halt.Tolerated]) fun stands => ?_
  refine pollfd_tolerated.bind fun pfd _ => ?_
  refine ensures_check (by simp [Halt.Tolerated]) fun _ => ?_
  refine ensures_check (by simp [Halt.Tolerated]) fun _ => ?_
  split
  · exact .ok ⟨rfl, fun _ known => known⟩
  · refine pollfd_tolerated.bind fun back _ => ?_
    dsimp only
    generalize (if back.fd < 0 then -back.fd - 1 else back.fd) = channelAtEnd
    split
    · exact .error (by simp [Halt.Tolerated])
    · refine .ok ⟨rfl, fun other known => ?_⟩
      simp only [Function.update_apply]
      split
      · exact stands.1
      · exact known

/-- The invariants once a connection is down and its channel has left the poller. -/
theorem WellFormed.destroyed (formed : before.WellFormed)
    (restates : before.Restates after conn standing .kDisconnected)
    (established : standing.state ≠ .kConnecting) (idle : before.todo standing.loop = [])
    (same : after.nextConnId = before.nextConnId ∧ after.connections = before.connections ∧
      after.loops = before.loops ∧ after.todo = before.todo)
    (ends : ∀ other, other ≠ conn → .erased other ∉ before.trace → .destroyed other ∉ before.trace →
      .erased other ∉ after.trace ∧ .destroyed other ∉ after.trace)
    (channels : ∀ loop, (after.pollers loop).channels = if loop = standing.loop
      then Function.update (before.pollers loop).channels standing.fd none
      else (before.pollers loop).channels)
    (index : ∀ loop channel, 0 ≤ (before.pollers loop).index channel →
      0 ≤ (after.pollers loop).index channel) : after.WellFormed := by
  obtain ⟨nextConnId, connections, loops, todo⟩ := same
  have agenda : after.agenda = before.agenda := by
    funext loop
    simp only [TcpServer.agenda, loops]
  obtain ⟨numbered, placed, silent⟩ := formed.restated restates nextConnId agenda
  obtain ⟨there, standings⟩ := id restates
  have stays {other : ConnId} {found : Standing} (known : before.standing other = some found)
      (apart : other ≠ conn) : after.standing other = some found := by
    rw [standings, Function.update_of_ne apart]
    exact known
  exact {
    thread := loops ▸ formed.thread
    settled := loops ▸ formed.settled
    busy := loops ▸ todo ▸ formed.busy
    numbered
    known := by
      intro other unknown
      have before := (restates.eq_none_iff other).mp unknown
      obtain ⟨unlisted, unerased, undestroyed⟩ := formed.known other before
      have apart : other ≠ conn := by
        rintro rfl
        rw [there] at before
        cases before
      exact ⟨connections ▸ unlisted, ends other apart unerased undestroyed⟩
    placed
    silent
    registered := by
      intro loop fd other listed
      rw [channels] at listed
      have earlier : (before.pollers loop).channels fd = some (.connection other) ∧
          (loop = standing.loop → fd ≠ standing.fd) := by
        split at listed
        · rw [Function.update_apply] at listed
          split at listed
          · cases listed
          · next apart => exact ⟨listed, fun _ => apart⟩
        · next apart => exact ⟨listed, fun same => absurd same apart⟩
      obtain ⟨found, known, place, fds, up⟩ := formed.registered loop fd other earlier.1
      refine ⟨found, stays known ?_, place, fds, up⟩
      rintro rfl
      rw [there] at known
      cases known
      exact earlier.2 place.symm fds.symm
    indexed := by
      intro other later found begun
      by_cases same : other = conn
      · subst same
        rw [standings, Function.update_self] at found
        cases found
        exact index _ _ (formed.indexed other standing there established)
      · rw [standings, Function.update_of_ne same] at found
        exact index _ _ (formed.indexed other later found begun)
    scheduled := by
      intro loop task other waiting called
      rw [todo] at waiting
      obtain ⟨found, known, place, up⟩ := formed.scheduled loop task other waiting called
      refine ⟨found, stays known ?_, place, up⟩
      rintro rfl
      rw [there] at known
      cases known
      rw [← place, idle] at waiting
      cases waiting }

/-- The server with the connection down, its channel still in the poller. -/
def downed (server : TcpServer) (conn : ConnId) (object : TcpConnection) : TcpServer :=
  (server.record (.destroyed conn)).setConn conn
    { object with state := .kDisconnected, channel := object.channel.disableAll }

theorem standing_downed : (server.downed conn object).standing =
    Function.update server.standing conn (some { object.standing with state := .kDisconnected }) :=
  standing_setConn

theorem downed_calm (found : server.conns conn = some object) :
    server.Calm (server.downed conn object) where
  todo := fun _ _ _ _ found => found
  registerTable := rfl
  count := rfl
  trace := ⟨[.destroyed conn], rfl, by simp⟩
  standing := by
    intro other later there
    rw [standing_downed, Function.update_apply] at there
    split at there
    · next same =>
        subst same
        cases there
        exact ⟨object.standing, standing_of_conns found, rfl, fun _ => rfl⟩
    · exact ⟨later, there, rfl, id⟩

theorem life_downed (found : server.conns conn = some object)
    (alive : server.life conn = some life) :
    (server.downed conn object).life = Function.update server.life conn
      (some { life with state := .kDisconnected, destructions := life.destructions + 1 }) := by
  funext other
  have agenda : (server.downed conn object).agenda = server.agenda := rfl
  have connections : (server.downed conn object).connections = server.connections := rfl
  have trace : (server.downed conn object).trace = server.trace ++ [.destroyed conn] := rfl
  by_cases same : other = conn
  · subst same
    simp only [TcpServer.life, standing_of_conns found, Option.map_some, Option.some.injEq] at alive
    subst alive
    simp [TcpServer.life, standing_downed, agenda, connections, trace]
  · simp [TcpServer.life, standing_downed, agenda, connections, trace, same, Ne.symm same]

theorem setPoller_calm {poller : Poller ChannelId} : server.Calm (server.setPoller loop poller) where
  todo := fun _ _ _ _ found => found
  registerTable := rfl
  count := rfl
  trace := ⟨[], by simp [setPoller], nofun⟩
  standing := fun _ later there => ⟨later, there, rfl, id⟩

theorem connectDestroyed_spec (formed : server.WellFormed)
    (up : ∀ standing, server.standing conn = some standing → standing.state.Up)
    (idle : server.todo caller = []) :
    Ensures (Halt.Tolerated timely) (server.connectDestroyed caller conn) fun after =>
      after.WellFormed ∧ server.Calm after ∧
        ∃ life, server.life conn = some life ∧
          after.life = Function.update server.life conn
            (some { life with state := .kDisconnected, destructions := life.destructions + 1 }) := by
  refine ensures_deref fun object found => ?_
  refine ensures_inLoopThread fun here => ?_
  obtain rfl : caller = object.loop := formed.inLoopThread_iff.mp here
  have there := standing_of_conns found
  have ending := up object.standing there
  have known := formed.indexed conn object.standing there ending.ne_kConnecting
  rw [object.connectDestroyed_of_up ending, ok_bind]
  have indexed : (server.downed conn object).Indexed conn :=
    ⟨{ object.standing with state := .kDisconnected }, by rw [standing_downed, Function.update_self],
      known⟩
  have committed : Ensures (Halt.Tolerated timely)
      ((server.record (.destroyed conn)).commit object.loop conn
        ({ object with state := .kDisconnected, channel := object.channel.disableAll },
          [.updateChannel]))
      (server.downed conn object).Quiet :=
    performAll_quiet indexed (by simp)
  refine committed.bind fun updated quiet => ?_
  refine removeChannel_spec.bind fun poller ⟨channels, index⟩ => .ok ?_
  obtain ⟨life, alive, -⟩ := life_of_standing there
  refine ⟨?_, ((downed_calm found).trans quiet.calm).trans setPoller_calm, life, alive,
    quiet.life.trans (life_downed found alive)⟩
  refine formed.destroyed ⟨there, quiet.standing.trans standing_downed⟩ ending.ne_kConnecting idle
    ⟨quiet.nextConnId, quiet.connections, quiet.loops, quiet.todo⟩ ?_ ?_ ?_
  · intro other apart unerased undestroyed
    have counts := quiet.count_trace other
    have trace : (server.downed conn object).trace = server.trace ++ [.destroyed conn] := rfl
    refine ⟨List.count_eq_zero.mp (counts.1.trans ?_), List.count_eq_zero.mp (counts.2.trans ?_)⟩
    · simp [trace, List.count_eq_zero, unerased]
    · simp [trace, List.count_eq_zero, undestroyed, apart]
  · intro loop
    simp only [setPoller, Function.update_apply]
    split
    · next same =>
        rw [if_pos (show loop = object.standing.loop from same), same, channels, quiet.channels]
        rfl
    · next apart =>
        rw [if_neg (show loop ≠ object.standing.loop from apart), quiet.channels]
        rfl
  · intro loop channel known
    simp only [setPoller, Function.update_apply]
    split
    · next same =>
        refine index channel ?_
        rw [quiet.index]
        exact same ▸ known
    · rw [quiet.index]
      exact known

end Destroying

section Arriving

variable {server : TcpServer} {sockfd : Int} {peerAddr : Bytes}

/-- The server with a new connection in `connections_`, not established yet. -/
def admitted (server : TcpServer) (sockfd : Int) (peerAddr : Bytes) : TcpServer :=
  { server.setConn server.nextConnId (.construct server.getNextLoop.1 sockfd peerAddr false) with
    nextConnId := server.nextConnId + 1
    next := server.getNextLoop.2
    connections := server.connections.orderedInsert
      (fun left right => connName left ≤ connName right) server.nextConnId
    : TcpServer }.record (.accepted server.nextConnId)

theorem standing_admitted : (server.admitted sockfd peerAddr).standing =
    Function.update server.standing server.nextConnId
      (some ⟨server.getNextLoop.1, sockfd, peerAddr, .kConnecting, false⟩) :=
  standing_setConn

theorem WellFormed.unborn (formed : server.WellFormed) : server.standing server.nextConnId = none :=
  formed.numbered server.nextConnId (Nat.le_refl _)

theorem admitted_wellFormed (formed : server.WellFormed) :
    (server.admitted sockfd peerAddr).WellFormed := by
  have stays {other : ConnId} {found : Standing} (known : server.standing other = some found) :
      (server.admitted sockfd peerAddr).standing other = some found := by
    have apart : other ≠ server.nextConnId := by
      rintro rfl
      rw [formed.unborn] at known
      cases known
    rw [standing_admitted, Function.update_of_ne apart]
    exact known
  exact {
    thread := formed.thread
    settled := formed.settled
    busy := formed.busy
    numbered := by
      intro other late
      have late : server.nextConnId + 1 ≤ other := late
      rw [standing_admitted, Function.update_of_ne (Nat.ne_of_gt late)]
      exact formed.numbered other (Nat.le_of_succ_le late)
    known := by
      intro other unknown
      rw [standing_admitted, Function.update_apply] at unknown
      split at unknown
      · cases unknown
      · next apart =>
          obtain ⟨unlisted, unerased, undestroyed⟩ := formed.known other unknown
          refine ⟨?_, ?_, ?_⟩
          · simp [admitted, record, setConn, List.mem_orderedInsert, apart, unlisted]
          · simp [admitted, record, setConn, unerased]
          · simp [admitted, record, setConn, undestroyed]
    placed := by
      intro loop functor found
      obtain ⟨standing, known, home⟩ := formed.placed loop functor found
      exact ⟨standing, stays known, home⟩
    silent := by
      intro other standing found
      rw [standing_admitted, Function.update_apply] at found
      split at found
      · cases found
        rfl
      · exact formed.silent other standing found
    registered := by
      intro loop fd other listed
      obtain ⟨standing, known, rest⟩ := formed.registered loop fd other listed
      exact ⟨standing, stays known, rest⟩
    indexed := by
      intro other standing found begun
      rw [standing_admitted, Function.update_apply] at found
      split at found
      · cases found
        exact absurd rfl begun
      · exact formed.indexed other standing found begun
    scheduled := by
      intro loop task other waiting called
      obtain ⟨standing, known, rest⟩ := formed.scheduled loop task other waiting called
      exact ⟨standing, stays known, rest⟩ }

theorem WellFormed.nothing_waits (formed : server.WellFormed) (missing : server.standing conn = none)
    {functor : Functor} (found : functor ∈ server.agenda loop) : functor.conn ≠ conn := by
  rintro rfl
  obtain ⟨standing, known, -⟩ := formed.placed loop functor found
  rw [missing] at known
  cases known

theorem life_admitted (formed : server.WellFormed) : (server.admitted sockfd peerAddr).life =
    Function.update server.life server.nextConnId (some ⟨.kConnecting, 1, [], 0, 0, 0⟩) := by
  have agenda : (server.admitted sockfd peerAddr).agenda = server.agenda := rfl
  have trace : (server.admitted sockfd peerAddr).trace =
    server.trace ++ [.accepted server.nextConnId] := rfl
  have connections (other : ConnId) : (server.admitted sockfd peerAddr).connections.count other =
      (server.nextConnId :: server.connections).count other :=
    (List.perm_orderedInsert _ _ _).count_eq other
  have missing := formed.unborn
  obtain ⟨unlisted, unerased, undestroyed⟩ := formed.known _ missing
  have noErrand (loop : LoopId) :
      (server.agenda loop).filterMap (Functor.errand server.nextConnId) = [] := by
    rw [List.filterMap_eq_nil_iff]
    intro functor found
    exact errand_of_ne (formed.nothing_waits missing found)
  have noRequest : .removeConnectionInLoop server.nextConnId ∉ server.agenda baseLoop :=
    fun found => formed.nothing_waits missing found rfl
  funext other
  by_cases same : other = server.nextConnId
  · subst same
    simp [TcpServer.life, standing_admitted, agenda, trace, connections, List.count_eq_zero, unlisted,
      unerased, undestroyed, noErrand, noRequest]
  · simp [TcpServer.life, standing_admitted, agenda, trace, connections, same, Ne.symm same]

theorem newConnection_spec (formed : server.WellFormed) {written : Int} :
    Ensures (Halt.Tolerated timely) (server.newConnection caller sockfd peerAddr written)
      fun after => after.WellFormed ∧
        Evolves Life.Born (Life.Moves timely) server.life after.life ∧
        (server.admitted sockfd peerAddr).Calm after := by
  refine ensures_inLoopThread fun _ => ?_
  have formed' : (server.admitted sockfd peerAddr).WellFormed := admitted_wellFormed formed
  have lives : (server.admitted sockfd peerAddr).life = _ := life_admitted formed
  have alive : (server.admitted sockfd peerAddr).life server.nextConnId =
      some ⟨.kConnecting, 1, [], 0, 0, 0⟩ := by
    rw [lives, Function.update_self]
  have unborn : server.life server.nextConnId = none := by
    simp [TcpServer.life, formed.unborn]
  have there : (server.admitted sockfd peerAddr).standing server.nextConnId =
      some ⟨server.getNextLoop.1, sockfd, peerAddr, .kConnecting, false⟩ := by
    rw [standing_admitted, Function.update_self]
  change Ensures _ (if (server.admitted sockfd peerAddr).isInLoopThread caller server.getNextLoop.1
    then (server.admitted sockfd peerAddr).connectEstablished caller server.nextConnId written
    else .ok ((server.admitted sockfd peerAddr).queueInLoop caller server.getNextLoop.1
      (.connectEstablished server.nextConnId))) _
  split
  · refine (connectEstablished_spec formed').mono fun after established => ?_
    obtain ⟨formed, calm, life, alive', -, lives'⟩ := established
    rw [alive] at alive'
    cases alive'
    refine ⟨formed, ?_, calm⟩
    rw [lives', lives, Function.update_idem]
    exact .of_birth unborn .inline
  · refine .ok ⟨formed'.queueInLoop there rfl, ?_, queueInLoop_calm⟩
    rw [life_queueInLoop server.getNextLoop.1 (.connectEstablished server.nextConnId) there rfl rfl
      alive, lives, Function.update_idem]
    exact .of_birth unborn .queued

end Arriving

end TransferServer.Net.TcpServer
