import TransferServer.Net.TcpConnectionStanding
import TransferServer.Net.TcpServer

/-! The connections of a server as a family of lives, the invariants that tie its queues, pollers
and handler rounds to them, and the steps that touch neither. -/

set_option autoImplicit false

namespace TransferServer.Net

open Base Lib

/-- The connection a functor is bound to. -/
def Functor.conn : Functor → ConnId
  | .connectEstablished conn => conn
  | .removeConnectionInLoop conn => conn
  | .connectDestroyed conn => conn
  | .sendInLoop conn _ => conn
  | .writeComplete conn => conn

/-- The loop a functor is queued in, where `loop` is the loop of its connection. -/
def Functor.home (loop : LoopId) : Functor → LoopId
  | .removeConnectionInLoop _ => baseLoop
  | _ => loop

def Functor.errand (conn : ConnId) : Functor → Option Errand
  | .connectEstablished bound => if bound = conn then some .establish else none
  | .connectDestroyed bound => if bound = conn then some .destroy else none
  | .sendInLoop bound _ => if bound = conn then some .send else none
  | .removeConnectionInLoop _ => none
  | .writeComplete _ => none

/-- A life with the functor at the end of the queue. -/
def Functor.join (functor : Functor) (life : Life) : Life :=
  match functor with
  | .connectEstablished _ => { life with agenda := life.agenda ++ [.establish] }
  | .connectDestroyed _ => { life with agenda := life.agenda ++ [.destroy] }
  | .sendInLoop _ _ => { life with agenda := life.agenda ++ [.send] }
  | .removeConnectionInLoop _ => { life with requests := life.requests + 1 }
  | .writeComplete _ => life

/-- A life with the functor in front of the queue. -/
def Functor.lead (functor : Functor) (life : Life) : Life :=
  match functor with
  | .connectEstablished _ => { life with agenda := .establish :: life.agenda }
  | .connectDestroyed _ => { life with agenda := .destroy :: life.agenda }
  | .sendInLoop _ _ => { life with agenda := .send :: life.agenda }
  | .removeConnectionInLoop _ => { life with requests := life.requests + 1 }
  | .writeComplete _ => life

/-- The connection whose handlers a task calls. -/
def Task.conn : Task → Option ConnId
  | .handleEvent (.connection conn) => some conn
  | .callback (.connection conn) _ => some conn
  | _ => none

variable {timely : Prop}

/-- Neither an end of a connection nor a message passed on. -/
def Event.Minor : Event → Prop
  | .relayed _ _ => False
  | .erased _ => False
  | .destroyed _ => False
  | _ => True

theorem Event.Minor.ne {event : Event} (minor : event.Minor) :
    (∀ sender receiver, event ≠ .relayed sender receiver) ∧
      (∀ conn, event ≠ .erased conn) ∧ ∀ conn, event ≠ .destroyed conn := by
  cases event <;> simp_all [Minor]

namespace TcpServer

def standing (server : TcpServer) (conn : ConnId) : Option Standing :=
  (server.conns conn).map TcpConnection.standing

/-- The functors that a loop has still to run, in order. -/
def agenda (server : TcpServer) (loop : LoopId) : List Functor :=
  (server.loops loop).functors ++ (server.loops loop).pendingFunctors

/-- The life of a connection as the server's data show it. -/
def life (server : TcpServer) (conn : ConnId) : Option Life :=
  (server.standing conn).map fun standing =>
    { state := standing.state
      entries := server.connections.count conn
      agenda := (server.agenda standing.loop).filterMap (Functor.errand conn)
      requests := (server.agenda baseLoop).count (.removeConnectionInLoop conn)
      erasures := server.trace.count (.erased conn)
      destructions := server.trace.count (.destroyed conn) }

structure WellFormed (server : TcpServer) : Prop where
  thread : ∀ loop, (server.loops loop).threadId = loop
  settled : ∀ loop, (server.loops loop).phase ≠ .running → (server.loops loop).functors = []
  busy : ∀ loop, (server.loops loop).phase ≠ .dispatching → server.todo loop = []
  numbered : ∀ conn, server.nextConnId ≤ conn → server.standing conn = none
  known : ∀ conn, server.standing conn = none →
    conn ∉ server.connections ∧ .erased conn ∉ server.trace ∧ .destroyed conn ∉ server.trace
  /-- Functors wait where their connection lives. -/
  placed : ∀ loop functor, functor ∈ server.agenda loop →
    ∃ standing, server.standing functor.conn = some standing ∧ functor.home standing.loop = loop
  silent : ∀ conn standing, server.standing conn = some standing →
    standing.writeCompleteCallback = false
  registered : ∀ loop fd conn, (server.pollers loop).channels fd = some (.connection conn) →
    ∃ standing, server.standing conn = some standing ∧ standing.loop = loop ∧ standing.fd = fd ∧
      standing.state.Up
  indexed : ∀ conn standing, server.standing conn = some standing →
    standing.state ≠ .kConnecting → 0 ≤ (server.pollers standing.loop).index (.connection conn)
  /-- Handlers are called on the loop of their connection while it is up. -/
  scheduled : ∀ loop task conn, task ∈ server.todo loop → task.conn = some conn →
    ∃ standing, server.standing conn = some standing ∧ standing.loop = loop ∧ standing.state.Up

/-- Nothing that the lives of connections or the handshake rest on has changed. -/
structure Quiet (before after : TcpServer) : Prop where
  nextConnId : after.nextConnId = before.nextConnId
  connections : after.connections = before.connections
  standing : after.standing = before.standing
  loops : after.loops = before.loops
  channels : ∀ loop, (after.pollers loop).channels = (before.pollers loop).channels
  index : ∀ loop, (after.pollers loop).index = (before.pollers loop).index
  todo : after.todo = before.todo
  registerTable : after.registerTable = before.registerTable
  count : after.count = before.count
  trace : ∃ events, after.trace = before.trace ++ events ∧ ∀ event ∈ events, event.Minor

/-- No message passed on, no change of the register table, no new connection. -/
structure Calm (before after : TcpServer) : Prop where
  todo : ∀ loop sender message receiver, .relay sender message receiver ∈ after.todo loop →
    .relay sender message receiver ∈ before.todo loop
  registerTable : after.registerTable = before.registerTable
  count : after.count = before.count
  trace : ∃ events, after.trace = before.trace ++ events ∧
    ∀ event ∈ events, ∀ sender receiver, event ≠ .relayed sender receiver
  standing : ∀ conn later, after.standing conn = some later →
    ∃ earlier, before.standing conn = some earlier ∧ earlier.peerAddr = later.peerAddr ∧
      (earlier.state = .kDisconnected → later.state = .kDisconnected)

variable {server before middle after : TcpServer} {caller loop : LoopId} {conn : ConnId}

theorem Quiet.refl (server : TcpServer) : server.Quiet server where
  nextConnId := rfl
  connections := rfl
  standing := rfl
  loops := rfl
  channels := fun _ => rfl
  index := fun _ => rfl
  todo := rfl
  registerTable := rfl
  count := rfl
  trace := ⟨[], by simp, nofun⟩

theorem Quiet.trans (first : before.Quiet middle) (second : middle.Quiet after) :
    before.Quiet after where
  nextConnId := second.nextConnId.trans first.nextConnId
  connections := second.connections.trans first.connections
  standing := second.standing.trans first.standing
  loops := second.loops.trans first.loops
  channels := fun loop => (second.channels loop).trans (first.channels loop)
  index := fun loop => (second.index loop).trans (first.index loop)
  todo := second.todo.trans first.todo
  registerTable := second.registerTable.trans first.registerTable
  count := second.count.trans first.count
  trace := by
    obtain ⟨events, grown, minor⟩ := first.trace
    obtain ⟨later, grownMore, minorMore⟩ := second.trace
    refine ⟨events ++ later, by rw [grownMore, grown, List.append_assoc], fun event found => ?_⟩
    exact (List.mem_append.mp found).elim (minor event) (minorMore event)

theorem Calm.trans (first : before.Calm middle) (second : middle.Calm after) :
    before.Calm after where
  todo := fun loop sender message receiver found =>
    first.todo loop sender message receiver (second.todo loop sender message receiver found)
  registerTable := second.registerTable.trans first.registerTable
  count := second.count.trans first.count
  trace := by
    obtain ⟨events, grown, calm⟩ := first.trace
    obtain ⟨later, grownMore, calmMore⟩ := second.trace
    refine ⟨events ++ later, by rw [grownMore, grown, List.append_assoc], fun event found => ?_⟩
    exact (List.mem_append.mp found).elim (calm event) (calmMore event)
  standing := by
    intro conn later found
    obtain ⟨between, foundBetween, sameLater, downLater⟩ := second.standing conn later found
    obtain ⟨earlier, foundEarlier, same, down⟩ := first.standing conn between foundBetween
    exact ⟨earlier, foundEarlier, same.trans sameLater, fun gone => downLater (down gone)⟩

theorem Quiet.calm (quiet : before.Quiet after) : before.Calm after where
  todo := fun _ _ _ _ found => quiet.todo ▸ found
  registerTable := quiet.registerTable
  count := quiet.count
  trace := by
    obtain ⟨events, grown, minor⟩ := quiet.trace
    exact ⟨events, grown, fun event found => (minor event found).ne.1⟩
  standing := fun conn later found => ⟨later, quiet.standing ▸ found, rfl, id⟩

theorem Quiet.count_trace (quiet : before.Quiet after) (conn : ConnId) :
    after.trace.count (.erased conn) = before.trace.count (.erased conn) ∧
      after.trace.count (.destroyed conn) = before.trace.count (.destroyed conn) := by
  obtain ⟨events, grown, minor⟩ := quiet.trace
  have erased : events.count (.erased conn) = 0 :=
    List.count_eq_zero.mpr fun found => (minor _ found).ne.2.1 conn rfl
  have destroyed : events.count (.destroyed conn) = 0 :=
    List.count_eq_zero.mpr fun found => (minor _ found).ne.2.2 conn rfl
  simp [grown, List.count_append, erased, destroyed]

theorem Quiet.agenda (quiet : before.Quiet after) : after.agenda = before.agenda := by
  funext loop
  simp [TcpServer.agenda, quiet.loops]

theorem life_congr (standing : after.standing = before.standing) (agenda : after.agenda = before.agenda)
    (connections : after.connections = before.connections)
    (ends : ∀ conn, after.trace.count (.erased conn) = before.trace.count (.erased conn) ∧
      after.trace.count (.destroyed conn) = before.trace.count (.destroyed conn)) :
    after.life = before.life := by
  funext conn
  simp only [TcpServer.life, standing, agenda, connections, ends]

theorem Quiet.life (quiet : before.Quiet after) : after.life = before.life :=
  life_congr quiet.standing quiet.agenda quiet.connections quiet.count_trace

theorem Quiet.wellFormed (quiet : before.Quiet after) (formed : before.WellFormed) :
    after.WellFormed where
  thread := by simpa [quiet.loops] using formed.thread
  settled := by simpa [quiet.loops] using formed.settled
  busy := by simpa [quiet.loops, quiet.todo] using formed.busy
  numbered := by simpa [quiet.nextConnId, quiet.standing] using formed.numbered
  known := by
    intro conn unknown
    rw [quiet.standing] at unknown
    have counts := quiet.count_trace conn
    simpa [← List.count_eq_zero, quiet.connections, counts] using formed.known conn unknown
  placed := by simpa [quiet.agenda, quiet.standing] using formed.placed
  silent := by simpa [quiet.standing] using formed.silent
  registered := by simpa [quiet.channels, quiet.standing] using formed.registered
  indexed := by simpa [quiet.index, quiet.standing] using formed.indexed
  scheduled := by simpa [quiet.todo, quiet.standing] using formed.scheduled

section Quietly

variable {object : TcpConnection} {server : TcpServer}

theorem standing_of_conns (found : server.conns conn = some object) :
    server.standing conn = some object.standing := by
  simp [standing, found]

theorem conns_setConn : (server.setConn conn object).conns conn = some object :=
  Function.update_self ..

theorem standing_setConn : (server.setConn conn object).standing =
    Function.update server.standing conn (some object.standing) := by
  funext other
  simp only [standing, setConn, Function.update_apply]
  split <;> rfl

theorem ensures_deref {Value : Type} {next : TcpConnection → Outcome Value} {post : Value → Prop}
    (continued : ∀ object, server.conns conn = some object →
      Ensures (Halt.Tolerated timely) (next object) post) :
    Ensures (Halt.Tolerated timely) (server.deref conn >>= next) post := by
  unfold deref
  cases found : server.conns conn with
  | none => exact .error (by simp [Halt.Tolerated])
  | some object => exact continued object found

theorem ensures_inLoopThread {next : Unit → Outcome TcpServer} {post : TcpServer → Prop}
    (continued : server.isInLoopThread caller loop = true →
      Ensures (Halt.Tolerated timely) (next ()) post) :
    Ensures (Halt.Tolerated timely) (server.assertInLoopThread caller loop >>= next) post :=
  ensures_check (by simp [Halt.Tolerated]) continued

theorem WellFormed.inLoopThread_iff (formed : server.WellFormed) :
    server.isInLoopThread caller loop = true ↔ caller = loop := by
  simp [isInLoopThread, EventLoop.isInLoopThread, formed.thread, eq_comm]

theorem setConn_quiet (same : server.standing conn = some object.standing) :
    server.Quiet (server.setConn conn object) :=
  { Quiet.refl server with
    standing := by
      rw [standing_setConn]
      exact Function.update_eq_self_iff.mpr same.symm }

theorem record_quiet {event : Event} (minor : event.Minor) : server.Quiet (server.record event) :=
  { Quiet.refl server with
    trace := ⟨[event], rfl, fun _ found => List.mem_singleton.mp found ▸ minor⟩ }

theorem setRevents_quiet (channel : ChannelId) (revents : Events) :
    server.Quiet (server.setRevents channel revents) := by
  cases channel with
  | wakeup loop => exact { Quiet.refl server with }
  | accept => exact { Quiet.refl server with }
  | connection conn =>
      cases found : server.conns conn with
      | none =>
          simp only [setRevents, found]
          exact .refl server
      | some object =>
          simp only [setRevents, found]
          exact setConn_quiet ((standing_of_conns found).trans rfl)

/-- The poller knows the channel of the connection. -/
def Indexed (server : TcpServer) (conn : ConnId) : Prop :=
  ∃ standing, server.standing conn = some standing ∧
    0 ≤ (server.pollers standing.loop).index (.connection conn)

theorem Quiet.indexed (quiet : before.Quiet after) (indexed : before.Indexed conn) :
    after.Indexed conn := by
  simpa only [Indexed, quiet.standing, quiet.index] using indexed

theorem pollfd_tolerated {poller : Poller ChannelId} {idx : Int} :
    Ensures (Halt.Tolerated timely) (poller.pollfd idx) fun _ => True := by
  unfold Poller.pollfd
  split
  · exact .ok trivial
  · exact .error (by simp [Halt.Tolerated])

theorem updateChannel_known {poller : Poller ChannelId} {channel : ChannelId} {data : Channel}
    (known : 0 ≤ poller.index channel) :
    Ensures (Halt.Tolerated timely) (poller.updateChannel channel data)
      fun updated => updated.channels = poller.channels ∧ updated.index = poller.index := by
  unfold Poller.updateChannel
  rw [if_neg (by omega)]
  refine ensures_check (by simp [Halt.Tolerated]) fun _ => ?_
  refine ensures_check (by simp [Halt.Tolerated]) fun _ => ?_
  refine ensures_check (by simp [Halt.Tolerated]) fun _ => ?_
  refine pollfd_tolerated.bind fun pfd _ => ?_
  exact ensures_check (by simp [Halt.Tolerated]) fun _ => .ok ⟨rfl, rfl⟩

theorem setPoller_quiet {poller : Poller ChannelId}
    (channels : poller.channels = (server.pollers loop).channels)
    (index : poller.index = (server.pollers loop).index) : server.Quiet (server.setPoller loop poller) :=
  { Quiet.refl server with
    channels := by
      intro other
      simp only [setPoller, Function.update_apply]
      split
      · next same => rw [channels, same]
      · rfl
    index := by
      intro other
      simp only [setPoller, Function.update_apply]
      split
      · next same => rw [index, same]
      · rfl }

theorem perform_quiet (indexed : server.Indexed conn) :
    Ensures (Halt.Tolerated timely) (server.perform caller conn .updateChannel) server.Quiet := by
  refine ensures_deref fun object found => ?_
  refine ensures_inLoopThread fun _ => ?_
  obtain ⟨standing, there, known⟩ := indexed
  rw [standing_of_conns found] at there
  cases there
  exact (updateChannel_known known).bind fun poller ⟨channels, index⟩ =>
    .ok (setPoller_quiet channels index)

theorem performAll_quiet {requests : List Request} (indexed : server.Indexed conn)
    (updates : ∀ request ∈ requests, request = .updateChannel) :
    Ensures (Halt.Tolerated timely)
      (requests.foldlM (fun server request => server.perform caller conn request) server)
      server.Quiet := by
  refine (Ensures.foldlM
    (fun rest after => server.Quiet after ∧ ∀ request ∈ rest, request = .updateChannel)
    ⟨.refl server, updates⟩ fun request rest reached ⟨quiet, updates⟩ => ?_).mono fun _ both => both.1
  obtain rfl := updates request List.mem_cons_self
  refine (perform_quiet (quiet.indexed indexed)).mono fun after more => ?_
  exact ⟨quiet.trans more, fun later found => updates later (List.mem_cons_of_mem _ found)⟩

theorem commit_keeps {result : TcpConnection × List Request} (formed : server.WellFormed)
    (found : server.conns conn = some object) (established : object.state ≠ .kConnecting)
    (keeps : object.Keeps result) :
    Ensures (Halt.Tolerated timely) (server.commit caller conn result) server.Quiet := by
  obtain ⟨same, _, updates⟩ := keeps
  have there := standing_of_conns found
  have quiet : server.Quiet (server.setConn conn result.1) :=
    setConn_quiet (there.trans (congrArg some same.symm))
  have indexed : server.Indexed conn :=
    ⟨object.standing, there, formed.indexed conn object.standing there established⟩
  exact (performAll_quiet (quiet.indexed indexed)
    (updates (formed.silent conn object.standing there))).mono fun _ => quiet.trans

theorem sendInLoop_quiet (formed : server.WellFormed) {message : Bytes} {written : Int}
    (established : ∀ standing, server.standing conn = some standing → standing.state ≠ .kConnecting) :
    Ensures (Halt.Tolerated timely) (server.sendInLoop caller conn message written) server.Quiet := by
  refine ensures_deref fun object found => ?_
  refine ensures_inLoopThread fun _ => ?_
  refine (object.sendInLoop_keeps message written).bind fun result keeps => ?_
  exact commit_keeps formed found (established object.standing (standing_of_conns found)) keeps

theorem handleWrite_quiet (formed : server.WellFormed) {written : Int}
    (established : ∀ standing, server.standing conn = some standing → standing.state ≠ .kConnecting) :
    Ensures (Halt.Tolerated timely) (server.handleWrite caller conn written) server.Quiet := by
  refine ensures_deref fun object found => ?_
  refine ensures_inLoopThread fun _ => ?_
  refine (object.handleWrite_keeps written).bind fun result keeps => ?_
  exact commit_keeps formed found (established object.standing (standing_of_conns found)) keeps

end Quietly

section Queues

variable {server : TcpServer} {functor : Functor} {standing : Standing} {functors : List Functor}

@[simp] theorem standing_queueInLoop :
    (server.queueInLoop caller loop functor).standing = server.standing := rfl

@[simp] theorem connections_queueInLoop :
    (server.queueInLoop caller loop functor).connections = server.connections := rfl

@[simp] theorem trace_queueInLoop :
    (server.queueInLoop caller loop functor).trace = server.trace := rfl

theorem agenda_queueInLoop (other : LoopId) :
    (server.queueInLoop caller loop functor).agenda other =
      server.agenda other ++ if other = loop then [functor] else [] := by
  by_cases same : other = loop
  · subst same
    simp only [agenda, queueInLoop, setLoop, Function.update_self, EventLoop.queueInLoop,
      EventLoop.wakeupUnlessIdle]
    split <;> simp [EventLoop.pushBack, EventLoop.wakeup]
  · simp [agenda, queueInLoop, setLoop, same]

/-- The server once its loop has taken the first functor of the batch. -/
def taken (server : TcpServer) (loop : LoopId) (functors : List Functor) : TcpServer :=
  server.setLoop loop { server.loops loop with functors }

theorem agenda_taken (first : (server.loops loop).functors = functor :: functors) (other : LoopId) :
    server.agenda other =
      (if other = loop then [functor] else []) ++ (server.taken loop functors).agenda other := by
  by_cases same : other = loop
  · subst same
    simp [agenda, taken, setLoop, first]
  · simp [agenda, taken, setLoop, same]

theorem errand_of_ne (other : functor.conn ≠ conn) : functor.errand conn = none := by
  cases functor <;> simp_all [Functor.errand, Functor.conn]

theorem ne_removal_of_ne (other : functor.conn ≠ conn) : functor ≠ .removeConnectionInLoop conn := by
  rintro rfl
  exact other rfl

/-- Queueing a functor where its connection lives touches the life of that connection only. -/
theorem life_queueInLoop (loop : LoopId) (functor : Functor) {life : Life}
    (there : server.standing conn = some standing) (bound : functor.conn = conn)
    (home : functor.home standing.loop = loop)
    (alive : server.life conn = some life) :
    (server.queueInLoop caller loop functor).life =
      Function.update server.life conn (some (functor.join life)) := by
  subst bound
  have joined : some (functor.join life) = (server.life functor.conn).map functor.join := by
    rw [alive, Option.map_some]
  rw [joined]
  funext conn
  by_cases same : conn = functor.conn
  · subst same
    cases functor <;> simp only [Functor.home, Functor.conn] at home there <;> subst home <;>
      simp [TcpServer.life, there, agenda_queueInLoop, List.filterMap_cons, apply_ite (List.filterMap _),
        apply_ite (List.count _), Functor.join, Functor.errand, Functor.conn]
  · rw [Function.update_of_ne same]
    have absent := errand_of_ne (Ne.symm same)
    have unasked := ne_removal_of_ne (Ne.symm same)
    simp [TcpServer.life, agenda_queueInLoop, apply_ite (List.filterMap _), apply_ite (List.count _), absent,
      unasked]

theorem standing_taken : (server.taken loop functors).standing = server.standing := rfl

theorem life_taken (first : (server.loops loop).functors = functor :: functors)
    (there : server.standing functor.conn = some standing)
    (home : functor.home standing.loop = loop) :
    server.life = Function.update (server.taken loop functors).life functor.conn
      (((server.taken loop functors).life functor.conn).map functor.lead) := by
  funext conn
  have connections : (server.taken loop functors).connections = server.connections := rfl
  have trace : (server.taken loop functors).trace = server.trace := rfl
  by_cases same : conn = functor.conn
  · subst same
    cases functor <;> simp only [Functor.home, Functor.conn] at home there <;> subst home <;>
      simp [life, standing_taken, there, agenda_taken first, List.filterMap_cons, connections, trace,
        apply_ite (List.filterMap _), apply_ite (List.count _), Functor.lead, Functor.errand,
        Functor.conn, Nat.add_comm]
  · rw [Function.update_of_ne same]
    have absent := errand_of_ne (Ne.symm same)
    have unasked := ne_removal_of_ne (Ne.symm same)
    simp [life, standing_taken, agenda_taken first, apply_ite (List.filterMap _),
      apply_ite (List.count _), absent, unasked, connections, trace]

theorem WellFormed.queueInLoop (formed : server.WellFormed)
    (there : server.standing functor.conn = some standing)
    (home : functor.home standing.loop = loop) :
    (server.queueInLoop caller loop functor).WellFormed := by
  have loops (other : LoopId) :
      ((server.queueInLoop caller loop functor).loops other).threadId = (server.loops other).threadId ∧
      ((server.queueInLoop caller loop functor).loops other).phase = (server.loops other).phase ∧
      ((server.queueInLoop caller loop functor).loops other).functors =
        (server.loops other).functors := by
    by_cases same : other = loop
    · subst same
      simp only [TcpServer.queueInLoop, setLoop, Function.update_self, EventLoop.queueInLoop,
        EventLoop.wakeupUnlessIdle]
      split <;> exact ⟨rfl, rfl, rfl⟩
    · simp [TcpServer.queueInLoop, setLoop, same]
  exact {
    thread := fun other => (loops other).1.trans (formed.thread other)
    settled := fun other idle => by
      rw [(loops other).2.1] at idle
      exact (loops other).2.2.trans (formed.settled other idle)
    busy := fun other idle => by
      rw [(loops other).2.1] at idle
      exact formed.busy other idle
    numbered := formed.numbered
    known := formed.known
    placed := by
      intro other queued found
      rw [agenda_queueInLoop] at found
      rcases List.mem_append.mp found with earlier | new
      · exact formed.placed other queued earlier
      · by_cases same : other = loop
        · rw [if_pos same, List.mem_singleton] at new
          exact ⟨standing, new ▸ there, new ▸ same ▸ home⟩
        · rw [if_neg same] at new
          cases new
    silent := formed.silent
    registered := formed.registered
    indexed := formed.indexed
    scheduled := formed.scheduled }

theorem WellFormed.running (formed : server.WellFormed)
    (first : (server.loops loop).functors = functor :: functors) :
    (server.loops loop).phase = .running := by
  by_contra idle
  rw [formed.settled loop idle] at first
  cases first

theorem WellFormed.taken (formed : server.WellFormed)
    (first : (server.loops loop).functors = functor :: functors) :
    (server.taken loop functors).WellFormed := by
  have loops (other : LoopId) :
      ((server.taken loop functors).loops other).threadId = (server.loops other).threadId ∧
      ((server.taken loop functors).loops other).phase = (server.loops other).phase := by
    simp only [TcpServer.taken, setLoop, Function.update_apply]
    split
    · next same => exact same ▸ ⟨rfl, rfl⟩
    · exact ⟨rfl, rfl⟩
  exact {
    thread := fun other => (loops other).1.trans (formed.thread other)
    settled := fun other idle => by
      rw [(loops other).2] at idle
      have apart : other ≠ loop := fun same => idle (same ▸ formed.running first)
      simpa [TcpServer.taken, setLoop, apart] using formed.settled other idle
    busy := fun other idle => by
      rw [(loops other).2] at idle
      exact formed.busy other idle
    numbered := formed.numbered
    known := formed.known
    placed := fun other queued found => by
      refine formed.placed other queued ?_
      rw [agenda_taken first]
      exact List.mem_append_right _ found
    silent := formed.silent
    registered := formed.registered
    indexed := formed.indexed
    scheduled := formed.scheduled }

end Queues

end TcpServer

end TransferServer.Net
