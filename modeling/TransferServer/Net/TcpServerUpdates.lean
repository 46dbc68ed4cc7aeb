import TransferServer.Net.Confined
import TransferServer.Net.SocketLifetime
import TransferServer.Net.TcpServerProperties

/-! Which steps can fail in `Poller::updateChannel`: none whose connection has a channel without an
index, if no channel is registered under its descriptor. -/

set_option autoImplicit false

namespace TransferServer.Net

open Base Lib

/-- The computation does not fail an assertion of `updateChannel`. -/
abbrev Spared {Value : Type} (computation : Outcome Value) (post : Value → Prop) : Prop :=
  Ensures (fun halt : Halt => halt ≠ .assertion .updateChannel) computation post

namespace TcpServer

variable {timely : Prop} {handshake : Handshake} {server before after : TcpServer}
variable {caller loop : LoopId} {conn : ConnId} {written : Int} {object : TcpConnection}

theorem spared_check {Value : Type} {which : Assertion} {condition : Prop} [Decidable condition]
    {next : Unit → Outcome Value} {post : Value → Prop} (other : which ≠ .updateChannel)
    (continued : condition → Spared (next ()) post) : Spared (assert which condition >>= next) post :=
  .guard (fun same => other (Halt.assertion.inj same)) continued

theorem spared_deref {Value : Type} {next : TcpConnection → Outcome Value} {post : Value → Prop}
    (continued : ∀ object, server.conns conn = some object → Spared (next object) post) :
    Spared (server.deref conn >>= next) post := by
  unfold deref
  cases found : server.conns conn with
  | none => exact .error nofun
  | some object => exact continued object found

theorem spared_of_inner {Value : Type} {computation : Outcome Value} {post : Value → Prop}
    (inner : Ensures Halt.Inner computation post) : Spared computation post :=
  inner.relax fun _ inner => inner.2.1

section Enlisted

/-- The tables of the loop's poller agree on the channel of the connection. -/
def Enlisted (server : TcpServer) (conn : ConnId) : Prop :=
  ∃ object pfd, server.conns conn = some object ∧
    (server.pollers object.loop).channels object.channel.fd = some (.connection conn) ∧
    0 ≤ (server.pollers object.loop).index (.connection conn) ∧
    (server.pollers object.loop).pollfds[
      ((server.pollers object.loop).index (.connection conn)).toNat]? = some pfd ∧
    (pfd.fd = object.channel.fd ∨ pfd.fd = -object.channel.fd - 1)

theorem Enlisted.setConn (enlisted : server.Enlisted conn) (found : server.conns conn = some object)
    {changed : TcpConnection} (same : changed.standing = object.standing) :
    (server.setConn conn changed).Enlisted conn := by
  obtain ⟨other, pfd, there, listed, known, entry, shown⟩ := enlisted
  rw [found] at there
  cases there
  have place : changed.loop = object.loop := congrArg Standing.loop same
  have fd : changed.channel.fd = object.channel.fd := congrArg Standing.fd same
  refine ⟨changed, pfd, conns_setConn, ?_⟩
  rw [place, fd]
  exact ⟨listed, known, entry, shown⟩

theorem Enlisted.perform (enlisted : server.Enlisted conn) :
    Spared (server.perform caller conn .updateChannel) fun after => after.Enlisted conn := by
  obtain ⟨object, pfd, found, listed, known, entry, shown⟩ := enlisted
  refine spared_deref fun present there => ?_
  rw [found] at there
  cases there
  refine spared_check nofun fun _ => ?_
  rw [Poller.updateChannel_of_listed listed known entry shown, ok_bind]
  have place := (List.getElem?_eq_some_iff.mp entry).1
  refine .ok ⟨object, ⟨if object.channel.isNoneEvent then -object.channel.fd - 1 else pfd.fd,
    object.channel.events.setWidth 16, 0⟩, found, ?_⟩
  simp only [setPoller, Function.update_self, List.getElem?_set_self place]
  refine ⟨listed, known, trivial, ?_⟩
  split
  · exact .inr rfl
  · exact shown

theorem Enlisted.commit (enlisted : server.Enlisted conn) (found : server.conns conn = some object)
    (silent : object.writeCompleteCallback = false) {result : TcpConnection × List Request}
    (keeps : object.Keeps result) :
    Spared (server.commit caller conn result) fun _ => True := by
  obtain ⟨same, _, updates⟩ := keeps
  refine (Ensures.foldlM
    (fun rest after => after.Enlisted conn ∧ ∀ request ∈ rest, request = .updateChannel)
    ⟨enlisted.setConn found same, updates silent⟩ fun request rest reached ⟨enlisted, updates⟩ => ?_).mono
      fun _ _ => trivial
  obtain rfl := updates request List.mem_cons_self
  exact enlisted.perform.mono fun after enlisted =>
    ⟨enlisted, fun later waits => updates later (List.mem_cons_of_mem _ waits)⟩

theorem established_enlisted : (server.established conn object).Enlisted conn := by
  refine ⟨{ object with state := .kConnected, channel := object.channel.enableReading },
    ⟨object.channel.fd, object.channel.enableReading.events.setWidth 16, 0⟩,
    Function.update_self .., ?_⟩
  simp only [established, setPoller, Function.update_self, Poller.addChannel]
  exact ⟨trivial, Int.natCast_nonneg _, List.getElem?_concat_length, .inl rfl⟩

end Enlisted

section Functions

theorem Indexed.of_up {standing : Standing} (formed : server.WellFormed)
    (there : server.standing conn = some standing) (up : standing.state.Up) : server.Indexed conn :=
  ⟨standing, there, formed.indexed conn standing there up.ne_kConnecting⟩

theorem removeConnectionInLoop_spared :
    Spared (server.removeConnectionInLoop caller conn) fun _ => True := by
  refine spared_check nofun fun _ => ?_
  refine spared_deref fun object _ => ?_
  exact spared_check nofun fun _ => .ok trivial

theorem removeConnection_spared : Spared (server.removeConnection caller conn) fun _ => True := by
  unfold removeConnection
  split
  · exact removeConnectionInLoop_spared
  · exact .ok trivial

theorem sendInLoop_spared {message : Bytes} (enlisted : server.Enlisted conn)
    (found : server.conns conn = some object) (silent : object.writeCompleteCallback = false) :
    Spared (server.sendInLoop caller conn message written) fun _ => True := by
  refine spared_deref fun present there => ?_
  rw [found] at there
  cases there
  refine spared_check nofun fun _ => ?_
  refine (spared_of_inner (object.sendInLoop_inner message written)).bind fun result keeps => ?_
  exact enlisted.commit found silent keeps

theorem send_spared {message : Bytes} (ready : ∀ object, server.conns conn = some object →
      object.state = .kConnected → server.Enlisted conn ∧ object.writeCompleteCallback = false) :
    Spared (server.send caller conn message written) fun _ => True := by
  refine spared_deref fun object found => ?_
  split
  · next connected =>
      obtain ⟨enlisted, silent⟩ := ready object found connected
      split
      · exact sendInLoop_spared enlisted found silent
      · exact .ok trivial
  · exact .ok trivial

theorem onConnection_spared (enlisted : server.Enlisted conn)
    (silent : ∀ object, server.conns conn = some object → object.writeCompleteCallback = false) :
    Spared (server.onConnection caller conn written) fun _ => True := by
  refine spared_deref fun object _ => ?_
  split
  · exact send_spared fun object found _ => ⟨enlisted, silent object found⟩
  · exact .ok trivial

/-- The channel of a new connection is added, and its first message finds it listed. -/
theorem connectEstablished_spared (fresh : ∀ object, server.conns conn = some object →
      object.writeCompleteCallback = false ∧
      (server.pollers object.loop).index (.connection conn) < 0 ∧
      (server.pollers object.loop).channels object.channel.fd = none) :
    Spared (server.connectEstablished caller conn written) fun _ => True := by
  refine spared_deref fun object found => ?_
  obtain ⟨silent, new, absent⟩ := fresh object found
  refine spared_check nofun fun here => ?_
  have connects : Spared object.connectEstablished fun result =>
      result = ({ object with state := .kConnected, channel := object.channel.enableReading },
        [.updateChannel]) :=
    spared_check nofun fun _ => .ok rfl
  refine connects.bind fun result called => ?_
  subst called
  have added : (server.pollers object.loop).updateChannel (.connection conn)
      object.channel.enableReading =
        .ok ((server.pollers object.loop).addChannel (.connection conn) object.channel.enableReading) := by
    unfold Poller.updateChannel
    rw [if_pos new]
    exact assert_bind_eq_ok.mpr ⟨absent, rfl⟩
  have performed : ((server.record (.established conn)).setConn conn
      { object with state := .kConnected, channel := object.channel.enableReading }).perform caller conn
        .updateChannel = .ok (server.established conn object) := by
    unfold perform deref
    rw [conns_setConn]
    exact assert_bind_eq_ok.mpr ⟨here, bind_eq_ok.mpr ⟨_, added, rfl⟩⟩
  have committed : (server.record (.established conn)).commit caller conn
      ({ object with state := .kConnected, channel := object.channel.enableReading },
        [.updateChannel]) = .ok (server.established conn object) := by
    unfold commit
    rw [List.foldlM_cons, performed]
    rfl
  rw [committed, ok_bind]
  refine onConnection_spared established_enlisted fun present there => ?_
  cases (Function.update_self ..).symm.trans there
  exact silent

theorem acceptConnection_spared {accepted : Option (Int × Bytes)}
    (unindexed : (server.pollers server.getNextLoop.1).index (.connection server.nextConnId) < 0)
    (vacant : ∀ fd ∈ accepted.map Prod.fst, 0 ≤ fd →
      (server.pollers server.getNextLoop.1).channels fd = none) :
    Spared (server.acceptConnection caller accepted written) fun _ => True := by
  refine spared_check nofun fun _ => ?_
  split
  · next connfd peerAddr =>
      split
      · next valid =>
          refine spared_check nofun fun _ => ?_
          have found : (server.admitted connfd peerAddr).conns server.nextConnId =
              some (.construct server.getNextLoop.1 connfd peerAddr false) :=
            Function.update_self ..
          change Spared (if (server.admitted connfd peerAddr).isInLoopThread caller server.getNextLoop.1
            then (server.admitted connfd peerAddr).connectEstablished caller server.nextConnId written
            else .ok ((server.admitted connfd peerAddr).queueInLoop caller server.getNextLoop.1
              (.connectEstablished server.nextConnId))) _
          split
          · refine connectEstablished_spared fun object there => ?_
            rw [found] at there
            cases there
            exact ⟨rfl, unindexed, vacant connfd rfl valid⟩
          · exact .ok trivial
      · exact .ok trivial
  · exact .ok trivial

/-- A connection without an index is connecting still, and not sent to. -/
theorem relay_spared {sender receiver : ConnId} {message : Bytes} (formed : server.WellFormed)
    (unindexed : ¬ server.Indexed receiver) :
    Spared (server.relay caller sender message receiver written) fun _ => True := by
  unfold relay
  split
  · refine spared_deref fun object _ => ?_
    split
    · exact removeConnection_spared
    · refine send_spared fun object found connected => ?_
      have there : server.standing receiver = some object.standing := standing_of_conns found
      exact absurd (Indexed.of_up formed there (.inl connected)) unindexed
  · exact .ok trivial

theorem connectDestroyed_spared (formed : server.WellFormed) (unindexed : ¬ server.Indexed conn) :
    Spared (server.connectDestroyed caller conn) fun _ => True := by
  refine spared_deref fun object found => ?_
  refine spared_check nofun fun _ => ?_
  have fails : Spared object.connectDestroyed fun _ => False := by
    refine spared_check nofun fun up => ?_
    exact absurd (Indexed.of_up formed (standing_of_conns found) up) unindexed
  exact fails.bind fun _ => False.elim

end Functions

section Steps

variable {input : Input} {action : Action}

theorem fillActiveChannels_spared {poller : Poller ChannelId} {channelOf : ChannelId → Channel}
    (numEvents : Int) (pollfds : List PollFd) :
    Spared (poller.fillActiveChannels channelOf numEvents pollfds) fun _ => True := by
  induction pollfds generalizing numEvents with
  | nil => exact .ok trivial
  | cons pfd pollfds ih =>
      unfold Poller.fillActiveChannels
      split
      · split
        · split
          · exact .error nofun
          · refine spared_check nofun fun _ => ?_
            exact (ih _).bind fun _ _ => .ok trivial
        · exact ih _
      · exact .ok trivial

theorem poll_spared {reported : Option (List (BitVec 16))} :
    Spared (server.poll loop reported) fun _ => True := by
  refine .guard nofun fun _ => ?_
  have polls : Spared ((server.pollers loop).poll server.channelOf reported) fun _ => True := by
    cases reported with
    | none => exact .ok trivial
    | some reported =>
        refine .guard nofun fun _ => ?_
        exact (fillActiveChannels_spared _ _).bind fun _ _ => .ok trivial
  exact polls.bind fun _ _ => .ok trivial

theorem runTask_spared {task : Task} (formed : server.WellFormed)
    (alive : ∀ conn, task.conn = some conn →
      ∃ standing, server.standing conn = some standing ∧ standing.state.Up)
    (unindexed : ∀ conn ∈ task.target, ¬ server.Indexed conn)
    (unborn : (server.pollers server.getNextLoop.1).index (.connection server.nextConnId) < 0)
    (vacant : task = .callback .accept .read → ∀ fd ∈ input.accepted.map Prod.fst, 0 ≤ fd →
      (server.pollers server.getNextLoop.1).channels fd = none) :
    Spared (server.runTask handshake loop task input) fun _ => True := by
  have handled {conn : ConnId} (named : task.conn = some conn) (called : task.target = some conn) :
      False := by
    obtain ⟨standing, there, up⟩ := alive conn named
    exact unindexed conn called (.of_up formed there up)
  cases task with
  | handleEvent channel => exact .ok trivial
  | callback channel called =>
      cases channel with
      | connection conn => exact (handled rfl rfl).elim
      | accept =>
          cases called with
          | read => exact acceptConnection_spared unborn (vacant rfl)
          | _ => exact .ok trivial
      | wakeup ownerLoop =>
          cases called with
          | read => exact .ok trivial
          | _ => exact .ok trivial
  | relay sender message receiver => exact relay_spared formed (unindexed receiver rfl)

theorem runFunctor_spared {functor : Functor} (formed : server.WellFormed)
    (unindexed : ¬ server.Indexed functor.conn)
    (absent : ∀ object, server.conns functor.conn = some object →
      (server.pollers object.loop).channels object.channel.fd = none)
    (sent : ∀ conn message, functor = .sendInLoop conn message →
      ∃ standing, server.standing conn = some standing ∧ standing.state ≠ .kConnecting) :
    Spared (server.runFunctor loop functor input) fun _ => True := by
  cases functor with
  | connectEstablished conn =>
      refine connectEstablished_spared fun object found => ?_
      have there := standing_of_conns found
      refine ⟨formed.silent conn object.standing there, ?_, absent object found⟩
      by_contra known
      exact unindexed ⟨object.standing, there, Int.not_lt.mp known⟩
  | removeConnectionInLoop conn => exact removeConnectionInLoop_spared
  | connectDestroyed conn => exact connectDestroyed_spared formed unindexed
  | sendInLoop conn message =>
      obtain ⟨standing, there, established⟩ := sent conn message rfl
      exact absurd ⟨standing, there, formed.indexed conn standing there established⟩ unindexed
  | writeComplete conn => exact .ok trivial

/-- A functor of `sendInLoop` waits for established connections only. -/
theorem Upheld.established_of_send {message : Bytes} {functors : List Functor}
    (upheld : server.Upheld timely)
    (first : (server.loops loop).functors = .sendInLoop conn message :: functors) :
    ∃ standing, server.standing conn = some standing ∧ standing.state ≠ .kConnecting := by
  obtain ⟨life, _, alive, _⟩ := taken_lives upheld.formed first
  have established := (upheld.valid _ _ alive).ne_kConnecting_of_send rfl
  obtain ⟨standing, there, state⟩ := standing_of_life alive
  exact ⟨standing, there, state ▸ established⟩

theorem step_spared (upheld : server.Upheld timely)
    (unindexed : ∀ conn ∈ server.target action, ¬ server.Indexed conn)
    (absent : ∀ conn ∈ server.target action, ∀ object, server.conns conn = some object →
      (server.pollers object.loop).channels object.channel.fd = none)
    (unborn : (server.pollers server.getNextLoop.1).index (.connection server.nextConnId) < 0)
    (vacant : ∀ fd ∈ server.accepts action, 0 ≤ fd →
      (server.pollers server.getNextLoop.1).channels fd = none) :
    Spared (step handshake server action) fun _ => True := by
  have formed := upheld.formed
  refine .guard nofun fun _ => ?_
  cases action with
  | poll loop reported => exact poll_spared
  | handle loop input =>
      refine .guard nofun fun dispatching => ?_
      cases first : server.todo loop with
      | nil => exact .error nofun
      | cons task tasks =>
          simp only [target, accepts, first, List.head?_cons, Option.bind_some,
            Option.some.injEq] at unindexed vacant
          have remaining : (server.setTodo loop tasks).WellFormed :=
            setTodo_wellFormed formed dispatching fun other later conn named =>
              formed.scheduled loop other conn (first ▸ List.mem_cons_of_mem task later) named
          refine runTask_spared remaining (fun conn named => ?_) unindexed unborn fun accepting => ?_
          · obtain ⟨standing, there, -, up⟩ :=
              formed.scheduled loop task conn (first ▸ List.mem_cons_self) named
            exact ⟨standing, there, up⟩
          · rw [if_pos accepting] at vacant
            exact vacant
  | prepare loop => exact .guard nofun fun _ => .ok trivial
  | swap loop => exact .guard nofun fun _ => .ok trivial
  | run loop input =>
      refine .guard nofun fun _ => ?_
      cases first : (server.loops loop).functors with
      | nil => exact .error nofun
      | cons functor functors =>
          have called : functor.conn ∈ server.target (.run loop input) := by
            simp [target, first]
          refine runFunctor_spared (formed.taken first) (unindexed _ called) (absent _ called) ?_
          rintro conn message rfl
          exact upheld.established_of_send first
  | finish loop => exact .guard nofun fun _ => .ok trivial

end Steps

end TcpServer

end TransferServer.Net
