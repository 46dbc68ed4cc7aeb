import TransferServer.Net.TcpServerTurns

/-! What no step touches: the descriptors, the loops that connections live on, and the channels that
the server is started with. Only an admission adds to the connections. -/

set_option autoImplicit false

namespace TransferServer.Net.TcpServer

open Base Lib

variable {handshake : Handshake} {server before middle after : TcpServer} {caller loop : LoopId}
variable {permits : Event → Prop} {conn : ConnId} {object : TcpConnection} {action : Action}

/-- The pollers know accepted connections only. -/
def Familiar (server : TcpServer) : Prop :=
  ∀ loop conn, server.conns conn = none → (server.pollers loop).index (.connection conn) < 0 ∧
    ∀ fd, (server.pollers loop).channels fd ≠ some (.connection conn)

/-- Nothing has moved to another descriptor or another loop, the list of connections has not grown,
and pollers have gained and lost channels of connections only. -/
structure Anchored (before after : TcpServer) : Prop where
  nextConnId : after.nextConnId = before.nextConnId
  numThreads : after.numThreads = before.numThreads
  next : after.next = before.next
  connections : after.connections.Sublist before.connections
  known : ∀ conn, after.conns conn = none ↔ before.conns conn = none
  fd : ∀ channel, (after.channelOf channel).fd = (before.channelOf channel).fd
  interest : ∀ channel, (∀ conn, channel ≠ .connection conn) →
    (after.channelOf channel).events = (before.channelOf channel).events
  place : ∀ conn later, after.standing conn = some later →
    ∃ earlier, before.standing conn = some earlier ∧ earlier.loop = later.loop
  table : ∀ loop fd channel, (after.pollers loop).channels fd = some channel →
    (before.pollers loop).channels fd = some channel ∨ ∃ conn, channel = .connection conn
  kept : ∀ loop fd channel, (∀ conn, channel ≠ .connection conn) →
    (before.pollers loop).channels fd = some channel → (after.pollers loop).channels fd = some channel
  familiar : before.Familiar → after.Familiar

theorem Anchored.refl (server : TcpServer) : server.Anchored server where
  nextConnId := rfl
  numThreads := rfl
  next := rfl
  connections := .refl _
  known := fun _ => .rfl
  fd := fun _ => rfl
  interest := fun _ _ => rfl
  place := fun _ later there => ⟨later, there, rfl⟩
  table := fun _ _ _ listed => .inl listed
  kept := fun _ _ _ _ listed => listed
  familiar := id

theorem Anchored.trans (first : before.Anchored middle) (second : middle.Anchored after) :
    before.Anchored after where
  nextConnId := second.nextConnId.trans first.nextConnId
  numThreads := second.numThreads.trans first.numThreads
  next := second.next.trans first.next
  connections := second.connections.trans first.connections
  known := fun conn => (second.known conn).trans (first.known conn)
  fd := fun channel => (second.fd channel).trans (first.fd channel)
  interest := fun channel other => (second.interest channel other).trans (first.interest channel other)
  place := by
    intro conn later there
    obtain ⟨between, there, further⟩ := second.place conn later there
    obtain ⟨earlier, there, place⟩ := first.place conn between there
    exact ⟨earlier, there, place.trans further⟩
  table := by
    intro loop fd channel listed
    exact (second.table loop fd channel listed).elim (first.table loop fd channel) .inr
  kept := fun loop fd channel other listed =>
    second.kept loop fd channel other (first.kept loop fd channel other listed)
  familiar := fun familiar => second.familiar (first.familiar familiar)

theorem Familiar.setConn (familiar : server.Familiar) {changed : TcpConnection} :
    (server.setConn conn changed).Familiar := by
  intro loop other unknown
  simp only [TcpServer.setConn, Function.update_apply] at unknown
  split at unknown
  · cases unknown
  · exact familiar loop other unknown

theorem Familiar.setPoller {poller : Poller ChannelId} (familiar : server.Familiar)
    (gains : (server.pollers loop).Gains server.Knows poller) :
    (server.setPoller loop poller).Familiar := by
  intro other conn unknown
  have stranger : ¬ server.Knows (.connection conn) := by
    rintro ⟨_, ⟨⟩, known⟩
    exact known unknown
  obtain ⟨unindexed, unlisted⟩ := familiar other conn unknown
  by_cases same : other = loop
  · subst same
    simp only [TcpServer.setPoller, Function.update_self]
    constructor
    · by_contra positive
      rcases gains.index (.connection conn) (Int.not_lt.mp positive) with earlier | ⟨fd, listed⟩ | known
      · exact Int.not_lt.mpr earlier unindexed
      · exact unlisted fd listed
      · exact stranger known
    · intro fd listed
      exact (gains.channels fd _ listed).elim (unlisted fd) stranger
  · simp only [TcpServer.setPoller, Function.update_of_ne same]
    exact ⟨unindexed, unlisted⟩

section Pieces

theorem setConn_anchored {changed : TcpConnection} (found : server.conns conn = some object)
    (place : changed.loop = object.loop) (fd : changed.channel.fd = object.channel.fd) :
    server.Anchored (server.setConn conn changed) :=
  { Anchored.refl server with
    known := by
      intro other
      simp only [setConn, Function.update_apply]
      split
      · next same => simp [same, found]
      · rfl
    fd := by
      intro channel
      cases channel with
      | connection other =>
          by_cases same : other = conn
          · subst same
            simpa [channelOf, setConn, found] using fd
          · simp [channelOf, setConn, same]
      | accept => rfl
      | wakeup loop => rfl
    interest := by
      intro channel other
      cases channel with
      | connection conn => exact absurd rfl (other conn)
      | _ => rfl
    place := by
      intro other later there
      rw [standing_setConn, Function.update_apply] at there
      split at there
      · next same =>
          cases there
          exact ⟨object.standing, same ▸ standing_of_conns found, place.symm⟩
      · exact ⟨later, there, rfl⟩
    familiar := fun familiar => familiar.setConn }

theorem setPoller_anchored {poller : Poller ChannelId}
    (gains : (server.pollers loop).Gains server.Knows poller)
    (kept : ∀ fd channel, (∀ conn, channel ≠ .connection conn) →
      (server.pollers loop).channels fd = some channel → poller.channels fd = some channel) :
    server.Anchored (server.setPoller loop poller) :=
  { Anchored.refl server with
    table := by
      intro other fd channel listed
      simp only [setPoller, Function.update_apply] at listed
      split at listed
      · next same =>
          refine same ▸ (gains.channels fd channel listed).imp_right fun known => ?_
          obtain ⟨conn, named, _⟩ := known
          exact ⟨conn, named⟩
      · exact .inl listed
    kept := by
      intro other fd channel apart listed
      simp only [setPoller, Function.update_apply]
      split
      · next same => exact kept fd channel apart (same ▸ listed)
      · exact listed
    familiar := fun familiar => familiar.setPoller gains }

theorem setLoop_anchored {object : EventLoop LoopId Functor} :
    server.Anchored (server.setLoop loop object) :=
  { Anchored.refl server with }

theorem setTodo_anchored {tasks : List Task} : server.Anchored (server.setTodo loop tasks) :=
  { Anchored.refl server with }

theorem setRevents_anchored (channel : ChannelId) (revents : Events) :
    server.Anchored (server.setRevents channel revents) := by
  cases channel with
  | wakeup loop =>
      have same (other : LoopId) :
          ((server.setRevents (.wakeup loop) revents).channelOf (.wakeup other)).fd =
              (server.channelOf (.wakeup other)).fd ∧
            ((server.setRevents (.wakeup loop) revents).channelOf (.wakeup other)).events =
              (server.channelOf (.wakeup other)).events := by
        simp only [channelOf, setRevents, Function.update_apply]
        split
        · next same => exact same ▸ ⟨rfl, rfl⟩
        · exact ⟨rfl, rfl⟩
      refine { Anchored.refl server with
        fd := fun channel => ?_
        interest := fun channel _ => ?_ }
      · cases channel with
        | wakeup other => exact (same other).1
        | _ => rfl
      · cases channel with
        | wakeup other => exact (same other).2
        | _ => rfl
  | accept =>
      refine { Anchored.refl server with
        fd := fun channel => ?_
        interest := fun channel _ => ?_ }
      · cases channel <;> rfl
      · cases channel <;> rfl
  | connection conn =>
      cases found : server.conns conn with
      | none =>
          simp only [setRevents, found]
          exact .refl server
      | some object =>
          simp only [setRevents, found]
          exact setConn_anchored found rfl rfl

theorem setAllRevents_anchored (server : TcpServer) (activeChannels : List (ChannelId × Events)) :
    server.Anchored (activeChannels.foldl
      (fun server (active : ChannelId × Events) => server.setRevents active.1 active.2) server) := by
  induction activeChannels generalizing server with
  | nil => exact .refl server
  | cons active activeChannels ih => exact (setRevents_anchored active.1 active.2).trans (ih _)

end Pieces

theorem Edit.anchored (edit : Edit caller permits before after) : before.Anchored after := by
  have stays := Anchored.refl before
  cases edit with
  | record event => exact { stays with }
  | object found _ revises => exact setConn_anchored found revises.loop revises.fd
  | poller _ gains kept =>
      refine setPoller_anchored gains fun fd channel other listed => ?_
      rcases kept fd channel listed with still | ⟨conn, same, _⟩
      · exact still
      · exact absurd same (other conn)
  | queue loop functor => exact setLoop_anchored
  | relays conn tasks => exact setTodo_anchored
  | table conn registerTable count => exact { stays with }
  | erase conn => exact { stays with connections := List.erase_sublist }

theorem Edits.anchored (edits : before.Edits caller permits after) : before.Anchored after := by
  induction edits with
  | refl => exact .refl before
  | tail _ edit ih => exact ih.trans edit.anchored

theorem Turn.anchored (turn : before.Turn action after) : before.Anchored after := by
  cases turn with
  | @poll loop reported poller activeChannels _ polled =>
      have polls : Ensures (Halt.Tolerated False) ((before.pollers loop).poll before.channelOf reported) _ :=
        pollPoller_spec reported
      obtain ⟨channels, index, _⟩ := polls.of_ok polled
      have replaced : before.Anchored (before.setPoller loop poller) :=
        setPoller_anchored ⟨fun _ _ listed => .inl (channels ▸ listed),
          fun _ positive => .inl (index ▸ positive)⟩ fun _ _ _ listed => channels ▸ listed
      exact ((replaced.trans setLoop_anchored).trans (setAllRevents_anchored _ activeChannels)).trans
        setTodo_anchored
  | dispatch => exact setTodo_anchored
  | wakeup => exact setTodo_anchored.trans setLoop_anchored
  | handle => exact setTodo_anchored
  | prepare => exact setLoop_anchored
  | swap => exact setLoop_anchored
  | run => exact setLoop_anchored
  | finish => exact setLoop_anchored

/-- Up to one admission, a step touches nothing of the kind. -/
theorem Takes.anchored (takes : before.Takes handshake action after) :
    before.Anchored after ∨ ∃ middle sockfd peerAddr, before.Anchored middle ∧
      before.accepts action = some sockfd ∧ 0 ≤ sockfd ∧
        (middle.admitted sockfd peerAddr).Anchored after := by
  obtain ⟨middle, turn, _, edits | ⟨sockfd, peerAddr, returned, valid, _, edits⟩⟩ := takes
  · exact .inl (turn.anchored.trans edits.anchored)
  · exact .inr ⟨middle, sockfd, peerAddr, turn.anchored, returned, valid, edits.anchored⟩

/-- The channels that the server is started with stay where they are. -/
theorem Takes.polled {channel : ChannelId} {fd : Int} (takes : before.Takes handshake action after)
    (other : ∀ conn, channel ≠ .connection conn) : (after.pollers loop).channels fd = some channel ↔
      (before.pollers loop).channels fd = some channel := by
  have same {first last : TcpServer} (anchored : first.Anchored last) :
      (last.pollers loop).channels fd = some channel ↔ (first.pollers loop).channels fd = some channel := by
    refine ⟨fun listed => ?_, anchored.kept loop fd channel other⟩
    rcases anchored.table loop fd channel listed with earlier | ⟨conn, named⟩
    · exact earlier
    · exact absurd named (other conn)
  rcases takes.anchored with anchored | ⟨middle, sockfd, peerAddr, earlier, _, _, later⟩
  · exact same anchored
  · have between : ((middle.admitted sockfd peerAddr).pollers loop).channels fd = some channel ↔
        (middle.pollers loop).channels fd = some channel := Iff.rfl
    exact ((same later).trans between).trans (same earlier)

theorem Takes.interest {channel : ChannelId} (takes : before.Takes handshake action after)
    (other : ∀ conn, channel ≠ .connection conn) :
    (after.channelOf channel).events = (before.channelOf channel).events := by
  rcases takes.anchored with anchored | ⟨middle, sockfd, peerAddr, earlier, _, _, later⟩
  · exact anchored.interest channel other
  · have between : ((middle.admitted sockfd peerAddr).channelOf channel).events =
        (middle.channelOf channel).events := by
      cases channel with
      | connection conn => exact absurd rfl (other conn)
      | _ => rfl
    exact ((later.interest channel other).trans between).trans (earlier.interest channel other)

end TransferServer.Net.TcpServer
