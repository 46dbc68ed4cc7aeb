import TransferServer.Net.Attention
import TransferServer.Net.TcpServerUpdates

/-! The pollers of a running server. The poller of a loop holds the channels of the connections
that are up there, and asks for what they read until they are closed. -/

set_option autoImplicit false

namespace TransferServer.Net

open Base Lib

/-- What of a connection its poller depends on. -/
def TcpConnection.outline (object : TcpConnection) : Standing × Events :=
  (object.standing, object.channel.events)

namespace TcpConnection

variable {object : TcpConnection} {message : Bytes} {returned : Int}

/-- The member leaves the interest of the connection alone, or changes it by one call. -/
def Adjusts (call : InterestCall) (object : TcpConnection) (result : TcpConnection × List Request) :
    Prop :=
  result.1.standing = object.standing ∧
    (result.2 = [] ∧ result.1.channel = object.channel ∨
      result.2 = [.updateChannel] ∧ result.1.channel = call.apply object.channel)

theorem writeCompleteRequest_of_silent (silent : object.writeCompleteCallback = false) :
    object.writeCompleteRequest = [] := by
  rw [writeCompleteRequest, silent]
  rfl

theorem write_returns (socket : Socket) (data : Bytes) (returned : Int) :
    Returns (socket.write data returned) fun _ => True :=
  (write_inner socket data returned).relax fun _ _ => trivial

theorem writeDirectly_adjusts (silent : object.writeCompleteCallback = false) :
    Returns (object.writeDirectly message returned) fun result =>
      result.1.standing = object.standing ∧ result.1.channel = object.channel ∧ result.2.2 = [] := by
  unfold writeDirectly
  split
  · refine (write_returns _ _ _).bind fun socket _ => .ok ⟨rfl, rfl, ?_⟩
    split
    · exact writeCompleteRequest_of_silent silent
    · rfl
  · exact .ok ⟨rfl, rfl, rfl⟩

theorem sendInLoop_adjusts (silent : object.writeCompleteCallback = false) :
    Returns (object.sendInLoop message returned) (object.Adjusts .enableWriting) := by
  refine (writeDirectly_adjusts silent).bind fun ⟨tried, nwrote, requests⟩ ⟨standing, channel, unasked⟩ => ?_
  dsimp only at standing channel unasked
  subst unasked
  refine .guard trivial fun _ => ?_
  split
  · cases tried.outputBuffer.append (message.drop nwrote.toNat) with
    | error halt => exact .error trivial
    | ok outputBuffer =>
        rw [ok_bind]
        dsimp only
        split
        · exact .ok ⟨standing, .inl ⟨rfl, channel⟩⟩
        · refine .ok ⟨?_, .inr ⟨rfl, congrArg Channel.enableWriting channel⟩⟩
          exact standing
  · exact .ok ⟨standing, .inl ⟨rfl, channel⟩⟩

theorem handleWrite_adjusts (silent : object.writeCompleteCallback = false) :
    Returns (object.handleWrite returned) (object.Adjusts .disableWriting) := by
  unfold handleWrite
  split
  · refine (write_returns _ _ _).bind fun socket _ => ?_
    split
    · cases object.outputBuffer.retrieve returned.toNat with
      | error halt => exact .error trivial
      | ok outputBuffer =>
          rw [ok_bind]
          dsimp only
          split
          · have requests (emptied : TcpConnection) (same : emptied.writeCompleteCallback = false) :
                Request.updateChannel :: emptied.writeCompleteRequest = [.updateChannel] := by
              rw [writeCompleteRequest_of_silent same]
            split
            · refine .ok ⟨?_, .inr ⟨requests _ silent, channel_shutdownInLoop _⟩⟩
              unfold shutdownInLoop
              split <;> rfl
            · exact .ok ⟨rfl, .inr ⟨requests _ silent, rfl⟩⟩
          · exact .ok ⟨rfl, .inl ⟨rfl, rfl⟩⟩
    · exact .ok ⟨rfl, .inl ⟨rfl, rfl⟩⟩
  · exact .ok ⟨rfl, .inl ⟨rfl, rfl⟩⟩

theorem handleRead_outline {received : Readv} : Returns (object.handleRead received) fun result =>
    result.1.outline = object.outline := by
  unfold handleRead
  cases object.inputBuffer.readFd received with
  | error halt => exact .error trivial
  | ok filled => exact .ok rfl

end TcpConnection

namespace TcpServer

variable {handshake : Handshake} {server before middle after : TcpServer} {caller loop : LoopId}
variable {conn : ConnId} {written : Int} {object changed : TcpConnection}

/-- A loop's poller, with the channels of the server. -/
def view (server : TcpServer) (loop : LoopId) : ChannelSystem ChannelId :=
  ⟨server.channelOf, server.pollers loop, []⟩

/-- Nothing that the pollers depend on has changed. -/
structure Alike (before after : TcpServer) : Prop where
  nextConnId : after.nextConnId = before.nextConnId
  outline : ∀ conn, (after.conns conn).map TcpConnection.outline =
    (before.conns conn).map TcpConnection.outline
  channel : ∀ channel, (after.channelOf channel).fd = (before.channelOf channel).fd ∧
    (after.channelOf channel).events = (before.channelOf channel).events
  channels : ∀ loop, (after.pollers loop).channels = (before.pollers loop).channels
  index : ∀ loop, (after.pollers loop).index = (before.pollers loop).index
  entries : ∀ loop, (after.pollers loop).pollfds.map (fun pfd => (pfd.fd, pfd.events)) =
    (before.pollers loop).pollfds.map fun pfd => (pfd.fd, pfd.events)
  closed : ∀ conn, .closed conn ∈ before.trace → .closed conn ∈ after.trace

theorem Alike.refl (server : TcpServer) : server.Alike server where
  nextConnId := rfl
  outline := fun _ => rfl
  channel := fun _ => ⟨rfl, rfl⟩
  channels := fun _ => rfl
  index := fun _ => rfl
  entries := fun _ => rfl
  closed := fun _ => id

theorem Alike.trans (first : before.Alike middle) (second : middle.Alike after) :
    before.Alike after where
  nextConnId := second.nextConnId.trans first.nextConnId
  outline := fun conn => (second.outline conn).trans (first.outline conn)
  channel := fun channel => ⟨(second.channel channel).1.trans (first.channel channel).1,
    (second.channel channel).2.trans (first.channel channel).2⟩
  channels := fun loop => (second.channels loop).trans (first.channels loop)
  index := fun loop => (second.index loop).trans (first.index loop)
  entries := fun loop => (second.entries loop).trans (first.entries loop)
  closed := fun conn found => second.closed conn (first.closed conn found)

/-- The pollers hold the channels of the connections that are up on their loops, and show what
these read. -/
structure Attended (server : TcpServer) : Prop where
  tabled : ∀ loop, (server.view loop).Tabled ChannelSystem.Heeded
  unborn : ∀ conn, server.nextConnId ≤ conn → server.standing conn = none ∧
    ∀ loop, (server.pollers loop).index (.connection conn) < 0
  home : ∀ loop fd conn, (server.pollers loop).channels fd = some (.connection conn) →
    ∃ standing, server.standing conn = some standing ∧ standing.loop = loop ∧ standing.fd = fd ∧
      standing.state.Up
  listed : ∀ conn standing, server.standing conn = some standing → standing.state.Up →
    (server.pollers standing.loop).channels standing.fd = some (.connection conn)
  fresh : ∀ conn standing, server.standing conn = some standing → standing.state = .kConnecting →
    (server.pollers standing.loop).index (.connection conn) < 0
  known : ∀ conn standing, server.standing conn = some standing → standing.state ≠ .kConnecting →
    0 ≤ (server.pollers standing.loop).index (.connection conn)
  opened : ∀ conn standing, server.standing conn = some standing → 0 ≤ standing.fd
  silent : ∀ conn standing, server.standing conn = some standing →
    standing.writeCompleteCallback = false
  reading : ∀ conn object, server.conns conn = some object → object.state.Up →
    .closed conn ∉ server.trace → object.channel.Reading

/-- The tables and the connections stand as they did. -/
theorem Attended.keep (attended : before.Attended)
    (tabled : ∀ loop, (after.view loop).Tabled ChannelSystem.Heeded)
    (nextConnId : after.nextConnId = before.nextConnId) (standing : after.standing = before.standing)
    (channels : ∀ loop, (after.pollers loop).channels = (before.pollers loop).channels)
    (index : ∀ loop, (after.pollers loop).index = (before.pollers loop).index)
    (reading : ∀ conn object, after.conns conn = some object → object.state.Up →
      .closed conn ∉ after.trace → object.channel.Reading) : after.Attended where
  tabled := tabled
  unborn := by simpa only [nextConnId, standing, index] using attended.unborn
  home := by simpa only [channels, standing] using attended.home
  listed := by simpa only [channels, standing] using attended.listed
  fresh := by simpa only [index, standing] using attended.fresh
  known := by simpa only [index, standing] using attended.known
  opened := by simpa only [standing] using attended.opened
  silent := by simpa only [standing] using attended.silent
  reading := reading

section Alikeness

theorem channelOf_setConn : (server.setConn conn object).channelOf =
    Function.update server.channelOf (.connection conn) object.channel := by
  funext channel
  cases channel with
  | connection other =>
      by_cases same : other = conn
      · subst same
        simp [channelOf, setConn]
      · rw [Function.update_of_ne (fun equal => same (ChannelId.connection.inj equal))]
        simp [channelOf, setConn, same]
  | accept => rfl
  | wakeup loop => rfl

theorem setConn_alike (found : server.conns conn = some object)
    (same : changed.outline = object.outline) : server.Alike (server.setConn conn changed) := by
  obtain ⟨standing, events⟩ := Prod.mk.inj same
  refine { Alike.refl server with outline := fun other => ?_, channel := fun channel => ?_ }
  · simp only [setConn, Function.update_apply]
    split
    · next equal => rw [equal, found, Option.map_some, Option.map_some, same]
    · rfl
  · rw [channelOf_setConn]
    by_cases equal : channel = .connection conn
    · subst equal
      rw [Function.update_self]
      simp only [channelOf, found]
      exact ⟨congrArg Standing.fd standing, events⟩
    · rw [Function.update_of_ne equal]
      exact ⟨rfl, rfl⟩

theorem record_alike (event : Event) : server.Alike (server.record event) :=
  { Alike.refl server with closed := fun _ found => List.mem_append_left _ found }

theorem setLoop_alike {object : EventLoop LoopId Functor} : server.Alike (server.setLoop loop object) :=
  { Alike.refl server with }

theorem queueInLoop_alike {functor : Functor} :
    server.Alike (server.queueInLoop caller loop functor) :=
  setLoop_alike

theorem setTodo_alike {tasks : List Task} : server.Alike (server.setTodo loop tasks) :=
  { Alike.refl server with }

theorem withTable_alike {registerTable : RegisterTable} {count : Int} :
    server.Alike (server.withTable registerTable count) :=
  { Alike.refl server with }

theorem setRevents_alike (server : TcpServer) (channel : ChannelId) (revents : Events) :
    server.Alike (server.setRevents channel revents) := by
  have stays := Alike.refl server
  cases channel with
  | wakeup loop =>
      refine { stays with channel := fun channel => ?_ }
      cases channel with
      | wakeup other =>
          simp only [channelOf, setRevents, Function.update_apply]
          split
          · next same => exact same ▸ ⟨rfl, rfl⟩
          · exact ⟨rfl, rfl⟩
      | accept => exact ⟨rfl, rfl⟩
      | connection conn => exact ⟨rfl, rfl⟩
  | accept =>
      refine { stays with channel := fun channel => ?_ }
      cases channel <;> exact ⟨rfl, rfl⟩
  | connection conn =>
      cases found : server.conns conn with
      | none =>
          simp only [setRevents, found]
          exact stays
      | some object =>
          simp only [setRevents, found]
          exact setConn_alike found rfl

theorem setAllRevents_alike (server : TcpServer) (activeChannels : List (ChannelId × Events)) :
    server.Alike (activeChannels.foldl
      (fun server (active : ChannelId × Events) => server.setRevents active.1 active.2) server) := by
  induction activeChannels generalizing server with
  | nil => exact .refl server
  | cons active activeChannels ih => exact (setRevents_alike server active.1 active.2).trans (ih _)

theorem Alike.standing (alike : before.Alike after) : after.standing = before.standing := by
  funext conn
  have outline := congrArg (Option.map Prod.fst) (alike.outline conn)
  rw [Option.map_map, Option.map_map] at outline
  exact outline

theorem Alike.attended (alike : before.Alike after) (attended : before.Attended) :
    after.Attended := by
  have tabled (loop : LoopId) : (after.view loop).Tabled ChannelSystem.Heeded :=
    (attended.tabled loop).similar alike.channel (alike.channels loop) (alike.index loop)
      (alike.entries loop)
  apply attended.keep tabled alike.nextConnId alike.standing alike.channels alike.index
  intro conn changed found up quiet
  have outline := alike.outline conn
  rw [found, Option.map_some, eq_comm, Option.map_eq_some_iff] at outline
  obtain ⟨object, there, same⟩ := outline
  obtain ⟨standing, events⟩ := Prod.mk.inj same
  rw [Channel.Reading, ← events]
  apply attended.reading conn object there
  · rw [show object.state = changed.state from congrArg Standing.state standing]
    exact up
  · exact fun closed => quiet (alike.closed conn closed)

end Alikeness

section Interest

theorem conns_of_standing {shown : Standing} (there : server.standing conn = some shown) :
    ∃ object, server.conns conn = some object ∧ object.standing = shown :=
  Option.map_eq_some_iff.mp there

theorem view_setPoller {poller : Poller ChannelId} (other : LoopId) :
    ((server.setConn conn changed).setPoller loop poller).view other =
      ⟨Function.update server.channelOf (.connection conn) changed.channel,
        if other = loop then poller else server.pollers other, []⟩ := by
  have channels : ((server.setConn conn changed).setPoller loop poller).channelOf =
      (server.setConn conn changed).channelOf := by
    funext channel
    cases channel <;> rfl
  rw [view, channels, channelOf_setConn]
  simp only [setPoller, setConn, Function.update_apply]

variable {call : InterestCall} {poller : Poller ChannelId}

/-- The step of the loop's channels that `updateChannel` is. -/
theorem view_update (found : server.conns conn = some object)
    (channel : changed.channel = call.apply object.channel)
    (updated : (server.pollers object.loop).updateChannel (.connection conn) changed.channel = .ok poller) :
    (server.view object.loop).step (.update (.connection conn) call) =
      .ok (((server.setConn conn changed).setPoller object.loop poller).view object.loop) := by
  have here : (server.view object.loop).channels (.connection conn) = object.channel := by
    simp only [view, channelOf, found]
  rw [view_setPoller, if_pos rfl, channel]
  rw [channel, ← here] at updated
  refine bind_eq_ok.mpr ⟨poller, updated, ?_⟩
  rw [here]
  rfl

theorem Attended.tabled_update (attended : server.Attended) (found : server.conns conn = some object)
    (channel : changed.channel = call.apply object.channel)
    (once : call = .enableReading → (server.pollers object.loop).index (.connection conn) < 0)
    (updated : (server.pollers object.loop).updateChannel (.connection conn) changed.channel = .ok poller)
    (other : LoopId) :
    (((server.setConn conn changed).setPoller object.loop poller).view other).Tabled
      ChannelSystem.Heeded := by
  have there := standing_of_conns found
  have here : (server.view object.loop).channels (.connection conn) = object.channel := by
    simp only [view, channelOf, found]
  by_cases same : other = object.loop
  · subst same
    apply ChannelSystem.step_heeded (attended.tabled object.loop) ?_ ?_ (view_update found channel updated)
    · change 0 ≤ ((server.view object.loop).channels (.connection conn)).fd
      rw [here]
      exact attended.opened conn object.standing there
    · rintro key ⟨⟩
      exact once rfl
  · rw [view_setPoller, if_neg same]
    apply (attended.tabled other).unlisted
    · rintro ⟨fd, listed⟩
      obtain ⟨standing, known, home, -⟩ := attended.home other fd conn listed
      cases there.symm.trans known
      exact same home.symm
    · have narrow := ((attended.tabled other).narrow (.connection conn)).apply call
      rw [show (server.view other).channels (.connection conn) = object.channel from here] at narrow
      exact channel ▸ narrow

theorem perform_updateChannel_eq_ok (found : server.conns conn = some object)
    (performed : server.perform caller conn .updateChannel = .ok after) : ∃ poller,
      (server.pollers object.loop).updateChannel (.connection conn) object.channel = .ok poller ∧
        after = server.setPoller object.loop poller := by
  obtain ⟨present, there, performed⟩ := bind_eq_ok.mp performed
  unfold deref at there
  rw [found] at there
  cases there
  obtain ⟨_, performed⟩ := assert_bind_eq_ok.mp performed
  obtain ⟨poller, updated, performed⟩ := bind_eq_ok.mp performed
  exact ⟨poller, updated, (Except.ok.inj performed).symm⟩

/-- A change of interest that leaves reading alone, or ends it when the connection is closed. -/
theorem Attended.perform (attended : server.Attended) (found : server.conns conn = some object)
    (begun : object.state ≠ .kConnecting) (other : call ≠ .enableReading)
    (same : changed.standing = object.standing) (channel : changed.channel = call.apply object.channel)
    (reads : .closed conn ∉ server.trace → object.channel.Reading → changed.channel.Reading) :
    Returns ((server.setConn conn changed).perform caller conn .updateChannel) Attended := by
  cases performed : (server.setConn conn changed).perform caller conn .updateChannel with
  | error halt => exact .error trivial
  | ok after =>
      obtain ⟨poller, updated, rfl⟩ := perform_updateChannel_eq_ok conns_setConn performed
      have place : changed.loop = object.loop := congrArg Standing.loop same
      have there := standing_of_conns found
      rw [place] at updated ⊢
      have tabled := attended.tabled_update found channel (fun equal => absurd equal other) updated
      have standing : ((server.setConn conn changed).setPoller object.loop poller).standing =
          server.standing := by
        change (server.setConn conn changed).standing = server.standing
        rw [standing_setConn, same]
        exact Function.update_eq_self_iff.mpr there.symm
      have unmoved : poller.channels = (server.pollers object.loop).channels ∧
          poller.index = (server.pollers object.loop).index := by
        rcases Poller.updateChannel_eq_ok updated with ⟨new, _, _⟩ | ⟨_, _, pfd, _, rfl⟩
        · exact absurd new (Int.not_lt.mpr (attended.known conn object.standing there begun))
        · exact ⟨rfl, rfl⟩
      refine .ok (attended.keep tabled rfl standing (fun loop => ?_) (fun loop => ?_) ?_)
      · simp only [setPoller, Function.update_apply]
        split
        · next equal => exact equal ▸ unmoved.1
        · rfl
      · simp only [setPoller, Function.update_apply]
        split
        · next equal => exact equal ▸ unmoved.2
        · rfl
      · intro conn' object' found' up quiet
        simp only [setPoller, setConn, Function.update_apply] at found'
        split at found'
        · next equal =>
            cases found'
            subst equal
            apply reads quiet
            apply attended.reading _ object found _ quiet
            rw [← show changed.state = object.state from congrArg Standing.state same]
            exact up
        · exact attended.reading conn' object' found' up quiet

end Interest

section Lifetime

theorem pollers_setPoller {poller : Poller ChannelId} (other : LoopId) :
    ((server.setConn conn changed).setPoller loop poller).pollers other =
      if other = loop then poller else server.pollers other := by
  simp only [setPoller, setConn, Function.update_apply]

theorem standing_setPoller {poller : Poller ChannelId} (other : ConnId) :
    ((server.setConn conn changed).setPoller loop poller).standing other =
      if other = conn then some changed.standing else server.standing other := by
  change (server.setConn conn changed).standing other = _
  rw [standing_setConn, Function.update_apply]

theorem conns_setPoller {poller : Poller ChannelId} (other : ConnId) :
    ((server.setConn conn changed).setPoller loop poller).conns other =
      if other = conn then some changed else server.conns other := by
  simp only [setPoller, setConn, Function.update_apply]

/-- A connection and the poller of its loop have changed, the poller for that connection only. -/
theorem Attended.replace {poller : Poller ChannelId} (attended : server.Attended)
    (found : server.conns conn = some object) (place : changed.loop = object.loop)
    (fd : changed.channel.fd = object.channel.fd)
    (silent : changed.writeCompleteCallback = object.writeCompleteCallback)
    (tabled : ∀ loop, (((server.setConn conn changed).setPoller object.loop poller).view loop).Tabled
      ChannelSystem.Heeded)
    (others : ∀ other ≠ conn, ∀ fd, poller.channels fd = some (.connection other) ↔
      (server.pollers object.loop).channels fd = some (.connection other))
    (index : ∀ other ≠ conn, 0 ≤ poller.index (.connection other) ↔
      0 ≤ (server.pollers object.loop).index (.connection other))
    (own : ∀ fd, poller.channels fd = some (.connection conn) ↔
      changed.channel.fd = fd ∧ changed.state.Up)
    (begun : changed.state ≠ .kConnecting) (indexed : 0 ≤ poller.index (.connection conn))
    (reads : changed.state.Up → .closed conn ∉ server.trace → changed.channel.Reading) :
    ((server.setConn conn changed).setPoller object.loop poller).Attended := by
  have there := standing_of_conns found
  refine ⟨tabled, ?_, ?_, ?_, ?_, ?_, ?_, ?_, ?_⟩
  · intro other late
    obtain ⟨none, unindexed⟩ := attended.unborn other late
    have apart : other ≠ conn := by
      rintro rfl
      cases there.symm.trans none
    rw [standing_setPoller, if_neg apart]
    refine ⟨none, fun loop => ?_⟩
    rw [pollers_setPoller]
    split
    · exact Int.not_le.mp fun positive =>
        Int.not_le.mpr (unindexed object.loop) ((index other apart).mp positive)
    · exact unindexed loop
  · intro loop fd' other listed
    rw [pollers_setPoller] at listed
    rw [standing_setPoller]
    by_cases same : other = conn
    · subst same
      rw [if_pos rfl]
      split at listed
      · next home =>
          obtain ⟨at', up⟩ := (own fd').mp listed
          exact ⟨changed.standing, rfl, place.trans home.symm, at', up⟩
      · next away =>
          obtain ⟨standing, known, home, -⟩ := attended.home loop fd' other listed
          cases there.symm.trans known
          exact absurd home.symm away
    · rw [if_neg same]
      split at listed
      · next home =>
          exact home ▸ attended.home object.loop fd' other ((others other same fd').mp listed)
      · exact attended.home loop fd' other listed
  · intro other standing known up
    rw [standing_setPoller] at known
    rw [pollers_setPoller]
    split at known
    · next same =>
        cases known
        rw [if_pos (show changed.standing.loop = object.loop from place), same]
        exact (own _).mpr ⟨rfl, up⟩
    · next apart =>
        have listed := attended.listed other standing known up
        split
        · next home => exact (others other apart _).mpr (home ▸ listed)
        · exact listed
  · intro other standing known waits
    rw [standing_setPoller] at known
    rw [pollers_setPoller]
    split at known
    · cases known
      exact absurd waits begun
    · next apart =>
        have unindexed := attended.fresh other standing known waits
        split
        · next home =>
            rw [home] at unindexed
            exact Int.not_le.mp fun positive => Int.not_le.mpr unindexed ((index other apart).mp positive)
        · exact unindexed
  · intro other standing known begun'
    rw [standing_setPoller] at known
    rw [pollers_setPoller]
    split at known
    · next same =>
        cases known
        rw [if_pos (show changed.standing.loop = object.loop from place), same]
        exact indexed
    · next apart =>
        have positive := attended.known other standing known begun'
        split
        · next home => exact (index other apart).mpr (home ▸ positive)
        · exact positive
  · intro other standing known
    rw [standing_setPoller] at known
    split at known
    · cases known
      exact (attended.opened conn object.standing there).trans_eq fd.symm
    · exact attended.opened other standing known
  · intro other standing known
    rw [standing_setPoller] at known
    split at known
    · cases known
      exact silent.trans (attended.silent conn object.standing there)
    · exact attended.silent other standing known
  · intro other object' found' up quiet
    rw [conns_setPoller] at found'
    split at found'
    · next same =>
        cases found'
        exact reads up (same ▸ quiet)
    · exact attended.reading other object' found' up quiet

/-- The channel of a new connection is added to the poller of its loop. -/
theorem Attended.establish (attended : server.Attended) (found : server.conns conn = some object)
    (connecting : object.state = .kConnecting) :
    Returns ((server.setConn conn { object with
      state := .kConnected, channel := object.channel.enableReading }).perform caller conn
        .updateChannel) Attended := by
  generalize same : ({ object with state := .kConnected, channel := object.channel.enableReading } :
    TcpConnection) = changed
  cases performed : (server.setConn conn changed).perform caller conn .updateChannel with
  | error halt => exact .error trivial
  | ok after =>
      obtain ⟨poller, updated, rfl⟩ := perform_updateChannel_eq_ok conns_setConn performed
      have state : changed.state = .kConnected := same ▸ rfl
      have place : changed.loop = object.loop := same ▸ rfl
      have fd : changed.channel.fd = object.channel.fd := same ▸ rfl
      have channel : changed.channel = InterestCall.enableReading.apply object.channel := same ▸ rfl
      have there := standing_of_conns found
      have new := attended.fresh conn object.standing there connecting
      rw [place] at updated ⊢
      change (server.pollers object.loop).updateChannel (.connection conn) changed.channel = .ok poller
        at updated
      have tabled := attended.tabled_update found channel (fun _ => new) updated
      rcases Poller.updateChannel_eq_ok updated with ⟨_, absent, rfl⟩ | ⟨known, _⟩
      · apply Ensures.ok
        apply attended.replace found place fd (same ▸ rfl) tabled
        · intro other apart fd'
          constructor
          · intro listed
            rcases Poller.listed_of_addChannel listed with ⟨⟨⟩, _⟩ | earlier
            · exact absurd rfl apart
            · exact earlier
          · intro listed
            have elsewhere : fd' ≠ changed.channel.fd := by
              rintro rfl
              cases absent.symm.trans listed
            exact (Function.update_of_ne elsewhere ..).trans listed
        · intro other apart
          have elsewhere : ChannelId.connection other ≠ .connection conn := by simpa using apart
          dsimp only [Poller.addChannel]
          rw [Function.update_of_ne elsewhere]
        · intro fd'
          constructor
          · intro listed
            rcases Poller.listed_of_addChannel listed with ⟨_, own⟩ | earlier
            · exact ⟨own, .inl state⟩
            · obtain ⟨standing, known, _, _, up⟩ := attended.home object.loop fd' conn earlier
              cases there.symm.trans known
              exact absurd connecting up.ne_kConnecting
          · rintro ⟨rfl, _⟩
            exact Function.update_self ..
        · rw [state]
          nofun
        · dsimp only [Poller.addChannel]
          rw [Function.update_self]
          exact Int.natCast_nonneg _
        · intro _ _
          rw [channel]
          exact object.channel.reading_enableReading
      · exact absurd new (Int.not_lt.mpr known)

theorem setPoller_setPoller {poller later : Poller ChannelId} :
    (server.setPoller loop poller).setPoller loop later = server.setPoller loop later := by
  simp only [setPoller, Function.update_idem]

/-- The channel of a connection leaves the poller of its loop. -/
theorem Attended.destroy (attended : server.Attended) (found : server.conns conn = some object)
    (up : object.state.Up)
    (same : changed = { object with state := .kDisconnected, channel := object.channel.disableAll })
    (performed : (server.setConn conn changed).perform caller conn .updateChannel = .ok middle)
    {poller : Poller ChannelId}
    (removed : (middle.pollers object.loop).removeChannel (.connection conn) changed.channel =
      .ok poller) : (middle.setPoller object.loop poller).Attended := by
  obtain ⟨first, updated, rfl⟩ := perform_updateChannel_eq_ok conns_setConn performed
  have place : changed.loop = object.loop := same ▸ rfl
  have fd : changed.channel.fd = object.channel.fd := same ▸ rfl
  have channel : changed.channel = InterestCall.disableAll.apply object.channel := same ▸ rfl
  have there := standing_of_conns found
  have known := attended.known conn object.standing there up.ne_kConnecting
  rw [place] at updated removed ⊢
  change (server.pollers object.loop).updateChannel (.connection conn) changed.channel = .ok first
    at updated
  have told := attended.tabled_update found channel nofun updated
  have unmoved : first.channels = (server.pollers object.loop).channels ∧
      first.index = (server.pollers object.loop).index := by
    rcases Poller.updateChannel_eq_ok updated with ⟨new, _, _⟩ | ⟨_, _, pfd, _, rfl⟩
    · exact absurd new (Int.not_lt.mpr known)
    · exact ⟨rfl, rfl⟩
  have poller' : ((server.setConn conn changed).setPoller object.loop first).pollers object.loop = first := by
    rw [pollers_setPoller, if_pos rfl]
  rw [poller'] at removed
  have stepped : (((server.setConn conn changed).setPoller object.loop first).view object.loop).step
      (.removeChannel (.connection conn)) = .ok ⟨Function.update server.channelOf (.connection conn)
        changed.channel, poller, [.connection conn]⟩ := by
    rw [view_setPoller, if_pos rfl]
    refine bind_eq_ok.mpr ⟨poller, ?_, rfl⟩
    dsimp only
    rw [Function.update_self]
    exact removed
  have shrunk := (ChannelSystem.remove_tabled (fun _ _ heeded => heeded.1.1) (told object.loop) stepped).1
  obtain ⟨_, _, _, channels, moves⟩ := Poller.removeChannel_eq_ok removed
  rw [unmoved.1] at channels
  have earlier {fd' : Int} {other : ChannelId} (listed : poller.channels fd' = some other) :
      (server.pollers object.loop).channels fd' = some other := by
    rw [channels, Function.update_apply] at listed
    split at listed
    · cases listed
    · exact listed
  have index (other : ChannelId) : poller.index other = first.index other ∨
      (∃ fd, (server.pollers object.loop).channels fd = some other) ∧
        poller.index other = first.index (.connection conn) := by
    rcases moves with ⟨_, index, _⟩ | ⟨_, _, last, _, atEnd, index, _⟩
    · exact .inl (congrFun index other)
    · rw [index]
      by_cases equal : other = last
      · subst equal
        rw [Function.update_self]
        exact .inr ⟨⟨_, earlier atEnd⟩, rfl⟩
      · exact .inl (Function.update_of_ne equal ..)
  rw [unmoved.2] at index
  rw [setPoller_setPoller]
  apply attended.replace found place fd (same ▸ rfl)
  · intro other
    by_cases equal : other = object.loop
    · subst equal
      rw [view_setPoller, if_pos rfl]
      exact shrunk.similar (fun _ => ⟨rfl, rfl⟩) rfl rfl rfl
    · have elsewhere := told other
      rw [view_setPoller, if_neg equal] at elsewhere ⊢
      exact elsewhere
  · intro other apart fd'
    rw [channels, Function.update_apply]
    split
    · next equal =>
        have own := attended.listed conn object.standing there up
        rw [equal, fd, show (server.pollers object.loop).channels object.channel.fd = _ from own]
        constructor
        · nofun
        · rintro ⟨⟩
          exact absurd rfl apart
    · rfl
  · intro other apart
    rcases index (.connection other) with kept | ⟨⟨fd', listed⟩, moved⟩
    · rw [kept]
    · obtain ⟨standing, shown, home, _, up'⟩ := attended.home object.loop fd' other listed
      have positive := attended.known other standing shown up'.ne_kConnecting
      rw [home] at positive
      rw [moved]
      exact ⟨fun _ => positive, fun _ => known⟩
  · intro fd'
    constructor
    · intro listed
      rw [channels, Function.update_apply] at listed
      split at listed
      · cases listed
      · next elsewhere =>
          obtain ⟨standing, shown, _, at', _⟩ := attended.home object.loop fd' conn listed
          cases there.symm.trans shown
          exact absurd (at'.symm.trans fd.symm) elsewhere
    · rintro ⟨_, up'⟩
      rw [same] at up'
      exact absurd rfl up'.ne_kDisconnected
  · rw [same]
    nofun
  · rcases index (.connection conn) with kept | ⟨_, moved⟩
    · rw [kept]
      exact known
    · rw [moved]
      exact known
  · intro up'
    rw [same] at up'
    exact absurd rfl up'.ne_kDisconnected

/-- A connection that has been accepted is known to no poller. -/
theorem Attended.admitted {sockfd : Int} {peerAddr : Bytes} (attended : server.Attended)
    (valid : 0 ≤ sockfd) : (server.admitted sockfd peerAddr).Attended := by
  obtain ⟨unknown, unindexed⟩ := attended.unborn server.nextConnId (Nat.le_refl _)
  have earlier {other : ConnId} {standing : Standing} (known : server.standing other = some standing) :
      other ≠ server.nextConnId := by
    rintro rfl
    cases unknown.symm.trans known
  have view (loop : LoopId) : (server.admitted sockfd peerAddr).view loop =
      { server.view loop with
        channels := Function.update (server.view loop).channels (.connection server.nextConnId)
          (.construct sockfd) } := by
    have channels : (server.admitted sockfd peerAddr).channelOf =
        Function.update server.channelOf (.connection server.nextConnId) (.construct sockfd) := by
      have added : (server.setConn server.nextConnId
          (.construct server.getNextLoop.1 sockfd peerAddr false)).channelOf =
            Function.update server.channelOf (.connection server.nextConnId) (.construct sockfd) :=
        channelOf_setConn
      rw [← added]
      funext channel
      cases channel <;> rfl
    exact congrArg (fun channels => (⟨channels, _, _⟩ : ChannelSystem ChannelId)) channels
  refine ⟨fun loop => ?_, ?_, ?_, ?_, ?_, ?_, ?_, ?_, ?_⟩
  · rw [view]
    apply (attended.tabled loop).unlisted
    · rintro ⟨fd, listed⟩
      obtain ⟨standing, known, -⟩ := attended.home loop fd server.nextConnId listed
      exact earlier known rfl
    · change Channel.kNoneEvent &&& 7 = Channel.kNoneEvent
      decide
  · intro other late
    have late : server.nextConnId + 1 ≤ other := late
    rw [standing_admitted, Function.update_of_ne (Nat.ne_of_gt late)]
    exact attended.unborn other (Nat.le_of_succ_le late)
  · intro loop fd other listed
    obtain ⟨standing, known, rest⟩ := attended.home loop fd other listed
    rw [standing_admitted, Function.update_of_ne (earlier known)]
    exact ⟨standing, known, rest⟩
  · intro other standing known up
    rw [standing_admitted, Function.update_apply] at known
    split at known
    · cases known
      exact absurd rfl up.ne_kConnecting
    · exact attended.listed other standing known up
  · intro other standing known waits
    rw [standing_admitted, Function.update_apply] at known
    split at known
    · next same =>
        cases known
        exact same ▸ unindexed _
    · exact attended.fresh other standing known waits
  · intro other standing known begun
    rw [standing_admitted, Function.update_apply] at known
    split at known
    · cases known
      exact absurd rfl begun
    · exact attended.known other standing known begun
  · intro other standing known
    rw [standing_admitted, Function.update_apply] at known
    split at known
    · cases known
      exact valid
    · exact attended.opened other standing known
  · intro other standing known
    rw [standing_admitted, Function.update_apply] at known
    split at known
    · cases known
      rfl
    · exact attended.silent other standing known
  · intro other object' found' up quiet
    have found' : Function.update server.conns server.nextConnId
        (some (.construct server.getNextLoop.1 sockfd peerAddr false)) other = some object' := found'
    rw [Function.update_apply] at found'
    split at found'
    · cases found'
      exact absurd rfl up.ne_kConnecting
    · apply attended.reading other object' found' up
      exact fun closed => quiet (List.mem_append_left _ closed)

end Lifetime

section Functions

theorem commit_nil {result : TcpConnection × List Request} (unasked : result.2 = []) :
    server.commit caller conn result = .ok (server.setConn conn result.1) := by
  rw [commit, unasked]
  rfl

theorem commit_updateChannel {result : TcpConnection × List Request}
    (asked : result.2 = [.updateChannel]) : server.commit caller conn result =
      (server.setConn conn result.1).perform caller conn .updateChannel := by
  rw [commit, asked, List.foldlM_cons]
  cases (server.setConn conn result.1).perform caller conn .updateChannel <;> rfl

theorem Attended.commit {call : InterestCall} {result : TcpConnection × List Request}
    (attended : server.Attended) (found : server.conns conn = some object)
    (begun : object.state ≠ .kConnecting) (adjusts : object.Adjusts call result)
    (other : call ≠ .enableReading)
    (reads : .closed conn ∉ server.trace → object.channel.Reading → (call.apply object.channel).Reading) :
    Returns (server.commit caller conn result) Attended := by
  obtain ⟨same, ⟨unasked, channel⟩ | ⟨asked, channel⟩⟩ := adjusts
  · rw [commit_nil unasked]
    have outline : result.1.outline = object.outline := Prod.ext same (congrArg Channel.events channel)
    exact .ok ((setConn_alike found outline).attended attended)
  · rw [commit_updateChannel asked]
    apply attended.perform found begun other same channel
    rw [channel]
    exact reads

theorem removeConnectionInLoop_alike :
    Returns (server.removeConnectionInLoop caller conn) server.Alike := by
  refine returns_check fun _ => ?_
  refine returns_deref fun object _ => ?_
  refine returns_check fun _ => .ok ?_
  have erasing : server.Alike { server with connections := server.connections.erase conn } :=
    { Alike.refl server with }
  exact (erasing.trans (record_alike (.erased conn))).trans queueInLoop_alike

theorem removeConnection_alike : Returns (server.removeConnection caller conn) server.Alike := by
  unfold removeConnection
  split
  · exact removeConnectionInLoop_alike
  · exact .ok queueInLoop_alike

theorem sendInLoop_attended {message : Bytes} (attended : server.Attended)
    (begun : ∀ object, server.conns conn = some object → object.state ≠ .kConnecting) :
    Returns (server.sendInLoop caller conn message written) Attended := by
  refine returns_deref fun object found => ?_
  refine returns_check fun _ => ?_
  have silent := attended.silent conn object.standing (standing_of_conns found)
  refine (object.sendInLoop_adjusts silent).bind fun result adjusts => ?_
  apply attended.commit found (begun object found) adjusts nofun
  exact fun _ => Channel.reading_enableWriting_iff.mpr

theorem send_attended {message : Bytes} (attended : server.Attended) :
    Returns (server.send caller conn message written) Attended := by
  refine returns_deref fun object found => ?_
  split
  · next connected =>
      split
      · apply sendInLoop_attended attended
        intro present there
        cases found.symm.trans there
        rw [connected]
        nofun
      · exact .ok (queueInLoop_alike.attended attended)
  · exact .ok attended

theorem handleWrite_attended (attended : server.Attended)
    (begun : ∀ object, server.conns conn = some object → object.state ≠ .kConnecting) :
    Returns (server.handleWrite caller conn written) Attended := by
  refine returns_deref fun object found => ?_
  refine returns_check fun _ => ?_
  have silent := attended.silent conn object.standing (standing_of_conns found)
  refine (object.handleWrite_adjusts silent).bind fun result adjusts => ?_
  apply attended.commit found (begun object found) adjusts nofun
  exact fun _ => Channel.reading_disableWriting_iff.mpr

/-- A connection that closes need not be read any more. -/
theorem handleClose_attended (attended : server.Attended) :
    Returns (server.handleClose caller conn) Attended := by
  refine returns_deref fun object found => ?_
  refine returns_check fun _ => ?_
  have closes : Returns object.handleClose fun result =>
      object.state.Up ∧ object.Adjusts .disableAll result :=
    returns_check fun up => .ok ⟨up, rfl, .inr ⟨rfl, rfl⟩⟩
  refine closes.bind fun result ⟨up, adjusts⟩ => ?_
  have recorded := (record_alike (.closed conn)).attended attended
  have found' : (server.record (.closed conn)).conns conn = some object := found
  have committed : Returns ((server.record (.closed conn)).commit caller conn result) Attended := by
    apply recorded.commit found' up.ne_kConnecting adjusts nofun
    exact fun quiet => absurd (List.mem_append_right _ (List.mem_singleton.mpr rfl)) quiet
  refine committed.bind fun middle attended => ?_
  exact removeConnection_alike.mono fun _ alike => alike.attended attended

theorem connectDestroyed_attended (attended : server.Attended) :
    Returns (server.connectDestroyed caller conn) Attended := by
  refine returns_deref fun object found => ?_
  refine returns_check fun _ => ?_
  have destroys : Returns object.connectDestroyed fun result => object.state.Up ∧ result =
      ({ object with state := .kDisconnected, channel := object.channel.disableAll },
        [.updateChannel]) :=
    returns_check fun up => .ok ⟨up, rfl⟩
  refine destroys.bind fun result ⟨up, called⟩ => ?_
  have recorded := (record_alike (.destroyed conn)).attended attended
  have found' : (server.record (.destroyed conn)).conns conn = some object := found
  rw [commit_updateChannel (congrArg Prod.snd called)]
  cases performed : ((server.record (.destroyed conn)).setConn conn result.1).perform caller conn
      .updateChannel with
  | error halt => exact .error trivial
  | ok middle =>
      rw [ok_bind]
      cases removed : (middle.pollers object.loop).removeChannel (.connection conn)
          result.1.channel with
      | error halt => exact .error trivial
      | ok poller =>
          exact .ok (recorded.destroy found' up (congrArg Prod.fst called) performed removed)

theorem onConnection_attended (attended : server.Attended) :
    Returns (server.onConnection caller conn written) Attended := by
  refine returns_deref fun object _ => ?_
  split
  · exact send_attended attended
  · exact .ok attended

theorem connectEstablished_attended (attended : server.Attended) :
    Returns (server.connectEstablished caller conn written) Attended := by
  refine returns_deref fun object found => ?_
  refine returns_check fun _ => ?_
  have connects : Returns object.connectEstablished fun result =>
      object.state = .kConnecting ∧ result =
        ({ object with state := .kConnected, channel := object.channel.enableReading },
          [.updateChannel]) :=
    returns_check fun connecting => .ok ⟨connecting, rfl⟩
  refine connects.bind fun result ⟨connecting, called⟩ => ?_
  subst called
  have recorded := (record_alike (.established conn)).attended attended
  have found' : (server.record (.established conn)).conns conn = some object := found
  rw [commit_updateChannel rfl]
  exact (recorded.establish found' connecting).bind fun _ => onConnection_attended

theorem acceptConnection_attended {accepted : Option (Int × Bytes)} (attended : server.Attended) :
    Returns (server.acceptConnection caller accepted written) Attended := by
  refine returns_check fun _ => ?_
  split
  · next connfd peerAddr =>
      split
      · next valid =>
          refine returns_check fun _ => ?_
          have admitted : (server.admitted connfd peerAddr).Attended := attended.admitted valid
          change Returns (if (server.admitted connfd peerAddr).isInLoopThread caller server.getNextLoop.1
            then (server.admitted connfd peerAddr).connectEstablished caller server.nextConnId written
            else .ok ((server.admitted connfd peerAddr).queueInLoop caller server.getNextLoop.1
              (.connectEstablished server.nextConnId))) _
          split
          · exact connectEstablished_attended admitted
          · exact .ok (queueInLoop_alike.attended admitted)
      · exact .ok attended
  · exact .ok attended

theorem onMessage_attended (attended : server.Attended) :
    Returns (server.onMessage handshake caller conn written) Attended := by
  cases found : server.conns conn with
  | none =>
      unfold onMessage deref
      rw [found]
      exact .error trivial
  | some object =>
      obtain ⟨table, count, registered⟩ : ∃ table count,
          server.registerTable.myRegister server.count object.peerAddr = (table, count) := ⟨_, _, rfl⟩
      obtain ⟨drained, draining⟩ : ∃ drained, drained = server.setConn conn
          { object with inputBuffer := object.inputBuffer.retrieveAll } := ⟨_, rfl⟩
      have emptied : server.Alike drained := draining ▸ setConn_alike found rfl
      have counted (registerTable : RegisterTable) :
          server.Alike (drained.withTable registerTable count) := emptied.trans withTable_alike
      rw [onMessage_of_conns found draining registered]
      split
      · split
        · exact send_attended ((counted _).attended attended)
        · exact .error trivial
      · split
        · split
          · exact send_attended (((counted _).trans (record_alike (.identified conn))).attended attended)
          · refine removeConnection_alike.bind fun _ removed => .ok ?_
            exact (((counted _).trans removed).trans withTable_alike).attended attended
        · exact .ok (((counted table).trans setTodo_alike).attended attended)

theorem relay_attended {sender receiver : ConnId} {message : Bytes} (attended : server.Attended) :
    Returns (server.relay caller sender message receiver written) Attended := by
  unfold relay
  split
  · refine returns_deref fun object _ => ?_
    split
    · exact removeConnection_alike.mono fun _ alike => alike.attended attended
    · exact send_attended ((record_alike (.relayed sender receiver)).attended attended)
  · exact .ok attended

theorem handleRead_attended {received : Readv} (attended : server.Attended) :
    Returns (server.handleRead handshake caller conn received written) Attended := by
  refine returns_deref fun object found => ?_
  refine object.handleRead_outline.bind fun ⟨filled, n⟩ same => ?_
  have reading : (server.setConn conn filled).Attended := (setConn_alike found same).attended attended
  dsimp only
  split
  · exact onMessage_attended reading
  · split
    · exact handleClose_attended reading
    · exact .ok reading

end Functions

section Steps

variable {input : Input} {action : Action}

theorem callback_attended {channel : ChannelId} {called : Callback} (attended : server.Attended)
    (alive : ∀ conn, channel = .connection conn →
      ∃ standing, server.standing conn = some standing ∧ standing.state.Up) :
    Returns (server.callback handshake loop channel called input) Attended := by
  cases channel with
  | connection conn =>
      have recorded := (record_alike (.handled conn called)).attended attended
      cases called with
      | close => exact handleClose_attended recorded
      | error => exact .ok recorded
      | read => exact handleRead_attended recorded
      | write =>
          apply handleWrite_attended recorded
          intro object found
          obtain ⟨standing, there, up⟩ := alive conn rfl
          cases (standing_of_conns found).symm.trans there
          exact up.ne_kConnecting
  | accept =>
      cases called with
      | read => exact acceptConnection_attended attended
      | _ => exact .ok attended
  | wakeup ownerLoop =>
      cases called with
      | read => exact .ok (setLoop_alike.attended attended)
      | _ => exact .ok attended

theorem runTask_attended {task : Task} (attended : server.Attended)
    (alive : ∀ conn, task.conn = some conn →
      ∃ standing, server.standing conn = some standing ∧ standing.state.Up) :
    Returns (server.runTask handshake loop task input) Attended := by
  cases task with
  | handleEvent channel => exact .ok (setTodo_alike.attended attended)
  | callback channel called =>
      apply callback_attended attended
      rintro conn rfl
      exact alive conn rfl
  | relay sender message receiver => exact relay_attended attended

theorem runFunctor_attended {functor : Functor} (attended : server.Attended)
    (sent : ∀ conn message, functor = .sendInLoop conn message →
      ∃ standing, server.standing conn = some standing ∧ standing.state ≠ .kConnecting) :
    Returns (server.runFunctor loop functor input) Attended := by
  cases functor with
  | connectEstablished conn => exact connectEstablished_attended attended
  | removeConnectionInLoop conn =>
      exact removeConnectionInLoop_alike.mono fun _ alike => alike.attended attended
  | connectDestroyed conn => exact connectDestroyed_attended attended
  | sendInLoop conn message =>
      apply sendInLoop_attended attended
      intro object found
      obtain ⟨standing, there, begun⟩ := sent conn message rfl
      cases (standing_of_conns found).symm.trans there
      exact begun
  | writeComplete conn => exact .ok attended

theorem poll_entries {poller : Poller ChannelId} {channelOf : ChannelId → Channel}
    {reported : Option (List (BitVec 16))} : Returns (poller.poll channelOf reported) fun result =>
      result.1.channels = poller.channels ∧ result.1.index = poller.index ∧
        result.1.pollfds.map (fun pfd => (pfd.fd, pfd.events)) =
          poller.pollfds.map fun pfd => (pfd.fd, pfd.events) := by
  cases reported with
  | none => exact .ok ⟨rfl, rfl, rfl⟩
  | some reported =>
      refine .guard trivial fun ⟨length, _⟩ => ?_
      have entries : (List.zipWith (fun (pfd : PollFd) revents => { pfd with revents }) poller.pollfds
          reported).map (fun pfd => (pfd.fd, pfd.events)) =
            poller.pollfds.map fun pfd => (pfd.fd, pfd.events) := by
        apply List.ext_getElem
        · simp [length]
        · simp
      exact (returns_any _).bind fun activeChannels _ => .ok ⟨rfl, rfl, entries⟩

theorem poll_alike {reported : Option (List (BitVec 16))} :
    Returns (server.poll loop reported) server.Alike := by
  refine .guard trivial fun _ => ?_
  refine poll_entries.bind fun ⟨poller, activeChannels⟩ ⟨channels, index, entries⟩ => .ok ?_
  have polled : server.Alike (server.setPoller loop poller) := by
    refine { Alike.refl server with
      channel := fun channel => ?_, channels := fun other => ?_, index := fun other => ?_,
      entries := fun other => ?_ }
    · cases channel <;> exact ⟨rfl, rfl⟩
    · simp only [setPoller, Function.update_apply]
      split
      · next same => exact same ▸ channels
      · rfl
    · simp only [setPoller, Function.update_apply]
      split
      · next same => exact same ▸ index
      · rfl
    · simp only [setPoller, Function.update_apply]
      split
      · next same => exact same ▸ entries
      · rfl
  exact ((polled.trans setLoop_alike).trans (setAllRevents_alike _ activeChannels)).trans setTodo_alike

theorem step_attended (upheld : server.Upheld False) (attended : server.Attended) :
    Returns (step handshake server action) Attended := by
  have formed := upheld.formed
  refine .guard trivial fun _ => ?_
  cases action with
  | poll loop reported => exact poll_alike.mono fun _ alike => alike.attended attended
  | handle loop input =>
      refine .guard trivial fun _ => ?_
      cases first : server.todo loop with
      | nil => exact .error trivial
      | cons task tasks =>
          apply runTask_attended (setTodo_alike.attended attended)
          intro conn named
          obtain ⟨standing, there, -, up⟩ :=
            formed.scheduled loop task conn (first ▸ List.mem_cons_self) named
          exact ⟨standing, there, up⟩
  | prepare loop => exact .guard trivial fun _ => .ok (setLoop_alike.attended attended)
  | swap loop => exact .guard trivial fun _ => .ok (setLoop_alike.attended attended)
  | run loop input =>
      refine .guard trivial fun _ => ?_
      cases first : (server.loops loop).functors with
      | nil => exact .error trivial
      | cons functor functors =>
          apply runFunctor_attended (setLoop_alike.attended attended)
          rintro conn message rfl
          exact upheld.established_of_send first
  | finish loop => exact .guard trivial fun _ => .ok (setLoop_alike.attended attended)

end Steps

section Runs

variable {numThreads : Nat} {wakeupFd : LoopId → Int} {acceptFd : Int} {actions : List Action}
variable {reported : List (BitVec 16)}

/-- The descriptors that the server begins with are open, and those of the base loop differ. -/
structure Opened (wakeupFd : LoopId → Int) (acceptFd : Int) : Prop where
  wakeup : ∀ loop, 0 ≤ wakeupFd loop
  accept : 0 ≤ acceptFd
  apart : acceptFd ≠ wakeupFd baseLoop

theorem start_tabled (opened : Opened wakeupFd acceptFd) (loop : LoopId) :
    ((start numThreads wakeupFd acceptFd).view loop).Tabled ChannelSystem.Heeded := by
  have idle : (Channel.construct 0).Narrow := by
    change Channel.kNoneEvent &&& 7 = Channel.kNoneEvent
    decide
  have narrow (channel : ChannelId) : ((start numThreads wakeupFd acceptFd).channelOf channel).Narrow := by
    cases channel with
    | wakeup other => exact idle.apply .enableReading
    | accept => exact idle.apply .enableReading
    | connection conn => exact idle
  have empty : (⟨(start numThreads wakeupFd acceptFd).channelOf, Poller.construct, []⟩ :
      ChannelSystem ChannelId).Tabled ChannelSystem.Heeded := by
    have constructed : (ChannelSystem.construct fun _ : ChannelId => 0).Tabled ChannelSystem.Heeded :=
      ChannelSystem.construct_tabled _
    refine ⟨narrow, nofun, nofun, constructed.slotted.of_entries rfl ?_⟩
    rintro key ⟨fd, ⟨⟩⟩
  have new : (-1 : Int) < 0 := by decide
  have woken := empty.begun (.wakeup loop)
    (Channel.enableReading_enableReading (.construct (wakeupFd loop))) new (opened.wakeup loop) rfl
  change (⟨_, if loop = baseLoop then _ else _, []⟩ : ChannelSystem ChannelId).Tabled _
  split
  · next base =>
      subst base
      apply woken.begun .accept (Channel.enableReading_enableReading (.construct acceptFd))
      · exact new
      · exact opened.accept
      · exact Function.update_of_ne opened.apart ..
  · exact woken

theorem start_attended (opened : Opened wakeupFd acceptFd) :
    (start numThreads wakeupFd acceptFd).Attended where
  tabled := start_tabled opened
  unborn := by
    intro conn _
    refine ⟨rfl, fun loop => ?_⟩
    have unknown : ((start numThreads wakeupFd acceptFd).pollers loop).index (.connection conn) = -1 := by
      simp only [start]
      split <;> simp [Poller.addChannel, Poller.construct]
    rw [unknown]
    decide
  home := fun loop fd conn listed => absurd listed (start_unlisted loop fd conn)
  listed := nofun
  fresh := nofun
  known := nofun
  opened := nofun
  silent := nofun
  reading := nofun

structure Watched (server : TcpServer) : Prop where
  upheld : server.Upheld False
  attended : server.Attended

theorem run_attended (opened : Opened wakeupFd acceptFd)
    (run : Execution (step handshake) anyAction (start numThreads wakeupFd acceptFd) actions server) :
    server.Attended := by
  have watched : server.Watched := by
    apply run.invariant ⟨start_upheld, start_attended opened⟩
    intro before action after ⟨upheld, attended⟩ _ stepped
    exact ⟨(step_upheld upheld nofun).of_ok stepped, (step_attended upheld attended).of_ok stepped⟩
  exact watched.attended

/-- In every run, the poller of a loop has one `pollfd` for each of its descriptors; the connections
among its channels are those that are up on the loop; and until such a connection is closed, its
`pollfd` has its descriptor and asks for what it reads. -/
theorem connections_polled (opened : Opened wakeupFd acceptFd)
    (run : Execution (step handshake) anyAction (start numThreads wakeupFd acceptFd) actions server) :
    (∀ loop, Set.encard {fd | (server.pollers loop).channels fd ≠ none} =
      (server.pollers loop).pollfds.length) ∧
    (∀ loop fd conn, (server.pollers loop).channels fd = some (.connection conn) ↔
      ∃ object, server.conns conn = some object ∧ object.loop = loop ∧ object.channel.fd = fd ∧
        object.state.Up) ∧
    ∀ conn object, server.conns conn = some object → object.state.Up → .closed conn ∉ server.trace →
      ∃ pfd, (server.view object.loop).pollfd? (.connection conn) = some pfd ∧
        pfd.fd = object.channel.fd ∧ pfd.events.signExtend 32 = object.channel.events ∧
        object.channel.events &&& Channel.kReadEvent = Channel.kReadEvent := by
  have attended := run_attended opened run
  refine ⟨fun loop => (attended.tabled loop).encard_channels, fun loop fd conn => ?_,
    fun conn object found up quiet => ?_⟩
  · constructor
    · intro listed
      obtain ⟨standing, there, home, at', up⟩ := attended.home loop fd conn listed
      obtain ⟨object, found, rfl⟩ := conns_of_standing there
      exact ⟨object, found, home, at', up⟩
    · rintro ⟨object, found, rfl, rfl, up⟩
      exact attended.listed conn object.standing (standing_of_conns found) up
  · have listed := attended.listed conn object.standing (standing_of_conns found) up
    have shown := (attended.tabled object.loop).pollfd_shows ⟨_, listed⟩
    have reading := attended.reading conn object found up quiet
    have channel : (server.view object.loop).channels (.connection conn) = object.channel := by
      simp only [view, channelOf, found]
    rw [channel] at shown
    obtain ⟨pfd, there, ⟨_, events⟩, heeds⟩ := shown
    exact ⟨pfd, there, heeds reading, events, reading⟩

/-- The descriptors of a process that opens the listening socket first. -/
theorem opened_low : Opened (fun loop => 4 + loop) 3 := by
  refine ⟨fun loop => ?_, by decide, by decide⟩
  omega

/-- The theorem at a connection whose output waits for its socket. -/
theorem connections_polled_waiting : ∃ (server : TcpServer) (pfd : PollFd),
    (server.pollers 1).channels 6 = some (.connection 1) ∧
      (server.view 1).pollfd? (.connection 1) = some pfd ∧ pfd.fd = 6 ∧ pfd.events.signExtend 32 = 7 := by
  have replayed : (replay (step ⟨some, fun _ => true⟩) anyAction .impossible
      (start 1 (fun loop => 4 + loop) 3)
      (iteration 0 [0, 1] [.nothing, ⟨some (6, [1]), .ok [], 0⟩] [] ++
        iteration 1 [1] [.nothing, .nothing] [⟨none, .ok [], 5⟩])).toOption.any (fun server =>
          (server.conns 1).any fun object => decide (object.loop = 1 ∧ object.channel.fd = 6 ∧
            object.state = .kConnected ∧ .closed 1 ∉ server.trace ∧ object.channel.events = 7)) = true := by
    decide +kernel
  obtain ⟨server, run, ended⟩ := Execution.exists_of_replay replayed
  obtain ⟨object, found, tested⟩ := (Option.any_eq_true _ _).mp ended
  obtain ⟨place, fd, connected, quiet, events⟩ := of_decide_eq_true tested
  obtain ⟨_, listed, attentive⟩ := connections_polled opened_low run
  obtain ⟨pfd, there, same, asked, _⟩ := attentive 1 object found (.inl connected) quiet
  rw [place] at there
  rw [events] at asked
  exact ⟨server, pfd, (listed 1 6 1).mpr ⟨object, found, place, fd, .inl connected⟩, there,
    same.trans fd, asked⟩

section Marks

variable {channel : ChannelId} {active : List (ChannelId × Events)}

/-- The connection of a channel is alive. -/
def Alive (server : TcpServer) (channel : ChannelId) : Prop :=
  ∀ conn, channel = .connection conn → server.conns conn ≠ none

theorem channelOf_setRevents {revents : Events} (alive : server.Alive channel) :
    (server.setRevents channel revents).channelOf =
      Function.update server.channelOf channel { server.channelOf channel with revents } := by
  funext other
  rw [Function.update_apply]
  cases channel with
  | wakeup loop =>
      cases other with
      | wakeup other => simp [channelOf, setRevents, Function.update_apply]
      | accept => rfl
      | connection conn => rfl
  | accept => cases other <;> rfl
  | connection conn =>
      obtain ⟨object, found⟩ := Option.ne_none_iff_exists'.mp (alive conn rfl)
      simp only [setRevents, found]
      rw [channelOf_setConn, Function.update_apply]
      simp only [channelOf, found]

theorem Alike.alive (alike : before.Alike after) (alive : before.Alive channel) : after.Alive channel := by
  intro conn same none
  have outline := alike.outline conn
  rw [none, Option.map_none, eq_comm, Option.map_eq_none_iff] at outline
  exact alive conn same outline

theorem channelOf_setAllRevents (alive : ∀ found ∈ active, server.Alive found.1) :
    (active.foldl (fun server (active : ChannelId × Events) => server.setRevents active.1 active.2)
      server).channelOf = ChannelSystem.setRevents server.channelOf active := by
  induction active generalizing server with
  | nil => rfl
  | cons first active ih =>
      rw [List.foldl_cons, ih, channelOf_setRevents (alive first List.mem_cons_self)]
      · rfl
      · intro found there
        exact (setRevents_alike server first.1 first.2).alive (alive found (List.mem_cons_of_mem _ there))

end Marks

section Dispatch

variable {poller : Poller ChannelId} {active : List (ChannelId × Events)}

/-- The server when poll(2) has answered the loop. -/
def dispatched (server : TcpServer) (loop : LoopId) (poller : Poller ChannelId)
    (active : List (ChannelId × Events)) : TcpServer :=
  (active.foldl (fun server (active : ChannelId × Events) => server.setRevents active.1 active.2)
    ((server.setPoller loop poller).setLoop loop (server.loops loop).poll)).setTodo loop
      (active.map fun active => .handleEvent active.1)

theorem poll_eq_ok (here : loop ≤ server.numThreads) (polling : (server.loops loop).phase = .polling)
    (polled : (server.pollers loop).poll server.channelOf (some reported) = .ok (poller, active)) :
    step handshake server (.poll loop (some reported)) = .ok (server.dispatched loop poller active) := by
  have inside : (Action.poll loop (some reported)).loop ≤ server.numThreads := here
  simp only [step, poll, assume, require_of inside, require_of polling, polled, ok_bind, pure_eq_ok]
  rfl

theorem todo_dispatched : (server.dispatched loop poller active).todo loop =
    (active.map Prod.fst).map .handleEvent :=
  (Function.update_self ..).trans (List.map_map ..).symm

theorem mem_todo_dispatched {channel : ChannelId} :
    .handleEvent channel ∈ (server.dispatched loop poller active).todo loop ↔
      ∃ revents, (channel, revents) ∈ active := by
  simp [todo_dispatched]

theorem channelOf_dispatched (alive : ∀ found ∈ active, server.Alive found.1) :
    (server.dispatched loop poller active).channelOf =
      ChannelSystem.setRevents server.channelOf active := by
  obtain ⟨polled, polling⟩ : ∃ polled,
      polled = (server.setPoller loop poller).setLoop loop (server.loops loop).poll := ⟨_, rfl⟩
  have same : polled.channelOf = server.channelOf := by
    subst polling
    funext channel
    cases channel <;> rfl
  have living : ∀ found ∈ active, polled.Alive found.1 := polling ▸ alive
  have marked := channelOf_setAllRevents living
  rw [same] at marked
  rw [← marked, dispatched, ← polling]
  funext channel
  cases channel <;> rfl

end Dispatch

/-- In every run, when poll(2) answers a loop, the loop goes on, to handle exactly the registered
channels that something has been reported for, each once and with what has been reported. -/
theorem poll_dispatches (opened : Opened wakeupFd acceptFd)
    (run : Execution (step handshake) anyAction (start numThreads wakeupFd acceptFd) actions server)
    (here : loop ≤ server.numThreads) (polling : (server.loops loop).phase = .polling)
    (reports : (server.view loop).Reports reported) :
    ∃ after, step handshake server (.poll loop (some reported)) = .ok after ∧
      (after.todo loop).Nodup ∧
      (∀ channel, .handleEvent channel ∈ after.todo loop ↔
        (∃ fd, (server.pollers loop).channels fd = some channel) ∧
          ∃ flags, reported[((server.pollers loop).index channel).toNat]? = some flags ∧ flags ≠ 0) ∧
      ∀ channel flags, .handleEvent channel ∈ after.todo loop →
        reported[((server.pollers loop).index channel).toNat]? = some flags →
          (after.channelOf channel).revents = flags.signExtend 32 := by
  have attended := run_attended opened run
  have tabled := (attended.tabled loop).shown
  obtain ⟨active, named⟩ : ∃ active, active = (server.view loop).active reported := ⟨_, rfl⟩
  have member {channel : ChannelId} {revents : Events} : (channel, revents) ∈ active ↔
      (server.view loop).Registered channel ∧
        ∃ flags, reported[((server.pollers loop).index channel).toNat]? = some flags ∧
          flags ≠ 0 ∧ flags.signExtend 32 = revents := named ▸ tabled.mem_active reports
  have once : (active.map Prod.fst).Nodup := by
    rw [named]
    apply (tabled.active_ordered reports).imp
    rintro channel _ before rfl
    exact Int.lt_irrefl _ before
  have alive : ∀ found ∈ active, server.Alive found.1 := by
    rintro ⟨_, revents⟩ there conn rfl none
    obtain ⟨⟨fd, listed⟩, _⟩ := member.mp there
    obtain ⟨standing, known, _⟩ := attended.home loop fd conn listed
    obtain ⟨object, found, _⟩ := conns_of_standing known
    cases found.symm.trans none
  have polled := tabled.poller_poll_eq reports
  rw [← named] at polled
  refine ⟨_, poll_eq_ok here polling polled, ?_, fun channel => ?_, fun channel flags => ?_⟩
  · rw [todo_dispatched]
    exact once.map fun _ _ => Task.handleEvent.inj
  · rw [mem_todo_dispatched]
    constructor
    · rintro ⟨revents, there⟩
      obtain ⟨registered, flags, listed, some, _⟩ := member.mp there
      exact ⟨registered, flags, listed, some⟩
    · rintro ⟨registered, flags, listed, some⟩
      exact ⟨_, member.mpr ⟨registered, flags, listed, some, rfl⟩⟩
  · rw [mem_todo_dispatched]
    rintro ⟨revents, there⟩ listed
    obtain ⟨_, flags', listed', _, same⟩ := member.mp there
    cases listed.symm.trans listed'
    rw [channelOf_dispatched alive, ChannelSystem.setRevents_of_mem once there]
    exact same.symm

/-- The theorem at a server whose listening socket is ready, and whose own wakeup is not. -/
theorem poll_dispatches_accept : ∃ server after : TcpServer,
    step ⟨some, fun _ => true⟩ server (.poll 0 (some [0, 1])) = .ok after ∧
      .handleEvent .accept ∈ after.todo 0 ∧ .handleEvent (.wakeup 0) ∉ after.todo 0 := by
  have replayed : (replay (step ⟨some, fun _ => true⟩) anyAction .impossible
      (start 1 (fun loop => 4 + loop) 3)
      (iteration 0 [0, 1] [.nothing, ⟨some (6, [1]), .ok [], 0⟩] [])).toOption.any (fun server =>
        decide (0 ≤ server.numThreads ∧ (server.loops 0).phase = .polling ∧
          (server.view 0).Reports [0, 1] ∧ (server.pollers 0).channels 3 = some .accept ∧
          (server.pollers 0).index .accept = 1 ∧ (server.pollers 0).index (.wakeup 0) = 0)) = true := by
    decide +kernel
  obtain ⟨server, run, ended⟩ := Execution.exists_of_replay replayed
  obtain ⟨here, polling, reports, listed, second, first⟩ := of_decide_eq_true ended
  obtain ⟨after, stepped, _, handled, _⟩ := poll_dispatches opened_low run here polling reports
  refine ⟨server, after, stepped, (handled .accept).mpr ⟨⟨3, listed⟩, 1, ?_, by decide⟩, ?_⟩
  · rw [second]
    rfl
  · intro waiting
    obtain ⟨_, flags, reported, some⟩ := (handled (.wakeup 0)).mp waiting
    rw [first] at reported
    cases reported
    exact some rfl

end Runs

end TcpServer

end TransferServer.Net
