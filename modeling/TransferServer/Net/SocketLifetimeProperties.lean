import TransferServer.Net.TcpServerUpdates
import TransferServer.Net.ThreadConfinement

/-! A connection is deleted after `connectDestroyed` only, so the descriptors that are open differ
from each other and from those that accept(2) returns. -/

set_option autoImplicit false

namespace TransferServer.Net

open Base Lib

namespace TcpServer

variable {timely : Prop} {server : TcpServer} {conn : ConnId} {standing : Standing} {life : Life}

theorem agenda_of_life (there : server.standing conn = some standing)
    (alive : server.life conn = some life) :
    life.agenda = (server.agenda standing.loop).filterMap (Functor.errand conn) := by
  simp only [TcpServer.life, there, Option.map_some, Option.some.injEq] at alive
  subst alive
  rfl

theorem eq_connectDestroyed_of_errand {functor : Functor}
    (errand : functor.errand conn = some .destroy) : functor = .connectDestroyed conn := by
  cases functor <;> simp_all [Functor.errand]

/-- From its entry in `connections_` until `connectDestroyed` a connection has a holder: the map,
and then the functor of `connectDestroyed`. -/
theorem Upheld.held (upheld : server.Upheld timely) (there : server.standing conn = some standing)
    (hosted : standing.loop ≤ server.numThreads) (existing : standing.state ≠ .kDisconnected) :
    server.Held conn := by
  obtain ⟨life, alive, state⟩ := life_of_standing there
  obtain ⟨entries, -⟩ := counts_of_life alive
  by_cases unlisted : life.entries = 0
  · have waiting := (upheld.valid conn life alive).waiting
    rw [if_pos (show life.entries = 0 ∧ _ from ⟨unlisted, state ▸ existing⟩)] at waiting
    have last : Errand.destroy ∈ life.agenda.filter (· ≠ .send) := by
      rw [waiting]
      exact List.mem_append_right _ (List.mem_singleton.mpr rfl)
    have queued := (List.mem_filter.mp last).1
    rw [agenda_of_life there alive] at queued
    obtain ⟨functor, found, errand⟩ := List.mem_filterMap.mp queued
    have running : standing.loop ∈ server.running := List.mem_range.mpr (Nat.lt_succ_of_le hosted)
    refine .inr ⟨standing.loop, running, .inl ⟨functor, found, ?_⟩⟩
    rw [eq_connectDestroyed_of_errand errand]
    rfl
  · refine .inl (List.count_pos_iff.mp ?_)
    rw [← entries]
    exact Nat.pos_of_ne_zero unlisted

/-- A connection that is disconnected has been through `connectDestroyed`, and is registered no
more. -/
theorem Upheld.gone (upheld : server.Upheld timely) (there : server.standing conn = some standing)
    (down : standing.state = .kDisconnected) : .destroyed conn ∈ server.trace ∧
      ∀ loop fd, (server.pollers loop).channels fd ≠ some (.connection conn) := by
  obtain ⟨life, alive, state⟩ := life_of_standing there
  obtain ⟨-, -, -, destructions⟩ := counts_of_life alive
  constructor
  · have ended := (upheld.valid conn life alive).ended
    rw [if_pos (state.trans down)] at ended
    refine List.count_pos_iff.mp ?_
    rw [← destructions, ended]
    exact Nat.one_pos
  · intro loop fd listed
    obtain ⟨other, known, -, -, up⟩ := upheld.formed.registered loop fd conn listed
    rw [there] at known
    cases known
    exact up.ne_kDisconnected down

/-- Down connections stay down. -/
theorem Proceeds.disconnected {after : TcpServer} (proceeds : server.Proceeds timely after)
    (there : server.standing conn = some standing) (down : standing.state = .kDisconnected) :
    ∃ later, after.standing conn = some later ∧ later.state = .kDisconnected := by
  obtain ⟨life, alive, state⟩ := life_of_standing there
  have kept (life next : Life) (down : life.state = .kDisconnected) (moves : life.Moves timely next) :
      next.state = .kDisconnected := by
    cases moves with
    | establish connecting => simp [connecting] at down
    | destroy => rfl
    | _ => exact down
  obtain ⟨later, alive, down⟩ := proceeds.lives.persists kept alive (state.trans down)
  obtain ⟨standing, there, state⟩ := standing_of_life alive
  exact ⟨standing, there, state.trans down⟩

end TcpServer

namespace ServerObjects

variable {objects : ServerObjects} {after : TcpServer} {conn : ConnId} {channel : ChannelId}

theorem mem_running {server : TcpServer} {loop : LoopId} :
    loop ∈ server.running ↔ loop ≤ server.numThreads := by
  simp [TcpServer.running]

theorem connection_mem_openChannels : .connection conn ∈ objects.openChannels ↔
    conn < objects.server.nextConnId ∧ objects.server.conns conn ≠ none ∧ conn ∉ objects.deleted := by
  simp [openChannels]

theorem wakeup_mem_openChannels {loop : LoopId} (running : loop ≤ objects.server.numThreads) :
    .wakeup loop ∈ objects.openChannels := by
  simp [openChannels, mem_running.mpr running]

theorem accept_mem_openChannels : .accept ∈ objects.openChannels := by
  simp [openChannels]

/-- The descriptors that are open differ, new connections are put on loops that run, and pollers
hold channels under their own descriptors. -/
structure Spread (objects : ServerObjects) : Prop where
  numbered : ∀ conn, objects.server.nextConnId ≤ conn → objects.server.conns conn = none
  born : ∀ conn ∈ objects.deleted, objects.server.conns conn ≠ none
  familiar : objects.server.Familiar
  distinct : objects.openFds.Nodup
  hosted : ∀ conn standing, objects.server.standing conn = some standing →
    standing.loop ≤ objects.server.numThreads
  turn : objects.server.numThreads = 0 ∨ objects.server.next < objects.server.numThreads
  tabled : ∀ loop fd channel, (objects.server.pollers loop).channels fd = some channel →
    ((channel = .wakeup loop ∨ channel = .accept) ∧ (objects.server.channelOf channel).fd = fd) ∨
      ∃ conn, channel = .connection conn

theorem Spread.getNextLoop_le (spread : objects.Spread) :
    objects.server.getNextLoop.1 ≤ objects.server.numThreads := by
  have turn := spread.turn
  unfold TcpServer.getNextLoop
  split
  · exact Nat.zero_le _
  · next pooled => exact turn.resolve_left pooled

theorem Spread.getNextLoop_turn (spread : objects.Spread) :
    objects.server.numThreads = 0 ∨ objects.server.getNextLoop.2 < objects.server.numThreads := by
  have turn := spread.turn
  unfold TcpServer.getNextLoop
  split
  · next alone => exact .inl alone
  · dsimp only
    split <;> omega

theorem openChannels_anchored (anchored : objects.server.Anchored after) :
    (⟨after, objects.deleted⟩ : ServerObjects).openChannels = objects.openChannels := by
  simp only [openChannels, TcpServer.running, anchored.numThreads, anchored.nextConnId, ne_eq,
    anchored.known]

theorem openFds_anchored (anchored : objects.server.Anchored after) :
    (⟨after, objects.deleted⟩ : ServerObjects).openFds = objects.openFds := by
  simp only [openFds, openChannels_anchored anchored, anchored.fd]

theorem Spread.anchored (spread : objects.Spread) (anchored : objects.server.Anchored after) :
    (⟨after, objects.deleted⟩ : ServerObjects).Spread where
  numbered := by
    intro conn late
    exact (anchored.known conn).mpr (spread.numbered conn (anchored.nextConnId ▸ late))
  born := fun conn gone unknown => spread.born conn gone ((anchored.known conn).mp unknown)
  familiar := anchored.familiar spread.familiar
  distinct := by
    rw [openFds_anchored anchored]
    exact spread.distinct
  hosted := by
    intro conn later there
    obtain ⟨earlier, known, place⟩ := anchored.place conn later there
    have hosted := spread.hosted conn earlier known
    rw [place, ← anchored.numThreads] at hosted
    exact hosted
  turn := by
    rw [anchored.numThreads, anchored.next]
    exact spread.turn
  tabled := by
    intro loop fd channel listed
    rcases anchored.table loop fd channel listed with earlier | connection
    · rw [anchored.fd]
      exact spread.tabled loop fd channel earlier
    · exact .inr connection

theorem openChannels_admitted {sockfd : Int} {peerAddr : Bytes} (spread : objects.Spread) :
    (⟨objects.server.admitted sockfd peerAddr, objects.deleted⟩ : ServerObjects).openChannels =
      objects.openChannels ++ [.connection objects.server.nextConnId] := by
  have unborn := spread.numbered objects.server.nextConnId (Nat.le_refl _)
  have kept : objects.server.nextConnId ∉ objects.deleted := fun gone => spread.born _ gone unborn
  have conns (other : ConnId) : (objects.server.admitted sockfd peerAddr).conns other =
      Function.update objects.server.conns objects.server.nextConnId
        (some (.construct objects.server.getNextLoop.1 sockfd peerAddr false)) other := rfl
  have nextConnId : (objects.server.admitted sockfd peerAddr).nextConnId =
    objects.server.nextConnId + 1 := rfl
  have earlier : (List.range objects.server.nextConnId).filter (fun conn =>
        (objects.server.admitted sockfd peerAddr).conns conn ≠ none ∧ conn ∉ objects.deleted) =
      (List.range objects.server.nextConnId).filter (fun conn =>
        objects.server.conns conn ≠ none ∧ conn ∉ objects.deleted) := by
    refine List.filter_congr fun conn old => ?_
    rw [conns, Function.update_of_ne (Nat.ne_of_lt (List.mem_range.mp old))]
  have added : [objects.server.nextConnId].filter (fun conn =>
        (objects.server.admitted sockfd peerAddr).conns conn ≠ none ∧ conn ∉ objects.deleted) =
      [objects.server.nextConnId] := by
    simp [conns, kept]
  have running : (objects.server.admitted sockfd peerAddr).running = objects.server.running := rfl
  simp only [openChannels, nextConnId, List.range_succ, List.filter_append, earlier, added, running,
    List.map_append, List.map_cons, List.map_nil, List.cons_append, List.append_assoc]

theorem openFds_admitted {sockfd : Int} {peerAddr : Bytes} (spread : objects.Spread) :
    (⟨objects.server.admitted sockfd peerAddr, objects.deleted⟩ : ServerObjects).openFds =
      objects.openFds ++ [sockfd] := by
  have unborn := spread.numbered objects.server.nextConnId (Nat.le_refl _)
  have unchanged : ∀ channel ∈ objects.openChannels,
      ((objects.server.admitted sockfd peerAddr).channelOf channel).fd =
        (objects.server.channelOf channel).fd := by
    intro channel opened
    cases channel with
    | connection conn =>
        have apart : conn ≠ objects.server.nextConnId :=
          Nat.ne_of_lt (connection_mem_openChannels.mp opened).1
        simp [TcpServer.channelOf, TcpServer.admitted, TcpServer.record, TcpServer.setConn, apart]
    | accept => rfl
    | wakeup loop => rfl
  have new : ((objects.server.admitted sockfd peerAddr).channelOf
      (.connection objects.server.nextConnId)).fd = sockfd := by
    simp [TcpServer.channelOf, TcpServer.admitted, TcpServer.record, TcpServer.setConn,
      TcpConnection.construct, Channel.construct]
  simp only [openFds, openChannels_admitted spread, List.map_append, List.map_cons, List.map_nil, new]
  rw [List.map_congr_left unchanged]

/-- A connection is admitted under a descriptor that was not open. -/
theorem Spread.admitted {sockfd : Int} {peerAddr : Bytes} (spread : objects.Spread)
    (closed : sockfd ∉ objects.openFds) :
    (⟨objects.server.admitted sockfd peerAddr, objects.deleted⟩ : ServerObjects).Spread where
  numbered := by
    intro conn late
    have late : objects.server.nextConnId + 1 ≤ conn := late
    have earlier := spread.numbered conn (Nat.le_of_succ_le late)
    have apart : conn ≠ objects.server.nextConnId := Nat.ne_of_gt late
    simpa [TcpServer.admitted, TcpServer.record, TcpServer.setConn, apart] using earlier
  born := by
    intro conn gone
    simp only [TcpServer.admitted, TcpServer.record, TcpServer.setConn, Function.update_apply]
    split
    · exact Option.some_ne_none _
    · exact spread.born conn gone
  familiar := by
    intro loop conn unknown
    simp only [TcpServer.admitted, TcpServer.record, TcpServer.setConn, Function.update_apply] at unknown
    split at unknown
    · cases unknown
    · exact spread.familiar loop conn unknown
  distinct := by
    rw [openFds_admitted spread]
    refine List.Nodup.append spread.distinct (List.nodup_singleton sockfd) ?_
    exact List.disjoint_singleton.mpr closed
  hosted := by
    intro conn standing there
    rw [TcpServer.standing_admitted, Function.update_apply] at there
    split at there
    · cases there
      exact spread.getNextLoop_le
    · exact spread.hosted conn standing there
  turn := spread.getNextLoop_turn
  tabled := by
    intro loop fd channel listed
    rcases spread.tabled loop fd channel listed with ⟨own, same⟩ | connection
    · refine .inl ⟨own, ?_⟩
      rcases own with rfl | rfl <;> exact same
    · exact .inr connection

/-- A deleted connection only gives up its descriptor. -/
theorem Spread.delete (spread : objects.Spread) (there : objects.server.conns conn ≠ none) :
    ({ objects with deleted := conn :: objects.deleted } : ServerObjects).Spread :=
  { spread with
    born := by
      intro other gone
      rcases List.mem_cons.mp gone with rfl | earlier
      · exact there
      · exact spread.born other earlier
    distinct := by
      refine spread.distinct.sublist (List.Sublist.map _ ?_)
      refine List.Sublist.append_left (List.Sublist.map _ ?_) _
      refine List.monotone_filter_right _ fun other kept => ?_
      simp only [List.mem_cons, not_or, decide_eq_true_eq] at kept ⊢
      exact ⟨kept.1, kept.2.2⟩ }

section Invariants

variable {handshake : Handshake} {object : TcpConnection} {loop : LoopId} {fd : Int}

structure Sound (objects : ServerObjects) : Prop where
  homely : objects.server.Homely
  spread : objects.Spread
  ended : ∀ conn ∈ objects.deleted, ∃ standing,
    objects.server.standing conn = some standing ∧ standing.state = .kDisconnected

theorem Sound.upheld (sound : objects.Sound) : objects.server.Upheld False := sound.homely.upheld

theorem Sound.open_of_conns (sound : objects.Sound) (found : objects.server.conns conn = some object)
    (kept : conn ∉ objects.deleted) : .connection conn ∈ objects.openChannels := by
  have known : objects.server.conns conn ≠ none := by simp [found]
  have born : conn < objects.server.nextConnId := by
    by_contra late
    exact known (sound.spread.numbered conn (Nat.le_of_not_lt late))
  exact connection_mem_openChannels.mpr ⟨born, known, kept⟩

/-- A poller holds the channels of open descriptors, each under its own. -/
theorem Sound.listed (sound : objects.Sound) (running : loop ≤ objects.server.numThreads)
    (listed : (objects.server.pollers loop).channels fd = some channel) :
    channel ∈ objects.openChannels ∧ (objects.server.channelOf channel).fd = fd := by
  rcases sound.spread.tabled loop fd channel listed with ⟨own, same⟩ | ⟨conn, rfl⟩
  · refine ⟨?_, same⟩
    rcases own with rfl | rfl
    · exact wakeup_mem_openChannels running
    · exact accept_mem_openChannels
  · obtain ⟨standing, there, -, same, up⟩ := sound.upheld.formed.registered loop fd conn listed
    have kept : conn ∉ objects.deleted := by
      intro gone
      obtain ⟨other, known, down⟩ := sound.ended conn gone
      rw [there] at known
      cases known
      exact up.ne_kDisconnected down
    obtain ⟨object, found, rfl⟩ := Option.map_eq_some_iff.mp there
    refine ⟨sound.open_of_conns found kept, ?_⟩
    simp only [TcpServer.channelOf, found]
    exact same

theorem Sound.eq_of_fd (sound : objects.Sound) {other : ChannelId}
    (opened : channel ∈ objects.openChannels) (opened' : other ∈ objects.openChannels)
    (same : (objects.server.channelOf channel).fd = (objects.server.channelOf other).fd) :
    channel = other :=
  List.inj_on_of_nodup_map sound.spread.distinct opened opened' same

/-- The descriptor of a connection whose channel has no index yet is in no table. -/
theorem Sound.absent (sound : objects.Sound) (found : objects.server.conns conn = some object)
    (kept : conn ∉ objects.deleted)
    (new : (objects.server.pollers object.loop).index (.connection conn) < 0)
    (running : loop ≤ objects.server.numThreads) :
    (objects.server.pollers loop).channels object.channel.fd = none := by
  cases listed : (objects.server.pollers loop).channels object.channel.fd with
  | none => rfl
  | some channel =>
      obtain ⟨opened, same⟩ := sound.listed running listed
      have own : (objects.server.channelOf (.connection conn)).fd = object.channel.fd := by
        simp [TcpServer.channelOf, found]
      obtain rfl := sound.eq_of_fd opened (sound.open_of_conns found kept) (same.trans own.symm)
      obtain ⟨standing, there, -, -, up⟩ := sound.upheld.formed.registered loop _ conn listed
      have indexed := sound.upheld.formed.indexed conn standing there up.ne_kConnecting
      rw [TcpServer.standing_of_conns found] at there
      cases there
      exact absurd new (Int.not_lt.mpr indexed)

theorem step_eq_ok {action : TcpServer.Action} {later : ServerObjects}
    (stepped : objects.step handshake (.step action) = .ok later) :
    (∀ conn ∈ objects.server.target action, conn ∉ objects.deleted) ∧
      ∃ server, objects.server.step handshake action = .ok server ∧
        later = ⟨server, objects.deleted⟩ := by
  simp only [ServerObjects.step] at stepped
  split at stepped
  · cases stepped
  · next alive =>
      obtain ⟨server, stepped, done⟩ := bind_eq_ok.mp stepped
      refine ⟨fun conn called gone => alive ⟨conn, called, gone⟩, server, stepped, ?_⟩
      exact (Except.ok.inj done).symm

theorem Sound.step (sound : objects.Sound) {action : TcpServer.Action} {server : TcpServer}
    (admitted : objects.Admits (.step action))
    (stepped : objects.server.step handshake action = .ok server) :
    (⟨server, objects.deleted⟩ : ServerObjects).Sound where
  homely := TcpServer.step_homely sound.homely stepped
  spread := by
    rcases (sound.homely.takes stepped).anchored with
      anchored | ⟨middle, sockfd, peerAddr, earlier, returned, valid, later⟩
    · exact sound.spread.anchored anchored
    · have closed := admitted sockfd returned valid
      rw [← openFds_anchored earlier] at closed
      exact ((sound.spread.anchored earlier).admitted closed).anchored later
  ended := by
    intro conn gone
    obtain ⟨standing, there, down⟩ := sound.ended conn gone
    have specified : Ensures (Halt.Tolerated False) (objects.server.step handshake action) _ :=
      TcpServer.step_spec sound.upheld.formed sound.upheld.valid nofun
    exact (specified.of_ok stepped).1.disconnected there down

/-- A connection is deleted once nobody holds it, hence after `connectDestroyed`. -/
theorem Sound.delete (sound : objects.Sound) (there : objects.server.conns conn ≠ none)
    (unheld : ¬ objects.server.Held conn) :
    ({ objects with deleted := conn :: objects.deleted } : ServerObjects).Sound where
  homely := sound.homely
  spread := sound.spread.delete there
  ended := by
    intro other gone
    rcases List.mem_cons.mp gone with rfl | earlier
    · obtain ⟨object, found⟩ := Option.ne_none_iff_exists'.mp there
      have known := TcpServer.standing_of_conns found
      refine ⟨object.standing, known, ?_⟩
      by_contra existing
      exact unheld (sound.upheld.held known (sound.spread.hosted _ _ known) existing)
    · exact sound.ended other earlier

theorem step_sound {action : ObjectAction} (sound : objects.Sound) (admitted : objects.Admits action) :
    Returns (objects.step handshake action) Sound := by
  cases action with
  | step action =>
      cases stepped : objects.step handshake (.step action) with
      | error halt => exact .error trivial
      | ok later =>
          obtain ⟨-, server, moved, rfl⟩ := step_eq_ok stepped
          exact .ok (sound.step admitted moved)
  | delete conn => exact .guard trivial fun ⟨there, _, unheld⟩ => .ok (sound.delete there unheld)

theorem start_sound {numThreads : Nat} {wakeupFd : LoopId → Int} {acceptFd : Int}
    (opened : (acceptFd :: (List.range (numThreads + 1)).map wakeupFd).Nodup) :
    (start numThreads wakeupFd acceptFd).Sound where
  homely := TcpServer.start_homely
  spread := {
    numbered := fun _ _ => rfl
    born := nofun
    familiar := by
      intro loop conn _
      simp only [start, TcpServer.start]
      split <;> simp only [Poller.addChannel, Poller.construct, Function.update_apply] <;> grind
    distinct := by
      have fds : (start numThreads wakeupFd acceptFd).openFds =
          acceptFd :: (List.range (numThreads + 1)).map wakeupFd := by
        simp [openFds, openChannels, start, TcpServer.start, TcpServer.running, TcpServer.channelOf,
          Channel.enableReading, Channel.construct]
      rw [fds]
      exact opened
    hosted := nofun
    turn := Nat.eq_zero_or_pos numThreads
    tabled := by
      intro loop fd channel listed
      have wakeup (listed : (Poller.construct.addChannel (.wakeup loop)
          ((Channel.construct (wakeupFd loop)).enableReading)).channels fd = some channel) :
          channel = .wakeup loop ∧ wakeupFd loop = fd :=
        (Poller.listed_of_addChannel listed).resolve_right fun found => by cases found
      simp only [start, TcpServer.start] at listed
      split at listed
      · rcases Poller.listed_of_addChannel listed with ⟨rfl, same⟩ | earlier
        · exact .inl ⟨.inr rfl, same⟩
        · obtain ⟨rfl, same⟩ := wakeup earlier
          exact .inl ⟨.inl rfl, same⟩
      · obtain ⟨rfl, same⟩ := wakeup listed
        exact .inl ⟨.inl rfl, same⟩ }
  ended := nofun

/-- A descriptor that is not open is in no table. -/
theorem Sound.vacant (sound : objects.Sound) (closed : fd ∉ objects.openFds)
    (running : loop ≤ objects.server.numThreads) : (objects.server.pollers loop).channels fd = none := by
  cases listed : (objects.server.pollers loop).channels fd with
  | none => rfl
  | some channel =>
      obtain ⟨opened, same⟩ := sound.listed running listed
      exact absurd (List.mem_map.mpr ⟨channel, opened, same⟩) closed

/-- A step fails in `updateChannel` for a channel with an index only. -/
theorem Sound.indexed_of_failed (sound : objects.Sound) {action : TcpServer.Action}
    (admitted : objects.Admits (.step action))
    (failed : objects.step handshake (.step action) = .error (.assertion .updateChannel)) :
    ∃ conn ∈ objects.server.target action, objects.server.Indexed conn := by
  by_contra none
  have unindexed (conn : ConnId) (called : conn ∈ objects.server.target action) :
      ¬ objects.server.Indexed conn :=
    fun indexed => none ⟨conn, called, indexed⟩
  simp only [ServerObjects.step] at failed
  split at failed
  · cases failed
  · next alive =>
      have spared : Spared (objects.server.step handshake action) fun _ => True := by
        refine TcpServer.step_spared sound.upheld unindexed (fun conn called object found => ?_) ?_ ?_
        · have there := TcpServer.standing_of_conns found
          refine sound.absent found (fun gone => alive ⟨conn, called, gone⟩) ?_
            (sound.spread.hosted conn _ there)
          by_contra known
          exact unindexed conn called ⟨object.standing, there, Int.not_lt.mp known⟩
        · exact (sound.spread.familiar _ _ (sound.spread.numbered _ (Nat.le_refl _))).1
        · exact fun fd returned valid =>
            sound.vacant (admitted fd returned valid) sound.spread.getNextLoop_le
      exact (spared.bind fun _ _ => .ok trivial : Spared _ fun _ => True).of_error failed rfl

end Invariants

section Runs

variable {handshake : Handshake} {numThreads : Nat} {wakeupFd : LoopId → Int} {acceptFd : Int}
variable {actions : List ObjectAction}

theorem run_sound (opened : (acceptFd :: (List.range (numThreads + 1)).map wakeupFd).Nodup)
    (run : Execution (step handshake) Admits (start numThreads wakeupFd acceptFd) actions objects) :
    objects.Sound :=
  run.ensures Sound (start_sound opened) fun _ _ => step_sound

/-- In every run that starts with different descriptors, a connection is deleted, and its socket
closed, after `connectDestroyed` has taken its channel out of the poller. The channels in the pollers
differ in their descriptors, none is registered under the descriptor of a channel still to be added,
and where a step fails an assertion of `updateChannel`, the channel has been added before. -/
theorem closed_after_removal
    (opened : (acceptFd :: (List.range (numThreads + 1)).map wakeupFd).Nodup)
    (run : Execution (step handshake) Admits (start numThreads wakeupFd acceptFd) actions objects) :
    (∀ conn ∈ objects.deleted, .destroyed conn ∈ objects.server.trace ∧
      ∀ loop fd, (objects.server.pollers loop).channels fd ≠ some (.connection conn)) ∧
    (∀ loop ∈ objects.server.running, ∀ other ∈ objects.server.running, ∀ fd fd' channel channel',
      (objects.server.pollers loop).channels fd = some channel →
      (objects.server.pollers other).channels fd' = some channel' →
      (objects.server.channelOf channel).fd = (objects.server.channelOf channel').fd →
        channel = channel') ∧
    (∀ conn object, objects.server.conns conn = some object → conn ∉ objects.deleted →
      (objects.server.pollers object.loop).index (.connection conn) < 0 →
        (objects.server.pollers object.loop).channels object.channel.fd = none) ∧
    ∀ action, objects.Admits (.step action) →
      objects.step handshake (.step action) = .error (.assertion .updateChannel) →
        ∃ conn ∈ objects.server.target action, objects.server.Indexed conn := by
  have sound := run_sound opened run
  refine ⟨fun conn gone => ?_, ?_, ?_, fun action => sound.indexed_of_failed⟩
  · obtain ⟨standing, there, down⟩ := sound.ended conn gone
    exact sound.upheld.gone there down
  · intro loop running other running' fd fd' channel channel' listed listed' same
    have opened := (sound.listed (mem_running.mp running) listed).1
    exact sound.eq_of_fd opened (sound.listed (mem_running.mp running') listed').1 same
  · intro conn object found kept new
    exact sound.absent found kept new (sound.spread.hosted conn _ (TcpServer.standing_of_conns found))

/-- The theorem at a second connection under the descriptor of the first, which has been deleted. -/
theorem closed_after_removal_reused : ∃ objects : ServerObjects,
    (1 ∈ objects.deleted ∧ (objects.server.pollers 1).channels 6 = some (.connection 2)) ∧
      .destroyed 1 ∈ objects.server.trace ∧
      ∀ loop fd, (objects.server.pollers loop).channels fd ≠ some (.connection 1) := by
  let accepting : Input := ⟨some (6, [1]), .ok [], 0⟩
  let actions : List ObjectAction :=
    (TcpServer.iteration 0 [0, 1] [.nothing, accepting] [] ++
      TcpServer.iteration 1 [1] [.nothing, .nothing] [⟨none, .ok [], 21⟩] ++
      TcpServer.iteration 1 [0, 1] [.nothing, .nothing] [] ++
      TcpServer.iteration 0 [1, 0] [.nothing, .nothing] [.nothing] ++
      TcpServer.iteration 1 [1, 0] [.nothing, .nothing] [.nothing]).map .step ++
    .delete 1 :: (TcpServer.iteration 0 [0, 1] [.nothing, accepting] [] ++
      TcpServer.iteration 1 [1] [.nothing, .nothing] [⟨none, .ok [], 21⟩]).map .step
  have replayed : (replay (step ⟨some, fun _ => true⟩) Admits .impossible
      (start 1 (fun loop => 4 + loop) 3) actions).toOption.any (fun objects =>
        decide (1 ∈ objects.deleted ∧
          (objects.server.pollers 1).channels 6 = some (.connection 2))) = true := by
    decide +kernel
  obtain ⟨objects, run, ended⟩ := Execution.exists_of_replay replayed
  have reused := of_decide_eq_true ended
  exact ⟨objects, reused, (closed_after_removal (by decide) run).1 1 reused.1⟩

end Runs

end ServerObjects

end TransferServer.Net
