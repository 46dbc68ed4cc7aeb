import TransferServer.Lib.History
import TransferServer.Net.ThreadConfinement

/-! The order of the callbacks of a connection: established first, then its handlers, destroyed
last; and what a loop dispatches is registered with its poller. -/

set_option autoImplicit false

namespace TransferServer.Net

open Base Lib

/-- The events whose order is at stake. -/
def Event.isCallback : Event → Bool
  | .established _ => true
  | .handled _ _ => true
  | .destroyed _ => true
  | _ => false

namespace TcpServer

variable {handshake : Handshake} {server before middle after : TcpServer} {caller loop : LoopId}
variable {permits : Event → Prop} {conn : ConnId} {object : TcpConnection} {action : Action}

def chronicle (server : TcpServer) : List Event := server.trace.filter Event.isCallback

/-- What must precede a callback of a connection. -/
def Precedes (earlier : List Event) : Event → Prop
  | .handled conn _ => .established conn ∈ earlier ∧ .destroyed conn ∉ earlier
  | .destroyed conn => .established conn ∈ earlier
  | _ => True

/-- Connections past connecting have been established, and the callbacks come in order. -/
structure Ordered (server : TcpServer) : Prop where
  begun : ∀ conn standing, server.standing conn = some standing → standing.state ≠ .kConnecting →
    .established conn ∈ server.trace
  precede : History Precedes server.chronicle

/-- Moreover what is to be dispatched is registered. -/
structure Chronicled (server : TcpServer) : Prop extends server.Ordered where
  registered : ∀ loop channel, .handleEvent channel ∈ server.todo loop →
    ∃ fd, (server.pollers loop).channels fd = some channel

section Ordering

theorem mem_chronicle {event : Event} :
    event ∈ server.chronicle ↔ event ∈ server.trace ∧ event.isCallback = true :=
  List.mem_filter

theorem Ordered.record {event : Event} (ordered : server.Ordered) (warranted : server.Warrants event) :
    (server.record event).Ordered where
  begun := fun conn standing there past =>
    List.mem_append_left [event] (ordered.begun conn standing there past)
  precede := by
    have grown : (server.record event).chronicle = server.chronicle ++ [event].filter Event.isCallback :=
      List.filter_append ..
    have began {conn : ConnId} {standing : Standing} (there : server.standing conn = some standing)
        (up : standing.state.Up) : .established conn ∈ server.chronicle :=
      mem_chronicle.mpr ⟨ordered.begun conn standing there up.ne_kConnecting, rfl⟩
    rw [grown]
    cases event with
    | established conn => exact .snoc ordered.precede trivial
    | handled conn called =>
        obtain ⟨undestroyed, standing, there, up⟩ := warranted
        exact .snoc ordered.precede ⟨began there up, fun gone => undestroyed (mem_chronicle.mp gone).1⟩
    | destroyed conn =>
        obtain ⟨standing, there, up⟩ := warranted
        exact .snoc ordered.precede (began there up)
    | _ => exact (List.append_nil server.chronicle).symm ▸ ordered.precede

theorem Ordered.setConn {changed : TcpConnection} (ordered : server.Ordered)
    (begun : changed.state ≠ .kConnecting → .established conn ∈ server.trace) :
    (server.setConn conn changed).Ordered where
  begun := by
    intro other later there past
    rw [standing_setConn, Function.update_apply] at there
    split at there
    · next same =>
        cases there
        exact same ▸ begun past
    · exact ordered.begun other later there past
  precede := ordered.precede

theorem Edit.ordered (edit : Edit caller permits before after) (ordered : before.Ordered) :
    after.Ordered := by
  cases edit with
  | record event _ warranted => exact ordered.record warranted
  | object found _ revises =>
      refine ordered.setConn fun past => ?_
      rcases revises.begun past with earlier | now
      · exact ordered.begun _ _ (standing_of_conns found) earlier
      · exact now
  | _ => exact ⟨ordered.begun, ordered.precede⟩

theorem Edits.ordered (edits : before.Edits caller permits after) (ordered : before.Ordered) :
    after.Ordered := by
  induction edits with
  | refl => exact ordered
  | tail _ edit ih => exact edit.ordered ih

theorem Ordered.setRevents (ordered : server.Ordered) (channel : ChannelId) (revents : Events) :
    (server.setRevents channel revents).Ordered := by
  cases channel with
  | connection conn =>
      cases found : server.conns conn with
      | none =>
          simp only [TcpServer.setRevents, found]
          exact ordered
      | some object =>
          simp only [TcpServer.setRevents, found]
          exact ordered.setConn (ordered.begun _ _ (standing_of_conns found))
  | _ => exact ⟨ordered.begun, ordered.precede⟩

theorem Ordered.setAllRevents (ordered : server.Ordered) (activeChannels : List (ChannelId × Events)) :
    (activeChannels.foldl (fun server (active : ChannelId × Events) =>
      server.setRevents active.1 active.2) server).Ordered := by
  induction activeChannels generalizing server with
  | nil => exact ordered
  | cons active activeChannels ih => exact ih (ordered.setRevents active.1 active.2)

theorem Turn.ordered (turn : before.Turn action after) (ordered : before.Ordered) : after.Ordered := by
  cases turn with
  | @poll loop reported poller activeChannels =>
      have polled : ((before.setPoller loop poller).setLoop loop (before.loops loop).poll).Ordered :=
        ⟨ordered.begun, ordered.precede⟩
      have marked := polled.setAllRevents activeChannels
      exact ⟨marked.begun, marked.precede⟩
  | _ => exact ⟨ordered.begun, ordered.precede⟩

theorem Ordered.admitted {sockfd : Int} {peerAddr : Bytes} (ordered : server.Ordered) :
    (server.admitted sockfd peerAddr).Ordered where
  begun := by
    intro conn later there past
    rw [standing_admitted, Function.update_apply] at there
    split at there
    · cases there
      exact absurd rfl past
    · exact List.mem_append_left _ (ordered.begun conn later there past)
  precede := by
    have same : (server.admitted sockfd peerAddr).chronicle = server.chronicle := by
      simp [chronicle, TcpServer.admitted, TcpServer.record, TcpServer.setConn, Event.isCallback]
    exact same ▸ ordered.precede

end Ordering

section Registration

/-- No channel comes to be dispatched, and one leaves its poller only when its connection is
destroyed. -/
structure Unlists (before after : TcpServer) : Prop where
  channels : ∀ loop fd channel, (before.pollers loop).channels fd = some channel →
    (after.pollers loop).channels fd = some channel ∨
      ∃ conn, channel = .connection conn ∧ .destroyed conn ∈ after.trace
  active : ∀ loop channel, .handleEvent channel ∈ after.todo loop →
    .handleEvent channel ∈ before.todo loop

theorem Unlists.refl (server : TcpServer) : server.Unlists server where
  channels := fun _ _ _ listed => .inl listed
  active := fun _ _ waiting => waiting

theorem Edit.unlists (edit : Edit caller permits before after) : before.Unlists after := by
  have stays := Unlists.refl before
  cases edit with
  | poller _ _ kept =>
      refine { stays with channels := fun other fd channel listed => ?_ }
      simp only [setPoller, Function.update_apply]
      split
      · next same => exact kept fd channel (same ▸ listed)
      · exact .inl listed
  | relays conn tasks _ silent =>
      refine { stays with active := fun other channel waiting => ?_ }
      simp only [setTodo, Function.update_apply] at waiting
      split at waiting
      · next same =>
          subst same
          rcases List.mem_append.mp waiting with relay | earlier
          · cases silent _ relay
          · exact earlier
      · exact waiting
  | _ => exact ⟨fun _ _ _ listed => .inl listed, stays.active⟩

theorem Edits.unlists (edits : before.Edits caller permits after) : before.Unlists after := by
  induction edits with
  | refl => exact .refl before
  | tail _ edit ih =>
      have last := edit.unlists
      refine ⟨fun loop fd channel listed => ?_, fun loop channel waiting => ?_⟩
      · rcases ih.channels loop fd channel listed with kept | ⟨conn, same, gone⟩
        · exact last.channels loop fd channel kept
        · exact .inr ⟨conn, same, edit.recorded gone⟩
      · exact ih.active loop channel (last.active loop channel waiting)

/-- A turn of the loop dispatches what its poller has reported, which is registered. -/
theorem Turn.registered (turn : before.Turn action after) (chronicled : before.Chronicled) :
    ∀ loop channel, .handleEvent channel ∈ after.todo loop →
      ∃ fd, (after.pollers loop).channels fd = some channel := by
  intro loop channel waiting
  have shorter {other : LoopId} {task : Task} {tasks : List Task}
      (first : before.todo other = task :: tasks)
      (waiting : .handleEvent channel ∈ (before.setTodo other tasks).todo loop) :
      .handleEvent channel ∈ before.todo loop := by
    simp only [setTodo, Function.update_apply] at waiting
    split at waiting
    · next same =>
        subst same
        exact first ▸ List.mem_cons_of_mem task waiting
    · exact waiting
  cases turn with
  | @poll other reported poller activeChannels _ polled =>
      have polls : Ensures (Halt.Tolerated False) ((before.pollers other).poll before.channelOf reported) _ :=
        pollPoller_spec reported
      obtain ⟨channels, _, registered⟩ := polls.of_ok polled
      have marking := setAllRevents_quiet ((before.setPoller other poller).setLoop other
        (before.loops other).poll) activeChannels
      have same (fd : Int) : ((activeChannels.foldl
          (fun server (active : ChannelId × Events) => server.setRevents active.1 active.2)
          ((before.setPoller other poller).setLoop other (before.loops other).poll)).pollers loop).channels
            fd = (before.pollers loop).channels fd := by
        rw [marking.channels]
        simp only [setLoop, setPoller, Function.update_apply]
        split
        · next own => exact own ▸ congrFun channels fd
        · rfl
      have there : ∃ fd, (before.pollers loop).channels fd = some channel := by
        simp only [setTodo, Function.update_apply] at waiting
        split at waiting
        · next own =>
            obtain ⟨active, found, named⟩ := List.mem_map.mp waiting
            cases named
            exact own ▸ registered active found
        · rw [marking.todo] at waiting
          exact chronicled.registered loop channel waiting
      obtain ⟨fd, listed⟩ := there
      exact ⟨fd, (same fd).trans listed⟩
  | @dispatch other input called tasks _ first =>
      apply chronicled.registered
      simp only [setTodo, Function.update_apply] at waiting
      split at waiting
      · next same =>
          subst same
          rcases List.mem_append.mp waiting with handler | waiting
          · obtain ⟨callback, -, ⟨⟩⟩ := List.mem_map.mp handler
          · exact first ▸ List.mem_cons_of_mem _ waiting
      · exact waiting
  | wakeup _ first => exact chronicled.registered loop channel (shorter first waiting)
  | handle _ first => exact chronicled.registered loop channel (shorter first waiting)
  | prepare => exact chronicled.registered loop channel waiting
  | swap => exact chronicled.registered loop channel waiting
  | run => exact chronicled.registered loop channel waiting
  | finish => exact chronicled.registered loop channel waiting

/-- No handler waits for a connection that has been destroyed. -/
theorem Upheld.unwaited {timely : Prop} {loop : LoopId} (upheld : server.Upheld timely)
    (gone : .destroyed conn ∈ server.trace) : .handleEvent (.connection conn) ∉ server.todo loop := by
  intro waiting
  obtain ⟨standing, there, -, up⟩ := upheld.formed.scheduled loop _ conn waiting rfl
  exact upheld.undestroyed there up gone

theorem Takes.chronicled {timely : Prop} (takes : before.Takes handshake action after)
    (chronicled : before.Chronicled) (upheld : after.Upheld timely) : after.Chronicled := by
  obtain ⟨middle, turn, _, yields⟩ := takes
  have turned := turn.ordered chronicled.toOrdered
  have registered := turn.registered chronicled
  have kept (unlists : middle.Unlists after) (loop : LoopId) (channel : ChannelId)
      (waiting : .handleEvent channel ∈ after.todo loop) :
      ∃ fd, (after.pollers loop).channels fd = some channel := by
    obtain ⟨fd, listed⟩ := registered loop channel (unlists.active loop channel waiting)
    rcases unlists.channels loop fd channel listed with still | ⟨conn, rfl, gone⟩
    · exact ⟨fd, still⟩
    · exact absurd waiting (upheld.unwaited gone)
  rcases yields with edits | ⟨sockfd, peerAddr, _, _, _, edits⟩
  · exact ⟨edits.ordered turned, kept edits.unlists⟩
  · have later := edits.unlists
    exact ⟨edits.ordered turned.admitted, kept ⟨later.channels, later.active⟩⟩

end Registration

section Runs

variable {numThreads : Nat} {wakeupFd : LoopId → Int} {acceptFd : Int} {actions : List Action}

theorem start_chronicled : (start numThreads wakeupFd acceptFd).Chronicled where
  begun := nofun
  precede := .nil
  registered := by simp [start]

theorem run_chronicled
    (run : Execution (step handshake) anyAction (start numThreads wakeupFd acceptFd) actions server) :
    server.Homely ∧ server.Chronicled := by
  apply run.invariant ⟨start_homely, start_chronicled⟩
  intro before action after ⟨homely, chronicled⟩ _ stepped
  have homely' := step_homely homely stepped
  exact ⟨homely', (homely.takes stepped).chronicled chronicled homely'.upheld⟩

/-- In every run, a handler of a connection is called after `connectEstablished` and not after
`connectDestroyed`, which comes after `connectEstablished` too; and the channel whose handlers a
loop is about to call is registered with the loop's poller. -/
theorem callbacks_ordered
    (run : Execution (step handshake) anyAction (start numThreads wakeupFd acceptFd) actions server) :
    (∀ earlier conn called later, server.trace = earlier ++ .handled conn called :: later →
      .established conn ∈ earlier ∧ .destroyed conn ∉ earlier) ∧
    (∀ earlier conn later, server.trace = earlier ++ .destroyed conn :: later →
      .established conn ∈ earlier) ∧
    ∀ loop channel tasks, server.todo loop = .handleEvent channel :: tasks →
      ∃ fd, (server.pollers loop).channels fd = some channel := by
  obtain ⟨-, chronicled⟩ := run_chronicled run
  have precedes {earlier later : List Event} {event : Event}
      (split : server.trace = earlier ++ event :: later) (callback : event.isCallback = true) :
      Precedes (earlier.filter Event.isCallback) event := by
    have filtered : server.chronicle =
        earlier.filter Event.isCallback ++ event :: later.filter Event.isCallback := by
      rw [chronicle, split, List.filter_append, List.filter_cons_of_pos callback]
    exact chronicled.precede.allowed filtered
  refine ⟨fun earlier conn called later split => ?_, fun earlier conn later split => ?_, ?_⟩
  · obtain ⟨established, undestroyed⟩ := precedes split rfl
    exact ⟨(List.mem_filter.mp established).1, fun destroyed =>
      undestroyed (List.mem_filter.mpr ⟨destroyed, rfl⟩)⟩
  · exact (List.mem_filter.mp (precedes split rfl)).1
  · intro loop channel tasks dispatched
    exact chronicled.registered loop channel (dispatched ▸ List.mem_cons_self)

/-- The theorem at a connection of an I/O loop that its peer closes, in the round that reads the
end of the stream. -/
theorem callbacks_ordered_remote : ∃ (server : TcpServer) (earlier later : List Event),
    server.trace = earlier ++ .handled 1 .read :: later ∧ .destroyed 1 ∈ later ∧
      .established 1 ∈ earlier ∧ .destroyed 1 ∉ earlier := by
  let actions : List Action :=
    iteration 0 [0, 1] [.nothing, ⟨some (6, [1]), .ok [], 0⟩] [] ++
    iteration 1 [1] [.nothing, .nothing] [⟨none, .ok [], 21⟩] ++
    iteration 1 [0, 1] [.nothing, .nothing] [] ++
    iteration 0 [1, 0] [.nothing, .nothing] [.nothing] ++
    iteration 1 [1, 0] [.nothing, .nothing] [.nothing]
  have replayed : (replay (step ⟨some, fun _ => true⟩) anyAction .impossible
      (start 1 (fun loop => 4 + loop) 3) actions).toOption.any (fun server =>
        decide (.handled 1 .read ∈ server.trace ∧
          .destroyed 1 ∈ server.trace.drop (server.trace.idxOf (.handled 1 .read) + 1))) = true := by
    decide +kernel
  obtain ⟨server, run, ended⟩ := Execution.exists_of_replay replayed
  obtain ⟨called, destroyed⟩ := of_decide_eq_true ended
  have found := List.idxOf_lt_length_of_mem called
  have split : server.trace = server.trace.take (server.trace.idxOf (.handled 1 .read)) ++
      .handled 1 .read :: server.trace.drop (server.trace.idxOf (.handled 1 .read) + 1) := by
    conv_lhs => rw [← List.take_append_drop (server.trace.idxOf (.handled 1 .read)) server.trace]
    rw [List.drop_eq_getElem_cons found, List.getElem_idxOf found]
  exact ⟨server, _, _, split, destroyed, (callbacks_ordered run).1 _ _ _ _ split⟩

end Runs

end TcpServer

end TransferServer.Net
