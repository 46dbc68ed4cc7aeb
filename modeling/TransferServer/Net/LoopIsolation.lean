import TransferServer.Net.ServerLoops

/-! What the threads of the server share. The thread of a loop leaves the pollers, the handlers and
the connections of the other loops alone, and reaches these loops by `queueInLoop` only. -/

set_option autoImplicit false

namespace TransferServer.Net.TcpServer

open Base Lib

variable {handshake : Handshake} {server before middle after : TcpServer} {caller loop : LoopId}
variable {permits : Event → Prop} {action : Action}

/-- What belongs to the other loops is as it was, up to functors in their queues. Not on this list are
the register table and `count`, which every thread changes. -/
structure Isolated (before : TcpServer) (caller : LoopId) (after : TcpServer) : Prop where
  pollers : ∀ loop, loop ≠ caller → after.pollers loop = before.pollers loop
  todo : ∀ loop, loop ≠ caller → after.todo loop = before.todo loop
  conns : ∀ conn object, before.conns conn = some object → object.loop ≠ caller →
    after.conns conn = some object
  loops : ∀ loop, loop ≠ caller →
    ∃ functors, after.loops loop = (before.loops loop).queueAll caller functors
  connections : caller ≠ baseLoop → after.connections = before.connections

theorem Isolated.refl (server : TcpServer) (caller : LoopId) : server.Isolated caller server where
  pollers := fun _ _ => rfl
  todo := fun _ _ => rfl
  conns := fun _ _ found _ => found
  loops := fun _ _ => ⟨[], rfl⟩
  connections := fun _ => rfl

theorem Isolated.trans (first : before.Isolated caller middle) (second : middle.Isolated caller after) :
    before.Isolated caller after where
  pollers := fun loop other => (second.pollers loop other).trans (first.pollers loop other)
  todo := fun loop other => (second.todo loop other).trans (first.todo loop other)
  conns := fun conn object found other =>
    second.conns conn object (first.conns conn object found other) other
  loops := by
    intro loop other
    obtain ⟨earlier, between⟩ := first.loops loop other
    obtain ⟨later, ended⟩ := second.loops loop other
    exact ⟨earlier ++ later, by rw [ended, between, EventLoop.queueAll_append]⟩
  connections := fun other => (second.connections other).trans (first.connections other)

section Changes

theorem setLoop_isolated {object : EventLoop LoopId Functor} :
    server.Isolated loop (server.setLoop loop object) :=
  { Isolated.refl server loop with
    loops := fun _ apart => ⟨[], Function.update_of_ne apart ..⟩ }

theorem setPoller_isolated {poller : Poller ChannelId} :
    server.Isolated loop (server.setPoller loop poller) :=
  { Isolated.refl server loop with
    pollers := fun _ apart => Function.update_of_ne apart .. }

theorem setTodo_isolated {tasks : List Task} : server.Isolated loop (server.setTodo loop tasks) :=
  { Isolated.refl server loop with
    todo := fun _ apart => Function.update_of_ne apart .. }

theorem setConn_isolated {conn : ConnId} {changed : TcpConnection}
    (own : ∀ object, server.conns conn = some object → object.loop = loop) :
    server.Isolated loop (server.setConn conn changed) :=
  { Isolated.refl server loop with
    conns := by
      intro other object found apart
      have different : other ≠ conn := by
        rintro rfl
        exact apart (own object found)
      exact (Function.update_of_ne different ..).trans found }

theorem setRevents_isolated {channel : ChannelId} {revents : Events}
    (own : ∀ conn, channel = .connection conn →
      ∃ standing, server.standing conn = some standing ∧ standing.loop = loop) :
    server.Isolated loop (server.setRevents channel revents) := by
  have stays := Isolated.refl server loop
  cases channel with
  | wakeup owner => exact { stays with }
  | accept => exact { stays with }
  | connection conn =>
      cases found : server.conns conn with
      | none =>
          simp only [setRevents, found]
          exact stays
      | some object =>
          simp only [setRevents, found]
          obtain ⟨standing, there, home⟩ := own conn rfl
          refine setConn_isolated fun present known => ?_
          cases (standing_of_conns known).symm.trans there
          exact home

theorem setAllRevents_isolated (server : TcpServer) (activeChannels : List (ChannelId × Events))
    (own : ∀ active ∈ activeChannels, ∀ conn, active.1 = .connection conn →
      ∃ standing, server.standing conn = some standing ∧ standing.loop = loop) :
    server.Isolated loop (activeChannels.foldl
      (fun server (active : ChannelId × Events) => server.setRevents active.1 active.2) server) := by
  induction activeChannels generalizing server with
  | nil => exact .refl server loop
  | cons active activeChannels ih =>
      have first : server.Isolated loop (server.setRevents active.1 active.2) :=
        setRevents_isolated (own active List.mem_cons_self)
      refine first.trans (ih _ fun later waits conn named => ?_)
      rw [(setRevents_quiet active.1 active.2).standing]
      exact own later (List.mem_cons_of_mem _ waits) conn named

theorem Edit.isolated (edit : Edit caller permits before after)
    (thread : ∀ loop, before.isInLoopThread caller loop = true → loop = caller) :
    before.Isolated caller after := by
  have stays := Isolated.refl before caller
  cases edit with
  | record event => exact { stays with }
  | object found here =>
      refine setConn_isolated fun present there => ?_
      cases found.symm.trans there
      exact thread _ here
  | poller here =>
      obtain rfl := thread _ here
      exact setPoller_isolated
  | queue loop functor => exact { stays with loops := fun other _ => queueInLoop_queues other }
  | relays conn tasks => exact setTodo_isolated
  | table conn registerTable count => exact { stays with }
  | erase conn here => exact { stays with connections := fun other => absurd (thread _ here).symm other }

theorem Edits.isolated (edits : before.Edits caller permits after)
    (thread : ∀ loop, before.isInLoopThread caller loop = true → loop = caller) :
    before.Isolated caller after := by
  induction edits with
  | refl => exact .refl before caller
  | tail earlier edit ih =>
      have between : before.Edits caller permits _ := earlier
      exact ih.trans (edit.isolated fun loop here => thread loop (between.isInLoopThread ▸ here))

theorem admitted_isolated {sockfd : Int} {peerAddr : Bytes} (base : caller = baseLoop)
    (fresh : server.conns server.nextConnId = none) :
    server.Isolated caller (server.admitted sockfd peerAddr) :=
  { Isolated.refl server caller with
    conns := by
      intro other object found _
      have different : other ≠ server.nextConnId := by
        rintro rfl
        cases fresh.symm.trans found
      exact (Function.update_of_ne different ..).trans found
    connections := fun other => absurd base other }

theorem Turn.isolated (turn : before.Turn action after) (formed : before.WellFormed)
    (woken : before.Woken) : before.Isolated action.loop after := by
  cases turn with
  | @poll loop reported poller activeChannels _ polled =>
      have polls : Confined ((before.pollers loop).poll before.channelOf reported) _ :=
        Poller.poll_confined reported
      have registered := polls.of_ok polled
      have polled : before.Isolated loop
          ((before.setPoller loop poller).setLoop loop (before.loops loop).poll) :=
        setPoller_isolated.trans setLoop_isolated
      have own : ∀ active ∈ activeChannels, ∀ conn, active.1 = .connection conn →
          ∃ standing, before.standing conn = some standing ∧ standing.loop = loop := by
        intro active waits conn named
        obtain ⟨fd, listed⟩ := registered active waits
        obtain ⟨standing, there, home, _⟩ := formed.registered loop fd conn (named ▸ listed)
        exact ⟨standing, there, home⟩
      have marked := setAllRevents_isolated
        ((before.setPoller loop poller).setLoop loop (before.loops loop).poll) activeChannels own
      exact (polled.trans marked).trans setTodo_isolated
  | dispatch => exact setTodo_isolated
  | @wakeup loop owner input tasks _ first =>
      have waits : .callback (.wakeup owner) .read ∈ before.todo loop := first ▸ List.mem_cons_self
      obtain rfl := woken.visited loop owner (List.mem_filterMap.mpr ⟨_, waits, rfl⟩)
      exact setTodo_isolated.trans setLoop_isolated
  | handle => exact setTodo_isolated
  | prepare => exact setLoop_isolated
  | swap => exact setLoop_isolated
  | run => exact setLoop_isolated
  | finish => exact setLoop_isolated

theorem Takes.isolated (takes : before.Takes handshake action after) (looped : before.Looped) :
    before.Isolated action.loop after := by
  have formed := looped.homely.upheld.formed
  obtain ⟨middle, turn, _, yields⟩ := takes
  have turned := turn.isolated formed looped.woken
  have thread (loop : LoopId) (here : middle.isInLoopThread action.loop loop = true) :
      loop = action.loop := by
    have home : (middle.loops loop).threadId = action.loop := of_decide_eq_true here
    exact ((turn.threadId loop).trans (formed.thread loop)).symm.trans home
  rcases yields with edits | ⟨sockfd, peerAddr, _, _, here, edits⟩
  · exact turned.trans (edits.isolated thread)
  · have fresh : middle.conns middle.nextConnId = none := by
      rw [turn.anchored.nextConnId]
      exact (turn.anchored.known _).mpr formed.fresh
    have admitted : middle.Isolated action.loop (middle.admitted sockfd peerAddr) :=
      admitted_isolated (thread baseLoop here).symm fresh
    exact (turned.trans admitted).trans (edits.isolated thread)

end Changes

section Runs

variable {numThreads : Nat} {wakeupFd : LoopId → Int} {acceptFd : Int} {actions : List Action}

/-- In every reachable state, what a thread does next changes nothing of the other loops but the
queues of their functors. -/
theorem loops_isolated {action : Action}
    (run : Execution (step handshake) anyAction (start numThreads wakeupFd acceptFd) actions server)
    (stepped : step handshake server action = .ok after) : server.Isolated action.loop after :=
  ((run_looped run).homely.takes stepped).isolated (run_looped run)

/-- The theorem at the base loop when it accepts a connection for an I/O loop. -/
theorem loops_isolated_accepting : ∃ server after : TcpServer,
    step ⟨some, fun _ => true⟩ server (.handle 0 ⟨some (6, [1]), .ok [], 0⟩) = .ok after ∧
      after.pollers 1 = server.pollers 1 ∧
        (after.loops 1).pendingFunctors = [.connectEstablished 1] := by
  have replayed : (replay (step ⟨some, fun _ => true⟩) anyAction .impossible
      (start 1 (fun loop => 4 + loop) 3)
      ([.poll 0 (some [0, 1]), .handle 0 .nothing] ++
        [.handle 0 ⟨some (6, [1]), .ok [], 0⟩])).toOption.any (fun server =>
          decide ((server.loops 1).pendingFunctors = [.connectEstablished 1])) = true := by
    decide +kernel
  obtain ⟨after, run, ended⟩ := Execution.exists_of_replay replayed
  obtain ⟨server, earlier, _, stepped⟩ := Execution.snoc_iff.mp run
  have isolated := loops_isolated earlier stepped
  exact ⟨server, after, stepped, isolated.pollers 1 (by decide), of_decide_eq_true ended⟩

end Runs

end TransferServer.Net.TcpServer
