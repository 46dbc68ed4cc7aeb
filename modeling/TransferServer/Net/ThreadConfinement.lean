import TransferServer.Net.TcpServerAnchors

/-! `assertInLoopThread` (EventLoop.h) never fails: what is done to a connection is done by the
thread of its loop, and what is done to the table of connections by the thread of the base loop. -/

set_option autoImplicit false

namespace TransferServer.Net.TcpServer

open Base Lib

variable {handshake : Handshake} {server before middle after : TcpServer} {caller loop : LoopId}
variable {permits : Event → Prop} {channel : ChannelId} {action : Action}

section Visits

theorem visits_setTodo (tasks : List Task) (other : LoopId) :
    (server.setTodo loop tasks).visits other =
      if other = loop then tasks.filterMap Task.channel else server.visits other := by
  simp only [visits, setTodo, Function.update_apply]
  split <;> rfl

/-- Within a function no channel comes to be visited. -/
theorem Edit.visits (edit : Edit caller permits before after) : after.visits = before.visits := by
  cases edit with
  | relays conn tasks _ silent =>
      funext other
      rw [visits_setTodo]
      split
      · next same =>
          subst same
          have none : tasks.filterMap Task.channel = [] := List.filterMap_eq_nil_iff.mpr silent
          rw [List.filterMap_append, none, List.nil_append]
          rfl
      · rfl
  | _ => rfl

theorem Edits.visits (edits : before.Edits caller permits after) : after.visits = before.visits := by
  induction edits with
  | refl => rfl
  | tail _ edit ih => exact edit.visits.trans ih

theorem Turn.visits (turn : before.Turn action after) (found : channel ∈ after.visits loop) :
    channel ∈ before.visits loop ∨ ∃ fd, (before.pollers loop).channels fd = some channel := by
  have shorter {other : LoopId} {task : Task} {tasks : List Task}
      (first : before.todo other = task :: tasks) (found : channel ∈ (before.setTodo other tasks).visits loop) :
      channel ∈ before.visits loop := by
    rw [visits_setTodo] at found
    split at found
    · next same =>
        subst same
        obtain ⟨later, waiting, named⟩ := List.mem_filterMap.mp found
        exact List.mem_filterMap.mpr ⟨later, first ▸ List.mem_cons_of_mem task waiting, named⟩
    · exact found
  cases turn with
  | @poll polling reported poller activeChannels _ polled =>
      rw [visits_setTodo] at found
      split at found
      · next same =>
          subst same
          have confined : Confined ((before.pollers loop).poll before.channelOf reported) _ :=
            Poller.poll_confined reported
          obtain ⟨task, waiting, named⟩ := List.mem_filterMap.mp found
          obtain ⟨active, listed, rfl⟩ := List.mem_map.mp waiting
          cases named
          exact .inr (confined.of_ok polled active listed)
      · have todo := (setAllRevents_quiet ((before.setPoller polling poller).setLoop polling
          (before.loops polling).poll) activeChannels).todo
        unfold TcpServer.visits at found
        rw [todo] at found
        exact .inl found
  | @dispatch other input called tasks _ first =>
      rw [visits_setTodo] at found
      split at found
      · next same =>
          subst same
          refine .inl ?_
          obtain ⟨later, waiting, named⟩ := List.mem_filterMap.mp found
          rcases List.mem_append.mp waiting with handler | waiting
          · obtain ⟨callback, -, rfl⟩ := List.mem_map.mp handler
            cases named
            exact List.mem_filterMap.mpr ⟨_, first ▸ List.mem_cons_self, rfl⟩
          · exact List.mem_filterMap.mpr ⟨later, first ▸ List.mem_cons_of_mem _ waiting, named⟩
      · exact .inl found
  | wakeup _ first => exact .inl (shorter first found)
  | handle _ first => exact .inl (shorter first found)
  | prepare => exact .inl found
  | swap => exact .inl found
  | run => exact .inl found
  | finish => exact .inl found

/-- What a step leaves to visit was so before, or is registered with the poller. -/
theorem Takes.visits (takes : before.Takes handshake action after) (found : channel ∈ after.visits loop) :
    channel ∈ before.visits loop ∨ ∃ fd, (before.pollers loop).channels fd = some channel := by
  obtain ⟨middle, turn, _, edits | ⟨sockfd, peerAddr, _, _, _, edits⟩⟩ := takes
  · rw [edits.visits] at found
    exact turn.visits found
  · rw [edits.visits] at found
    exact turn.visits found

theorem Takes.based (takes : before.Takes handshake action after) (based : before.Based) :
    after.Based where
  polled := fun loop fd listed => based.polled loop fd ((takes.polled (by simp)).mp listed)
  visited := by
    intro loop found
    rcases takes.visits found with earlier | ⟨fd, listed⟩
    · exact based.visited loop earlier
    · exact based.polled loop fd listed

end Visits

section Runs

variable {numThreads : Nat} {wakeupFd : LoopId → Int} {acceptFd : Int} {actions : List Action}

theorem start_based : (start numThreads wakeupFd acceptFd).Based where
  polled := by
    intro loop fd listed
    by_contra other
    simp only [start, if_neg other, Poller.addChannel, Poller.construct, Function.update_apply] at listed
    split at listed
    · cases listed
    · cases listed
  visited := nofun

structure Homely (server : TcpServer) : Prop where
  upheld : server.Upheld False
  based : server.Based

theorem Homely.takes (homely : server.Homely) (stepped : step handshake server action = .ok after) :
    server.Takes handshake action after :=
  (step_takes homely.upheld homely.based).of_ok stepped

theorem step_homely (homely : server.Homely) (stepped : step handshake server action = .ok after) :
    after.Homely where
  upheld := (step_upheld homely.upheld nofun).of_ok stepped
  based := (homely.takes stepped).based homely.based

theorem start_homely : (start numThreads wakeupFd acceptFd).Homely := ⟨start_upheld, start_based⟩

theorem run_homely
    (run : Execution (step handshake) anyAction (start numThreads wakeupFd acceptFd) actions server) :
    server.Homely :=
  run.invariant start_homely fun _ _ _ homely _ stepped => step_homely homely stepped

/-- In every run, no step fails `assertInLoopThread`; the handlers of a connection, and the functors
bound to it, wait for the thread of its loop, but for `removeConnectionInLoop`, which waits for the
base loop as the handler of the listening socket does. -/
theorem thread_confined
    (run : Execution (step handshake) anyAction (start numThreads wakeupFd acceptFd) actions server) :
    (∀ action, step handshake server action ≠ .error (.assertion .assertInLoopThread)) ∧
    (∀ loop conn called, .callback (.connection conn) called ∈ server.todo loop →
      ∃ object, server.conns conn = some object ∧ object.loop = loop) ∧
    (∀ loop called, .callback .accept called ∈ server.todo loop → loop = baseLoop) ∧
    ∀ loop functor, functor ∈ server.agenda loop →
      ∃ object, server.conns functor.conn = some object ∧ functor.home object.loop = loop := by
  obtain ⟨upheld, based⟩ := run_homely run
  have object {conn : ConnId} {shown : Standing} (there : server.standing conn = some shown) :
      ∃ object, server.conns conn = some object ∧ object.standing = shown :=
    Option.map_eq_some_iff.mp there
  refine ⟨fun action failed => ?_, fun loop conn called waiting => ?_, fun loop called waiting => ?_,
    fun loop functor waiting => ?_⟩
  · exact (step_takes upheld based).of_error failed rfl
  · obtain ⟨standing, there, home, -⟩ := upheld.formed.scheduled loop _ conn waiting rfl
    obtain ⟨object, found, rfl⟩ := object there
    exact ⟨object, found, home⟩
  · exact based.visited loop (List.mem_filterMap.mpr ⟨_, waiting, rfl⟩)
  · obtain ⟨standing, there, home⟩ := upheld.formed.placed loop functor waiting
    obtain ⟨object, found, rfl⟩ := object there
    exact ⟨object, found, home⟩

/-- The theorem at a server whose I/O loop has been given a connection. -/
theorem thread_confined_remote : ∃ server : TcpServer,
    .connectEstablished 1 ∈ server.agenda 1 ∧
      ∃ object, server.conns 1 = some object ∧ object.loop = 1 := by
  have replayed : (replay (step ⟨some, fun _ => true⟩) anyAction .impossible
      (start 1 (fun loop => 4 + loop) 3)
      (iteration 0 [0, 1] [.nothing, ⟨some (6, [1]), .ok [], 0⟩] [])).toOption.any (fun server =>
        decide (.connectEstablished 1 ∈ server.agenda 1)) = true := by
    decide +kernel
  obtain ⟨server, run, ended⟩ := Execution.exists_of_replay replayed
  have waiting := of_decide_eq_true ended
  exact ⟨server, waiting, (thread_confined run).2.2.2 1 _ waiting⟩

end Runs

end TransferServer.Net.TcpServer
