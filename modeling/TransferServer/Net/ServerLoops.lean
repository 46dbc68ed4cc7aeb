import TransferServer.Net.EventLoopProperties
import TransferServer.Net.ServerPollers
import TransferServer.Net.ThreadConfinement

/-! Each loop of the server runs as a `LoopSystem`, with the threads of the other loops among its
callers. What is proved of one loop under every interleaving holds of it, so no functor waits in a
loop of the server that goes to sleep. -/

set_option autoImplicit false

namespace TransferServer.Net

open Base Lib

namespace EventLoop

variable {τ F : Type} [DecidableEq τ] {loop : EventLoop τ F} {caller : τ}

/-- `queueInLoop` with one functor after the other, by one thread. -/
def queueAll (loop : EventLoop τ F) (caller : τ) (functors : List F) : EventLoop τ F :=
  functors.foldl (fun loop cb => loop.queueInLoop caller cb) loop

theorem queueAll_append (first second : List F) :
    loop.queueAll caller (first ++ second) = (loop.queueAll caller first).queueAll caller second :=
  List.foldl_append

theorem queueInLoop_frame (cb : F) : (loop.queueInLoop caller cb).phase = loop.phase ∧
    (loop.queueInLoop caller cb).threadId = loop.threadId := by
  unfold queueInLoop wakeupUnlessIdle
  split
  · exact ⟨rfl, rfl⟩
  · exact ⟨rfl, rfl⟩

end EventLoop

namespace LoopSystem

variable {τ F : Type} [DecidableEq τ] {threadId caller : τ} {loop next : EventLoop τ F} {phase : Phase}

/-- The loop is so after a run in which every call has returned. -/
def Reaches (threadId : τ) (loop : EventLoop τ F) : Prop :=
  ∃ actions system, Execution step anyAction (construct threadId) actions system ∧
    system.loop = loop ∧ ∀ caller, system.status caller = .idle

theorem Reaches.step (reaches : Reaches threadId loop) (action : LoopAction τ F)
    (taken : ∀ system : LoopSystem τ F, system.loop = loop → (∀ caller, system.status caller = .idle) →
      ∃ after, system.step action = .ok after ∧ after.loop = next ∧ after.status = system.status) :
    Reaches threadId next := by
  obtain ⟨actions, system, run, same, idle⟩ := reaches
  obtain ⟨after, stepped, changed, statuses⟩ := taken system same idle
  refine ⟨_, after, .snoc run trivial stepped, changed, fun caller => ?_⟩
  rw [statuses]
  exact idle caller

/-- What the loop thread does between its calls. -/
theorem Reaches.turn (reaches : Reaches threadId loop) (action : LoopAction τ F)
    {change : EventLoop τ F → EventLoop τ F} (here : loop.phase = phase)
    (turns : ∀ system : LoopSystem τ F, system.loop = loop → system.At phase →
      system.step action = .ok { system with loop := change system.loop }) :
    Reaches threadId (change loop) := by
  refine reaches.step action fun system same idle => ?_
  have stands : system.At phase := ⟨same ▸ here, idle _⟩
  exact ⟨_, turns system same stands, congrArg change same, rfl⟩

theorem Reaches.start (reaches : Reaches threadId loop) {cb : F} {functors : List F}
    (running : loop.phase = .running) (first : loop.functors = cb :: functors) :
    Reaches threadId { loop with functors } := by
  refine reaches.step .start fun system same idle => ?_
  subst same
  have started : system.start = .ok { system with
      loop := { system.loop with functors }
      started := system.started ++ [cb] } := by
    rw [LoopSystem.start, first]
    rfl
  exact ⟨_, assume_bind_eq_ok.mpr ⟨⟨running, idle _⟩, started⟩, rfl, rfl⟩

theorem push_of_locking {system : LoopSystem τ F} {cb : F} (asks : system.status caller = .locking cb) :
    system.step (.push caller) = .ok { system.setStatus caller .pushed with
      loop := system.loop.pushBack cb
      pushes := system.pushes ++ [(caller, cb)] } := by
  simp only [LoopSystem.step, push, asks]
  rfl

theorem wakeup_of_pushed {system : LoopSystem τ F} (pushed : system.status caller = .pushed) :
    system.step (.wakeup caller) =
      .ok { system.setStatus caller .idle with loop := system.loop.wakeupUnlessIdle caller } := by
  simp only [LoopSystem.step, wakeup, pushed]
  rfl

/-- A call runs from its entry to its return with no other thread in between. -/
theorem Reaches.queueInLoop (reaches : Reaches threadId loop) (cb : F)
    (inside : caller = loop.threadId → loop.phase = .dispatching ∨ loop.phase = .running) :
    Reaches threadId (loop.queueInLoop caller cb) := by
  obtain ⟨actions, system, run, rfl, idle⟩ := reaches
  have called : system.step (.call caller .queueInLoop cb) = .ok (system.call caller .queueInLoop cb) :=
    assume_bind_eq_ok.mpr ⟨⟨idle caller, inside⟩, rfl⟩
  have locking : (system.call caller .queueInLoop cb).status caller = .locking cb :=
    Function.update_self ..
  have pushing := (run.snoc trivial called).snoc trivial (push_of_locking locking)
  have waking := pushing.snoc trivial (wakeup_of_pushed (Function.update_self ..))
  refine ⟨_, _, waking, rfl, fun other => ?_⟩
  by_cases same : other = caller
  · subst same
    exact Function.update_self ..
  · simp [setStatus, call, Function.update_of_ne same, idle other]

theorem Reaches.queueAll (functors : List F) (reaches : Reaches threadId loop)
    (inside : caller = loop.threadId → loop.phase = .dispatching ∨ loop.phase = .running) :
    Reaches threadId (loop.queueAll caller functors) := by
  induction functors generalizing loop with
  | nil => exact reaches
  | cons cb functors ih =>
      apply ih (reaches.queueInLoop cb inside)
      rw [(EventLoop.queueInLoop_frame cb).1, (EventLoop.queueInLoop_frame cb).2]
      exact inside

/-- Between two iterations, a loop with functors to run finds its eventfd readable. -/
theorem Reaches.woken (reaches : Reaches threadId loop) (pending : loop.pendingFunctors ≠ [])
    (dispatched : loop.phase ≠ .dispatching) (swapped : loop.phase ≠ .swapping) : loop.eventfd ≠ 0 := by
  obtain ⟨actions, system, run, rfl, idle⟩ := reaches
  have awake : system.Awake :=
    run.invariant (construct_awake threadId) fun _ _ _ awake _ stepped => step_awake awake stepped
  rcases awake.due_at pending dispatched swapped with written | ⟨caller, pushed⟩
  · exact written
  · cases (idle caller).symm.trans pushed

end LoopSystem

namespace TcpServer

variable {handshake : Handshake} {server before middle after : TcpServer} {caller loop : LoopId}

/-- All that has happened to the loops is that the caller has queued functors in them. -/
def Queues (before : TcpServer) (caller : LoopId) (after : TcpServer) : Prop :=
  ∀ loop, ∃ functors, after.loops loop = (before.loops loop).queueAll caller functors

theorem Queues.refl (server : TcpServer) (caller : LoopId) : server.Queues caller server :=
  fun _ => ⟨[], rfl⟩

theorem Queues.trans (first : before.Queues caller middle) (second : middle.Queues caller after) :
    before.Queues caller after := by
  intro loop
  obtain ⟨earlier, between⟩ := first loop
  obtain ⟨later, ended⟩ := second loop
  exact ⟨earlier ++ later, by rw [ended, between, EventLoop.queueAll_append]⟩

theorem queueInLoop_queues {functor : Functor} :
    server.Queues caller (server.queueInLoop caller loop functor) := by
  intro other
  by_cases same : other = loop
  · subst same
    exact ⟨[functor], Function.update_self ..⟩
  · exact ⟨[], Function.update_of_ne same ..⟩

theorem Edit.queues {permits : Event → Prop} (edit : Edit caller permits before after) :
    before.Queues caller after := by
  have stays := Queues.refl before caller
  cases edit with
  | queue loop functor => exact queueInLoop_queues
  | _ => exact stays

theorem Edits.queues {permits : Event → Prop} (edits : before.Edits caller permits after) :
    before.Queues caller after := by
  induction edits with
  | refl => exact .refl before caller
  | tail _ edit ih => exact ih.trans edit.queues

section Steps

variable {input : Input} {action : Action}

/-- Every loop is where a run of its own could have left it. -/
def Reached (server : TcpServer) : Prop := ∀ loop, LoopSystem.Reaches loop (server.loops loop)

/-- The wakeup of a loop is polled, and handled, by that loop alone. -/
structure Woken (server : TcpServer) : Prop where
  polled : ∀ loop fd owner, (server.pollers loop).channels fd = some (.wakeup owner) → owner = loop
  visited : ∀ loop owner, .wakeup owner ∈ server.visits loop → owner = loop

theorem Reached.setLoop (reached : server.Reached) {object : EventLoop LoopId Functor}
    (reaches : LoopSystem.Reaches loop object) : (server.setLoop loop object).Reached := by
  intro other
  by_cases same : other = loop
  · subst same
    simpa only [TcpServer.setLoop, Function.update_self] using reaches
  · simpa only [TcpServer.setLoop, Function.update_of_ne same] using reached other

/-- A thread queues functors while its own loop handles events or runs functors. -/
theorem Reached.queues (reached : before.Reached) (queued : before.Queues caller after)
    (thread : ∀ loop, (before.loops loop).threadId = loop)
    (inside : (before.loops caller).phase = .dispatching ∨ (before.loops caller).phase = .running) :
    after.Reached := by
  intro loop
  obtain ⟨functors, same⟩ := queued loop
  rw [same]
  refine (reached loop).queueAll functors fun own => ?_
  rw [thread] at own
  exact own ▸ inside

theorem Turn.reached (turn : before.Turn action after) (woken : before.Woken)
    (reached : before.Reached) : after.Reached := by
  cases turn with
  | @poll loop reported poller activeChannels polling =>
      have begun : (before.setPoller loop poller).Reached := reached
      have polled := begun.setLoop ((reached loop).turn .poll polling fun _ _ stands =>
        assume_bind_eq_ok.mpr ⟨stands, rfl⟩)
      have loops := (setAllRevents_quiet ((before.setPoller loop poller).setLoop loop
        (before.loops loop).poll) activeChannels).loops
      intro other
      exact (congrFun loops other).symm ▸ polled other
  | dispatch => exact reached
  | @wakeup loop owner input tasks dispatching first =>
      have waits : .callback (.wakeup owner) .read ∈ before.todo loop := first ▸ List.mem_cons_self
      obtain rfl := woken.visited loop owner (List.mem_filterMap.mpr ⟨_, waits, rfl⟩)
      have remaining : (before.setTodo owner tasks).Reached := reached
      exact remaining.setLoop ((reached _).turn .handleRead dispatching fun _ _ stands =>
        assume_bind_eq_ok.mpr ⟨stands, rfl⟩)
  | handle => exact reached
  | prepare dispatching =>
      exact reached.setLoop ((reached _).turn .prepare dispatching fun _ _ stands =>
        assume_bind_eq_ok.mpr ⟨stands, rfl⟩)
  | swap swapping =>
      exact reached.setLoop ((reached _).turn .swap swapping fun _ _ stands =>
        assume_bind_eq_ok.mpr ⟨stands, rfl⟩)
  | run running first => exact reached.setLoop ((reached _).start running first)
  | finish running done =>
      have finished := (reached _).turn .finish running fun _ same stands =>
        assume_bind_eq_ok.mpr ⟨⟨stands, same ▸ done⟩, rfl⟩
      exact reached.setLoop (finished.turn .test rfl fun _ _ stands => assume_bind_eq_ok.mpr ⟨stands, rfl⟩)

theorem Takes.reached (takes : before.Takes handshake action after) (formed : before.WellFormed)
    (woken : before.Woken) (reached : before.Reached) : after.Reached := by
  obtain ⟨middle, turn, rfl | calling, yields⟩ := takes
  · exact turn.reached woken reached
  · have turned := turn.reached woken reached
    have thread (loop : LoopId) : (middle.loops loop).threadId = loop :=
      (turn.threadId loop).trans (formed.thread loop)
    rcases yields with edits | ⟨sockfd, peerAddr, _, _, _, edits⟩
    · exact turned.queues edits.queues thread calling
    · have admitted : (middle.admitted sockfd peerAddr).Reached := turned
      exact admitted.queues edits.queues thread calling

theorem Takes.woken (takes : before.Takes handshake action after) (woken : before.Woken) :
    after.Woken where
  polled := fun loop fd owner listed => woken.polled loop fd owner ((takes.polled (by simp)).mp listed)
  visited := by
    intro loop owner found
    rcases takes.visits found with earlier | ⟨fd, listed⟩
    · exact woken.visited loop owner earlier
    · exact woken.polled loop fd owner listed

end Steps

section Runs

variable {numThreads : Nat} {wakeupFd : LoopId → Int} {acceptFd : Int} {actions : List Action}

theorem start_reached : (start numThreads wakeupFd acceptFd).Reached := by
  intro loop
  have entered : (LoopSystem.construct loop : LoopSystem LoopId Functor).step .enter = .ok _ :=
    assume_bind_eq_ok.mpr ⟨⟨rfl, rfl⟩, rfl⟩
  have waiting : LoopSystem.Reaches loop
      { EventLoop.construct loop with phase := .testing, looping := true } :=
    ⟨_, _, Execution.nil.snoc trivial entered, rfl, fun _ => rfl⟩
  exact waiting.turn .test rfl fun _ _ stands => assume_bind_eq_ok.mpr ⟨stands, rfl⟩

theorem start_woken : (start numThreads wakeupFd acceptFd).Woken where
  polled := by
    intro loop fd owner listed
    simp only [start] at listed
    split at listed
    · simp only [Poller.addChannel, Poller.construct, Function.update_apply] at listed
      split at listed
      · cases listed
      · split at listed
        · cases listed
          rfl
        · cases listed
    · simp only [Poller.addChannel, Poller.construct, Function.update_apply] at listed
      split at listed
      · cases listed
        rfl
      · cases listed
  visited := nofun

structure Looped (server : TcpServer) : Prop where
  homely : server.Homely
  woken : server.Woken
  reached : server.Reached

theorem step_looped {action : Action} (looped : server.Looped)
    (stepped : step handshake server action = .ok after) : after.Looped where
  homely := step_homely looped.homely stepped
  woken := (looped.homely.takes stepped).woken looped.woken
  reached := (looped.homely.takes stepped).reached looped.homely.upheld.formed looped.woken looped.reached

theorem run_looped
    (run : Execution (step handshake) anyAction (start numThreads wakeupFd acceptFd) actions server) :
    server.Looped :=
  run.invariant ⟨start_homely, start_woken, start_reached⟩
    fun _ _ _ looped _ stepped => step_looped looped stepped

/-- In every run of the server, each of its loops is as a run of that loop alone leaves it, in which
every thread is outside its calls. -/
theorem loops_refine
    (run : Execution (step handshake) anyAction (start numThreads wakeupFd acceptFd) actions server)
    (loop : LoopId) : ∃ calls system,
      Execution LoopSystem.step anyAction (LoopSystem.construct loop) calls system ∧
        system.loop = server.loops loop ∧ ∀ caller, system.status caller = .idle :=
  (run_looped run).reached loop

/-- The channels that the server is started with are registered, and read. -/
structure Serving (wakeupFd : LoopId → Int) (acceptFd : Int) (server : TcpServer) : Prop where
  wakeup : ∀ loop, (server.pollers loop).channels (wakeupFd loop) = some (.wakeup loop)
  accept : (server.pollers baseLoop).channels acceptFd = some .accept
  reads : ∀ channel, (∀ conn, channel ≠ .connection conn) →
    (server.channelOf channel).events = Channel.kReadEvent

theorem start_serving (opened : Opened wakeupFd acceptFd) :
    (start numThreads wakeupFd acceptFd).Serving wakeupFd acceptFd where
  wakeup := by
    intro loop
    simp only [start]
    split
    · next base =>
        subst base
        exact (Function.update_of_ne opened.apart.symm ..).trans (Function.update_self ..)
    · exact Function.update_self ..
  accept := by
    simp only [start, ↓reduceIte]
    exact Function.update_self ..
  reads := by
    intro channel other
    cases channel with
    | connection conn => exact absurd rfl (other conn)
    | _ =>
        change Channel.kNoneEvent ||| Channel.kReadEvent = Channel.kReadEvent
        decide

theorem Takes.serving {action : Action} (takes : before.Takes handshake action after)
    (serving : before.Serving wakeupFd acceptFd) : after.Serving wakeupFd acceptFd where
  wakeup := fun loop => (takes.polled (by simp)).mpr (serving.wakeup loop)
  accept := (takes.polled (by simp)).mpr serving.accept
  reads := by
    intro channel other
    rw [takes.interest other]
    exact serving.reads channel other

theorem run_serving (opened : Opened wakeupFd acceptFd)
    (run : Execution (step handshake) anyAction (start numThreads wakeupFd acceptFd) actions server) :
    server.Homely ∧ server.Serving wakeupFd acceptFd := by
  apply run.invariant ⟨start_homely, start_serving opened⟩
  intro before action after ⟨homely, serving⟩ _ stepped
  exact ⟨step_homely homely stepped, (homely.takes stepped).serving serving⟩

/-- The poller of the loop asks whether the descriptor of the channel can be read. -/
def Asks (server : TcpServer) (loop : LoopId) (channel : ChannelId) (fd : Int) : Prop :=
  (server.pollers loop).channels fd = some channel ∧
    ∃ pfd, (server.view loop).pollfd? channel = some pfd ∧ pfd.fd = fd ∧
      pfd.events.signExtend 32 = Channel.kReadEvent

theorem Attended.asks {channel : ChannelId} {fd : Int} (attended : server.Attended)
    (listed : (server.pollers loop).channels fd = some channel)
    (reads : (server.channelOf channel).events = Channel.kReadEvent) : server.Asks loop channel fd := by
  have tabled := attended.tabled loop
  obtain ⟨pfd, there, ⟨_, events⟩, heeds⟩ := tabled.pollfd_shows ⟨fd, listed⟩
  have shown : (server.channelOf channel).fd = fd := (tabled.keyed fd channel listed).1
  have reading : (server.channelOf channel).Reading := by
    rw [Channel.Reading, reads]
    decide
  exact ⟨listed, pfd, there, (heeds reading).trans shown, events.trans reads⟩

/-- A run after which the I/O loop has been given a connection. -/
theorem exists_handed : ∃ (actions : List Action) (server : TcpServer),
    Execution (step ⟨some, fun _ => true⟩) anyAction (start 1 (fun loop => 4 + loop) 3) actions server ∧
      (server.loops 1).pendingFunctors = [.connectEstablished 1] ∧ (server.loops 1).phase = .polling := by
  have replayed : (replay (step ⟨some, fun _ => true⟩) anyAction .impossible
      (start 1 (fun loop => 4 + loop) 3)
      (iteration 0 [0, 1] [.nothing, ⟨some (6, [1]), .ok [], 0⟩] [])).toOption.any (fun server =>
        decide ((server.loops 1).pendingFunctors = [.connectEstablished 1] ∧
          (server.loops 1).phase = .polling)) = true := by
    decide +kernel
  obtain ⟨server, run, ended⟩ := Execution.exists_of_replay replayed
  exact ⟨_, server, run, of_decide_eq_true ended⟩

/-- The theorem at an I/O loop to which the base loop has given a connection. -/
theorem loops_refine_handed : ∃ (calls : List (LoopAction LoopId Functor)) (system : LoopSystem LoopId Functor),
    Execution LoopSystem.step anyAction (LoopSystem.construct 1) calls system ∧
      system.loop.pendingFunctors = [.connectEstablished 1] ∧ system.loop.phase = .polling := by
  obtain ⟨_, server, run, pending, polling⟩ := exists_handed
  obtain ⟨calls, system, replays, same, _⟩ := loops_refine run 1
  exact ⟨calls, system, replays, same ▸ pending, same ▸ polling⟩

/-- In every run, functors that wait in a loop are still run in its iteration, or the next poll of
the loop finds its eventfd readable. -/
theorem functors_awaken
    (run : Execution (step handshake) anyAction (start numThreads wakeupFd acceptFd) actions server)
    (pending : (server.loops loop).pendingFunctors ≠ []) :
    (server.loops loop).phase = .dispatching ∨ (server.loops loop).phase = .swapping ∨
      (server.loops loop).eventfd ≠ 0 := by
  have reaches := (run_looped run).reached loop
  by_cases dispatching : (server.loops loop).phase = .dispatching
  · exact .inl dispatching
  · by_cases swapping : (server.loops loop).phase = .swapping
    · exact .inr (.inl swapping)
    · exact .inr (.inr (reaches.woken pending dispatching swapping))

/-- The theorem at the same loop, which sleeps until its eventfd is written. -/
theorem functors_awaken_handed : ∃ server : TcpServer,
    (server.loops 1).pendingFunctors = [.connectEstablished 1] ∧ (server.loops 1).phase = .polling ∧
      (server.loops 1).eventfd ≠ 0 := by
  obtain ⟨_, server, run, pending, polling⟩ := exists_handed
  refine ⟨server, pending, polling, ?_⟩
  have waits : (server.loops 1).pendingFunctors ≠ [] := by
    rw [pending]
    exact List.cons_ne_nil _ _
  rcases functors_awaken run waits with dispatching | swapping | written
  · cases polling.symm.trans dispatching
  · cases polling.symm.trans swapping
  · exact written

/-- In every run, whatever becomes of the connections, each loop polls for its own wakeup and the
base loop for new connections. -/
theorem services_polled (opened : Opened wakeupFd acceptFd)
    (run : Execution (step handshake) anyAction (start numThreads wakeupFd acceptFd) actions server) :
    (∀ loop, server.Asks loop (.wakeup loop) (wakeupFd loop)) ∧ server.Asks baseLoop .accept acceptFd := by
  have attended := run_attended opened run
  obtain ⟨_, serving⟩ := run_serving opened run
  refine ⟨fun loop => attended.asks (serving.wakeup loop) ?_, attended.asks serving.accept ?_⟩
  · exact serving.reads (.wakeup loop) (by simp)
  · exact serving.reads .accept (by simp)

/-- The theorem at the loop that sleeps: the wakeup for its functor is polled. -/
theorem services_polled_handed : ∃ server : TcpServer,
    (server.loops 1).pendingFunctors = [.connectEstablished 1] ∧ server.Asks 1 (.wakeup 1) 5 ∧
      server.Asks 0 .accept 3 := by
  obtain ⟨_, server, run, pending, _⟩ := exists_handed
  obtain ⟨wakeups, accepts⟩ := services_polled opened_low run
  exact ⟨server, pending, wakeups 1, accepts⟩

end Runs

end TcpServer

end TransferServer.Net
