import TransferServer.Net.TcpServerFrame

/-! A step of the server: what the loop does by itself, and then what the function that it calls does.
No step fails `assertInLoopThread` where the base loop alone attends to the listening socket. -/

set_option autoImplicit false

namespace TransferServer.Net

open Base Lib

/-- The events that a functor may put on record. -/
def Functor.Records (functor : Functor) : Event → Prop
  | .established conn => functor = .connectEstablished conn
  | .erased conn => functor = .removeConnectionInLoop conn
  | .destroyed conn => functor = .connectDestroyed conn
  | _ => False

namespace TcpServer

variable {timely : Prop} {handshake : Handshake} {server before middle after : TcpServer}
variable {caller loop : LoopId} {permits : Event → Prop} {conn : ConnId} {channel : ChannelId}
variable {task : Task} {input : Input} {action : Action} {accepted : Option Int}

/-- The channels whose handlers a loop has still to call. -/
def visits (server : TcpServer) (loop : LoopId) : List ChannelId :=
  (server.todo loop).filterMap Task.channel

/-- The base loop alone polls the listening socket, and calls its handler. -/
structure Based (server : TcpServer) : Prop where
  polled : ∀ loop fd, (server.pollers loop).channels fd = some .accept → loop = baseLoop
  visited : ∀ loop, .accept ∈ server.visits loop → loop = baseLoop

/-- The events that a task may put on record. -/
def Records (handshake : Handshake) (server : TcpServer) (task : Task) (input : Input) : Event → Prop
  | .established _ => task = .callback .accept .read
  | .handled conn called => task = .callback (.connection conn) called
  | .closed conn => server.removalBy handshake task input = some conn
  | .identified conn => task = .callback (.connection conn) .read
  | .relayed sender receiver => ∃ message, task = .relay sender message receiver
  | .erased conn => server.removalBy handshake task input = some conn
  | _ => False

/-- The events that the function called in a step may put on record. -/
def Recorded (handshake : Handshake) (server : TcpServer) : Action → Event → Prop
  | .handle loop input => fun event =>
      ∃ task, (server.todo loop).head? = some task ∧ server.Records handshake task input event
  | .run loop _ => fun event =>
      ∃ functor, (server.loops loop).functors.head? = some functor ∧ functor.Records event
  | _ => fun _ => False

/-- What the loop does by itself in a step. -/
inductive Turn (server : TcpServer) : Action → TcpServer → Prop where
  | poll {loop : LoopId} {reported : Option (List (BitVec 16))} {poller : Poller ChannelId}
      {activeChannels : List (ChannelId × Events)} : (server.loops loop).phase = .polling →
      (server.pollers loop).poll server.channelOf reported = .ok (poller, activeChannels) →
      Turn server (.poll loop reported) ((activeChannels.foldl
        (fun server (active : ChannelId × Events) => server.setRevents active.1 active.2)
        ((server.setPoller loop poller).setLoop loop (server.loops loop).poll)).setTodo loop
          (activeChannels.map fun active => .handleEvent active.1))
  | dispatch {loop : LoopId} {input : Input} {channel : ChannelId} {tasks : List Task} :
      (server.loops loop).phase = .dispatching → server.todo loop = .handleEvent channel :: tasks →
      Turn server (.handle loop input) (server.setTodo loop
        ((Channel.handleEvent (server.channelOf channel).revents).map (.callback channel) ++ tasks))
  | wakeup {loop owner : LoopId} {input : Input} {tasks : List Task} :
      (server.loops loop).phase = .dispatching →
      server.todo loop = .callback (.wakeup owner) .read :: tasks →
      Turn server (.handle loop input)
        ((server.setTodo loop tasks).setLoop owner (server.loops owner).handleRead)
  | handle {loop : LoopId} {input : Input} {task : Task} {tasks : List Task} :
      (server.loops loop).phase = .dispatching → server.todo loop = task :: tasks →
      Turn server (.handle loop input) (server.setTodo loop tasks)
  | prepare {loop : LoopId} : (server.loops loop).phase = .dispatching → server.todo loop = [] →
      Turn server (.prepare loop) (server.setLoop loop (server.loops loop).prepare)
  | swap {loop : LoopId} : (server.loops loop).phase = .swapping →
      Turn server (.swap loop) (server.setLoop loop (server.loops loop).swap)
  | run {loop : LoopId} {input : Input} {functor : Functor} {functors : List Functor} :
      (server.loops loop).phase = .running → (server.loops loop).functors = functor :: functors →
      Turn server (.run loop input) (server.taken loop functors)
  | finish {loop : LoopId} : (server.loops loop).phase = .running →
      (server.loops loop).functors = [] →
      Turn server (.finish loop) (server.setLoop loop (server.loops loop).finish.test)

/-- The loop is among its handlers or its functors. -/
def Calling (server : TcpServer) (loop : LoopId) : Prop :=
  (server.loops loop).phase = .dispatching ∨ (server.loops loop).phase = .running

/-- What a step makes of the server: a turn of the loop, and what follows if it calls a function. -/
def Takes (before : TcpServer) (handshake : Handshake) (action : Action) (after : TcpServer) : Prop :=
  ∃ middle, before.Turn action middle ∧ (after = middle ∨ middle.Calling action.loop) ∧
    middle.Yields action.loop (before.Recorded handshake action) (before.accepts action) after

section Tasks

/-- Handlers wait for the thread of their connection. -/
theorem WellFormed.hosts (formed : server.WellFormed) (waits : task ∈ server.todo loop)
    (named : task.conn = some conn) : server.Hosts loop conn := by
  obtain ⟨standing, there, home, -⟩ := formed.scheduled loop task conn waits named
  intro object found
  cases (standing_of_conns found).symm.trans there
  exact formed.inLoopThread_iff.mpr home.symm

theorem WellFormed.fresh (formed : server.WellFormed) : server.conns server.nextConnId = none :=
  Option.map_eq_none_iff.mp (formed.numbered server.nextConnId (Nat.le_refl _))

theorem Upheld.undestroyed {standing : Standing} (upheld : server.Upheld timely)
    (there : server.standing conn = some standing) (up : standing.state.Up) :
    .destroyed conn ∉ server.trace := by
  obtain ⟨life, alive, state⟩ := life_of_standing there
  obtain ⟨-, -, -, destructions⟩ := counts_of_life alive
  have ended := (upheld.valid conn life alive).ended
  rw [if_neg (state ▸ up.ne_kDisconnected)] at ended
  exact List.count_eq_zero.mp (destructions ▸ ended)

theorem callback_connection_edits {called : Callback} (here : server.Hosts loop conn)
    (warranted : server.Warrants (.handled conn called)) :
    Confined (server.callback handshake loop (.connection conn) called input)
      (server.Edits loop (server.Records handshake (.callback (.connection conn) called) input)) := by
  have recorded : server.Edits loop (server.Records handshake (.callback (.connection conn) called) input)
      (server.record (.handled conn called)) := record_edits rfl warranted
  have hosts := recorded.hosts here
  cases called with
  | close =>
      have closes : server.Records handshake (.callback (.connection conn) .close) input (.closed conn) := rfl
      have erases : server.Records handshake (.callback (.connection conn) .close) input (.erased conn) := rfl
      exact (handleClose_edits hosts closes erases).mono fun _ => recorded.trans
  | error => exact .ok recorded
  | read =>
      have reads : server.Records handshake (.callback (.connection conn) .read) input
          (.handled conn .read) := rfl
      have identifies : server.Records handshake (.callback (.connection conn) .read) input
          (.identified conn) := rfl
      have removes (asked : input.received = .ok [] ∨ server.refuses handshake conn input.received = true) :
          server.removalBy handshake (.callback (.connection conn) .read) input = some conn := if_pos asked
      exact (handleRead_edits hosts reads identifies (fun ended => removes (.inl ended)) removes).mono
        fun _ => recorded.trans
  | write => exact (handleWrite_edits hosts).mono fun _ => recorded.trans

theorem relay_records {sender receiver : ConnId} {message : Bytes} :
    Confined (server.relay loop sender message receiver input.written)
      (server.Edits loop (server.Records handshake (.relay sender message receiver) input)) := by
  refine relay_edits ⟨message, rfl⟩ fun other object found unregistered => ?_
  change server.removalBy handshake (.relay sender message receiver) input = some receiver
  simp [removalBy, found, other, unregistered]

theorem runFunctor_edits {functor : Functor}
    (here : (∀ conn, functor ≠ .removeConnectionInLoop conn) → server.Hosts loop functor.conn)
    (based : (∃ conn, functor = .removeConnectionInLoop conn) →
      server.isInLoopThread loop baseLoop = true) :
    Confined (server.runFunctor loop functor input) (server.Edits loop functor.Records) := by
  cases functor with
  | connectEstablished conn => exact connectEstablished_edits (here (by simp)) rfl
  | removeConnectionInLoop conn => exact removeConnectionInLoop_edits (based ⟨conn, rfl⟩) rfl
  | connectDestroyed conn => exact connectDestroyed_edits (here (by simp)) rfl
  | sendInLoop conn message => exact sendInLoop_edits (here (by simp))
  | writeComplete conn => exact .ok (.refl server)

end Tasks

section Steps

theorem setTodo_setTodo {first second : List Task} :
    (server.setTodo loop first).setTodo loop second = server.setTodo loop second := by
  simp [setTodo]

theorem todo_setTodo {tasks : List Task} : (server.setTodo loop tasks).todo loop = tasks :=
  Function.update_self ..

theorem threadId_setLoop {object : EventLoop LoopId Functor}
    (same : object.threadId = (server.loops loop).threadId) (other : LoopId) :
    ((server.setLoop loop object).loops other).threadId = (server.loops other).threadId := by
  simp only [setLoop, Function.update_apply]
  split
  · next own => exact own ▸ same
  · rfl

/-- Turns leave every loop on its thread. -/
theorem Turn.threadId (turn : before.Turn action after) (other : LoopId) :
    (after.loops other).threadId = (before.loops other).threadId := by
  cases turn with
  | @poll loop reported poller activeChannels =>
      have loops := (setAllRevents_quiet ((before.setPoller loop poller).setLoop loop
        (before.loops loop).poll) activeChannels).loops
      have polled : (((before.setPoller loop poller).setLoop loop (before.loops loop).poll).loops
          other).threadId = (before.loops other).threadId := threadId_setLoop (by rfl) other
      exact (congrArg EventLoop.threadId (congrFun loops other)).trans polled
  | dispatch => rfl
  | wakeup => exact threadId_setLoop (by rfl) other
  | handle => rfl
  | prepare => exact threadId_setLoop (by rfl) other
  | swap => exact threadId_setLoop (by rfl) other
  | run => exact threadId_setLoop (by rfl) other
  | @finish loop =>
      refine threadId_setLoop ?_ other
      unfold EventLoop.test
      split <;> rfl

theorem handle_takes {tasks : List Task} (upheld : server.Upheld timely) (based : server.Based)
    (dispatching : (server.loops loop).phase = .dispatching) (first : server.todo loop = task :: tasks) :
    Confined ((server.setTodo loop tasks).runTask handshake loop task input)
      (server.Takes handshake (.handle loop input)) := by
  have formed := upheld.formed
  have waits : task ∈ server.todo loop := first ▸ List.mem_cons_self
  have head : (server.todo loop).head? = some task := by rw [first, List.head?_cons]
  have turned : server.Turn (.handle loop input) (server.setTodo loop tasks) := .handle dispatching first
  have recorded (event : Event) (permitted : (server.setTodo loop tasks).Records handshake task input event) :
      server.Recorded handshake (.handle loop input) event := by
    refine ⟨task, head, ?_⟩
    cases event <;> exact permitted
  have edited {computation : Outcome TcpServer} (confined : Confined computation
      ((server.setTodo loop tasks).Edits loop
        ((server.setTodo loop tasks).Records handshake task input))) :
      Confined computation (server.Takes handshake (.handle loop input)) :=
    confined.mono fun _ edits => ⟨_, turned, .inr (.inl dispatching), .inl (edits.mono recorded)⟩
  have stays : Confined (.ok (server.setTodo loop tasks)) (server.Takes handshake (.handle loop input)) :=
    .ok ⟨_, turned, .inl rfl, .inl (.refl _)⟩
  cases task with
  | handleEvent channel =>
      have turned : server.Turn (.handle loop input) _ := .dispatch dispatching first
      rw [← setTodo_setTodo] at turned
      refine .ok ⟨_, turned, .inl ?_, .inl ?_⟩
      · rw [todo_setTodo]
        rfl
      · rw [todo_setTodo]
        exact .refl _
  | callback channel called =>
      cases channel with
      | connection conn =>
          obtain ⟨standing, there, -, up⟩ := formed.scheduled loop _ conn waits rfl
          have warranted : (server.setTodo loop tasks).Warrants (.handled conn called) :=
            ⟨upheld.undestroyed there up, standing, there, up⟩
          exact edited (callback_connection_edits (formed.hosts waits rfl) warranted)
      | accept =>
          cases called with
          | read =>
              have home := based.visited loop (List.mem_filterMap.mpr ⟨_, waits, rfl⟩)
              have here : (server.setTodo loop tasks).isInLoopThread loop baseLoop = true :=
                formed.inLoopThread_iff.mpr home
              have establishes : server.Recorded handshake (.handle loop input)
                  (.established server.nextConnId) := ⟨_, head, rfl⟩
              refine (acceptConnection_yields here establishes).mono fun _ yields =>
                ⟨_, turned, .inr (.inl dispatching), ?_⟩
              rw [accepts, if_pos head]
              exact yields
          | _ => exact stays
      | wakeup owner =>
          cases called with
          | read => exact .ok ⟨_, .wakeup dispatching first, .inl rfl, .inl (.refl _)⟩
          | _ => exact stays
  | relay sender message receiver => exact edited relay_records

theorem run_takes {functor : Functor} {functors : List Functor} (upheld : server.Upheld timely)
    (running : (server.loops loop).phase = .running)
    (first : (server.loops loop).functors = functor :: functors) :
    Confined ((server.taken loop functors).runFunctor loop functor input)
      (server.Takes handshake (.run loop input)) := by
  have formed := upheld.formed.taken first
  have waits : functor ∈ server.agenda loop := List.mem_append_left _ (first ▸ List.mem_cons_self)
  obtain ⟨standing, there, home⟩ := upheld.formed.placed loop functor waits
  have here (other : ∀ conn, functor ≠ .removeConnectionInLoop conn) :
      (server.taken loop functors).Hosts loop functor.conn := by
    intro object found
    cases (standing_of_conns found).symm.trans there
    have own : functor.home object.standing.loop = object.loop := by
      cases functor with
      | removeConnectionInLoop conn => exact absurd rfl (other conn)
      | _ => rfl
    exact formed.inLoopThread_iff.mpr (home.symm.trans own)
  have based (removal : ∃ conn, functor = .removeConnectionInLoop conn) :
      (server.taken loop functors).isInLoopThread loop baseLoop = true := by
    obtain ⟨conn, rfl⟩ := removal
    exact formed.inLoopThread_iff.mpr home.symm
  have calling : (server.taken loop functors).Calling loop := by
    refine .inr ?_
    simpa only [TcpServer.taken, TcpServer.setLoop, Function.update_self] using running
  refine (runFunctor_edits here based).mono fun _ edits =>
    ⟨_, .run running first, .inr calling, .inl ?_⟩
  exact edits.mono fun event records => ⟨functor, by rw [first, List.head?_cons], records⟩

theorem step_takes (upheld : server.Upheld timely) (based : server.Based) :
    Confined (step handshake server action) (server.Takes handshake action) := by
  refine .guard nofun fun _ => ?_
  have turning {later : TcpServer} (turn : server.Turn action later) :
      Confined (.ok later) (server.Takes handshake action) := .ok ⟨later, turn, .inl rfl, .inl (.refl later)⟩
  cases action with
  | poll loop reported =>
      refine .guard nofun fun polling => ?_
      have confined : Confined ((server.pollers loop).poll server.channelOf reported) _ :=
        Poller.poll_confined reported
      cases polled : (server.pollers loop).poll server.channelOf reported with
      | error halt => exact .error (confined.of_error polled)
      | ok result => exact turning (.poll polling polled)
  | handle loop input =>
      refine .guard nofun fun dispatching => ?_
      cases first : server.todo loop with
      | nil => exact .error nofun
      | cons task tasks => exact handle_takes upheld based dispatching first
  | prepare loop => exact .guard nofun fun handled => turning (.prepare handled.1 handled.2)
  | swap loop => exact .guard nofun fun swapping => turning (.swap swapping)
  | run loop input =>
      refine .guard nofun fun running => ?_
      cases first : (server.loops loop).functors with
      | nil => exact .error nofun
      | cons functor functors => exact run_takes upheld running first
  | finish loop => exact .guard nofun fun ended => turning (.finish ended.1 ended.2)

end Steps

end TcpServer

end TransferServer.Net
