import TransferServer.Net.ThreadConfinement

/-! Who asks for the removal of a connection. Every request is counted once, where the base loop has
granted it or where it waits; a step that asks for nothing leaves the count alone. -/

set_option autoImplicit false

namespace TransferServer.Net.TcpServer

open Base Lib

variable {timely : Prop} {handshake : Handshake} {server before middle after : TcpServer}
variable {caller loop : LoopId} {permits : Event → Prop} {conn : ConnId} {written : Int}
variable {object : TcpConnection} {task : Task} {functor : Functor} {input : Input} {action : Action}

/-- How often the connection has been erased, or is about to be by the base loop. -/
def departures (server : TcpServer) (conn : ConnId) : Nat :=
  server.trace.count (.erased conn) + (server.agenda baseLoop).count (.removeConnectionInLoop conn)

/-- The server has removed the connection, or the base loop is about to. -/
def Removed (server : TcpServer) (conn : ConnId) : Prop :=
  .erased conn ∈ server.trace ∨ .removeConnectionInLoop conn ∈ server.agenda baseLoop

instance (server : TcpServer) (conn : ConnId) : Decidable (server.Removed conn) :=
  inferInstanceAs (Decidable (_ ∨ _))

theorem departures_pos : 0 < server.departures conn ↔ server.Removed conn := by
  rw [departures, Nat.add_pos_iff_pos_or_pos, List.count_pos_iff, List.count_pos_iff]
  rfl

theorem departures_eq_zero : server.departures conn = 0 ↔ ¬ server.Removed conn := by
  rw [← departures_pos, Nat.pos_iff_ne_zero, not_not]

section Frame

theorem departures_queueInLoop : (server.queueInLoop caller loop functor).departures conn =
    server.departures conn +
      if loop = baseLoop ∧ functor = .removeConnectionInLoop conn then 1 else 0 := by
  have trace : (server.queueInLoop caller loop functor).trace = server.trace := rfl
  rw [departures, departures, trace, agenda_queueInLoop, List.count_append, ← Nat.add_assoc]
  congr 1
  by_cases home : baseLoop = loop
  · simp [home, List.count_singleton]
  · simp [home, Ne.symm home]

theorem Edit.departures (edit : Edit caller permits before after) (banned : ¬ permits (.erased conn)) :
    after.departures conn = before.departures conn := by
  cases edit with
  | queue loop functor erases =>
      rw [departures_queueInLoop, if_neg fun waits => banned (erases conn waits.2), Nat.add_zero]
  | record event permitted warranted =>
      have recorded : Edit caller permits before (before.record event) := .record event permitted warranted
      exact congrArg (· + (before.agenda baseLoop).count (.removeConnectionInLoop conn))
        (recorded.count_trace banned)
  | _ => rfl

theorem Edits.departures (edits : before.Edits caller permits after)
    (banned : ¬ permits (.erased conn)) : after.departures conn = before.departures conn := by
  induction edits with
  | refl => rfl
  | tail _ edit ih => exact (edit.departures banned).trans ih

theorem departures_congr (agenda : after.agenda = before.agenda) (trace : after.trace = before.trace) :
    after.departures conn = before.departures conn := by
  rw [TcpServer.departures, TcpServer.departures, agenda, trace]

/-- Only the run of a functor takes from what a loop has to run. -/
theorem Turn.agenda (turn : before.Turn action after) (formed : before.WellFormed)
    (acts : ∀ loop input, action ≠ .run loop input) : after.agenda = before.agenda := by
  cases turn with
  | @poll loop reported poller activeChannels =>
      have loops := (setAllRevents_quiet ((before.setPoller loop poller).setLoop loop
        (before.loops loop).poll) activeChannels).loops
      have polled : ((before.setPoller loop poller).setLoop loop (before.loops loop).poll).agenda =
          before.agenda := agenda_setLoop rfl
      refine (funext fun other => ?_).trans polled
      have same := congrFun loops other
      unfold TcpServer.agenda
      exact congrArg (fun object : EventLoop LoopId Functor =>
        object.functors ++ object.pendingFunctors) same
  | dispatch => rfl
  | wakeup => exact agenda_setLoop (by rfl)
  | handle => rfl
  | prepare => exact agenda_setLoop (by rfl)
  | @swap loop swapping =>
      have idle := formed.settled loop (by rw [swapping]; decide)
      exact agenda_setLoop (by simp [EventLoop.swap, TcpServer.agenda, idle])
  | run => exact absurd rfl (acts _ _)
  | finish =>
      refine agenda_setLoop ?_
      unfold EventLoop.test
      split <;> rfl

theorem Turn.taken (turn : before.Turn (.run loop input) after) : ∃ functor functors,
    (before.loops loop).functors = functor :: functors ∧ after = before.taken loop functors := by
  cases turn with
  | run _ first => exact ⟨_, _, first, rfl⟩

theorem Turn.trace (turn : before.Turn action after) : after.trace = before.trace := by
  cases turn with
  | @poll loop reported poller activeChannels =>
      have traced (server : TcpServer) (active : List (ChannelId × Events)) :
          (active.foldl (fun server (active : ChannelId × Events) =>
            server.setRevents active.1 active.2) server).trace = server.trace := by
        induction active generalizing server with
        | nil => rfl
        | cons first rest ih =>
            refine (ih _).trans ?_
            rcases first with ⟨channel | channel | channel, revents⟩
            · rfl
            · rfl
            · simp only [setRevents]
              split <;> rfl
      exact traced _ activeChannels
  | _ => rfl

/-- Taking the functor off the queue takes a request away, if it is one. -/
theorem departures_taken (formed : server.WellFormed) {functors : List Functor}
    (first : (server.loops loop).functors = functor :: functors) :
    server.departures conn = (server.taken loop functors).departures conn +
      if functor = .removeConnectionInLoop conn then 1 else 0 := by
  have waits : functor ∈ server.agenda loop := List.mem_append_left _ (first ▸ List.mem_cons_self)
  obtain ⟨standing, _, home⟩ := formed.placed loop functor waits
  have trace : (server.taken loop functors).trace = server.trace := rfl
  rw [departures, departures, trace, agenda_taken first baseLoop, List.count_append]
  have based : functor = .removeConnectionInLoop conn → baseLoop = loop := by
    rintro rfl
    exact home
  by_cases removal : functor = .removeConnectionInLoop conn
  · rw [if_pos (based removal), if_pos removal, removal, List.count_singleton_self]
    omega
  · rw [if_neg removal]
    split
    · rw [List.count_singleton, if_neg (by simpa using removal)]
      omega
    · simp

end Frame

section Requests

theorem removeConnectionInLoop_departs : Returns (server.removeConnectionInLoop caller conn)
    fun after => after.departures conn = server.departures conn + 1 := by
  refine returns_check fun _ => ?_
  refine returns_deref fun object _ => ?_
  refine returns_check fun _ => .ok ?_
  rw [departures_queueInLoop, if_neg (by simp), Nat.add_zero]
  simp only [departures, record, agenda, List.count_append, List.count_singleton_self]
  omega

theorem removeConnection_departs : Returns (server.removeConnection caller conn)
    fun after => after.departures conn = server.departures conn + 1 := by
  unfold removeConnection
  split
  · exact removeConnectionInLoop_departs
  · refine .ok ?_
    rw [departures_queueInLoop, if_pos ⟨rfl, rfl⟩]

theorem handleClose_departs : Returns (server.handleClose caller conn)
    fun after => after.departures conn = server.departures conn + 1 := by
  refine returns_deref fun object found => ?_
  refine returns_check fun here => ?_
  have hosts := hosts_of_conns found here
  have closing : Returns object.handleClose fun result =>
      (server.record (.closed conn)).Revises (· = .closed conn) conn object result.1 :=
    returns_check fun _ => .ok ⟨rfl, rfl, rfl, .inl, .inl rfl⟩
  refine closing.bind fun result revises => ?_
  have committing : Confined ((server.record (.closed conn)).commit caller conn result)
      (server.Edits caller (· = .closed conn)) := record_commit_edits hosts found rfl trivial revises
  refine committing.returns.bind fun committed edits => ?_
  rw [← edits.departures (by simp)]
  exact removeConnection_departs

theorem onMessage_departs (found : server.conns conn = some object)
    (rejected : handshake.accepts object.inputBuffer.readable = false)
    (second : (server.registerTable.myRegister server.count object.peerAddr).1.getValue
      object.peerAddr = 2) : Returns (server.onMessage handshake caller conn written)
        fun after => after.departures conn = server.departures conn + 1 := by
  obtain ⟨table, count, registered⟩ : ∃ table count,
      server.registerTable.myRegister server.count object.peerAddr = (table, count) := ⟨_, _, rfl⟩
  rw [registered] at second
  rw [onMessage_of_conns found rfl registered, if_neg (by rw [second]; decide), if_pos second,
    if_neg (by simp [rejected])]
  exact removeConnection_departs.bind fun _ departed => .ok departed

theorem handleRead_departs {received : Readv}
    (asked : received = .ok [] ∨ server.refuses handshake conn received = true) :
    Returns (server.handleRead handshake caller conn received written)
      fun after => after.departures conn = server.departures conn + 1 := by
  refine returns_deref fun object found => ?_
  have inner := object.handleRead_inner received
  cases read : object.handleRead received with
  | error halt => exact .error trivial
  | ok result =>
      obtain ⟨filled, n⟩ := result
      obtain ⟨_, returned⟩ := inner.of_ok read
      rw [ok_bind]
      rcases asked with rfl | refusing
      · obtain rfl : n = 0 := returned
        exact handleClose_departs
      · simp only [refuses, found, read, Bool.decide_and, Bool.and_eq_true, decide_eq_true_eq] at refusing
        obtain ⟨positive, rejected, second⟩ := refusing
        dsimp only
        rw [if_pos positive]
        exact onMessage_departs conns_setConn rejected second

theorem relay_departs {sender receiver : ConnId} {message : Bytes} (other : receiver ≠ sender)
    (found : server.conns receiver = some object)
    (unregistered : server.registerTable.getValue object.peerAddr = 0) :
    Returns (server.relay caller sender message receiver written)
      fun after => after.departures receiver = server.departures receiver + 1 := by
  unfold relay
  rw [if_pos other]
  refine returns_deref fun present there => ?_
  cases found.symm.trans there
  rw [if_pos unregistered]
  exact removeConnection_departs

theorem runTask_departs (asked : server.removalBy handshake task input = some conn) :
    Returns (server.runTask handshake loop task input)
      fun after => after.departures conn = server.departures conn + 1 := by
  have recorded (called : Callback) :
      (server.record (.handled conn called)).departures conn = server.departures conn := by
    simp [departures, record, agenda]
  unfold removalBy at asked
  split at asked
  · cases asked
    rw [← recorded .close]
    exact handleClose_departs
  · split at asked
    · next reads =>
        cases asked
        rw [← recorded .read]
        exact handleRead_departs reads
    · cases asked
  · split at asked
    · cases asked
    · next found =>
        split at asked
        · next evicts =>
            cases asked
            exact relay_departs evicts.1 found evicts.2
        · cases asked
  · cases asked

end Requests

section Steps

/-- A step that only turns the loop or handles a task counts the request of the task. -/
theorem handle_departs (asked : server.removal handshake action = some conn)
    (stepped : step handshake server action = .ok after) :
    after.departures conn = server.departures conn + 1 := by
  cases action with
  | handle loop input =>
      obtain ⟨_, stepped⟩ := assume_bind_eq_ok.mp stepped
      obtain ⟨_, stepped⟩ := assume_bind_eq_ok.mp stepped
      cases first : server.todo loop with
      | nil => simp [removal, first] at asked
      | cons task tasks =>
          simp only [removal, first, List.head?_cons, Option.bind_some] at asked
          rw [first] at stepped
          have asks : (server.setTodo loop tasks).removalBy handshake task input = some conn := asked
          exact (runTask_departs asks).of_ok stepped
  | _ => cases asked

theorem Yields.departures {accepted : Option Int} (yields : before.Yields caller permits accepted after)
    (banned : ¬ permits (.erased conn)) : after.departures conn = before.departures conn := by
  rcases yields with edits | ⟨sockfd, peerAddr, _, _, _, edits⟩
  · exact edits.departures banned
  · have admitted : (before.admitted sockfd peerAddr).departures conn = before.departures conn := by
      simp [TcpServer.departures, TcpServer.admitted, record, setConn, TcpServer.agenda]
    exact (edits.departures banned).trans admitted

theorem run_departs (formed : server.WellFormed)
    (takes : server.Takes handshake (.run loop input) after)
    (stepped : step handshake server (.run loop input) = .ok after) :
    after.departures conn = server.departures conn := by
  obtain ⟨middle, turn, _, yields⟩ := takes
  obtain ⟨functor, functors, first, rfl⟩ := turn.taken
  rw [departures_taken formed first]
  by_cases removal : functor = .removeConnectionInLoop conn
  · subst removal
    obtain ⟨_, stepped⟩ := assume_bind_eq_ok.mp stepped
    obtain ⟨_, stepped⟩ := assume_bind_eq_ok.mp stepped
    rw [first] at stepped
    rw [if_pos rfl]
    exact removeConnectionInLoop_departs.of_ok stepped
  · rw [if_neg removal]
    refine yields.departures fun recorded => removal ?_
    obtain ⟨head, found, asked⟩ := recorded
    rw [first, List.head?_cons] at found
    cases found
    exact asked

/-- Each request of a step counts, and nothing else does. -/
theorem step_departs (upheld : server.Upheld timely) (based : server.Based)
    (stepped : step handshake server action = .ok after) : after.departures conn =
      server.departures conn + if server.removal handshake action = some conn then 1 else 0 := by
  have formed := upheld.formed
  have takes : server.Takes handshake action after := (step_takes upheld based).of_ok stepped
  split
  · next asked => exact handle_departs asked stepped
  · next unasked =>
      have framed (acts : ∀ loop input, action ≠ .run loop input)
          (banned : ¬ server.Recorded handshake action (.erased conn)) :
          after.departures conn = server.departures conn := by
        obtain ⟨middle, turn, _, yields⟩ := takes
        exact (yields.departures banned).trans (departures_congr (turn.agenda formed acts) turn.trace)
      cases action with
      | run loop input => exact run_departs formed takes stepped
      | handle loop input =>
          refine framed (by simp) fun recorded => unasked ?_
          obtain ⟨task, head, asked⟩ := recorded
          simp only [removal, head, Option.bind_some]
          exact asked
      | _ => exact framed (by simp) id

end Steps

end TransferServer.Net.TcpServer
