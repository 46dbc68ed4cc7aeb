import TransferServer.Net.BufferProperties
import TransferServer.Net.Removal

/-! One client talking to the server while the other peers are silent. `onMessage` takes each of its
reads for one packet; what the loops do between two reads, and which of them are still to come when
the server gives the client up, is open. -/

set_option autoImplicit false

namespace TransferServer.Net

open Base Lib

section Progress

/-- What the next packet of a client is taken for. -/
inductive Stage where
  | greeting
  | answering
  | verified
  deriving DecidableEq, Repr

/-- The counter of the client's address in the register table. -/
def Stage.counter : Stage → Option Int
  | .greeting => none
  | .answering => some 2
  | .verified => some 3

/-- How far a client has come with its packets. -/
structure Progress where
  stage : Stage
  accepted : Bool
  rejected : Bool
  /-- What followed the accepted packet. -/
  payload : Bytes
  deriving DecidableEq, Repr

namespace Progress

def start : Progress := ⟨.greeting, false, false, []⟩

/-- A client that has been refused starts again, as long as it is heard. -/
def hear (handshake : Handshake) (progress : Progress) (packet : Bytes) : Progress :=
  match progress.stage with
  | .greeting => { progress with stage := .answering }
  | .answering =>
      if handshake.accepts packet then { progress with stage := .verified, accepted := true }
      else { progress with stage := .greeting, rejected := true }
  | .verified => { progress with payload := progress.payload ++ packet }

end Progress

/-- The progress of a client whose reads have brought `packets`. -/
def progress (handshake : Handshake) (packets : List Bytes) : Progress :=
  packets.foldl (Progress.hear handshake) .start

end Progress

/-- The server and the reads of a client. -/
structure Session where
  server : TcpServer
  /-- What the reads to come will return. -/
  unread : List Bytes
  heard : List Bytes
  /-- The messages that the dispatcher has called `send` with for each receiver, joined. -/
  relayed : ConnId → Bytes

namespace TcpServer

/-- The task that the step runs. -/
def handling (server : TcpServer) : Action → Option Task
  | .handle loop _ => (server.todo loop).head?
  | _ => none

end TcpServer

namespace Session

variable (handshake : Handshake) (conn : ConnId) (session : Session) (action : TcpServer.Action)

def start (server : TcpServer) (reads : List Bytes) : Session := ⟨server, reads, [], fun _ => []⟩

/-- What the step means for the client: one read more is heard, or a message has been passed on where
that is on record. -/
def logged (after : TcpServer) : Session :=
  match session.server.handling action with
  | some (.callback (.connection reader) .read) =>
      if reader = conn then ⟨after, session.unread.tail, session.heard ++ session.unread.take 1,
        session.relayed⟩
      else { session with server := after }
  | some (.relay sender message receiver) =>
      if session.server.trace.count (.relayed sender receiver) <
          after.trace.count (.relayed sender receiver) then
        { session with
          server := after
          relayed := Function.update session.relayed receiver (session.relayed receiver ++ message) }
      else { session with server := after }
  | _ => { session with server := after }

def step : Outcome Session := do
  let after ← session.server.step handshake action
  return session.logged conn action after

/-- Only the client is heard of: a read returns what it has sent, nobody else sends, closes or connects.
What the polls report, what is written and what the loops run is open. -/
def Alone : Prop :=
  match action with
  | .handle loop input =>
      match (session.server.todo loop).head? with
      | some (.callback (.connection reader) .read) =>
          reader = conn ∧ ∃ bytes ∈ session.unread.head?, input.received = .ok bytes
      | some (.callback (.connection _) .close) => False
      | some (.callback .accept .read) => False
      | _ => True
  | _ => True

instance : Decidable (session.Alone conn action) := by
  unfold Alone
  split
  · split <;> infer_instance
  · infer_instance

/-- What the client was heard to say has been dealt with, and no more will be heard: it has all been
read, or the connection is destroyed. -/
def Over : Prop :=
  (∃ object ∈ session.server.conns conn, session.server.todo object.loop = []) ∧
    (session.unread = [] ∨ .destroyed conn ∈ session.server.trace)

instance : Decidable (session.Over conn) :=
  inferInstanceAs (Decidable ((∃ object ∈ session.server.conns conn, _) ∧ (_ ∨ _)))

/-- How a conversation can come out. In one that fails the process has died. -/
inductive Converses (start : Session) : Outcome Session → Prop where
  | ended {actions : List TcpServer.Action} {session : Session} :
      Execution (step handshake conn) (Alone conn) start actions session → session.Over conn →
      Converses start (.ok session)
  | failed {actions : List TcpServer.Action} {session : Session} {action : TcpServer.Action} {halt : Halt} :
      Execution (step handshake conn) (Alone conn) start actions session →
      session.Alone conn action → session.step handshake conn action = .error halt →
      halt ≠ .impossible → Converses start (.error halt)

/-- The server has taken the branch that prints `identify success`. -/
def Accepted : Prop := .identified conn ∈ session.server.trace

def Rejected : Prop := session.server.Removed conn

instance : Decidable (session.Accepted conn) := inferInstanceAs (Decidable (_ ∈ _))

instance : Decidable (session.Rejected conn) := inferInstanceAs (Decidable (session.server.Removed conn))

end Session

namespace TcpServer

variable {handshake : Handshake} {server before middle after : TcpServer} {caller loop : LoopId}
variable {permits : Event → Prop} {conn other : ConnId} {action : Action} {tasks : List Task}

section Hearing

/-- No client has been heard to say anything. -/
structure Unheard (before after : TcpServer) : Prop where
  registerTable : after.registerTable = before.registerTable
  count : after.count = before.count
  object : ∀ conn object, before.conns conn = some object → ∃ later,
    after.conns conn = some later ∧ later.loop = object.loop ∧ later.peerAddr = object.peerAddr ∧
      later.inputBuffer = object.inputBuffer

theorem Unheard.refl (server : TcpServer) : server.Unheard server :=
  ⟨rfl, rfl, fun _ object found => ⟨object, found, rfl, rfl, rfl⟩⟩

theorem Unheard.trans (first : before.Unheard middle) (second : middle.Unheard after) :
    before.Unheard after := by
  refine ⟨second.registerTable.trans first.registerTable, second.count.trans first.count, ?_⟩
  intro conn object found
  obtain ⟨between, found, loop, peer, input⟩ := first.object conn object found
  obtain ⟨later, found, loopLater, peerLater, inputLater⟩ := second.object conn between found
  exact ⟨later, found, loopLater.trans loop, peerLater.trans peer, inputLater.trans input⟩

theorem setConn_unheard {object changed : TcpConnection} (found : server.conns conn = some object)
    (loop : changed.loop = object.loop) (peer : changed.peerAddr = object.peerAddr)
    (input : changed.inputBuffer = object.inputBuffer) : server.Unheard (server.setConn conn changed) := by
  refine ⟨rfl, rfl, fun other present there => ?_⟩
  simp only [setConn, Function.update_apply]
  split
  · next same =>
      subst same
      cases found.symm.trans there
      exact ⟨changed, rfl, loop, peer, input⟩
  · exact ⟨present, there, rfl, rfl, rfl⟩

theorem Edit.unheard (edit : Edit caller permits before after)
    (silent : ∀ conn, ¬ permits (.handled conn .read)) :
    before.Unheard after ∧ after.todo = before.todo := by
  cases edit with
  | object found _ revises =>
      have input := revises.input.resolve_right (silent _)
      exact ⟨setConn_unheard found revises.loop revises.peerAddr input, rfl⟩
  | relays conn tasks reads => exact absurd reads (silent conn)
  | table conn registerTable count reads => exact absurd reads (silent conn)
  | record event permitted => exact ⟨⟨rfl, rfl, (Unheard.refl before).object⟩, rfl⟩
  | poller here gains => exact ⟨⟨rfl, rfl, (Unheard.refl before).object⟩, rfl⟩
  | queue loop functor => exact ⟨⟨rfl, rfl, (Unheard.refl before).object⟩, rfl⟩
  | erase conn here => exact ⟨⟨rfl, rfl, (Unheard.refl before).object⟩, rfl⟩

theorem Edits.unheard (edits : before.Edits caller permits after)
    (silent : ∀ conn, ¬ permits (.handled conn .read)) :
    before.Unheard after ∧ after.todo = before.todo := by
  induction edits with
  | refl => exact ⟨.refl before, rfl⟩
  | tail _ edit ih =>
      obtain ⟨unheard, todo⟩ := edit.unheard silent
      exact ⟨ih.1.trans unheard, todo.trans ih.2⟩

theorem setRevents_unheard (channel : ChannelId) (revents : Events) :
    server.Unheard (server.setRevents channel revents) := by
  cases channel with
  | wakeup loop => exact ⟨rfl, rfl, (Unheard.refl server).object⟩
  | accept => exact ⟨rfl, rfl, (Unheard.refl server).object⟩
  | connection conn =>
      simp only [setRevents]
      split
      · next found => exact setConn_unheard found rfl rfl rfl
      · exact .refl server

theorem Turn.unheard (turn : before.Turn action after) : before.Unheard after := by
  cases turn with
  | @poll loop reported poller activeChannels =>
      have marking (active : List (ChannelId × Events)) (server : TcpServer)
          (unheard : before.Unheard server) : before.Unheard (active.foldl
            (fun server (active : ChannelId × Events) => server.setRevents active.1 active.2) server) := by
        induction active generalizing server with
        | nil => exact unheard
        | cons first rest ih => exact ih _ (unheard.trans (setRevents_unheard first.1 first.2))
      have marked := marking activeChannels
        ((before.setPoller loop poller).setLoop loop (before.loops loop).poll)
        ⟨rfl, rfl, (Unheard.refl before).object⟩
      exact ⟨marked.registerTable, marked.count, marked.object⟩
  | dispatch => exact ⟨rfl, rfl, (Unheard.refl before).object⟩
  | wakeup => exact ⟨rfl, rfl, (Unheard.refl before).object⟩
  | handle => exact ⟨rfl, rfl, (Unheard.refl before).object⟩
  | prepare => exact ⟨rfl, rfl, (Unheard.refl before).object⟩
  | swap => exact ⟨rfl, rfl, (Unheard.refl before).object⟩
  | run => exact ⟨rfl, rfl, (Unheard.refl before).object⟩
  | finish => exact ⟨rfl, rfl, (Unheard.refl before).object⟩

end Hearing

section Dispatching

/-- The bytes that the entries of the dispatcher's loop have for the receiver. -/
def owed (tasks : List Task) (other : ConnId) : Bytes :=
  tasks.flatMap fun task => match task with
    | .relay _ message receiver => if receiver = other then message else []
    | _ => []

theorem owed_append (tasks later : List Task) (other : ConnId) :
    owed (tasks ++ later) other = owed tasks other ++ owed later other :=
  List.flatMap_append

theorem owed_eq_nil (plain : ∀ task ∈ tasks, task.channel ≠ none) : owed tasks other = [] := by
  refine List.flatMap_eq_nil_iff.mpr fun task found => ?_
  cases task with
  | relay => exact absurd rfl (plain _ found)
  | _ => rfl

/-- The loop over the connections reaches everyone as often as they are listed. -/
theorem owed_relays (connections : List ConnId) (message : Bytes) (other : ConnId) :
    owed (connections.map (.relay conn message)) other =
      (List.replicate (connections.count other) message).flatten := by
  induction connections with
  | nil => rfl
  | cons receiver connections ih =>
      rw [List.map_cons, ← List.singleton_append, owed_append, ih, List.count_cons]
      by_cases same : receiver = other
      · simp [owed, same, List.replicate_succ]
      · simp [owed, same]

/-- The client alone is dispatched, on its loop, before the handlers that are left there. -/
structure Dispatches (server : TcpServer) (loop : LoopId) (conn : ConnId) : Prop where
  own : ∀ other task, task ∈ server.todo other → task.channel = none →
    other = loop ∧ ∃ message receiver, task = .relay conn message receiver
  first : (server.todo loop).Pairwise fun first second => second.channel = none → first.channel = none

theorem Dispatches.congr (dispatches : before.Dispatches loop conn) (todo : after.todo = before.todo) :
    after.Dispatches loop conn :=
  ⟨todo ▸ dispatches.own, todo ▸ dispatches.first⟩

theorem Dispatches.tail {task : Task} (dispatches : server.Dispatches loop conn)
    (first : server.todo loop = task :: tasks) : (server.setTodo loop tasks).Dispatches loop conn := by
  have leading := dispatches.first
  rw [first] at leading
  refine ⟨fun other task found relays => ?_, ?_⟩
  · simp only [setTodo, Function.update_apply] at found
    split at found
    · next same =>
        subst same
        exact dispatches.own other task (first ▸ List.mem_cons_of_mem _ found) relays
    · exact dispatches.own other task found relays
  · rw [todo_setTodo]
    exact leading.of_cons

/-- New entries of the dispatcher's loop go before the handlers. -/
theorem Dispatches.prepend {front : List Task} (dispatches : server.Dispatches loop conn)
    (relays : ∀ task ∈ front, ∃ message receiver, task = .relay conn message receiver)
    (plain : ∀ task ∈ tasks, task.channel ≠ none) :
    (server.setTodo loop (front ++ tasks)).Dispatches loop conn := by
  refine ⟨fun other task found silent => ?_, ?_⟩
  · simp only [setTodo, Function.update_apply] at found
    split at found
    · next same =>
        rcases List.mem_append.mp found with dispatched | later
        · exact ⟨same, relays task dispatched⟩
        · exact absurd silent (plain task later)
    · exact dispatches.own other task found silent
  · rw [todo_setTodo]
    refine List.pairwise_append.mpr ⟨?_, ?_, fun _ _ second later silent => absurd silent (plain second later)⟩
    · refine List.pairwise_of_forall_mem_list fun task leading _ _ _ => ?_
      obtain ⟨message, receiver, rfl⟩ := relays task leading
      rfl
    · exact List.pairwise_of_forall_mem_list fun _ _ second later silent =>
        absurd silent (plain second later)

theorem Turn.todo (turn : before.Turn action after) :
    (∀ other ≠ action.loop, after.todo other = before.todo other) ∧
      ∀ task ∈ after.todo action.loop, task ∈ before.todo action.loop ∨ task.channel ≠ none := by
  cases turn with
  | @poll loop reported poller activeChannels =>
      have todo := (setAllRevents_quiet ((before.setPoller loop poller).setLoop loop
        (before.loops loop).poll) activeChannels).todo
      refine ⟨fun other apart => ?_, fun task found => .inr ?_⟩
      · exact (Function.update_of_ne apart ..).trans (congrFun todo other)
      · rw [Action.loop, todo_setTodo] at found
        obtain ⟨active, _, rfl⟩ := List.mem_map.mp found
        exact Option.some_ne_none _
  | @dispatch loop input channel tasks _ first =>
      refine ⟨fun other apart => Function.update_of_ne apart .., fun task found => ?_⟩
      rw [Action.loop, todo_setTodo] at found
      rcases List.mem_append.mp found with called | later
      · obtain ⟨callback, _, rfl⟩ := List.mem_map.mp called
        exact .inr (Option.some_ne_none _)
      · exact .inl (first ▸ List.mem_cons_of_mem _ later)
  | @wakeup loop owner input tasks _ first =>
      refine ⟨fun other apart => Function.update_of_ne apart .., fun task found => .inl ?_⟩
      change task ∈ (before.setTodo loop tasks).todo loop at found
      rw [todo_setTodo] at found
      exact first ▸ List.mem_cons_of_mem _ found
  | @handle loop input task tasks _ first =>
      refine ⟨fun other apart => Function.update_of_ne apart .., fun task found => .inl ?_⟩
      rw [Action.loop, todo_setTodo] at found
      exact first ▸ List.mem_cons_of_mem _ found
  | prepare => exact ⟨fun _ _ => rfl, fun _ => .inl⟩
  | swap => exact ⟨fun _ _ => rfl, fun _ => .inl⟩
  | run => exact ⟨fun _ _ => rfl, fun _ => .inl⟩
  | finish => exact ⟨fun _ _ => rfl, fun _ => .inl⟩

theorem Turn.busy (turn : before.Turn action after) (formed : before.WellFormed) :
    (∃ input, action = .handle action.loop input) ∨ before.todo action.loop = [] := by
  have idle {loop : LoopId} {phase : Phase} (there : (before.loops loop).phase = phase)
      (apart : phase ≠ .dispatching) : before.todo loop = [] :=
    formed.busy loop (there ▸ apart)
  cases turn with
  | poll polling => exact .inr (idle polling (by decide))
  | dispatch => exact .inl ⟨_, rfl⟩
  | wakeup => exact .inl ⟨_, rfl⟩
  | handle => exact .inl ⟨_, rfl⟩
  | prepare _ handled => exact .inr handled
  | swap swapping => exact .inr (idle swapping (by decide))
  | run running => exact .inr (idle running (by decide))
  | finish running => exact .inr (idle running (by decide))

/-- Where the step does not run an entry of the dispatcher's loop, there is none. -/
theorem Dispatches.plain (dispatches : before.Dispatches loop conn) (formed : before.WellFormed)
    (turn : before.Turn action after)
    (apart : ∀ task, before.handling action = some task → task.channel ≠ none) :
    ∀ task ∈ before.todo action.loop, task.channel ≠ none := by
  rcases turn.busy formed with ⟨input, acts⟩ | idle
  · intro task found relays
    rw [acts] at apart
    cases first : before.todo action.loop with
    | nil => simp [first] at found
    | cons head tasks =>
        have plain := apart head (by simp [handling, first])
        obtain ⟨same, _⟩ := dispatches.own action.loop task found relays
        have leading := dispatches.first
        rw [← same, first] at leading
        rw [first] at found
        rcases List.mem_cons.mp found with rfl | later
        · exact plain relays
        · exact plain ((List.pairwise_cons.mp leading).1 task later relays)
  · simp [idle]

theorem Turn.dispatches (turn : before.Turn action after) (dispatches : before.Dispatches loop conn)
    (plain : ∀ task ∈ before.todo action.loop, task.channel ≠ none) (other : ConnId) :
    after.Dispatches loop conn ∧ owed (after.todo loop) other = owed (before.todo loop) other := by
  obtain ⟨kept, fewer⟩ := turn.todo
  have plain' : ∀ task ∈ after.todo action.loop, task.channel ≠ none := by
    intro task found
    exact (fewer task found).elim (plain task) id
  refine ⟨⟨fun place task found relays => ?_, ?_⟩, ?_⟩
  · by_cases same : place = action.loop
    · exact absurd relays (plain' task (same ▸ found))
    · exact dispatches.own place task (kept place same ▸ found) relays
  · by_cases same : loop = action.loop
    · exact List.pairwise_of_forall_mem_list fun _ _ second later relays =>
        absurd relays (plain' second (same ▸ later))
    · rw [kept loop same]
      exact dispatches.first
  · by_cases same : loop = action.loop
    · rw [same, owed_eq_nil plain, owed_eq_nil plain']
    · rw [kept loop same]

end Dispatching

end TcpServer

end TransferServer.Net
