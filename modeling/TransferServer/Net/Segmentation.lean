import TransferServer.Net.Handshake
import TransferServer.Net.PacketReads
import TransferServer.Net.RelayRecipients

/-! What becomes of a client depends on how its stream is cut into reads: on whether a first packet is
long enough, on what the comparison says of a second, and on where the accepted one ends. -/

set_option autoImplicit false

namespace TransferServer.Net

open Base Lib

section Packets

variable {handshake : Handshake} {packets : List Bytes} {packet : Bytes}

theorem progress_snoc : progress handshake (packets ++ [packet]) =
    (progress handshake packets).hear handshake packet := by
  simp [progress]

/-- The payload is the end of what has been heard. -/
theorem payload_suffix (handshake : Handshake) (packets : List Bytes) :
    ((progress handshake packets).stage ≠ .verified → (progress handshake packets).payload = []) ∧
      (progress handshake packets).payload <:+ packets.flatten := by
  induction packets using List.reverseRecOn with
  | nil => exact ⟨fun _ => rfl, List.suffix_rfl⟩
  | append_singleton packets packet ih =>
      rw [progress_snoc, List.flatten_append, List.flatten_singleton]
      generalize progress handshake packets = before at ih ⊢
      obtain ⟨early, suffix⟩ := ih
      cases stage : before.stage with
      | greeting =>
          have empty := early (by simp [stage])
          simp [Progress.hear, stage, empty]
      | answering =>
          have empty := early (by simp [stage])
          simp only [Progress.hear, stage]
          split <;> simp [empty]
      | verified =>
          simp only [Progress.hear, stage]
          refine ⟨fun other => absurd rfl other, ?_⟩
          obtain ⟨front, whole⟩ := suffix
          exact ⟨front, by rw [← whole, List.append_assoc]⟩

/-- Every packet that comes first has a reply. -/
def Answered (handshake : Handshake) (packets : List Bytes) : Prop :=
  ∀ earlier packet, earlier ++ [packet] <+: packets → (progress handshake earlier).stage = .greeting →
    handshake.firstReply packet ≠ none

theorem Answered.snoc (answered : Answered handshake packets)
    (last : (progress handshake packets).stage = .greeting → handshake.firstReply packet ≠ none) :
    Answered handshake (packets ++ [packet]) := by
  intro earlier first leading
  rcases List.prefix_concat_iff.mp leading with whole | front
  · obtain ⟨rfl, same⟩ := List.append_inj' whole rfl
    cases same
    exact last
  · exact answered earlier first front

theorem eq_of_suffix {payload payload' stream : Bytes} (suffix : payload <:+ stream)
    (suffix' : payload' <:+ stream) : payload = payload' ↔ payload.length = payload'.length := by
  refine ⟨congrArg List.length, fun same => ?_⟩
  exact List.suffix_of_suffix_length_le suffix suffix' (Nat.le_of_eq same) |>.eq_of_length same

end Packets

/-- A task by which no peer is heard of. -/
def Task.Plain : Task → Prop
  | .handleEvent _ => True
  | .callback (.connection _) called => called ≠ .read ∧ called ≠ .close
  | .callback .accept called => called ≠ .read
  | .callback (.wakeup _) _ => True
  | .relay _ _ _ => False

namespace TcpServer

variable {timely : Prop} {handshake : Handshake} {server before after : TcpServer} {loop : LoopId}
variable {conn : ConnId} {written : Int} {object : TcpConnection}

section Listening

/-- A connection that the messages of the client go to. -/
structure Listens (server : TcpServer) (conn : ConnId) (str : Bytes) (other : ConnId) : Prop where
  apart : other ≠ conn
  kept : ¬ server.Removed other
  entered : ∃ object, server.conns other = some object ∧ object.peerAddr ≠ str ∧
    server.registerTable.getValue object.peerAddr ≠ 0

theorem Upheld.listed_once (upheld : server.Upheld timely) (kept : ¬ server.Removed conn)
    (found : server.conns conn = some object) : server.connections.count conn = 1 := by
  obtain ⟨life, alive, _⟩ := life_of_standing (standing_of_conns found)
  obtain ⟨entries, _, erasures, _⟩ := counts_of_life alive
  have once := (upheld.valid conn life alive).listed
  have unerased : server.trace.count (.erased conn) = 0 :=
    List.count_eq_zero.mpr fun erased => kept (.inl erased)
  omega

theorem Upheld.removed_of_destroyed (upheld : server.Upheld timely)
    (destroyed : .destroyed conn ∈ server.trace) : server.Removed conn := by
  cases there : server.standing conn with
  | none => exact absurd destroyed (upheld.formed.known conn there).2.2
  | some standing =>
      obtain ⟨life, alive, _⟩ := life_of_standing there
      obtain ⟨_, _, erasures, destructions⟩ := counts_of_life alive
      obtain ⟨listed, ended, unlisted, _⟩ := upheld.valid conn life alive
      have some : 0 < server.trace.count (.destroyed conn) := List.count_pos_iff.mpr destroyed
      have down : life.state = .kDisconnected := by
        by_contra up
        rw [if_neg up] at ended
        omega
      refine .inl (List.count_pos_iff.mp ?_)
      have gone := unlisted down
      omega

theorem relay_relays {caller : LoopId} {sender receiver : ConnId} {message : Bytes}
    (apart : receiver ≠ sender) (found : server.conns receiver = some object)
    (entered : server.registerTable.getValue object.peerAddr ≠ 0) :
    Returns (server.relay caller sender message receiver written) fun after =>
      server.trace.count (.relayed sender receiver) < after.trace.count (.relayed sender receiver) := by
  unfold relay
  rw [if_pos apart]
  refine returns_deref fun present there => ?_
  cases found.symm.trans there
  rw [if_neg entered]
  have sending : Returns ((server.record (.relayed sender receiver)).send caller receiver message written)
      ((server.record (.relayed sender receiver)).Edits caller fun _ => False) := send_edits.returns
  refine sending.mono fun after edits => ?_
  rw [edits.count_trace id]
  simp [record]

end Listening

section Steps

variable {action : Action} {input : Input} {task : Task} {tasks : List Task}

/-- Only a read hears or identifies a client. -/
theorem Recorded.read {event : Event} (recorded : server.Recorded handshake action event)
    (reads : event = .handled conn .read ∨ event = .identified conn) :
    server.handling action = some (.callback (.connection conn) .read) := by
  cases action with
  | handle loop input =>
      obtain ⟨task, head, records⟩ := recorded
      rcases reads with rfl | rfl
      · exact head.trans (congrArg some records)
      · exact head.trans (congrArg some records)
  | run loop input =>
      obtain ⟨functor, _, records⟩ := recorded
      rcases reads with rfl | rfl
      · cases records
      · cases records
  | _ => cases recorded

theorem Yields.edits {caller : LoopId} {permits : Event → Prop} {accepted : Option Int}
    (yields : before.Yields caller permits accepted after) (nobody : accepted = none) :
    before.Edits caller permits after := by
  rcases yields with edits | ⟨sockfd, peerAddr, connects, _⟩
  · exact edits
  · cases nobody.symm.trans connects

/-- The entry of the dispatcher's loop is taken off before it runs. -/
theorem Turn.relay (turn : before.Turn (.handle loop input) after)
    (first : before.todo loop = task :: tasks) (relays : task.channel = none) :
    after = before.setTodo loop tasks := by
  cases turn with
  | dispatch _ other =>
      cases first.symm.trans other
      cases relays
  | wakeup _ other =>
      cases first.symm.trans other
      cases relays
  | handle _ other =>
      cases first.symm.trans other
      rfl

theorem accepts_eq_none (plain : ∀ task, server.handling action = some task → task.Plain) :
    server.accepts action = none := by
  cases action with
  | handle place input =>
      refine if_neg fun head => ?_
      have plain := plain _ head
      exact plain rfl
  | _ => rfl

theorem removal_eq_none (plain : ∀ task, server.handling action = some task → task.Plain) :
    server.removal handshake action = none := by
  cases action with
  | handle place input =>
      refine Option.bind_eq_none_iff.mpr fun task head => ?_
      have plain := plain task head
      unfold removalBy
      split
      · exact absurd rfl plain.2
      · exact absurd rfl plain.1
      · cases plain
      · rfl
  | _ => rfl

end Steps

end TcpServer

namespace Session

open TcpServer

variable {audience : ConnId → Prop} {handshake : Handshake} {session after : Session}
variable {server : TcpServer} {loop place : LoopId} {conn : ConnId} {str bytes : Bytes}
variable {reads rest : List Bytes} {action : Action} {input : Input} {tasks : List Task}

section Conversation

/-- What holds between the steps of a conversation. -/
structure Conversing (handshake : Handshake) (audience : ConnId → Prop) (conn : ConnId) (str : Bytes)
    (loop : LoopId) (reads : List Bytes) (session : Session) : Prop where
  homely : session.server.Homely
  consistent : session.server.registerTable.Consistent session.server.count
  drained : session.server.Drained conn str loop
  counts : session.server.Counts conn str (progress handshake session.heard)
  listening : ∀ other, audience other → session.server.Listens conn str other
  dispatches : session.server.Dispatches loop conn
  passed : ∀ other, audience other → session.relayed other ++ owed (session.server.todo loop) other =
    (progress handshake session.heard).payload
  reads : session.heard ++ session.unread = reads
  answered : Answered handshake session.heard

/-- Nothing of the client's is heard. -/
theorem Conversing.frame {relayed : ConnId → Bytes}
    (conversing : session.Conversing handshake audience conn str loop reads) (homely : server.Homely)
    (unheard : session.server.Unheard server)
    (identified : .identified conn ∈ server.trace ↔ .identified conn ∈ session.server.trace)
    (departures : ∀ other, other = conn ∨ audience other →
      server.departures other = session.server.departures other)
    (dispatches : server.Dispatches loop conn)
    (passed : ∀ other, audience other → relayed other ++ owed (server.todo loop) other =
      session.relayed other ++ owed (session.server.todo loop) other) :
    Conversing handshake audience conn str loop reads ⟨server, session.unread, session.heard, relayed⟩ where
  homely := homely
  consistent := unheard.registerTable ▸ unheard.count ▸ conversing.consistent
  drained := by
    obtain ⟨object, found, place, peer, valid, empty⟩ := conversing.drained
    obtain ⟨later, there, same, peerLater, input⟩ := unheard.object conn object found
    exact ⟨later, there, same.trans place, peerLater.trans peer, input ▸ valid, input ▸ empty⟩
  counts := by
    obtain ⟨held, accepted, removed⟩ := conversing.counts
    exact ⟨unheard.registerTable ▸ held, identified.trans accepted,
      (removed_congr (departures conn (.inl rfl))).trans removed⟩
  listening := by
    intro other listens
    obtain ⟨apart, kept, object, found, foreign, entered⟩ := conversing.listening other listens
    obtain ⟨later, there, _, peer, _⟩ := unheard.object other object found
    refine ⟨apart, fun removed => kept ?_, later, there, peer ▸ foreign, ?_⟩
    · exact (removed_congr (departures other (.inr listens))).mp removed
    · rw [unheard.registerTable, peer]
      exact entered
  dispatches := dispatches
  passed := fun other listens => (passed other listens).trans (conversing.passed other listens)
  reads := conversing.reads
  answered := conversing.answered

/-- A step of a conversation reads what the client has sent, passes a message on, or does neither. -/
theorem Alone.cases (alone : session.Alone conn action) :
    (∀ task, session.server.handling action = some task → task.Plain) ∨
      (∃ loop input tasks bytes rest, action = .handle loop input ∧
        session.server.todo loop = .callback (.connection conn) .read :: tasks ∧
        session.unread = bytes :: rest ∧ input.received = .ok bytes) ∨
      ∃ loop input tasks sender message receiver, action = .handle loop input ∧
        session.server.todo loop = .relay sender message receiver :: tasks := by
  cases action with
  | handle loop input =>
      cases first : session.server.todo loop with
      | nil => exact .inl (by simp [handling, first])
      | cons task tasks =>
          have plain (plain : task.Plain) : ∀ other,
              session.server.handling (.handle loop input) = some other → other.Plain := by
            intro other head
            simp only [handling, first, List.head?_cons, Option.some.injEq] at head
            exact head ▸ plain
          simp only [Alone, first, List.head?_cons] at alone
          cases task with
          | handleEvent channel => exact .inl (plain trivial)
          | relay sender message receiver =>
              exact .inr (.inr ⟨loop, input, tasks, sender, message, receiver, rfl, first⟩)
          | callback channel called =>
              cases channel with
              | wakeup owner => exact .inl (plain trivial)
              | accept =>
                  cases called with
                  | read => cases alone
                  | _ => exact .inl (plain (by simp [Task.Plain]))
              | connection reader =>
                  cases called with
                  | read =>
                      obtain ⟨rfl, bytes, unread, received⟩ := alone
                      obtain ⟨rest, unread⟩ := List.head?_eq_some_iff.mp unread
                      exact .inr (.inl ⟨loop, input, tasks, bytes, rest, rfl, first, unread, received⟩)
                  | close => cases alone
                  | _ => exact .inl (plain (by simp [Task.Plain]))
  | _ => exact .inl (by simp [handling])

theorem Conversing.plain (conversing : session.Conversing handshake audience conn str loop reads)
    (plain : ∀ task, session.server.handling action = some task → task.Plain)
    (stepped : session.server.step handshake action = .ok server) :
    (session.logged conn action server).Conversing handshake audience conn str loop reads := by
  obtain ⟨upheld, based⟩ := conversing.homely
  obtain ⟨middle, turn, _, yields⟩ := conversing.homely.takes stepped
  have unread (reader : ConnId) :
      session.server.handling action ≠ some (.callback (.connection reader) .read) :=
    fun head => (plain _ head).1 rfl
  have edits := yields.edits (accepts_eq_none plain)
  obtain ⟨unheard, todo⟩ := edits.unheard fun reader recorded => unread reader (recorded.read (.inl rfl))
  have relayless : ∀ task ∈ session.server.todo action.loop, task.channel ≠ none := by
    refine conversing.dispatches.plain upheld.formed turn fun task head relays => ?_
    cases task with
    | relay => cases plain _ head
    | _ => cases relays
  have logged : session.logged conn action server = { session with server } := by
    unfold Session.logged
    split
    · next head => exact absurd head (unread _)
    · next head => cases plain _ head
    · rfl
  rw [logged]
  refine conversing.frame (step_homely conversing.homely stepped) (turn.unheard.trans unheard) ?_ ?_ ?_ ?_
  · rw [edits.mem_trace fun recorded => unread conn (recorded.read (.inr rfl)), turn.trace]
  · intro other _
    rw [step_departs upheld based stepped, removal_eq_none plain, if_neg (by simp), Nat.add_zero]
  · exact (turn.dispatches conversing.dispatches relayless conn).1.congr todo
  · intro other _
    rw [todo, (turn.dispatches conversing.dispatches relayless other).2]

/-- A message that was passed on is on record. -/
theorem logged_relay {receiver : ConnId} {message : Bytes}
    (head : session.server.handling action = some (.relay conn message receiver))
    (passes : audience receiver → session.server.trace.count (.relayed conn receiver) <
      server.trace.count (.relayed conn receiver)) :
    ∃ relayed, session.logged conn action server = { session with server, relayed } ∧
      ∀ other, audience other → relayed other =
        session.relayed other ++ if receiver = other then message else [] := by
  unfold logged
  rw [head]
  dsimp only
  by_cases grown : session.server.trace.count (.relayed conn receiver) <
    server.trace.count (.relayed conn receiver)
  · refine ⟨_, if_pos grown, fun other _ => ?_⟩
    by_cases same : other = receiver
    · subst same
      rw [Function.update_self, if_pos rfl]
    · rw [Function.update_of_ne same, if_neg (Ne.symm same), List.append_nil]
  · refine ⟨session.relayed, if_neg grown, fun other listens => ?_⟩
    rw [if_neg fun same : receiver = other => grown (passes (same ▸ listens)), List.append_nil]

/-- Nobody that listens is evicted, nor is the client. -/
theorem Conversing.unevicted {receiver : ConnId} {message : Bytes}
    (conversing : session.Conversing handshake audience conn str loop reads)
    (first : session.server.todo place = .relay conn message receiver :: tasks) {other : ConnId}
    (concerned : other = conn ∨ audience other) :
    session.server.removal handshake (.handle place input) ≠ some other := by
  intro asked
  simp only [removal, first, List.head?_cons, Option.bind_some, removalBy] at asked
  split at asked
  · cases asked
  · next object found =>
      split at asked
      · next evicts =>
          cases asked
          rcases concerned with same | listens
          · exact evicts.1 same
          · obtain ⟨_, _, present, there, _, entered⟩ := conversing.listening receiver listens
            cases found.symm.trans there
            exact entered evicts.2
      · cases asked

theorem Conversing.passes {receiver : ConnId} {message : Bytes}
    (conversing : session.Conversing handshake audience conn str loop reads)
    (first : session.server.todo place = .relay conn message receiver :: tasks)
    (stepped : session.server.step handshake (.handle place input) = .ok server)
    (listens : audience receiver) : session.server.trace.count (.relayed conn receiver) <
      server.trace.count (.relayed conn receiver) := by
  obtain ⟨apart, _, object, found, _, entered⟩ := conversing.listening receiver listens
  obtain ⟨_, stepped⟩ := assume_bind_eq_ok.mp stepped
  obtain ⟨_, stepped⟩ := assume_bind_eq_ok.mp stepped
  rw [first] at stepped
  have relays : Returns ((session.server.setTodo place tasks).relay place conn message receiver
      input.written) _ := relay_relays apart found entered
  exact relays.of_ok stepped

theorem Conversing.relay {sender receiver : ConnId} {message : Bytes}
    (conversing : session.Conversing handshake audience conn str loop reads)
    (first : session.server.todo place = .relay sender message receiver :: tasks)
    (stepped : session.server.step handshake (.handle place input) = .ok server) :
    (session.logged conn (.handle place input) server).Conversing handshake audience conn str loop
      reads := by
  obtain ⟨upheld, based⟩ := conversing.homely
  have waits : .relay sender message receiver ∈ session.server.todo place :=
    first ▸ List.mem_cons_self
  obtain ⟨rfl, _, _, same⟩ := conversing.dispatches.own place _ waits rfl
  cases same
  have head : session.server.handling (.handle place input) = some (.relay conn message receiver) := by
    simp [handling, first]
  have unread (reader : ConnId) : session.server.handling (.handle place input) ≠
      some (.callback (.connection reader) .read) := by
    simp [head]
  obtain ⟨middle, turn, _, yields⟩ := conversing.homely.takes stepped
  obtain rfl := turn.relay first rfl
  have edits := yields.edits (by simp [accepts, first])
  obtain ⟨unheard, todo⟩ := edits.unheard fun reader recorded => unread reader (recorded.read (.inl rfl))
  have turned : session.server.Unheard (session.server.setTodo place tasks) :=
    ⟨rfl, rfl, (Unheard.refl session.server).object⟩
  obtain ⟨relayed, logged, more⟩ := logged_relay head (conversing.passes first stepped)
  rw [logged]
  refine conversing.frame (step_homely conversing.homely stepped) (turned.trans unheard) ?_ ?_
    ((conversing.dispatches.tail first).congr todo) ?_
  · exact edits.mem_trace fun recorded => unread conn (recorded.read (.inr rfl))
  · intro other concerned
    rw [step_departs upheld based stepped, if_neg (conversing.unevicted first concerned), Nat.add_zero]
  · intro other listens
    rw [more other listens, todo, todo_setTodo, first, List.append_assoc]
    rfl

end Conversation

section Hearing

theorem getValue_congr {table table' : RegisterTable} {name : Bytes} (find : table.find name = table'.find name) :
    table.getValue name = table'.getValue name := by
  simp only [RegisterTable.getValue, find]

/-- What the read puts in front of the handlers that are left. -/
theorem Conversing.front (conversing : session.Conversing handshake audience conn str loop reads)
    (heard : Heard handshake loop conn str bytes (progress handshake session.heard)
      (session.server.setTodo loop tasks) server) :
    ∃ front, server.todo = (session.server.setTodo loop (front ++ tasks)).todo ∧
      (∀ task ∈ front, ∃ receiver, task = .relay conn bytes receiver) ∧
      ∀ other, audience other → (progress handshake session.heard).payload ++ owed front other =
        ((progress handshake session.heard).hear handshake bytes).payload := by
  have todo := heard.todo
  cases stage : (progress handshake session.heard).stage with
  | verified =>
      rw [stage, if_pos rfl, todo_setTodo, setTodo_setTodo] at todo
      refine ⟨session.server.connections.map (.relay conn bytes), todo, fun task found => ?_, ?_⟩
      · obtain ⟨receiver, _, rfl⟩ := List.mem_map.mp found
        exact ⟨receiver, rfl⟩
      · intro other listens
        obtain ⟨_, kept, object, found, _⟩ := conversing.listening other listens
        rw [owed_relays, conversing.homely.upheld.listed_once kept found]
        simp [Progress.hear, stage]
  | greeting =>
      rw [stage, if_neg (by decide)] at todo
      refine ⟨[], todo, by simp, fun other _ => ?_⟩
      simp [Progress.hear, stage, owed]
  | answering =>
      rw [stage, if_neg (by decide)] at todo
      refine ⟨[], todo, by simp, fun other _ => ?_⟩
      simp only [Progress.hear, stage, owed, List.flatMap_nil, List.append_nil]
      split <;> rfl

/-- The client is read on its own loop. -/
theorem Conversing.home (conversing : session.Conversing handshake audience conn str loop reads)
    (first : session.server.todo place = .callback (.connection conn) .read :: tasks) : place = loop := by
  obtain ⟨object, found, home, _⟩ := conversing.drained
  have waits : .callback (.connection conn) .read ∈ session.server.todo place :=
    first ▸ List.mem_cons_self
  obtain ⟨standing, there, here, _⟩ :=
    conversing.homely.upheld.formed.scheduled place _ conn waits rfl
  cases (standing_of_conns found).symm.trans there
  exact here.symm.trans home

theorem Conversing.hears (conversing : session.Conversing handshake audience conn str loop reads)
    (first : session.server.todo loop = .callback (.connection conn) .read :: tasks)
    (received : input.received = .ok bytes) (nonempty : bytes ≠ [])
    (stepped : session.server.step handshake (.handle loop input) = .ok server) :
    Heard handshake loop conn str bytes (progress handshake session.heard)
      (session.server.setTodo loop tasks) server := by
  obtain ⟨_, stepped⟩ := assume_bind_eq_ok.mp stepped
  obtain ⟨_, stepped⟩ := assume_bind_eq_ok.mp stepped
  rw [first] at stepped
  obtain ⟨held, identified, removed⟩ := conversing.counts
  have counts : Counts conn str (progress handshake session.heard) (session.server.setTodo loop tasks) :=
    ⟨held, identified, removed⟩
  have reading : Returns ((session.server.setTodo loop tasks).callback handshake loop
      (.connection conn) .read input) _ :=
    read_heard conversing.consistent conversing.drained counts received nonempty
  exact reading.of_ok stepped

theorem Conversing.read (conversing : session.Conversing handshake audience conn str loop reads)
    (first : session.server.todo place = .callback (.connection conn) .read :: tasks)
    (unread : session.unread = bytes :: rest) (received : input.received = .ok bytes)
    (nonempty : bytes ≠ [])
    (stepped : session.server.step handshake (.handle place input) = .ok server) :
    (session.logged conn (.handle place input) server).Conversing handshake audience conn str loop
      reads := by
  obtain rfl := conversing.home first
  have heard := conversing.hears first received nonempty stepped
  obtain ⟨middle, turn, _⟩ := conversing.homely.takes stepped
  have plain : ∀ task ∈ session.server.todo place, task.channel ≠ none := by
    refine conversing.dispatches.plain conversing.homely.upheld.formed turn fun task head => ?_
    simp only [handling, first, List.head?_cons, Option.some.injEq] at head
    exact head ▸ Option.some_ne_none _
  have plain' : ∀ task ∈ tasks, task.channel ≠ none :=
    fun task later => plain task (first ▸ List.mem_cons_of_mem _ later)
  obtain ⟨front, todo, relays, payload⟩ := conversing.front heard
  have passed (other : ConnId) (listens : audience other) :
      session.relayed other = (progress handshake session.heard).payload := by
    rw [← conversing.passed other listens, owed_eq_nil plain, List.append_nil]
  have logged : session.logged conn (.handle place input) server =
      ⟨server, rest, session.heard ++ [bytes], session.relayed⟩ := by
    unfold Session.logged
    have head : session.server.handling (.handle place input) =
        some (.callback (.connection conn) .read) := by
      simp [handling, first]
    rw [head]
    simp [unread]
  rw [logged]
  refine ⟨step_homely conversing.homely stepped, heard.consistent, ?_, ?_, fun other listens => ?_, ?_,
    ?_, ?_, conversing.answered.snoc heard.answered⟩
  · obtain ⟨object, found, home, peer, _⟩ := conversing.drained
    obtain ⟨between, later, there, kept, home', peer', rest⟩ := heard.client
    cases found.symm.trans there
    exact ⟨later, kept, home'.trans home, peer'.trans peer, rest⟩
  · change Counts conn str (progress handshake (session.heard ++ [bytes])) server
    rw [progress_snoc]
    exact heard.counts
  · obtain ⟨apart, kept, present, known, foreign, entered⟩ := conversing.listening other listens
    obtain ⟨later, there, peer'⟩ := heard.others other apart present known
    refine ⟨apart, fun removed => kept ?_, later, there, peer' ▸ foreign, ?_⟩
    · exact (removed_congr (heard.kept other apart)).mp removed
    · change server.registerTable.getValue later.peerAddr ≠ 0
      rw [peer', getValue_congr (heard.foreign _ foreign)]
      exact entered
  · refine (conversing.dispatches.prepend (fun task found => ?_) plain').congr todo
    obtain ⟨receiver, rfl⟩ := relays task found
    exact ⟨bytes, receiver, rfl⟩
  · intro other listens
    change session.relayed other ++ owed (server.todo place) other =
      (progress handshake (session.heard ++ [bytes])).payload
    rw [todo, todo_setTodo, owed_append, owed_eq_nil plain', List.append_nil, passed other listens,
      progress_snoc]
    exact payload other listens
  · rw [List.append_assoc, List.singleton_append, ← unread]
    exact conversing.reads

theorem Conversing.step (conversing : session.Conversing handshake audience conn str loop reads)
    (nonempty : ∀ bytes ∈ reads, bytes ≠ []) (alone : session.Alone conn action)
    (stepped : session.step handshake conn action = .ok after) :
    after.Conversing handshake audience conn str loop reads := by
  obtain ⟨server, served, returned⟩ := bind_eq_ok.mp stepped
  cases returned
  rcases alone.cases with plain | ⟨place, input, tasks, bytes, rest, rfl, first, unread, received⟩ |
    ⟨place, input, tasks, sender, message, receiver, rfl, first⟩
  · exact conversing.plain plain served
  · have some : bytes ≠ [] := by
      apply nonempty
      rw [← conversing.reads, unread]
      exact List.mem_append_right _ List.mem_cons_self
    exact conversing.read first unread received some served
  · exact conversing.relay first served

/-- What became of a client, when its conversation is over. -/
structure Fate (handshake : Handshake) (audience : ConnId → Prop) (conn : ConnId) (reads : List Bytes)
    (session : Session) : Prop where
  accepted : session.Accepted conn ↔ (progress handshake session.heard).accepted = true
  rejected : session.Rejected conn ↔ (progress handshake session.heard).rejected = true
  relayed : ∀ other, audience other → session.relayed other = (progress handshake session.heard).payload
  heard : session.heard ++ session.unread = reads
  ended : session.unread = [] ∨ session.Rejected conn
  answered : Answered handshake session.heard

theorem Fate.all_heard (fate : session.Fate handshake audience conn reads) :
    session.Rejected conn ∨ session.heard = reads := by
  rcases fate.ended with all | rejected
  · refine .inr ?_
    rw [← fate.heard, all, List.append_nil]
  · exact .inl rejected

theorem Conversing.fate (conversing : session.Conversing handshake audience conn str loop reads)
    (finished : session.Over conn) : session.Fate handshake audience conn reads := by
  obtain ⟨⟨object, there, handled⟩, ended⟩ := finished
  obtain ⟨present, found, home, _⟩ := conversing.drained
  cases there.symm.trans found
  refine ⟨conversing.counts.identified, conversing.counts.removed, fun other listens => ?_,
    conversing.reads, ended.imp_right conversing.homely.upheld.removed_of_destroyed, conversing.answered⟩
  rw [← conversing.passed other listens, ← home, handled]
  exact (List.append_nil _).symm

end Hearing

end Session

namespace TcpServer

section Newcomers

variable {numThreads : Nat} {wakeupFd : LoopId → Int} {acceptFd : Int} {actions : List Action}
variable {handshake : Handshake} {server before after : TcpServer} {conn : ConnId} {reads reads' : List Bytes}
variable {outcome outcome' : Outcome Session}

/-- A connection whose client has not been heard of yet, with no entry under its address, while no
loop is among its handlers. -/
structure Newcomer (server : TcpServer) (conn : ConnId) : Prop where
  silent : ∃ object ∈ server.conns conn, object.inputBuffer = .fresh ∧
    server.registerTable.find object.peerAddr = none
  unidentified : .identified conn ∉ server.trace
  kept : ¬ server.Removed conn
  idle : ∀ loop, loop ≤ server.numThreads → server.todo loop = []

/-- Another connection whose counter is past the handshake. -/
structure Verified (server : TcpServer) (conn other : ConnId) : Prop where
  apart : other ≠ conn
  kept : ¬ server.Removed other
  verified : ∃ object ∈ server.conns other, 3 ≤ server.registerTable.getValue object.peerAddr

instance (server : TcpServer) (conn : ConnId) : Decidable (server.Newcomer conn) :=
  decidable_of_iff
    ((∃ object ∈ server.conns conn, object.inputBuffer = .fresh ∧
        server.registerTable.find object.peerAddr = none) ∧ .identified conn ∉ server.trace ∧
      ¬ server.Removed conn ∧ ∀ loop, loop ≤ server.numThreads → server.todo loop = [])
    ⟨fun ⟨silent, unidentified, kept, idle⟩ => ⟨silent, unidentified, kept, idle⟩,
      fun newcomer => ⟨newcomer.silent, newcomer.unidentified, newcomer.kept, newcomer.idle⟩⟩

instance (server : TcpServer) (conn other : ConnId) : Decidable (server.Verified conn other) :=
  decidable_of_iff
    (other ≠ conn ∧ ¬ server.Removed other ∧
      ∃ object ∈ server.conns other, 3 ≤ server.registerTable.getValue object.peerAddr)
    ⟨fun ⟨apart, kept, verified⟩ => ⟨apart, kept, verified⟩,
      fun verified => ⟨verified.apart, verified.kept, verified.verified⟩⟩

theorem Edits.todo {caller loop : LoopId} {permits : Event → Prop}
    (edits : before.Edits caller permits after) (other : loop ≠ caller) :
    after.todo loop = before.todo loop := by
  induction edits with
  | refl => rfl
  | tail _ edit ih =>
      refine Eq.trans ?_ ih
      cases edit with
      | relays => exact Function.update_of_ne other ..
      | _ => rfl

theorem Takes.todo {action : Action} {loop : LoopId} (takes : before.Takes handshake action after)
    (other : loop ≠ action.loop) : after.todo loop = before.todo loop := by
  obtain ⟨middle, turn, _, edits | ⟨sockfd, peerAddr, _, _, _, edits⟩⟩ := takes
  · exact (edits.todo other).trans (turn.todo.1 loop other)
  · exact (edits.todo other).trans (turn.todo.1 loop other)

/-- Loops that the server does not have are never among handlers. -/
theorem run_unhandled
    (run : Execution (step handshake) anyAction (start numThreads wakeupFd acceptFd) actions server) :
    server.Homely ∧ ∀ loop, server.numThreads < loop → server.todo loop = [] := by
  induction run with
  | nil => exact ⟨start_homely, fun _ _ => rfl⟩
  | @snoc actions before after action _ _ stepped ih =>
      obtain ⟨homely, idle⟩ := ih
      have takes := homely.takes stepped
      obtain ⟨within, _⟩ := assume_bind_eq_ok.mp stepped
      have threads : after.numThreads = before.numThreads := by
        rcases takes.anchored with anchored | ⟨_, _, _, earlier, _, _, later⟩
        · exact anchored.numThreads
        · exact later.numThreads.trans earlier.numThreads
      refine ⟨step_homely homely stepped, fun loop beyond => ?_⟩
      rw [threads] at beyond
      have apart : loop ≠ action.loop := (Nat.lt_of_le_of_lt within beyond).ne'
      exact (takes.todo apart).trans (idle loop beyond)

theorem Newcomer.conversing (newcomer : server.Newcomer conn)
    (run : Execution (step handshake) anyAction (start numThreads wakeupFd acceptFd) actions server)
    (reads : List Bytes) : ∃ str loop,
      (Session.start server reads).Conversing handshake (server.Verified conn) conn str loop reads := by
  obtain ⟨-, consistent, -⟩ := run_registered run
  obtain ⟨homely, unhandled⟩ := run_unhandled run
  obtain ⟨object, found, fresh, unregistered⟩ := newcomer.silent
  have idle (loop : LoopId) : server.todo loop = [] := by
    rcases Nat.lt_or_ge server.numThreads loop with beyond | within
    · exact unhandled loop beyond
    · exact newcomer.idle loop within
  refine ⟨object.peerAddr, object.loop, homely, consistent, ⟨object, found, rfl, rfl, ?_, ?_⟩,
    ⟨unregistered, iff_of_false newcomer.unidentified (by simp [progress, Progress.start, Session.start]),
      iff_of_false newcomer.kept (by simp [progress, Progress.start, Session.start])⟩,
    fun other verified => ?_, ⟨fun loop task waits => ?_, ?_⟩, fun other _ => ?_, rfl, ?_⟩
  · exact fresh ▸ Buffer.fresh_valid
  · exact fresh ▸ Buffer.readable_fresh
  · obtain ⟨apart, kept, present, there, verified⟩ := verified
    refine ⟨apart, kept, present, there, fun same => ?_, ?_⟩
    · rw [RegisterTable.getValue, same, unregistered] at verified
      exact absurd verified (by decide)
    · change server.registerTable.getValue present.peerAddr ≠ 0
      omega
  · change task ∈ server.todo loop at waits
    simp [idle loop] at waits
  · change (server.todo object.loop).Pairwise _
    rw [idle]
    exact List.Pairwise.nil
  · change [] ++ owed (server.todo object.loop) other = []
    rw [idle]
    rfl
  · intro earlier packet leading
    simp [Session.start] at leading

theorem Newcomer.fate {session : Session} (newcomer : server.Newcomer conn)
    (run : Execution (step handshake) anyAction (start numThreads wakeupFd acceptFd) actions server)
    (nonempty : ∀ bytes ∈ reads, bytes ≠ [])
    (conversed : Session.Converses handshake conn (.start server reads) (.ok session)) :
    session.Fate handshake (server.Verified conn) conn reads := by
  obtain ⟨str, loop, conversing⟩ := newcomer.conversing run reads
  cases conversed with
  | ended conversation finished =>
      have ended : session.Conversing handshake (server.Verified conn) conn str loop reads :=
        conversation.invariant conversing fun _ _ _ conversing alone stepped =>
          conversing.step nonempty alone stepped
      exact ended.fate finished

/-- The client is accepted in both conversations or rejected in both, and then every connection of
the audience is passed the same bytes. A server that has died has done neither. -/
def Agree (audience : ConnId → Prop) (conn : ConnId) : Outcome Session → Outcome Session → Prop
  | .ok session, .ok session' =>
      ((session.Accepted conn ∧ session'.Accepted conn) ∨
        (session.Rejected conn ∧ session'.Rejected conn)) ∧
      (session.Accepted conn ∧ session'.Accepted conn → ∀ other, audience other →
        session.relayed other = session'.relayed other)
  | _, _ => False

/-- Both servers live, the comparison says the same of a second packet in both conversations, and
where it accepts, what follows is the same or there is nobody to pass it to. -/
def SameProgress (handshake : Handshake) (audience : ConnId → Prop) : Outcome Session → Outcome Session → Prop
  | .ok session, .ok session' =>
      let made := progress handshake session.heard
      let made' := progress handshake session'.heard
      (made.accepted = true ∧ made'.accepted = true ∨ made.rejected = true ∧ made'.rejected = true) ∧
        (made.accepted = true ∧ made'.accepted = true →
          (∀ other, ¬ audience other) ∨ made.payload = made'.payload)
  | _, _ => False

theorem exists_converses {start : Session} {actions : List Action} {test : Session → Bool}
    (replayed : (replay (Session.step handshake conn) (Session.Alone conn) .impossible start
      actions).toOption.any (fun session => decide (session.Over conn) && test session) = true) :
    ∃ session, Session.Converses handshake conn start (.ok session) ∧ test session = true := by
  obtain ⟨session, conversation, tested⟩ := Execution.exists_of_replay replayed
  rw [Bool.and_eq_true, decide_eq_true_iff] at tested
  exact ⟨session, .ended conversation tested.1, tested.2⟩

end Newcomers

end TcpServer

end TransferServer.Net
