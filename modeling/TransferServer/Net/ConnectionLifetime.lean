import TransferServer.Net.SharedConnectionProperties
import TransferServer.Net.TcpConnectionStanding

/-! How long a shared connection lasts: who holds it and whether its channel is with the poller
when a functor with the bare `this` runs. The functor of `connectDestroyed`, which holds the
connection, is the last of its functors as long as no other one comes late. -/

set_option autoImplicit false

namespace TransferServer.Net

open Lib LoopSystem

theorem LoopSystem.step_inner {τ F : Type} [DecidableEq τ] {system : LoopSystem τ F}
    (action : LoopAction τ F) : Ensures Halt.Inner (system.step action) fun _ => True := by
  have impossible : Halt.Inner .impossible := by simp [Halt.Inner]
  cases action with
  | push caller =>
      unfold LoopSystem.step LoopSystem.push
      dsimp only
      split
      · exact .ok trivial
      · exact .error impossible
  | wakeup caller =>
      unfold LoopSystem.step LoopSystem.wakeup
      dsimp only
      split
      · exact .ok trivial
      · exact .ok trivial
      · exact .error impossible
  | enter =>
      refine .guard impossible fun _ => ?_
      have entered : Ensures Halt.Inner system.loop.enter fun _ => True :=
        .guard (by simp [Halt.Inner]) fun _ => .ok trivial
      exact entered.bind fun _ _ => .ok trivial
  | start =>
      refine .guard impossible fun _ => ?_
      unfold LoopSystem.start
      split
      · exact .error impossible
      · exact .ok trivial
  | call _ _ _ | quit _ | test | poll | handleRead | prepare | swap | finish =>
      exact .guard impossible fun _ => .ok trivial

namespace TcpConnection

/-- A member that changes the interest of the channel tells the poller once, afterwards. -/
inductive Touches (object : TcpConnection) : TcpConnection × List Request → Prop where
  | quiet {conn : TcpConnection} {requests : List Request} :
      conn.channel = object.channel → .updateChannel ∉ requests → Touches object (conn, requests)
  | updated {conn : TcpConnection} {earlier later : List Request} (call : InterestCall) :
      conn.channel = call.apply object.channel → .updateChannel ∉ earlier → .updateChannel ∉ later →
      Touches object (conn, earlier ++ .updateChannel :: later)

theorem Touches.told {object conn : TcpConnection} {later : List Request} (call : InterestCall)
    (changed : conn.channel = call.apply object.channel) (quiet : .updateChannel ∉ later) :
    object.Touches (conn, .updateChannel :: later) := by
  rw [← List.nil_append (_ :: later)]
  exact .updated call changed List.not_mem_nil quiet

theorem updateChannel_notMem_writeComplete {object : TcpConnection} :
    Request.updateChannel ∉ object.writeCompleteRequest := by
  unfold writeCompleteRequest
  split <;> simp

theorem sendInLoop_touches {object : TcpConnection} {message : Bytes} {returned : Int}
    {result : TcpConnection × List Request} (sent : object.sendInLoop message returned = .ok result) :
    object.Touches result := by
  obtain ⟨⟨written, nwrote, asked⟩, direct, sent⟩ := bind_eq_ok.mp sent
  have same : written.channel = object.channel ∧ .updateChannel ∉ asked := by
    unfold writeDirectly at direct
    split at direct
    · obtain ⟨socket, _, direct⟩ := bind_eq_ok.mp direct
      cases direct
      refine ⟨rfl, ?_⟩
      split
      · exact updateChannel_notMem_writeComplete
      · exact List.not_mem_nil
    · cases direct
      exact ⟨rfl, List.not_mem_nil⟩
  obtain ⟨same, quiet⟩ := same
  obtain ⟨_, sent⟩ := assert_bind_eq_ok.mp sent
  split at sent
  · obtain ⟨outputBuffer, _, sent⟩ := bind_eq_ok.mp sent
    dsimp only at sent
    split at sent
    · cases sent
      exact .quiet same quiet
    · cases sent
      refine .updated .enableWriting ?_ quiet List.not_mem_nil
      rw [← same]
      rfl
  · cases sent
    exact .quiet same quiet

theorem handleWrite_touches {object : TcpConnection} {returned : Int}
    {result : TcpConnection × List Request} (handled : object.handleWrite returned = .ok result) :
    object.Touches result := by
  unfold handleWrite at handled
  split at handled
  · obtain ⟨socket, _, handled⟩ := bind_eq_ok.mp handled
    split at handled
    · obtain ⟨outputBuffer, _, handled⟩ := bind_eq_ok.mp handled
      dsimp only at handled
      split at handled
      · split at handled
        · cases handled
          exact .told .disableWriting (channel_shutdownInLoop _) updateChannel_notMem_writeComplete
        · cases handled
          exact .told .disableWriting rfl updateChannel_notMem_writeComplete
      · cases handled
        exact .quiet rfl List.not_mem_nil
    · cases handled
      exact .quiet rfl List.not_mem_nil
  · cases handled
    exact .quiet rfl List.not_mem_nil

end TcpConnection

variable {τ κ : Type} [DecidableEq τ]

/-- The channel of a connection with the poller: it is registered from `connectEstablished` to
`connectDestroyed`. -/
structure Wired (key : κ) (channels : ChannelSystem κ) (conn : TcpConnection) (destroyed : Bool) :
    Prop where
  tabled : channels.Tabled ChannelSystem.Shown
  mirror : channels.channels key = conn.channel
  registered : conn.state ≠ .kConnecting → destroyed = false → channels.Registered key
  gone : destroyed = true → ¬ channels.Registered key
  unused : destroyed = false → key ∉ channels.removed

section

variable {key : κ} {channels channels' : ChannelSystem κ} {conn conn' : TcpConnection}
variable {destroyed : Bool}

theorem Wired.reconnect (wired : Wired key channels conn destroyed) (same : conn'.channel = conn.channel)
    (state : conn'.state ≠ .kConnecting → conn.state ≠ .kConnecting) :
    Wired key channels conn' destroyed where
  tabled := wired.tabled
  mirror := wired.mirror.trans same.symm
  registered := fun connected => wired.registered (state connected)
  gone := wired.gone
  unused := wired.unused

theorem Wired.registered_iff (wired : Wired key channels conn destroyed) :
    channels.Registered key ↔ channels.poller.channels conn.channel.fd = some key := by
  rw [wired.tabled.registered_iff, wired.mirror]

theorem Wired.alive (wired : Wired key channels conn destroyed)
    (registered : channels.poller.channels conn.channel.fd = some key) : destroyed = false := by
  cases destroyed with
  | false => rfl
  | true => exact absurd (wired.registered_iff.mpr registered) (wired.gone rfl)

variable [DecidableEq κ]

omit [DecidableEq κ] in
theorem Wired.admits (wired : Wired key channels conn destroyed) (alive : destroyed = false)
    (registered : channels.Registered key) (call : InterestCall) :
    channels.Admits (.update key call) := by
  have listed := wired.tabled.channels_fd registered
  refine ⟨wired.unused alive, (wired.tabled.keyed _ _ listed).2, fun other there => ?_⟩
  rw [listed] at there
  exact (Option.some.inj there).symm

theorem Wired.update (wired : Wired key channels conn destroyed) (alive : destroyed = false)
    {call : InterestCall} (admitted : channels.Admits (.update key call))
    (stepped : channels.step (.update key call) = .ok channels')
    (changed : conn'.channel = call.apply conn.channel) : Wired key channels' conn' destroyed := by
  obtain ⟨registered, removed, channel⟩ := ChannelSystem.update_registered stepped
  refine ⟨ChannelSystem.step_tabled wired.tabled admitted.opened stepped, ?_, fun _ _ => registered, ?_, ?_⟩
  · rw [channel, ChannelSystem.changed_self, wired.mirror, changed]
  · intro gone
    rw [alive] at gone
    cases gone
  · rw [removed]
    exact wired.unused

theorem Wired.remove (wired : Wired key channels conn destroyed)
    (stepped : channels.step (.removeChannel key) = .ok channels') : Wired key channels' conn true := by
  obtain ⟨unregistered, same⟩ := ChannelSystem.remove_unregistered wired.tabled stepped
  refine ⟨(ChannelSystem.remove_tabled (fun _ _ => And.left) wired.tabled stepped).1, ?_, nofun,
    fun _ => unregistered, nofun⟩
  rw [same]
  exact wired.mirror

theorem Wired.others (wired : Wired key channels conn destroyed) {action : ChannelAction κ}
    (admitted : channels.Admits action) (apart : action.key ≠ key)
    (stepped : channels.step action = .ok channels') : Wired key channels' conn destroyed := by
  obtain ⟨same, registered, removed⟩ := ChannelSystem.step_apart wired.tabled stepped apart
  refine ⟨ChannelSystem.step_tabled wired.tabled admitted.opened stepped, same.trans wired.mirror, ?_, ?_, ?_⟩
  · rw [registered]
    exact wired.registered
  · rw [registered]
    exact wired.gone
  · rw [removed]
    exact wired.unused

end

namespace SharedConnection

section Requests

variable [DecidableEq κ] {system before after : SharedConnection τ κ}

omit [DecidableEq κ] in
theorem onLoop_inner (action : LoopAction τ (Job τ)) :
    Ensures Halt.Inner (system.onLoop action)
      fun after => ∃ calls, system.calls.step action = .ok calls ∧ after = { system with calls } := by
  unfold onLoop
  cases stepped : system.calls.step action with
  | error halt => exact (step_inner action).of_error stepped
  | ok calls => exact .ok ⟨calls, rfl, rfl⟩

theorem writeComplete_inner : Ensures Halt.Inner (system.request .writeComplete)
    fun after => after = { system with calls := after.calls } := by
  refine (onLoop_inner _).bind fun _ called => ?_
  refine (onLoop_inner _).bind fun _ pushed => ?_
  refine (onLoop_inner _).mono fun _ woken => ?_
  obtain ⟨_, _, rfl⟩ := called
  obtain ⟨_, _, rfl⟩ := pushed
  obtain ⟨_, _, rfl⟩ := woken
  rfl

/-- Requests that do not concern the channel only queue functors. -/
theorem quiet_inner {requests : List Request} (quiet : .updateChannel ∉ requests) :
    Ensures Halt.Inner (requests.foldlM request system)
      fun after => after = { system with calls := after.calls } := by
  induction requests generalizing system with
  | nil => exact .ok rfl
  | cons request requests ih =>
      rw [List.mem_cons, not_or] at quiet
      rw [List.foldlM_cons]
      cases request with
      | updateChannel => exact absurd rfl quiet.1
      | writeComplete =>
          refine writeComplete_inner.bind fun middle same => ?_
          refine (ih quiet.2).mono fun after same' => ?_
          rw [same', same]

omit [DecidableEq τ] in
/-- `update()` is a step of the poller with the channels of the loop. -/
theorem updateChannel_eq {call : InterestCall}
    (changed : system.conn.channel = call.apply (system.channels.channels system.key)) :
    system.updateChannel = (do
      let channels ← system.channels.step (.update system.key call)
      return { system with channels }) := by
  simp only [updateChannel, ChannelSystem.step, ← changed]
  cases system.channels.poller.updateChannel system.key system.conn.channel with
  | ok poller => rfl
  | error halt => rfl

/-- The requests of a member pass its change of interest on to the poller, and stop only where
the poller does. -/
theorem perform_ensures {benign : Halt → Prop} {result : TcpConnection × List Request}
    (harmless : ∀ halt, Halt.Inner halt → benign halt)
    (mirror : before.channels.channels before.key = before.conn.channel)
    (touches : before.conn.Touches result)
    (updates : ∀ call, result.1.channel = call.apply before.conn.channel →
      Ensures benign (before.channels.step (.update before.key call)) fun _ => True) :
    Ensures benign (before.perform result) fun after =>
      (result.1.channel = before.conn.channel ∧ after.channels = before.channels) ∨
      ∃ call, result.1.channel = call.apply before.conn.channel ∧
        before.channels.step (.update before.key call) = .ok after.channels := by
  cases touches with
  | quiet same quiet =>
      refine ((quiet_inner quiet).relax harmless).mono fun after frame => .inl ⟨same, ?_⟩
      rw [frame]
      rfl
  | @updated conn earlier later call changed quiet quiet' =>
      unfold perform
      rw [List.foldlM_append]
      refine ((quiet_inner quiet).relax harmless).bind fun middle frame => ?_
      rw [List.foldlM_cons]
      have told : middle.request .updateChannel = (do
          let channels ← before.channels.step (.update before.key call)
          return { middle with channels }) := by
        have changed' : middle.conn.channel = call.apply (middle.channels.channels middle.key) := by
          rw [frame]
          exact changed.trans (by rw [← mirror]; rfl)
        rw [request, updateChannel_eq changed', frame]
        rfl
      rw [told]
      cases stepped : before.channels.step (.update before.key call) with
      | error halt => exact (updates call changed).of_error stepped
      | ok channels =>
          refine ((quiet_inner quiet').relax harmless).mono fun after frame' => .inr ⟨call, changed, ?_⟩
          rw [frame']
          exact stepped

end Requests

/-- Whether and where the functor of `connectDestroyed` stands. Before it the base thread holds
the connection, in `connections_` or as its argument; after it only write complete callbacks are
pushed. -/
inductive Stage (base : τ) (calls : LoopSystem τ (Job τ)) (holders : Holders τ) (destroyed : Bool) :
    Prop where
  | listed : holders.listed = true → .connectDestroyed ∉ calls.pushes.map Prod.snd →
      (∀ caller, .connectDestroyed ∉ held (calls.status caller)) → destroyed = false →
      Stage base calls holders destroyed
  | leaving : holders.listed = false → .connectDestroyed ∉ calls.pushes.map Prod.snd →
      .connectDestroyed ∈ held (calls.status base) →
      (∀ caller, .connectDestroyed ∈ held (calls.status caller) → caller = base) →
      base ∈ holders.copies → destroyed = false → Stage base calls holders destroyed
  | queued (place : Nat) (pusher : τ) : holders.listed = false →
      (∀ caller, .connectDestroyed ∉ held (calls.status caller)) →
      calls.pushes[place]? = some (pusher, .connectDestroyed) →
      (∀ index push, calls.pushes[index]? = some push →
        (index < place → push.2 ≠ .connectDestroyed) ∧ (place < index → push.2 = .writeComplete)) →
      (destroyed = true ↔ place < calls.started.length) → Stage base calls holders destroyed

/-- No functor of `connectDestroyed` moves, and none but callbacks are pushed behind one. -/
structure Calm (before after : LoopSystem τ (Job τ)) : Prop where
  inHand : ∀ caller, .connectDestroyed ∈ held (after.status caller) ↔
    .connectDestroyed ∈ held (before.status caller)
  pushes : ∃ extra, after.pushes = before.pushes ++ extra ∧
    (∀ push ∈ extra, Prod.snd push ≠ Job.connectDestroyed) ∧
    (.connectDestroyed ∈ before.pushes.map Prod.snd → ∀ push ∈ extra, Prod.snd push = Job.writeComplete)

section Stages

variable {base : τ} {before after : LoopSystem τ (Job τ)} {holders holders' : Holders τ}
variable {destroyed : Bool} {caller : τ} {job : Job τ}

theorem Calm.notes (notes : before.Notes after) : Calm before after := by
  obtain ⟨extra, pushes, silent⟩ := notes.pushes
  refine ⟨fun caller => by rw [notes.held], extra, pushes, fun push there => ?_, fun _ => silent⟩
  rw [silent push there]
  exact nofun

theorem Calm.call {entry : EntryPoint} (called : before.step (.call caller entry job) = .ok after)
    (queued : entry = .queueInLoop ∨ caller ≠ before.loop.threadId) (other : job ≠ .connectDestroyed) :
    Calm before after := by
  obtain ⟨idle, _, pushes, _, status⟩ := call_eq_ok called queued
  refine ⟨fun thread => ?_, [], by simp [pushes], by simp, by simp⟩
  rw [status, Function.update_apply]
  split
  · next same =>
      rw [same, idle]
      simp [held, Ne.symm other]
  · exact Iff.rfl

theorem Calm.push (stepped : before.step (.push caller) = .ok after)
    (other : .connectDestroyed ∉ held (before.status caller))
    (prompt : .connectDestroyed ∈ before.pushes.map Prod.snd →
      ∀ job ∈ held (before.status caller), job = .writeComplete) : Calm before after := by
  obtain ⟨job, locking, rfl⟩ := push_eq_ok stepped
  rw [locking] at other prompt
  refine ⟨fun thread => ?_, [(caller, job)], rfl, ?_, fun there push same => ?_⟩
  · by_cases mine : thread = caller
    · subst mine
      rw [locking]
      simpa [LoopSystem.setStatus, held] using other
    · simp [LoopSystem.setStatus, mine]
  · intro push same
    rw [List.mem_singleton.mp same]
    rintro rfl
    exact other (List.mem_singleton_self _)
  · rw [List.mem_singleton.mp same]
    exact prompt there job (List.mem_singleton_self _)

theorem Calm.start (started : before.step .start = .ok after) : Calm before after := by
  obtain ⟨_, _, _, _, pushes, _, status⟩ := start_step_eq_ok started
  exact ⟨fun thread => by rw [status], [], by simp [pushes], by simp, by simp⟩

omit [DecidableEq τ] in
theorem Stage.keep (stage : Stage base before holders destroyed) (calm : Calm before after)
    (passed : ∀ (place : Nat) pusher, before.pushes[place]? = some (pusher, .connectDestroyed) →
      (place < after.started.length ↔ place < before.started.length))
    (listed : holders'.listed = holders.listed)
    (copies : .connectDestroyed ∈ held (before.status base) → base ∈ holders.copies →
      base ∈ holders'.copies) : Stage base after holders' destroyed := by
  obtain ⟨extra, pushes, foreign, silent⟩ := calm.pushes
  have unpushed (absent : .connectDestroyed ∉ before.pushes.map Prod.snd) :
      .connectDestroyed ∉ after.pushes.map Prod.snd := by
    rw [pushes, List.map_append, List.mem_append, not_or]
    refine ⟨absent, fun there => ?_⟩
    obtain ⟨push, there, same⟩ := List.mem_map.mp there
    exact foreign push there same
  cases stage with
  | listed entered absent free alive =>
      exact .listed (listed.trans entered) (unpushed absent)
        (fun caller there => free caller ((calm.inHand caller).mp there)) alive
  | leaving entered absent mine only copy alive =>
      exact .leaving (listed.trans entered) (unpushed absent) ((calm.inHand base).mpr mine)
        (fun caller there => only caller ((calm.inHand caller).mp there)) (copies mine copy) alive
  | queued place pusher entered free found around gone =>
      have inside := (List.getElem?_eq_some_iff.mp found).1
      refine .queued place pusher (listed.trans entered)
        (fun caller there => free caller ((calm.inHand caller).mp there)) ?_ ?_ ?_
      · rw [pushes, List.getElem?_append_left inside, found]
      · intro index push there
        rw [pushes] at there
        by_cases earlier : index < before.pushes.length
        · rw [List.getElem?_append_left earlier] at there
          exact around index push there
        · rw [List.getElem?_append_right (Nat.le_of_not_lt earlier)] at there
          have queued := List.mem_map_of_mem (f := Prod.snd) (List.mem_of_getElem? found)
          exact ⟨fun _ => by omega, fun _ => silent queued push (List.mem_of_getElem? there)⟩
      · rw [gone, passed place pusher found]

theorem Stage.erase (stage : Stage base before holders destroyed) (entered : holders.listed = true)
    (called : before.step (.call base .queueInLoop .connectDestroyed) = .ok after)
    (erased : holders'.listed = false) (copy : base ∈ holders'.copies) :
    Stage base after holders' destroyed := by
  obtain ⟨_, _, pushes, _, status⟩ := call_eq_ok called (.inl rfl)
  cases stage with
  | listed _ absent free alive =>
      refine .leaving erased (by rwa [pushes]) ?_ (fun caller there => ?_) copy alive
      · rw [status, Function.update_self]
        exact List.mem_singleton_self _
      · rw [status, Function.update_apply] at there
        split at there
        · next same => exact same
        · exact absurd there (free caller)
  | leaving unlisted => exact absurd entered (by simp [unlisted])
  | queued _ _ unlisted => exact absurd entered (by simp [unlisted])

theorem Stage.push (stage : Stage base before holders destroyed) (ordered : before.Ordered)
    (stepped : before.step (.push caller) = .ok after)
    (mine : .connectDestroyed ∈ held (before.status caller)) :
    Stage base after holders destroyed := by
  obtain ⟨job, locking, rfl⟩ := push_eq_ok stepped
  rw [locking] at mine
  obtain rfl : job = .connectDestroyed := (List.mem_singleton.mp mine).symm
  cases stage with
  | listed _ _ free => exact absurd (by rw [locking]; exact mine) (free caller)
  | queued _ _ _ free => exact absurd (by rw [locking]; exact mine) (free caller)
  | leaving unlisted absent _ only _ alive =>
      obtain rfl : caller = base := only caller (by rw [locking]; exact mine)
      refine .queued before.pushes.length caller unlisted (fun other there => ?_) ?_ ?_ ?_
      · by_cases same : other = caller
        · subst same
          simp [LoopSystem.setStatus, held] at there
        · have there' : .connectDestroyed ∈ held (before.status other) := by
            simpa [LoopSystem.setStatus, same] using there
          exact same (only other there')
      · simp
      · intro index push there
        have inside := (List.getElem?_eq_some_iff.mp there).1
        rw [List.length_append, List.length_singleton] at inside
        refine ⟨fun earlier same => ?_, fun later => by omega⟩
        rw [List.getElem?_append_left earlier] at there
        exact absent (same ▸ List.mem_map_of_mem (List.mem_of_getElem? there))
      · have short : before.started.length ≤ before.pushes.length := by
          rw [← List.length_map Prod.snd, ← ordered.queue]
          simp
        rw [alive]
        simp only [Bool.false_eq_true, false_iff]
        exact Nat.not_lt.mpr short

theorem Stage.destroy (stage : Stage base before holders destroyed) (ordered : before.Ordered)
    (started : before.step .start = .ok after) {functors : List (Job τ)}
    (batch : before.loop.functors = .connectDestroyed :: functors) (listed : holders'.listed = holders.listed) :
    destroyed = false ∧ Stage base after holders' true := by
  obtain ⟨⟨pusher, found⟩, _⟩ := ordered.head batch
  have pushed := List.mem_map_of_mem (f := Prod.snd) (List.mem_of_getElem? found)
  obtain ⟨_, _, batch', _, pushes, started, status⟩ := start_step_eq_ok started
  cases stage with
  | listed _ absent => exact absurd pushed absent
  | leaving _ absent => exact absurd pushed absent
  | queued place pusher' unlisted free here around gone =>
      have same : before.started.length = place := by
        have sides := around _ _ found
        by_contra apart
        rcases Nat.lt_or_gt_of_ne apart with earlier | later
        · exact sides.1 earlier rfl
        · exact absurd (sides.2 later) nofun
      refine ⟨?_, .queued place pusher' (listed.trans unlisted) ?_ ?_ ?_ ?_⟩
      · rw [← Bool.not_eq_true, gone]
        omega
      · rw [status]
        exact free
      · rw [pushes]
        exact here
      · rw [pushes]
        exact around
      · simp [started, same]

/-- A functor with the bare `this` starts before `connectDestroyed`, whose own functor, if there
is one yet, stands behind it. -/
theorem Stage.bare (stage : Stage base before holders destroyed) (ordered : before.Ordered)
    {functors : List (Job τ)} (batch : before.loop.functors = job :: functors)
    (bare : job.holds = false) : destroyed = false ∧
      (holders.listed = true ∨ holders.copies ≠ [] ∨
        .connectDestroyed ∈ before.loop.functors ++ before.loop.pendingFunctors) := by
  obtain ⟨⟨pusher, found⟩, _⟩ := ordered.head batch
  cases stage with
  | listed entered _ _ alive => exact ⟨alive, .inl entered⟩
  | leaving _ _ _ _ copy alive => exact ⟨alive, .inr (.inl (List.ne_nil_of_mem copy))⟩
  | queued place pusher' _ _ here around gone =>
      have sides : place < before.started.length → job = .writeComplete := (around _ _ found).2
      have before_place : before.started.length < place := by
        rcases Nat.lt_trichotomy before.started.length place with earlier | same | later
        · exact earlier
        · rw [same, here] at found
          cases found
          cases bare
        · rw [sides later] at bare
          cases bare
      refine ⟨?_, .inr (.inr ?_)⟩
      · rw [← Bool.not_eq_true, gone]
        omega
      · have queued : (before.pushes.map Prod.snd)[place]? = some .connectDestroyed := by
          rw [List.getElem?_map, here]
          rfl
        rw [← ordered.queue, List.append_assoc,
          List.getElem?_append_right (Nat.le_of_lt before_place)] at queued
        exact List.mem_of_getElem? queued

end Stages

/-- A functor with the bare `this` has been pushed, or is about to be. -/
def Bare (calls : LoopSystem τ (Job τ)) : Prop :=
  (∃ push ∈ calls.pushes, push.2.holds = false) ∨
    ∃ caller, ∃ job ∈ held (calls.status caller), job.holds = false

/-- While the connection is established or not yet, and after it is destroyed. -/
structure Lively (system : SharedConnection τ κ) : Prop where
  ordered : system.calls.Ordered
  wired : Wired system.key system.channels system.conn system.destroyed
  stage : Stage system.base system.calls system.holders system.destroyed
  early : system.conn.state = .kConnecting →
    ¬ Bare system.calls ∧ ∀ caller, system.closing caller = false
  ended : system.destroyed = true →
    system.conn.state ≠ .kConnecting ∧ system.conn.state ≠ .kConnected

/-- What the kernel and the other users of the poller promise: the descriptor of a channel is not
in use by another, and a channel is not used again once it is removed. -/
def Contract [DecidableEq κ] (system : SharedConnection τ κ) : SharedAction τ κ → Prop
  | .connectEstablished => system.channels.Admits (.update system.key .enableReading)
  | .others action => system.channels.Admits action
  | _ => True

/-- A functor with the bare `this` is not pushed behind that of `connectDestroyed`. -/
def Prompt (system : SharedConnection τ κ) : SharedAction τ κ → Prop
  | .advance (.push caller) => ∀ job ∈ held (system.calls.status caller), job.holds = false →
      .connectDestroyed ∉ system.calls.pushes.map Prod.snd
  | _ => True

instance [DecidableEq κ] (system : SharedConnection τ κ) (action : SharedAction τ κ) :
    Decidable (system.Contract action) := by
  induction action using SharedAction.casesOn <;> dsimp only [Contract] <;> infer_instance

instance (system : SharedConnection τ κ) (action : SharedAction τ κ) :
    Decidable (system.Prompt action) := by
  induction action using SharedAction.casesOn with
  | advance action =>
      induction action using LoopAction.casesOn <;> dsimp only [Prompt] <;> infer_instance
  | _ => dsimp only [Prompt]; infer_instance

section Runs

variable {before after system : SharedConnection τ κ}

theorem Bare.of_notes {before after : LoopSystem τ (Job τ)} (notes : before.Notes after)
    (bare : Bare after) : Bare before := by
  obtain ⟨extra, pushes, silent⟩ := notes.pushes
  rcases bare with ⟨push, there, bare⟩ | ⟨caller, job, there, bare⟩
  · rw [pushes, List.mem_append] at there
    rcases there with earlier | new
    · exact .inl ⟨push, earlier, bare⟩
    · rw [silent push new] at bare
      cases bare
  · rw [notes.held] at there
    exact .inr ⟨caller, job, there, bare⟩

theorem Bare.of_push {before after : LoopSystem τ (Job τ)} {caller : τ}
    (stepped : before.step (.push caller) = .ok after) (bare : Bare after) : Bare before := by
  obtain ⟨cb, locking, rfl⟩ := push_eq_ok stepped
  rcases bare with ⟨push, there, bare⟩ | ⟨other, job, there, bare⟩
  · rcases List.mem_append.mp there with earlier | new
    · exact .inl ⟨push, earlier, bare⟩
    · rw [List.mem_singleton.mp new] at bare
      exact .inr ⟨caller, cb, by rw [locking]; exact List.mem_singleton_self _, bare⟩
  · by_cases mine : other = caller
    · subst mine
      simp [LoopSystem.setStatus, held] at there
    · exact .inr ⟨other, job, by simpa [LoopSystem.setStatus, mine] using there, bare⟩

theorem Bare.of_start {before after : LoopSystem τ (Job τ)} (started : before.step .start = .ok after)
    (bare : Bare after) : Bare before := by
  obtain ⟨_, _, _, _, pushes, _, status⟩ := start_step_eq_ok started
  unfold Bare at bare ⊢
  rwa [pushes, status] at bare

theorem Bare.of_call {before after : LoopSystem τ (Job τ)} {caller : τ} {entry : EntryPoint}
    {cb : Job τ} (called : before.step (.call caller entry cb) = .ok after)
    (queued : entry = .queueInLoop ∨ caller ≠ before.loop.threadId) (holding : cb.holds = true)
    (bare : Bare after) : Bare before := by
  obtain ⟨_, _, pushes, _, status⟩ := call_eq_ok called queued
  rcases bare with ⟨push, there, bare⟩ | ⟨other, job, there, bare⟩
  · exact .inl ⟨push, pushes ▸ there, bare⟩
  · rw [status, Function.update_apply] at there
    split at there
    · rw [List.mem_singleton.mp there, holding] at bare
      cases bare
    · exact .inr ⟨other, job, there, bare⟩

theorem construct_lively {threadId base : τ} {key : κ} {fd : κ → Int} {loop : Nat} {peerAddr : Bytes}
    {writeCompleteCallback : Bool} :
    (construct threadId base key fd loop peerAddr writeCompleteCallback).Lively where
  ordered := construct_ordered threadId
  wired := by
    refine ⟨ChannelSystem.construct_tabled fd, rfl, fun connected => absurd rfl connected, nofun, ?_⟩
    exact fun _ => List.not_mem_nil
  stage := .listed rfl List.not_mem_nil (fun _ => List.not_mem_nil) rfl
  early := by
    refine fun _ => ⟨?_, fun _ => rfl⟩
    rintro (⟨_, there, _⟩ | ⟨_, _, there, _⟩) <;> cases there
  ended := nofun

theorem Lively.serves {conn : TcpConnection} {ledger : Ledger τ} (lively : before.Lively)
    (serves : Serves { before with conn, ledger } after)
    (wired : Wired before.key after.channels conn before.destroyed)
    (state : conn.state = before.conn.state ∨
      conn.state = .kConnected ∧ before.destroyed = false) : after.Lively := by
  obtain ⟨frame, notes⟩ := serves
  have stage := lively.stage.keep (.notes notes) (fun _ _ _ => by rw [notes.started]) rfl fun _ => id
  rw [frame]
  refine ⟨notes.ordered lively.ordered, wired, stage, fun connecting => ?_, fun gone => ?_⟩
  · rcases state with same | ⟨connected, _⟩
    · obtain ⟨clear, open_⟩ := lively.early (same.symm.trans connecting)
      exact ⟨fun bare => clear (bare.of_notes notes), open_⟩
    · exact absurd (connected.symm.trans connecting) nofun
  · rcases state with same | ⟨_, alive⟩
    · have ended := lively.ended gone
      rw [← same] at ended
      exact ended
    · exact absurd gone (by simp [alive])

theorem Lively.rest {calls : LoopSystem τ (Job τ)} {holders : Holders τ} (lively : before.Lively)
    (notes : before.calls.Notes calls) (listed : holders.listed = before.holders.listed)
    (copies : ∀ thread, before.calls.status thread ≠ .idle → thread ∈ before.holders.copies →
      thread ∈ holders.copies) : Lively { before with calls, holders } := by
  have kept : Lively { before with calls } := lively.serves ⟨rfl, notes⟩ lively.wired (.inl rfl)
  have argument (leaving : .connectDestroyed ∈ held (calls.status before.base)) :
      before.base ∈ before.holders.copies → before.base ∈ holders.copies := by
    rw [notes.held] at leaving
    refine copies _ fun idle => ?_
    rw [idle] at leaving
    cases leaving
  exact ⟨kept.ordered, kept.wired,
    kept.stage.keep (.notes (.refl _)) (fun _ _ _ => Iff.rfl) listed argument, kept.early, kept.ended⟩

variable [DecidableEq κ]

theorem perform_wired {result : TcpConnection × List Request}
    (wired : Wired before.key before.channels before.conn before.destroyed)
    (registered : before.channels.Registered before.key) (alive : before.destroyed = false)
    (touches : before.conn.Touches result)
    (state : result.1.state ≠ .kConnecting → before.conn.state ≠ .kConnecting)
    (performed : before.perform result = .ok after) :
    Wired before.key after.channels result.1 before.destroyed := by
  have told : Ensures (fun _ => True) (before.perform result) _ :=
    perform_ensures (fun _ _ => trivial) wired.mirror touches fun call _ => by
      cases before.channels.step (.update before.key call) <;> trivial
  rcases told.of_ok performed with ⟨same, channels⟩ | ⟨call, changed, stepped⟩
  · rw [channels]
    exact wired.reconnect same state
  · exact wired.update alive (wired.admits alive registered call) stepped changed

theorem sendInLoop_lively {sender : τ} {message : Bytes} {returned : Int} (lively : before.Lively)
    (registered : before.channels.Registered before.key) (alive : before.destroyed = false)
    (sent : before.sendInLoop sender message returned = .ok after) : after.Lively := by
  obtain ⟨⟨conn, requests⟩, written, performed⟩ := bind_eq_ok.mp sent
  have state : conn.state = before.conn.state :=
    congrArg Standing.state ((before.conn.sendInLoop_inner message returned).of_ok written).standing
  have named : Lively { before with ledger := { before.ledger with
      order := before.ledger.order ++ [(sender, message)] } } :=
    ⟨lively.ordered, lively.wired, lively.stage, lively.early, lively.ended⟩
  have wired := perform_wired named.wired registered alive (TcpConnection.sendInLoop_touches written)
    (fun connected => state ▸ connected) performed
  exact named.serves (perform_serves performed) wired (.inl state)

omit [DecidableEq κ] in
theorem Lively.connected (lively : before.Lively) (connected : before.conn.state = .kConnected) :
    before.channels.Registered before.key ∧ before.destroyed = false := by
  have alive : before.destroyed = false := by
    rw [← Bool.not_eq_true]
    exact fun gone => (lively.ended gone).2 connected
  exact ⟨lively.wired.registered (by simp [connected]) alive, alive⟩

theorem send_lively {caller : τ} {message : Bytes} {returned : Int} (lively : before.Lively)
    (sent : before.send caller message returned = .ok after) : after.Lively := by
  rcases send_eq_ok sent with ⟨_, rfl⟩ | ⟨connected, _, sent⟩ | ⟨connected, outside, calls, called, rfl⟩
  · exact lively
  · obtain ⟨registered, alive⟩ := lively.connected connected
    have accepted : (before.accept caller message).Lively :=
      ⟨lively.ordered, lively.wired, lively.stage, lively.early, lively.ended⟩
    exact sendInLoop_lively accepted registered alive sent
  · obtain ⟨_, _, _, started, _⟩ := call_eq_ok called (.inr outside)
    have stage := lively.stage.keep (.call called (.inr outside) nofun)
      (fun _ _ _ => by rw [started]) rfl fun _ => id
    refine ⟨step_ordered lively.ordered called, lively.wired, stage, fun connecting => ?_, lively.ended⟩
    exact absurd (connected.symm.trans connecting) nofun

omit [DecidableEq κ] in
theorem shutdown_lively (lively : before.Lively) (caller : τ) : (before.shutdown caller).Lively := by
  unfold shutdown
  split
  · next connected =>
      refine ⟨lively.ordered, lively.wired, lively.stage, fun connecting => ?_, lively.ended⟩
      exact absurd (connected.symm.trans connecting) nofun
  · exact lively

omit [DecidableEq κ] in
/-- A thread that is in `shutdown` has found the connection established. -/
theorem disconnect_lively {caller : τ} (lively : before.Lively) (testing : before.closing caller = true)
    (disconnected : before.disconnect caller = .ok after) : after.Lively := by
  have established : before.conn.state ≠ .kConnecting := by
    intro connecting
    rw [(lively.early connecting).2 caller] at testing
    cases testing
  have rewired {conn : TcpConnection} (same : conn.channel = before.conn.channel) :
      Wired before.key before.channels conn before.destroyed :=
    lively.wired.reconnect same fun _ => established
  obtain ⟨calls, _, _, ⟨_, notes, rfl⟩ | ⟨outside, called, rfl⟩⟩ := disconnect_eq_ok disconnected
  · have kept := lively.rest notes rfl fun _ _ => id
    exact ⟨kept.ordered, rewired (TcpConnection.channel_shutdownInLoop _), kept.stage, by simp, by simp⟩
  · obtain ⟨_, _, _, started, _⟩ := call_eq_ok called (.inr outside)
    have stage := lively.stage.keep (.call called (.inr outside) nofun)
      (fun _ _ _ => by rw [started]) rfl fun _ => id
    exact ⟨step_ordered lively.ordered called, rewired rfl, stage, nofun, fun _ => ⟨nofun, nofun⟩⟩

theorem handleClose_lively {result : TcpConnection × List Request} (lively : before.Lively)
    (registered : before.Registered) (closed : before.conn.handleClose = .ok result)
    (performed : before.perform result = .ok after) : after.Lively := by
  obtain ⟨touches, state⟩ : before.conn.Touches result ∧ result.1.state = before.conn.state := by
    obtain ⟨_, closed⟩ := assert_bind_eq_ok.mp closed
    cases closed
    exact ⟨.told .disableAll rfl List.not_mem_nil, rfl⟩
  have wired := perform_wired lively.wired (lively.wired.registered_iff.mpr registered)
    (lively.wired.alive registered) touches (fun connected => state ▸ connected) performed
  exact lively.serves (perform_serves performed) wired (.inl state)

omit [DecidableEq κ] in
theorem Lively.erase (lively : before.Lively) (erases : before.Erases after) : after.Lively := by
  obtain ⟨entered, called, frame, erased, copy⟩ := erases
  rw [frame]
  refine ⟨step_ordered lively.ordered called, lively.wired,
    lively.stage.erase entered called erased copy, fun connecting => ?_, lively.ended⟩
  obtain ⟨clear, open_⟩ := lively.early connecting
  exact ⟨fun bare => clear (bare.of_call called (.inl rfl) rfl), open_⟩

omit [DecidableEq κ] in
theorem Lively.start {calls : LoopSystem τ (Job τ)} {job : Job τ} {functors : List (Job τ)}
    {holders : Holders τ} (lively : before.Lively)
    (batch : before.calls.loop.functors = job :: functors) (other : job ≠ .connectDestroyed)
    (started : before.calls.step .start = .ok calls) (listed : holders.listed = before.holders.listed)
    (copies : holders.copies = before.holders.copies) : Lively { before with calls, holders } := by
  obtain ⟨⟨pusher, found⟩, _⟩ := lively.ordered.head batch
  obtain ⟨_, _, batch', _, _, taken, _⟩ := start_step_eq_ok started
  have stage := lively.stage.keep (.start started) (fun place pusher' here => by
    have apart : place ≠ before.calls.started.length := by
      rintro rfl
      rw [found] at here
      cases here
      exact other rfl
    rw [taken, List.length_append, List.length_singleton]
    omega) listed fun _ copy => copies ▸ copy
  refine ⟨step_ordered lively.ordered started, lively.wired, stage, fun connecting => ?_, lively.ended⟩
  obtain ⟨clear, open_⟩ := lively.early connecting
  exact ⟨fun bare => clear (bare.of_start started), open_⟩

theorem connectDestroyed_eq_ok (destroyed : before.connectDestroyed = .ok after)
    (wired : Wired before.key before.channels before.conn before.destroyed)
    (alive : before.destroyed = false) :
    after.base = before.base ∧ after.holders = before.holders ∧ after.destroyed = true ∧
      after.conn.state = .kDisconnected ∧ before.calls.Notes after.calls ∧
      Wired after.key after.channels after.conn true := by
  obtain ⟨_, ended, destroyed⟩ := bind_eq_ok.mp destroyed
  obtain ⟨up, ended⟩ := assert_bind_eq_ok.mp ended
  cases ended
  obtain ⟨disabled, performed, destroyed⟩ := bind_eq_ok.mp destroyed
  obtain ⟨_, removed, destroyed⟩ := bind_eq_ok.mp destroyed
  obtain ⟨channels, stepped, rfl⟩ := removeChannel_eq_ok removed
  cases destroyed
  have established : before.conn.state ≠ .kConnecting := StateE.Up.ne_kConnecting up
  have wired := perform_wired wired (wired.registered established alive) alive
    (.told .disableAll rfl List.not_mem_nil) (fun _ => established) performed
  have serves := perform_serves performed
  have key : disabled.key = before.key := serves.key
  have conn := serves.conn
  refine ⟨serves.base, serves.holders, rfl, ?_, serves.notes, ?_⟩
  · exact congrArg TcpConnection.state conn
  · rw [key] at stepped
    change Wired disabled.key channels disabled.conn true
    rw [key, conn]
    exact wired.remove stepped

theorem connectDestroyed_lively {calls : LoopSystem τ (Job τ)} {functors : List (Job τ)}
    {holders : Holders τ} (lively : before.Lively)
    (batch : before.calls.loop.functors = .connectDestroyed :: functors)
    (started : before.calls.step .start = .ok calls) (listed : holders.listed = before.holders.listed)
    (destroyed : { before with calls, holders }.connectDestroyed = .ok after) : after.Lively := by
  obtain ⟨alive, stage⟩ := lively.stage.destroy lively.ordered started batch listed
  obtain ⟨base, holding, gone, state, notes, wired⟩ :=
    connectDestroyed_eq_ok destroyed lively.wired alive
  refine ⟨notes.ordered (step_ordered lively.ordered started), ?_, ?_, ?_, ?_⟩
  · rw [gone]
    exact wired
  · rw [base, holding, gone]
    exact stage.keep (.notes notes) (fun _ _ _ => by rw [notes.started]) rfl fun _ => id
  · rw [state]
    exact nofun
  · rw [state]
    exact fun _ => ⟨nofun, nofun⟩

theorem connectEstablished_lively {result : TcpConnection × List Request} (lively : before.Lively)
    (admitted : before.channels.Admits (.update before.key .enableReading))
    (established : before.conn.connectEstablished = .ok result)
    (performed : before.perform result = .ok after) : after.Lively := by
  obtain ⟨connecting, established⟩ := assert_bind_eq_ok.mp established
  cases established
  have alive : before.destroyed = false := by
    rw [← Bool.not_eq_true]
    exact fun gone => (lively.ended gone).1 connecting
  have serves := perform_serves performed
  obtain ⟨_, updated, done⟩ := bind_eq_ok.mp performed
  cases done
  have changed : (before.setConn { before.conn with
      state := .kConnected
      channel := before.conn.channel.enableReading }).conn.channel =
        InterestCall.enableReading.apply (before.channels.channels before.key) := by
    rw [lively.wired.mirror]
    rfl
  rw [request, updateChannel_eq changed] at updated
  obtain ⟨channels, stepped, done⟩ := bind_eq_ok.mp updated
  cases done
  exact lively.serves serves (lively.wired.update alive admitted stepped rfl) (.inr ⟨rfl, alive⟩)

theorem run_lively {calls : LoopSystem τ (Job τ)} {job : Job τ} {functors : List (Job τ)}
    {holders : Holders τ} {returned : Int}
    (ran : { before with calls, holders }.run job returned = .ok after) (lively : before.Lively)
    (batch : before.calls.loop.functors = job :: functors)
    (started : before.calls.step .start = .ok calls) (listed : holders.listed = before.holders.listed)
    (copies : holders.copies = before.holders.copies) : after.Lively := by
  obtain ⟨_, ran⟩ := Lib.require_bind_eq_ok.mp ran
  have taken (other : job ≠ .connectDestroyed) : Lively { before with calls, holders } :=
    lively.start batch other started listed copies
  have bare (loose : job.holds = false) :
      before.channels.Registered before.key ∧ before.destroyed = false := by
    have alive := (lively.stage.bare lively.ordered batch loose).1
    obtain ⟨⟨pusher, found⟩, _⟩ := lively.ordered.head batch
    refine ⟨lively.wired.registered (fun connecting => ?_) alive, alive⟩
    exact (lively.early connecting).1 (.inl ⟨_, List.mem_of_getElem? found, loose⟩)
  cases job with
  | sendInLoop sender message =>
      exact sendInLoop_lively (taken nofun) (bare rfl).1 (bare rfl).2 ran
  | shutdownInLoop =>
      cases ran
      have kept := taken nofun
      have wired := kept.wired.reconnect (TcpConnection.channel_shutdownInLoop _) (by simp)
      exact kept.serves ⟨rfl, .refl _⟩ wired (.inl (TcpConnection.state_shutdownInLoop _))
  | connectDestroyed => exact connectDestroyed_lively lively batch started listed ran
  | writeComplete =>
      cases ran
      exact taken nofun

omit [DecidableEq κ] in
theorem push_lively {caller : τ} {calls : LoopSystem τ (Job τ)} (lively : before.Lively)
    (prompt : ∀ job ∈ held (before.calls.status caller), job.holds = false →
      .connectDestroyed ∉ before.calls.pushes.map Prod.snd)
    (stepped : before.calls.step (.push caller) = .ok calls) : Lively { before with calls } := by
  have ordered := step_ordered lively.ordered stepped
  have stage : Stage before.base calls before.holders before.destroyed := by
    by_cases mine : .connectDestroyed ∈ held (before.calls.status caller)
    · exact lively.stage.push lively.ordered stepped mine
    · obtain ⟨cb, locking, moved⟩ := push_eq_ok stepped
      refine lively.stage.keep (.push stepped mine ?_) (fun _ _ _ => by rw [moved]; rfl) rfl fun _ => id
      intro queued job there
      cases job with
      | sendInLoop _ _ => exact absurd queued (prompt _ there rfl)
      | shutdownInLoop => exact absurd queued (prompt _ there rfl)
      | connectDestroyed => exact absurd there mine
      | writeComplete => rfl
  refine ⟨ordered, lively.wired, stage, fun connecting => ?_, lively.ended⟩
  obtain ⟨clear, open_⟩ := lively.early connecting
  exact ⟨fun bare => clear (bare.of_push stepped), open_⟩

theorem step_lively {action : SharedAction τ κ} (lively : before.Lively) (contract : before.Contract action)
    (prompt : before.Prompt action) (stepped : before.step action = .ok after) : after.Lively := by
  cases step_moves stepped with
  | established established performed =>
      exact connectEstablished_lively lively contract established performed
  | rested notes listed copies => exact lively.rest notes listed copies
  | sent sent => exact send_lively lively sent
  | tested => exact shutdown_lively lively _
  | disconnected testing disconnected => exact disconnect_lively lively testing disconnected
  | @written returned result _ registered handled performed =>
      have state : result.1.state = before.conn.state :=
        congrArg Standing.state ((before.conn.handleWrite_inner returned).of_ok handled).standing
      have wired := perform_wired lively.wired (lively.wired.registered_iff.mpr registered)
        (lively.wired.alive registered) (TcpConnection.handleWrite_touches handled)
        (fun connected => state ▸ connected) performed
      exact lively.serves (perform_serves performed) wired (.inl state)
  | closed registered closed performed removed =>
      have kept := handleClose_lively lively registered closed performed
      rcases removeConnection_eq_ok removed with rfl | erases
      · exact kept.rest (.refl _) rfl fun _ _ => id
      · exact kept.erase erases
  | erased erases => exact lively.erase erases
  | others apart moved =>
      exact ⟨lively.ordered, lively.wired.others contract apart moved, lively.stage, lively.early,
        lively.ended⟩
  | started batch started ran => exact run_lively ran lively batch started rfl rfl
  | pushed pushed => exact push_lively lively prompt pushed

omit [DecidableEq κ] in
theorem Lively.held {job : Job τ} {functors : List (Job τ)} (lively : before.Lively)
    (batch : before.calls.loop.functors = job :: functors) (bare : job.holds = false) :
    before.Held ∧ before.destroyed = false := by
  obtain ⟨alive, holder⟩ := lively.stage.bare lively.ordered batch bare
  refine ⟨?_, alive⟩
  rcases holder with listed | copies | queued
  · exact .inl listed
  · exact .inr (.inl copies)
  · exact .inr (.inr (.inr ⟨_, List.mem_append_right _ queued, rfl⟩))

omit [DecidableEq κ] in
theorem Held.start {calls : LoopSystem τ (Job τ)} {job : Job τ} {functors : List (Job τ)}
    (exists_ : before.Held) (batch : before.calls.loop.functors = job :: functors)
    (started : before.calls.step .start = .ok calls) : Held { before with
      calls
      holders := { before.holders with called := before.holders.called ++ [job] } } := by
  obtain ⟨_, _, batch', loop, _⟩ := start_step_eq_ok started
  rw [batch] at batch'
  cases batch'
  rcases exists_ with listed | copies | removals | ⟨other, there, holding⟩
  · exact .inl listed
  · exact .inr (.inl copies)
  · exact .inr (.inr (.inl removals))
  · refine .inr (.inr (.inr ⟨other, ?_, holding⟩))
    rw [batch] at there
    simpa [loop] using there

/-- A change of one channel's interest leaves the poller's view of the others alone. -/
def Aside (before after : SharedConnection τ κ) : Prop :=
  ∀ other, other ≠ before.key → before.channels.Registered other →
    after.channels.pollfd? other = before.channels.pollfd? other

theorem sendInLoop_inner {sender : τ} {message : Bytes} {returned : Int}
    (wired : Wired before.key before.channels before.conn before.destroyed)
    (registered : before.channels.Registered before.key) :
    Ensures Halt.Inner (before.sendInLoop sender message returned) before.Aside := by
  have update (call : InterestCall) :
      Ensures Halt.Inner (before.channels.step (.update before.key call)) fun _ => True := by
    obtain ⟨channels, stepped⟩ := wired.tabled.update_ok registered call
    rw [stepped]
    exact .ok trivial
  have written := before.conn.sendInLoop_inner message returned
  unfold SharedConnection.sendInLoop
  cases sent : before.conn.sendInLoop message returned with
  | error halt => exact written.of_error sent
  | ok result =>
      let named := { before with ledger := { before.ledger with
        order := before.ledger.order ++ [(sender, message)] } }
      have told : Ensures Halt.Inner (named.perform result) _ :=
        perform_ensures (fun _ => id) wired.mirror (TcpConnection.sendInLoop_touches sent)
          fun call _ => update call
      refine told.mono fun after outcome other apart registered' => ?_
      rcases outcome with ⟨_, same⟩ | ⟨call, _, stepped⟩
      · rw [same]
      · exact wired.tabled.pollfd_update registered stepped registered' apart

theorem run_inner {job : Job τ} {returned : Int} (exists_ : before.Held) (bare : job.holds = false)
    (wired : Wired before.key before.channels before.conn before.destroyed)
    (registered : before.channels.Registered before.key) :
    Ensures Halt.Inner (before.run job returned) before.Aside := by
  refine .require (.inr exists_) ?_
  cases job with
  | sendInLoop sender message => exact sendInLoop_inner wired registered
  | shutdownInLoop => exact .ok fun _ _ _ => rfl
  | connectDestroyed => cases bare
  | writeComplete => cases bare

/-- A functor with the bare `this` that starts in time stops nowhere but in its own `::write`. -/
theorem Lively.start_inner {job : Job τ} {functors : List (Job τ)} (lively : before.Lively)
    (batch : before.calls.loop.functors = job :: functors) (bare : job.holds = false)
    (returned : Int) : Ensures Halt.Inner (before.start returned) before.Aside := by
  obtain ⟨exists_, alive⟩ := lively.held batch bare
  obtain ⟨⟨pusher, found⟩, _⟩ := lively.ordered.head batch
  have registered : before.channels.Registered before.key := by
    refine lively.wired.registered (fun connecting => ?_) alive
    exact (lively.early connecting).1 (.inl ⟨_, List.mem_of_getElem? found, bare⟩)
  unfold SharedConnection.start
  rw [batch]
  refine (onLoop_inner _).bind fun _ started => ?_
  obtain ⟨calls, started, rfl⟩ := started
  exact run_inner (exists_.start batch started) bare lively.wired registered

end Runs

section Theorem

variable [DecidableEq κ] {threadId base : τ} {key : κ} {fd : κ → Int} {loop : Nat} {peerAddr : Bytes}
variable {writeCompleteCallback : Bool} {actions : List (SharedAction τ κ)}
variable {system : SharedConnection τ κ}

/-- Where no functor of `send` or `shutdown` is pushed behind that of `connectDestroyed`, each one
that runs finds a holder of the connection and its channel with the poller, and what it does
there leaves every other channel alone. -/
theorem functors_find_connection
    (run : Execution step (fun system action => system.Contract action ∧ system.Prompt action)
      (construct threadId base key fd loop peerAddr writeCompleteCallback) actions system)
    {job : Job τ} {functors : List (Job τ)} (batch : system.calls.loop.functors = job :: functors)
    (bare : job.holds = false) :
    system.Held ∧ system.destroyed = false ∧ ∀ returned,
      (∀ halt, system.step (.start returned) = .error halt →
        halt ≠ .dangling ∧ halt ≠ .assertion .updateChannel) ∧
      ∀ after, system.step (.start returned) = .ok after →
        ∀ other, other ≠ system.key → system.channels.Registered other →
          after.channels.pollfd? other = system.channels.pollfd? other := by
  have lively : system.Lively := run.invariant construct_lively
    fun _ _ _ lively admitted stepped => step_lively lively admitted.1 admitted.2 stepped
  obtain ⟨held, alive⟩ := lively.held batch bare
  refine ⟨held, alive, fun returned => ?_⟩
  have stepped : Ensures Halt.Inner (system.step (.start returned)) system.Aside :=
    .guard (by simp [Halt.Inner]) fun _ => lively.start_inner batch bare returned
  refine ⟨fun halt stopped => ?_, fun after reached => stepped.of_ok reached⟩
  obtain ⟨dangling, updated, _⟩ := stepped.of_error stopped
  exact ⟨dangling, updated⟩

end Theorem

/-- The theorem at a connection that only the functor of `connectDestroyed` still holds. -/
theorem functors_find_connection_closing : ∃ system : SharedConnection (Fin 3) Nat,
    system.holders = ⟨false, [], 0, []⟩ ∧
      system.calls.loop.functors = [.sendInLoop 2 [1, 2], .connectDestroyed] ∧ system.Held := by
  let actions : List (SharedAction (Fin 3) Nat) := [
    .advance .enter, .advance .test, .advance .poll, .others (.update 8 .enableReading),
    .connectEstablished, .acquire 2, .send 2 [1, 2] 0, .advance (.push 2), .advance (.wakeup 2),
    .handleClose, .removeConnectionInLoop, .advance (.push 1), .advance (.wakeup 1), .release 1,
    .release 2, .advance .prepare, .advance .swap]
  have replayed : (replay step (fun system action => system.Contract action ∧ system.Prompt action)
      .impossible (construct (0 : Fin 3) 1 7 (fun key : Nat => (key : Int)) 0 [] true)
      actions).toOption.any (fun system => decide (system.holders = ⟨false, [], 0, []⟩ ∧
        system.calls.loop.functors = [.sendInLoop 2 [1, 2], .connectDestroyed])) = true := by
    decide +kernel
  obtain ⟨system, run, reached⟩ := Execution.exists_of_replay replayed
  obtain ⟨holders, functors⟩ := of_decide_eq_true reached
  exact ⟨system, holders, functors, (functors_find_connection run functors rfl).1⟩

/-- A close slips in between the test of `send` and its push. The functor runs on a connection
that nobody holds; and if someone still holds it, it asks for a change of interest of a channel
that the poller no longer has. -/
theorem functors_lose_connection :
    (∃ (actions : List (SharedAction (Fin 3) Nat)) (system : SharedConnection (Fin 3) Nat),
      Execution step Contract
        (construct (0 : Fin 3) 1 7 (fun key : Nat => (key : Int)) 0 [] false) actions system ∧
      system.calls.loop.functors = [.sendInLoop 2 [1, 2]] ∧ ¬ system.Held ∧
      system.step (.start 0) = .error .dangling) ∧
    ∃ (actions : List (SharedAction (Fin 3) Nat)) (system : SharedConnection (Fin 3) Nat),
      Execution step Contract
        (construct (0 : Fin 3) 1 7 (fun key : Nat => (key : Int)) 0 [] false) actions system ∧
      system.calls.loop.functors = [.sendInLoop 2 [1, 2]] ∧ system.destroyed = true ∧
      system.channels.removed = [7] ∧
      system.step (.start 0) = .error (.assertion .updateChannel) := by
  let actions : List (SharedAction (Fin 3) Nat) := [
    .advance .enter, .advance .test, .advance .poll, .connectEstablished, .acquire 2,
    .send 2 [1, 2] 0, .handleClose, .removeConnectionInLoop, .advance (.push 1),
    .advance (.wakeup 1), .release 1, .advance .prepare, .advance .swap, .start 0, .finish,
    .advance (.push 2), .advance (.wakeup 2), .advance .test, .advance .poll, .advance .prepare,
    .advance .swap]
  let start : SharedConnection (Fin 3) Nat :=
    construct 0 1 7 (fun key => (key : Int)) 0 [] false
  constructor
  · have replayed : (replay step Contract .impossible start (actions ++ [.release 2])).toOption.any
        (fun system => decide (system.calls.loop.functors = [.sendInLoop 2 [1, 2]] ∧ ¬ system.Held) &&
          stopsWith (system.step (.start 0)) .dangling) = true := by
      decide +kernel
    obtain ⟨system, run, reached⟩ := Execution.exists_of_replay replayed
    obtain ⟨lost, stopped⟩ := Bool.and_eq_true_iff.mp reached
    obtain ⟨functors, unheld⟩ := of_decide_eq_true lost
    exact ⟨_, system, run, functors, unheld, eq_error_of_stopsWith stopped⟩
  · have replayed : (replay step Contract .impossible start actions).toOption.any
        (fun system => decide (system.calls.loop.functors = [.sendInLoop 2 [1, 2]] ∧
          system.destroyed = true ∧ system.channels.removed = [7]) &&
          stopsWith (system.step (.start 0)) (.assertion .updateChannel)) = true := by
      decide +kernel
    obtain ⟨system, run, reached⟩ := Execution.exists_of_replay replayed
    obtain ⟨lost, stopped⟩ := Bool.and_eq_true_iff.mp reached
    obtain ⟨functors, destroyed, removed⟩ := of_decide_eq_true lost
    exact ⟨_, system, run, functors, destroyed, removed, eq_error_of_stopsWith stopped⟩

end SharedConnection

end TransferServer.Net
