import TransferServer.Net.Removal
import TransferServer.Net.SocketLifetimeProperties

/-! What becomes of a connection that has been closed. Its removal waits in the base loop, then its
end in its own loop; nothing else can happen to it in between. -/

set_option autoImplicit false

namespace TransferServer.Net.TcpServer

open Base Lib

variable {handshake : Handshake} {server before after : TcpServer} {conn : ConnId}
variable {object : TcpConnection} {action : Action}

/-- A step closes the connection that it asks the removal of, and no other. -/
theorem Takes.closed (takes : before.Takes handshake action after) (closed : .closed conn ∈ after.trace) :
    .closed conn ∈ before.trace ∨ before.removal handshake action = some conn := by
  obtain ⟨middle, turn, _, yields⟩ := takes
  by_cases recorded : before.Recorded handshake action (.closed conn)
  · refine .inr ?_
    cases action with
    | handle loop input =>
        obtain ⟨task, head, asks⟩ := recorded
        simp only [removal, head, Option.bind_some]
        exact asks
    | run loop input =>
        obtain ⟨functor, _, records⟩ := recorded
        exact records.elim
    | _ => exact recorded.elim
  · refine .inl ?_
    rw [← turn.trace]
    rcases yields with edits | ⟨sockfd, peerAddr, _, _, _, edits⟩
    · exact (edits.mem_trace recorded).mp closed
    · have admitted := (edits.mem_trace recorded).mp closed
      simpa [TcpServer.admitted, record, setConn] using admitted

section Runs

variable {numThreads : Nat} {wakeupFd : LoopId → Int} {acceptFd : Int} {actions : List Action}

structure Parting (server : TcpServer) : Prop where
  homely : server.Homely
  departing : ∀ conn, .closed conn ∈ server.trace → 0 < server.departures conn

theorem step_parting (parting : server.Parting) (stepped : step handshake server action = .ok after) :
    after.Parting where
  homely := step_homely parting.homely stepped
  departing := by
    intro conn closed
    rw [step_departs parting.homely.upheld parting.homely.based stepped]
    rcases (parting.homely.takes stepped).closed closed with earlier | asks
    · exact Nat.add_pos_left (parting.departing conn earlier) _
    · rw [if_pos asks]
      exact Nat.succ_pos _

theorem run_parting
    (run : Execution (step handshake) anyAction (start numThreads wakeupFd acceptFd) actions server) :
    server.Parting :=
  run.invariant ⟨start_homely, nofun⟩ fun _ _ _ parting _ stepped => step_parting parting stepped

theorem Upheld.conns_of_removed {timely : Prop} (upheld : server.Upheld timely)
    (removed : server.Removed conn) : ∃ object, server.conns conn = some object := by
  refine Option.ne_none_iff_exists'.mp fun missing => ?_
  have unknown : server.standing conn = none := by rw [standing, missing, Option.map_none]
  rcases removed with erased | waits
  · exact (upheld.formed.known conn unknown).2.1 erased
  · obtain ⟨standing, there, _⟩ := upheld.formed.placed baseLoop _ waits
    cases unknown.symm.trans there

/-- A connection that is off the list has its end in its loop's agenda until it is down. -/
theorem Upheld.ending {life : Life} (upheld : server.Upheld False)
    (found : server.conns conn = some object) (alive : server.life conn = some life)
    (unlisted : life.entries = 0) (lives : object.state ≠ .kDisconnected) :
    .connectDestroyed conn ∈ server.agenda object.loop := by
  have there := standing_of_conns found
  obtain ⟨standing, known, state⟩ := standing_of_life alive
  cases known.symm.trans there
  have waiting := (upheld.valid conn life alive).waiting
  rw [if_pos (show life.entries = 0 ∧ _ from ⟨unlisted, fun same => lives (state.trans same)⟩)] at waiting
  have last : Errand.destroy ∈ life.agenda.filter (· ≠ .send) := by
    rw [waiting]
    exact List.mem_append_right _ (List.mem_singleton.mpr rfl)
  have queued := (List.mem_filter.mp last).1
  rw [agenda_of_life there alive] at queued
  obtain ⟨functor, listed, errand⟩ := List.mem_filterMap.mp queued
  exact eq_connectDestroyed_of_errand errand ▸ listed

/-- In every run, a connection that has been closed is on its way out: its removal waits in the base
loop, or it is off the list and its end waits in its own loop, or it is down and in no poller. -/
theorem closed_departs
    (run : Execution (step handshake) anyAction (start numThreads wakeupFd acceptFd) actions server)
    (closed : .closed conn ∈ server.trace) : ∃ object, server.conns conn = some object ∧
      (.removeConnectionInLoop conn ∈ server.agenda baseLoop ∨
        .erased conn ∈ server.trace ∧ conn ∉ server.connections ∧
          (.connectDestroyed conn ∈ server.agenda object.loop ∨
            .destroyed conn ∈ server.trace ∧ object.state = .kDisconnected ∧
              ∀ loop fd, (server.pollers loop).channels fd ≠ some (.connection conn))) := by
  obtain ⟨⟨upheld, _⟩, departing⟩ := run_parting run
  have removed := departures_pos.mp (departing conn closed)
  obtain ⟨object, found⟩ := upheld.conns_of_removed removed
  refine ⟨object, found, removed.symm.imp_right fun gone => ?_⟩
  have there := standing_of_conns found
  obtain ⟨life, alive, _⟩ := life_of_standing there
  obtain ⟨entries, _, erasures, _⟩ := counts_of_life alive
  have unlisted : life.entries = 0 := by
    have once := (upheld.valid conn life alive).listed
    have erased : 0 < life.erasures := erasures ▸ List.count_pos_iff.mpr gone
    omega
  refine ⟨gone, List.count_eq_zero.mp (entries.symm.trans unlisted), ?_⟩
  by_cases down : object.state = .kDisconnected
  · obtain ⟨destroyed, unpolled⟩ := upheld.gone there down
    exact .inr ⟨destroyed, down, unpolled⟩
  · exact .inl (upheld.ending found alive unlisted down)

/-- The theorem at a peer that closes a connection of an I/O loop, before the base loop runs. -/
theorem closed_departs_remote : ∃ server : TcpServer, .closed 1 ∈ server.trace ∧
    .erased 1 ∉ server.trace ∧ .removeConnectionInLoop 1 ∈ server.agenda baseLoop := by
  have replayed : (replay (step ⟨some, fun _ => true⟩) anyAction .impossible
      (start 1 (fun loop => 4 + loop) 3)
      (iteration 0 [0, 1] [.nothing, ⟨some (6, [1]), .ok [], 0⟩] [] ++
        iteration 1 [1] [.nothing, .nothing] [⟨none, .ok [], 21⟩] ++
        iteration 1 [0, 1] [.nothing, .nothing] [])).toOption.any (fun server =>
          decide (.closed 1 ∈ server.trace ∧ .erased 1 ∉ server.trace)) = true := by
    decide +kernel
  obtain ⟨server, run, ended⟩ := Execution.exists_of_replay replayed
  obtain ⟨closed, unerased⟩ := of_decide_eq_true ended
  refine ⟨server, closed, unerased, ?_⟩
  obtain ⟨object, _, waits | erased⟩ := closed_departs run closed
  · exact waits
  · exact absurd erased.1 unerased

end Runs

end TransferServer.Net.TcpServer
