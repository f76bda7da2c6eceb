import Dlmserve.Clients
import Dlmserve.Reuse
import Dlmserve.Shutdown

set_option autoImplicit false

namespace Dlmserve

section Remaining

def remainingSteps (s : Scheduler) : Nat :=
  ∑ ref ∈ Finset.range s.fresh, ((s.objects ref).params.numDenoisingSteps - spent s ref)

variable (tokenizer : Tokenizer) (r : EngineRun) (s' : Scheduler)

theorem queued_below (invariant : PacedInvariant tokenizer r) (ref : Nat)
    (queued : ref ∈ r.engine.scheduler.active ++ r.engine.scheduler.pending) :
    (r.engine.scheduler.objects ref).stepIdx < (r.engine.scheduler.objects ref).params.numDenoisingSteps :=
  index_below _ (invariant.paced ref (invariant.engine.queues.alive ref queued)) (invariant.engine.running ref queued)

theorem remaining_left (invariant : PacedInvariant tokenizer r) (follows : Follows r.engine.scheduler s') (ref : Nat)
    (alive : ref < r.engine.scheduler.fresh) :
    (s'.objects ref).params.numDenoisingSteps - spent s' ref ≤
      (r.engine.scheduler.objects ref).params.numDenoisingSteps - spent r.engine.scheduler ref := by
  have grows := spent_mono _ s' follows ref alive fun queued => Nat.le_of_lt (queued_below tokenizer r invariant ref queued)
  rw [follows.params ref alive]
  exact Nat.sub_le_sub_left grows _

theorem remaining_antitone (invariant : PacedInvariant tokenizer r) (follows : Follows r.engine.scheduler s')
    (closed : s'.fresh = r.engine.scheduler.fresh) : remainingSteps s' ≤ remainingSteps r.engine.scheduler := by
  rw [remainingSteps, remainingSteps, closed]
  exact Finset.sum_le_sum fun ref member => remaining_left tokenizer r s' invariant follows ref (Finset.mem_range.mp member)

theorem remaining_decreases (invariant : PacedInvariant tokenizer r) (follows : Follows r.engine.scheduler s')
    (closed : s'.fresh = r.engine.scheduler.fresh) (ref : Nat)
    (queued : ref ∈ r.engine.scheduler.active ++ r.engine.scheduler.pending)
    (moved : ref ∈ s'.active ++ s'.pending → (r.engine.scheduler.objects ref).stepIdx < (s'.objects ref).stepIdx) :
    remainingSteps s' < remainingSteps r.engine.scheduler := by
  have alive := invariant.engine.queues.alive ref queued
  have below := queued_below tokenizer r invariant ref queued
  rw [remainingSteps, remainingSteps, closed]
  apply Finset.sum_lt_sum
  · exact fun other member => remaining_left tokenizer r s' invariant follows other (Finset.mem_range.mp member)
  · refine ⟨ref, Finset.mem_range.mpr alive, ?_⟩
    rw [spent, spent, if_pos queued, follows.params ref alive]
    split
    · rename_i after
      have further := moved after
      omega
    · omega

end Remaining

section Round

variable {V : Type} (torch : Torch V) (loaded : LoadedModel V) (e : Engine) (now time : ℚ) (fails : Bool) (draw : Draw V)

-- A round with work to do takes its batch forward, or fails it.
theorem busy_round_decreases (decodes : Decodes loaded.tokenizer) (later : now ≤ time)
    (invariant : PacedInvariant loaded.tokenizer ⟨e, now⟩) (busy : e.batch time ≠ []) :
    remainingSteps (e.iterate torch loaded time fails draw).scheduler < remainingSteps e.scheduler := by
  obtain ⟨ref, member⟩ := List.exists_mem_of_ne_nil _ busy
  have queued := batch_queued loaded e now time later invariant.engine ref member
  have follows := act_follows torch loaded e now time (.iterate fails draw) later decodes invariant.engine
  obtain ⟨_, _, fresh, members⟩ := iterate_queued torch loaded e now time fails draw later decodes invariant.engine
  refine remaining_decreases loaded.tokenizer ⟨e, now⟩ _ invariant follows fresh ref queued ?_
  intro after
  have kept := ((members ref).mp after).2 member
  exact (request_moved torch loaded e now time fails draw ref later decodes invariant.engine).2.2.2.2 member kept.1

end Round

section Drain

variable {V : Type} (torch : Torch V) (app : App V) (maxBatch maxWaiting : Nat)

theorem reachable_server_paced (decodes : Decodes app.loaded.tokenizer) (r : ServerRun)
    (reach : Transition.Reachable (InitialServer maxBatch maxWaiting) (ServerStep torch app) r) :
    ∃ now, now ≤ r.now ∧ PacedInvariant app.loaded.tokenizer ⟨r.server.engine, now⟩ := by
  obtain ⟨now, earlier, reached⟩ := server_engine_reachable torch app maxBatch maxWaiting r reach
  exact ⟨now, earlier, reachable_paced torch app.loaded decodes maxBatch maxWaiting _ reached⟩

def ServerAction.isRound : ServerAction V → Bool
  | .iterate _ _ => true
  | _ => false

-- A step of a server that shuts down admits nothing, so that only less remains.
theorem closing_remaining (decodes : Decodes app.loaded.tokenizer) (r r' : ServerRun) (a : ℚ × ServerAction V)
    (reach : Transition.Reachable (InitialServer maxBatch maxWaiting) (ServerStep torch app) r)
    (closed : r.server.shuttingDown = true) (step : ServerStep torch app r a r') :
    remainingSteps r'.server.engine.scheduler ≤ remainingSteps r.server.engine.scheduler := by
  obtain ⟨now, earlier, paced⟩ := reachable_server_paced torch app maxBatch maxWaiting decodes r reach
  obtain ⟨later, rfl⟩ := step
  have move := move_engine torch app a.1 r.server _ a.2 (act_move torch app a.1 r.server a.2)
  generalize (r.server.act torch app a.1 a.2).engine = after at move ⊢
  have follows (action : EngineAction V) :=
    act_follows torch app.loaded r.server.engine now a.1 action (earlier.trans later) decodes paced.engine
  cases move with
  | same => exact le_refl _
  | admitted full rendered params state served prepares room =>
      rw [closed] at served
      cases served
  | iterated fails draw round =>
      exact remaining_antitone _ ⟨r.server.engine, now⟩ _ paced (follows (.iterate fails draw))
        (iterate_queued torch app.loaded r.server.engine now a.1 fails draw (earlier.trans later) decodes paced.engine).2.2.1
  | cancelled ref =>
      exact remaining_antitone _ ⟨r.server.engine, now⟩ _ paced (follows (.cancel ref)) (cancel_queues _ ref).fresh
  | shutdown => exact le_refl _

theorem closing_round (decodes : Decodes app.loaded.tokenizer) (places : 0 < maxBatch) (r : ServerRun)
    (reach : Transition.Reachable (InitialServer maxBatch maxWaiting) (ServerStep torch app) r)
    (closed : r.server.shuttingDown = true) (time : ℚ) (later : r.now ≤ time) (fails : Bool) (draw : Draw V) :
    (r.server.engine.iterate torch app.loaded time fails draw).loop = .returned ∨
      remainingSteps (r.server.engine.iterate torch app.loaded time fails draw).scheduler <
        remainingSteps r.server.engine.scheduler := by
  obtain ⟨now, earlier, paced⟩ := reachable_server_paced torch app maxBatch maxWaiting decodes r reach
  have flags := (reachable_server_invariant torch app maxBatch maxWaiting r reach).flags
  cases running : r.server.engine.loop with
  | crashed => exact absurd running paced.engine.alive
  | returned =>
      refine Or.inl ?_
      rw [Engine.iterate, running]
      exact running
  | running =>
      by_cases work : r.server.engine.scheduler.hasWork = true
      · have room : 1 ≤ r.server.engine.scheduler.maxBatch := by
          rw [(reachable_limits torch app maxBatch maxWaiting r reach).1]
          exact places
        have busy := busy_batch app.loaded r.server.engine now time (earlier.trans later) paced.engine running work room
        exact Or.inr (busy_round_decreases torch app.loaded r.server.engine now time fails draw decodes
          (earlier.trans later) paced busy)
      · refine Or.inl ?_
        simp [Engine.iterate, running, ← flags, closed, work]

theorem closing_stays (r r' : ServerRun) (a : ℚ × ServerAction V) (closed : r.server.shuttingDown = true)
    (step : ServerStep torch app r a r') : r'.server.shuttingDown = true := by
  obtain ⟨_, rfl⟩ := step
  obtain ⟨time, action⟩ := a
  have move := act_move torch app time r.server action
  dsimp only
  generalize r.server.act torch app time action = after at move ⊢
  cases move with
  | shutdown => rfl
  | still | arrived | iterated | woken | gatherCancelled | threadCancelled | jobChanged | drained => exact closed

-- A handler whose future is settled goes on when its task is woken, and ends.
theorem settled_wakes (s : Server) (h : Nat) (handler : Handler) (read : s.handlers[h]? = some handler) (ref : Nat)
    (awaits : handler.awaits = some (.gather ref)) (future : Future)
    (held : (s.engine.scheduler.objects ref).future = some future) (settled : future.done = true) :
    ∃ ended, (s.wake h).handlers[h]? = some ended ∧ ended.ending ≠ none := by
  have inside := (List.getElem?_eq_some_iff.mp read).1
  rw [Server.wake, read]
  dsimp only
  cases resumes : handler.resume s.metrics s.engine.scheduler with
  | none =>
      refine ⟨handler, read, fun unfinished => ?_⟩
      rw [Handler.resume, unfinished, awaits] at resumes
      cases stopped : handler.cancelled with
      | true => simp [stopped] at resumes
      | false =>
          cases future with
          | pending => cases settled
          | result | exception | cancelled => simp [stopped, held] at resumes
  | some booked =>
      refine ⟨booked.2, List.getElem?_set_self inside, ?_⟩
      exact (resumption_keeps handler _ _ booked (resume_cases handler _ _ booked resumes).2).2.2

end Drain

theorem closing_returns {V : Type} (torch : Torch V) (app : App V) (decodes : Decodes app.loaded.tokenizer)
    (maxBatch maxWaiting : Nat) (places : 0 < maxBatch) (r after : ServerRun)
    (reach : Transition.Reachable (InitialServer maxBatch maxWaiting) (ServerStep torch app) r)
    (closed : r.server.shuttingDown = true) (trace : List (ServerRun × (ℚ × ServerAction V)))
    (run : Transition.Run (ServerStep torch app) r trace after)
    (rounds : remainingSteps r.server.engine.scheduler < trace.countP fun entry => entry.2.2.isRound) :
    after.server.engine.loop = .returned := by
  apply Transition.run_exhausts (fun t : ServerRun =>
    Transition.Reachable (InitialServer maxBatch maxWaiting) (ServerStep torch app) t ∧ t.server.shuttingDown = true)
    (fun t => t.server.engine.loop = .returned) (fun t => remainingSteps t.server.engine.scheduler)
    (fun _ a => a.2.isRound) r after trace run ⟨reach, closed⟩ _ _ _ _ rounds
  · exact fun s a t inv step => ⟨Transition.reachable_step _ s t a inv.1 step, closing_stays torch app s t a inv.2 step⟩
  · rintro s a t inv ⟨_, rfl⟩ finished
    exact (engine_move_returned torch app a.1 s.server a.2 _
      (reachable_server_invariant torch app maxBatch maxWaiting s inv.1) finished
      (move_engine torch app a.1 s.server _ a.2 (act_move torch app a.1 s.server a.2))).1
  · exact fun s a t inv step => closing_remaining torch app maxBatch maxWaiting decodes s t a inv.1 inv.2 step
  · rintro s ⟨time, action⟩ t inv ⟨later, rfl⟩ round
    cases action with
    | iterate fails draw =>
        exact closing_round torch app maxBatch maxWaiting decodes places s inv.1 inv.2 time later fails draw
    | request | wake | cancel | start | drop | work | shutdown | drain => cases round

theorem returned_drains {V : Type} (torch : Torch V) (app : App V) (maxBatch maxWaiting : Nat) (r : ServerRun)
    (reach : Transition.Reachable (InitialServer maxBatch maxWaiting) (ServerStep torch app) r)
    (returned : r.server.engine.loop = .returned) :
    r.server.shuttingDown = true ∧ r.server.engine.scheduler.hasWork = false := by
  obtain ⟨shut, pending, active⟩ := returned_idle torch app maxBatch maxWaiting r reach returned
  refine ⟨shut, (has_work_order r.server.engine.scheduler).mpr ?_⟩
  rw [pending, active]
  rfl

-- A shutdown comes to its end: once as many rounds of the loop as denoising steps remain
-- have passed, in whatever order with everything else, one more finds the scheduler empty
-- and the loop returns. Then the drain returns at its next test, and every batched handler
-- that is still open ends as soon as its task is woken.
theorem drain_terminates {V : Type} (torch : Torch V) (app : App V) (decodes : Decodes app.loaded.tokenizer)
    (maxBatch maxWaiting : Nat) (places : 0 < maxBatch) (r after : ServerRun)
    (reach : Transition.Reachable (InitialServer maxBatch maxWaiting) (ServerStep torch app) r)
    (closed : r.server.shuttingDown = true) (trace : List (ServerRun × (ℚ × ServerAction V)))
    (run : Transition.Run (ServerStep torch app) r trace after)
    (rounds : remainingSteps r.server.engine.scheduler < trace.countP fun entry => entry.2.2.isRound) :
    after.server.engine.loop = .returned ∧ after.server.drainActive.drained = true ∧
      ∀ h handler ref, after.server.handlers[h]? = some handler → handler.awaits = some (.gather ref) →
        ∃ ended, (after.server.wake h).handlers[h]? = some ended ∧ ended.ending ≠ none := by
  have reached := Transition.reachable_run _ r after trace reach run
  have returned := closing_returns torch app decodes maxBatch maxWaiting places r after reach closed trace run rounds
  have drains := returned_drains torch app maxBatch maxWaiting after reached returned
  refine ⟨returned, ?_, ?_⟩
  · rw [Server.drainActive, if_pos drains]
  · intro h handler ref read awaits
    have idle := (has_work_order after.server.engine.scheduler).mp drains.2
    have alive := (reachable_server_invariant torch app maxBatch maxWaiting after reached).gathers handler
      (List.mem_of_getElem? read) ref awaits
    obtain ⟨future, held, settled⟩ := idle_settled _ after.now
      (reachable_server_tracked torch app maxBatch maxWaiting after reached) ref alive
      (by rw [idle]; exact List.not_mem_nil)
    exact settled_wakes after.server h handler read ref awaits future held settled

def closingServer : ServerRun :=
  servesFrom writtenTorch writtenApp (idleServer 2 2) [.request "a" (tokenBody false) 0 .ample, .shutdown]

def closingActions : List (ServerAction Written) := [.iterate false lowDraw, .drain, .iterate true lowDraw]

theorem drain_terminates_behind_request :
    (servesFrom writtenTorch writtenApp closingServer closingActions).server.engine.loop = .returned ∧
      (servesFrom writtenTorch writtenApp closingServer closingActions).server.drainActive.drained = true := by
  obtain ⟨returned, drained, _⟩ := drain_terminates writtenTorch writtenApp written_decodes 2 2 (by decide) closingServer _
    (serves_reachable writtenTorch writtenApp 2 2 _) (by decide +kernel) _
    (serves_from_run writtenTorch writtenApp closingServer closingActions) (by decide +kernel)
  exact ⟨returned, drained⟩

end Dlmserve
