import Dlmserve.Quiescence

set_option autoImplicit false

namespace Dlmserve

def Job.settled : Job → Bool
  | .finished _ => true
  | .dropped => true
  | _ => false

-- An accepted request has its result or its error: it does not wait in the scheduler
-- or in the thread pool, and is not denoised there.
structure Handler.Computed (scheduler : Scheduler) (handler : Handler) : Prop where
  batched : ∀ ref, handler.awaits = some (.gather ref) → ref ∉ scheduler.pending ∧ ref ∉ scheduler.active ∧
    ∃ future, (scheduler.objects ref).future = some future ∧ future.done = true
  single : ∀ call job, handler.awaits = some (.toThread call job) → job.settled = true

def Server.PoolIdle (s : Server) : Prop :=
  ∀ handler ∈ s.handlers, ∀ call job, handler.awaits = some (.toThread call job) → job.settled = true

def Server.DrainReturns (s : Server) : Prop := s.drained = false ∧ s.drainActive.drained = true

def Server.DrainsWhole (s : Server) : Prop :=
  s.DrainReturns → ∀ handler ∈ s.drainActive.handlers, handler.Computed s.drainActive.engine.scheduler

theorem drain_returns_idle (s : Server) (returns : s.DrainReturns) :
    s.shuttingDown = true ∧ s.engine.scheduler.hasWork = false ∧ s.drainActive = { s with drained := true } := by
  obtain ⟨waiting, finished⟩ := returns
  rw [Server.drainActive] at finished ⊢
  split at finished
  · rename_i idle
    rw [if_pos idle]
    exact ⟨idle.1, idle.2, rfl⟩
  · rw [waiting] at finished
    cases finished

section Pool

variable {V : Type} (torch : Torch V) (app : App V) (time : ℚ) (s s' : Server) (action : ServerAction V)

theorem job_stays_settled (h : Nat) (handler : Handler) (call : SingleCall) (job : Job)
    (change : Handler → SingleCall → Job → Job) (acts : JobAction torch app action h change) (settled : job.settled = true) :
    (change handler call job).settled = true := by
  cases job with
  | queued | running => cases settled
  | finished | dropped => cases acts <;> rfl

theorem handler_move_settled (h : Nat) (handler handler' : Handler) (move : HandlerMove torch app s action h handler handler')
    (settled : ∀ call job, handler.awaits = some (.toThread call job) → job.settled = true) (call : SingleCall) (job : Job)
    (awaits : handler'.awaits = some (.toThread call job)) : job.settled = true := by
  cases move with
  | same | cancelled => exact settled call job awaits
  | woken booked wakes unfinished resumption =>
      exact settled call job ((resumption_keeps handler _ _ booked resumption).1.symm.trans awaits)
  | jobChanged call' job' change acts waits =>
      obtain ⟨rfl, rfl⟩ := Await.toThread.inj (Option.some.inj awaits)
      exact job_stays_settled torch app action h handler call' job' change acts (settled call' job' waits)

theorem arrival_closed (reqId : String) (body : ChatCompletionRequest) (drawn : Int) (full : Full) (engine : Engine)
    (booked : Metrics × Handler) (closed : s.shuttingDown = true)
    (arrival : Arrival app time s reqId body drawn full engine booked) : booked.2.awaits = none := by
  cases arrival with
  | shuttingDown => rfl
  | notFound served | template served | single served | admitted served | refused served =>
      rw [closed] at served
      cases served

theorem pool_stays_idle (closed : s.shuttingDown = true) (idle : s.PoolIdle) (move : ServerMove torch app time s action s') :
    s'.PoolIdle := by
  intro handler member call job awaits
  obtain ⟨h, read⟩ := List.mem_iff_getElem?.mp member
  rcases move_member torch app time s s' action move h handler read with
    ⟨old, found, step⟩ | ⟨_, reqId, body, drawn, full, engine, booked, _, _, _, arrival, rfl⟩
  · exact handler_move_settled torch app s action h old handler step (idle old (List.mem_of_getElem? found)) call job awaits
  · rw [arrival_closed app time s reqId body drawn full engine booked closed arrival] at awaits
    cases awaits

variable (maxBatch maxWaiting : Nat)

theorem idle_pool_drains (r : ServerRun)
    (reach : Transition.Reachable (InitialServer maxBatch maxWaiting) (ServerStep torch app) r) (idle : r.server.PoolIdle) :
    r.server.DrainsWhole := by
  intro returns handler member
  obtain ⟨_, empty, finished⟩ := drain_returns_idle r.server returns
  rw [finished] at member ⊢
  refine ⟨fun ref awaits => ?_, idle handler member⟩
  have none_left := (has_work_order r.server.engine.scheduler).mp empty
  obtain ⟨active, pending⟩ := List.append_eq_nil_iff.mp none_left
  have alive := (reachable_server_invariant torch app maxBatch maxWaiting r reach).gathers handler member ref awaits
  refine ⟨?_, ?_, idle_settled _ r.now (reachable_server_tracked torch app maxBatch maxWaiting r reach) ref alive
    (by rw [none_left]; exact List.not_mem_nil)⟩
  · dsimp only
    rw [pending]
    exact List.not_mem_nil
  · dsimp only
    rw [active]
    exact List.not_mem_nil

theorem serving_undrained (r : ServerRun)
    (reach : Transition.Reachable (InitialServer maxBatch maxWaiting) (ServerStep torch app) r)
    (served : r.server.shuttingDown = false) : r.server.drained = false := by
  have closes : r.server.drained = true → r.server.shuttingDown = true := by
    refine Transition.reachable_invariant _ (fun r : ServerRun => r.server.drained = true → r.server.shuttingDown = true) r reach
      ?_ ?_
    · rintro r ⟨unused, now, rfl⟩ drained
      cases drained
    · rintro r ⟨time, action⟩ r' before ⟨_, rfl⟩
      have move := act_move torch app time r.server action
      dsimp only
      generalize r.server.act torch app time action = after at move ⊢
      cases move with
      | shutdown => exact fun _ => rfl
      | drained closed idle => exact fun _ => closed
      | still | arrived | iterated | woken | gatherCancelled | threadCancelled | jobChanged => exact before
  cases drained : r.server.drained with
  | false => rfl
  | true => rw [closes drained] at served; cases served

-- Rounds of the loop alone, each of whose forward passes fails, leave the rest as it is.
theorem rounds_run (draw : Draw V) (r : ServerRun) (n : Nat) : ∃ after trace,
    Transition.Run (ServerStep torch app) r trace after ∧ trace.countP (fun entry => entry.2.2.isRound) = n ∧
      after.server.handlers = r.server.handlers ∧ after.server.drained = r.server.drained := by
  induction n with
  | zero => exact ⟨r, [], .nil, rfl, rfl, rfl⟩
  | succ n ih =>
      obtain ⟨after, trace, run, rounds, handlers, drained⟩ := ih
      refine ⟨⟨after.server.act torch app after.now (.iterate true draw), after.now⟩, _,
        .snoc _ _ _ (after.now, .iterate true draw) run ⟨le_refl _, rfl⟩, ?_, handlers, drained⟩
      rw [List.countP_append, rounds]
      rfl

theorem drain_overtakes (decodes : Decodes app.loaded.tokenizer) (places : 0 < maxBatch) (r : ServerRun)
    (reach : Transition.Reachable (InitialServer maxBatch maxWaiting) (ServerStep torch app) r)
    (closed : r.server.shuttingDown = true) (waiting : r.server.drained = false) (handler : Handler)
    (member : handler ∈ r.server.handlers) (call : SingleCall) (job : Job)
    (awaits : handler.awaits = some (.toThread call job)) (unsettled : job.settled = false) :
    ∃ after trace, Transition.Run (ServerStep torch app) r trace after ∧ ¬ after.server.DrainsWhole := by
  let draw : Draw V := ⟨fun _ _ _ logits => logits, fun _ _ => 0, fun _ _ k => List.range k⟩
  obtain ⟨after, trace, run, rounds, handlers, drained⟩ :=
    rounds_run torch app draw r (remainingSteps r.server.engine.scheduler + 1)
  have reached := Transition.reachable_run _ r after trace reach run
  have returned := closing_returns torch app decodes maxBatch maxWaiting places r after reach closed trace run
    (by rw [rounds]; exact Nat.lt_succ_self _)
  have drains := returned_drains torch app maxBatch maxWaiting after reached returned
  refine ⟨after, trace, run, fun whole => ?_⟩
  have returns : after.server.DrainReturns := ⟨drained.trans waiting, by rw [Server.drainActive, if_pos drains]⟩
  obtain ⟨_, _, finished⟩ := drain_returns_idle after.server returns
  have computed := whole returns handler (by rw [finished]; exact handlers ▸ member)
  rw [computed.single call job awaits] at unsettled
  cases unsettled

end Pool

-- Whatever comes behind _begin_shutdown, everything accepted is computed when the drain
-- returns, where no call of a force_single_batch request was in the thread pool at the
-- signal; where one was, the drain may return before it.
theorem drain_waits_iff {V : Type} (torch : Torch V) (app : App V) (maxBatch maxWaiting : Nat) (r : ServerRun)
    (reach : Transition.Reachable (InitialServer maxBatch maxWaiting) (ServerStep torch app) r)
    (served : r.server.shuttingDown = false) (time : ℚ) (later : r.now ≤ time) :
    (r.server.PoolIdle → ∀ after trace,
      Transition.Run (ServerStep torch app) ⟨r.server.beginShutdown, time⟩ trace after → after.server.DrainsWhole) ∧
    (Decodes app.loaded.tokenizer → 0 < maxBatch →
      (∀ after trace,
        Transition.Run (ServerStep torch app) ⟨r.server.beginShutdown, time⟩ trace after → after.server.DrainsWhole) →
      r.server.PoolIdle) := by
  have reached : Transition.Reachable (InitialServer maxBatch maxWaiting) (ServerStep torch app)
      ⟨r.server.beginShutdown, time⟩ := Transition.reachable_step _ r _ (time, .shutdown) reach ⟨later, rfl⟩
  constructor
  · intro idle after trace run
    have kept : Transition.Reachable (InitialServer maxBatch maxWaiting) (ServerStep torch app) after ∧
        after.server.shuttingDown = true ∧ after.server.PoolIdle := by
      apply Transition.run_invariant (fun t : ServerRun =>
        Transition.Reachable (InitialServer maxBatch maxWaiting) (ServerStep torch app) t ∧ t.server.shuttingDown = true ∧
          t.server.PoolIdle) _ after trace run ⟨reached, rfl, idle⟩
      rintro s a t ⟨reachable, closed, still⟩ step
      refine ⟨Transition.reachable_step _ s t a reachable step, closing_stays torch app s t a closed step, ?_⟩
      obtain ⟨_, rfl⟩ := step
      exact pool_stays_idle torch app a.1 s.server _ a.2 closed still (act_move torch app a.1 s.server a.2)
    exact idle_pool_drains torch app maxBatch maxWaiting after kept.1 kept.2.2
  · intro decodes places whole handler member call job awaits
    by_contra unsettled
    obtain ⟨after, trace, run, fails⟩ := drain_overtakes torch app maxBatch maxWaiting decodes places
      ⟨r.server.beginShutdown, time⟩ reached rfl (serving_undrained torch app maxBatch maxWaiting r reach served) handler member
      call job awaits (Bool.eq_false_iff.mpr unsettled)
    exact fails (whole after trace run)

def threadHandler (job : Job) : Handler :=
  { reqId := "b"
    body := tokenBody true
    awaits := some (.toThread ⟨[2], some [1], (tokenBody true).samplingParams 0⟩ job)
    admitted := 1 }

def workedRun : ServerRun :=
  servesFrom writtenTorch writtenApp (idleServer 2 2)
    [.request "a" (tokenBody false) 0 .ample, .request "b" (tokenBody true) 0 .ample, .start 1,
      .work 1 none (fun _ _ => lowDraw) .ample]

def drainedRun : ServerRun := servesFrom writtenTorch writtenApp ⟨workedRun.server.beginShutdown, 5⟩ [.iterate false lowDraw]

theorem drain_waits_for_worker : drainedRun.server.DrainReturns ∧
    ∀ handler ∈ drainedRun.server.drainActive.handlers, handler.Computed drainedRun.server.drainActive.engine.scheduler := by
  have returns : drainedRun.server.DrainReturns := ⟨by decide +kernel, by decide +kernel⟩
  have handlers : workedRun.server.handlers =
      [{ reqId := "a", body := tokenBody false, awaits := some (.gather 0), admitted := 1 },
        threadHandler (.finished (.ok ⟨[2], [2], "decoded"⟩))] := by decide +kernel
  have idle : workedRun.server.PoolIdle := by
    intro handler member call job awaits
    rw [handlers, List.mem_cons, List.mem_singleton] at member
    rcases member with rfl | rfl
    · cases awaits
    · cases awaits
      rfl
  exact ⟨returns, (drain_waits_iff writtenTorch writtenApp 2 2 workedRun (serves_reachable writtenTorch writtenApp 2 2 _)
    (by decide +kernel) 5 (by decide +kernel)).1 idle drainedRun _ (serves_from_run writtenTorch writtenApp _ _) returns⟩

def busyRun : ServerRun :=
  servesFrom writtenTorch writtenApp (idleServer 2 2) [.request "b" (tokenBody true) 0 .ample, .start 0, .shutdown]

-- The drain returns while a force_single_batch request is on its worker thread.
theorem drain_misses_worker :
    Transition.Reachable (InitialServer 2 2) (ServerStep writtenTorch writtenApp) busyRun ∧ busyRun.server.DrainReturns ∧
      threadHandler .running ∈ busyRun.server.drainActive.handlers ∧
      ¬ (threadHandler .running).Computed busyRun.server.drainActive.engine.scheduler := by
  refine ⟨serves_reachable writtenTorch writtenApp 2 2 _, ⟨by decide +kernel, by decide +kernel⟩, by decide +kernel, ?_⟩
  intro computed
  exact Bool.noConfusion (computed.single _ _ rfl)

end Dlmserve
