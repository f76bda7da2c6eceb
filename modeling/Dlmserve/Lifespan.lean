import Dlmserve.Quiescence

set_option autoImplicit false

namespace Dlmserve

-- Where lifespan is: before the end of its yield, in wait_for, or behind the cancellation
-- of the engine's task, which the drain's return or the time-out has led to.
inductive Phase where
  | serving
  | draining
  | drained
  | timedOut
deriving DecidableEq

def Phase.loopCancelled : Phase → Bool
  | .drained => true
  | .timedOut => true
  | _ => false

structure Lifespan where
  server : Server
  phase : Phase := .serving

inductive LifespanAction (V : Type) where
  | serve (action : ServerAction V)
  | leave
  | drained
  | timedOut

-- A cancelled loop makes no further round; the time-out comes at any moment.
def Lifespan.act {V : Type} (torch : Torch V) (app : App V) (now : ℚ) (action : LifespanAction V) (l : Lifespan) : Lifespan :=
  match action with
  | .serve action =>
      if l.phase.loopCancelled && action.isRound then l else { l with server := l.server.act torch app now action }
  | .leave => if l.phase = .serving then { server := l.server.beginShutdown, phase := .draining } else l
  | .drained =>
      if l.phase = .draining ∧ l.server.engine.scheduler.hasWork = false then { l with phase := .drained } else l
  | .timedOut => if l.phase = .draining then { l with phase := .timedOut } else l

structure LifespanRun where
  lifespan : Lifespan
  now : ℚ

def LifespanStep {V : Type} (torch : Torch V) (app : App V) (r : LifespanRun) (a : ℚ × LifespanAction V) (r' : LifespanRun) :
    Prop := r.now ≤ a.1 ∧ r' = ⟨r.lifespan.act torch app a.1 a.2, a.1⟩

def InitialLifespan (maxBatch maxWaiting : Nat) (r : LifespanRun) : Prop :=
  InitialServer maxBatch maxWaiting ⟨r.lifespan.server, r.now⟩ ∧ r.lifespan.phase = .serving

section Serves

variable {V : Type} (torch : Torch V) (app : App V) (maxBatch maxWaiting : Nat) (time : ℚ) (l : Lifespan)
  (action : LifespanAction V)

theorem lifespan_act_server : (l.act torch app time action).server = l.server ∨
    ∃ a, (l.act torch app time action).server = l.server.act torch app time a := by
  cases action with
  | serve action =>
      rw [Lifespan.act]
      split
      · exact Or.inl rfl
      · exact Or.inr ⟨action, rfl⟩
  | leave =>
      rw [Lifespan.act]
      split
      · exact Or.inr ⟨.shutdown, rfl⟩
      · exact Or.inl rfl
  | drained | timedOut =>
      rw [Lifespan.act]
      split <;> exact Or.inl rfl

-- Whatever lifespan does, the server in it is one that a server reaches.
theorem lifespan_server_reachable (r : LifespanRun)
    (reach : Transition.Reachable (InitialLifespan maxBatch maxWaiting) (LifespanStep torch app) r) :
    ∃ now, now ≤ r.now ∧
      Transition.Reachable (InitialServer maxBatch maxWaiting) (ServerStep torch app) ⟨r.lifespan.server, now⟩ := by
  apply Transition.reachable_invariant _ (fun r : LifespanRun => ∃ now, now ≤ r.now ∧
    Transition.Reachable (InitialServer maxBatch maxWaiting) (ServerStep torch app) ⟨r.lifespan.server, now⟩) r reach
  · exact fun r initial => ⟨r.now, le_refl _, _, [], initial.1, .nil⟩
  · rintro r a r' ⟨now, earlier, reached⟩ ⟨later, rfl⟩
    rcases lifespan_act_server torch app a.1 r.lifespan a.2 with same | ⟨action, acted⟩
    · refine ⟨now, earlier.trans later, ?_⟩
      dsimp only
      rw [same]
      exact reached
    · refine ⟨a.1, le_refl _, Transition.reachable_step _ _ _ (a.1, action) reached ?_⟩
      exact ⟨earlier.trans later, by rw [acted]⟩

structure WellServed (r : LifespanRun) : Prop where
  tracked : Tracked r.lifespan.server.engine.scheduler r.now
  invariant : ServerInvariant r.lifespan.server
  opened : StillOpen r.lifespan.server

theorem reachable_well_served (r : LifespanRun)
    (reach : Transition.Reachable (InitialLifespan maxBatch maxWaiting) (LifespanStep torch app) r) : WellServed r := by
  obtain ⟨now, earlier, reached⟩ := lifespan_server_reachable torch app maxBatch maxWaiting r reach
  exact ⟨waited_tracked _ now r.now earlier (reachable_server_tracked torch app maxBatch maxWaiting _ reached),
    reachable_server_invariant torch app maxBatch maxWaiting _ reached, reachable_open torch app maxBatch maxWaiting _ reached⟩

end Serves

section Over

variable {V : Type} (torch : Torch V) (app : App V) (maxBatch maxWaiting : Nat)

-- Once its loop is cancelled an engine only sees cancellations and the shutdown flag.
inductive IdleMove (s : Server) (action : ServerAction V) : Engine → Prop where
  | same : IdleMove s action s.engine
  | flagged : IdleMove s action { s.engine with shutdown := true }
  | cancelled (h ref : Nat) (handler : Handler) (cancels : action = .cancel h) (read : s.handlers[h]? = some handler)
      (awaits : handler.awaits = some (.gather ref)) :
      IdleMove s action { s.engine with scheduler := s.engine.scheduler.cancel ref }

theorem idle_move (time : ℚ) (s : Server) (action : ServerAction V) (closed : s.shuttingDown = true)
    (silent : action.isRound = false) : IdleMove s action (s.act torch app time action).engine := by
  have move := act_move torch app time s action
  generalize s.act torch app time action = after at move ⊢
  cases move with
  | still | woken | threadCancelled | jobChanged | drained => exact .same
  | iterated fails draw => cases silent
  | shutdown => exact .flagged
  | arrived reqId body drawn full engine booked valid arrival =>
      rcases arrival_admits app time s reqId body drawn full engine booked arrival with
        ⟨rfl, _⟩ | ⟨rendered, state, served, _⟩
      · exact .same
      · rw [closed] at served
        cases served
  | gatherCancelled h handler ref read unfinished awaits => exact .cancelled h ref handler rfl read awaits

def TaskCancelled (entry : LifespanRun × (ℚ × LifespanAction V)) (ref : Nat) : Prop :=
  ∃ h handler, entry.2.2 = .serve (.cancel h) ∧ entry.1.lifespan.server.handlers[h]? = some handler ∧
    handler.gathers = some ref

theorem cancel_awaited (s : Scheduler) (ref other : Nat) :
    (s.cancel ref).awaited other = true ↔ s.awaited other = true ∧ other ≠ ref := by
  rw [awaited_eq, awaited_eq, cancel_objects]
  dsimp only
  by_cases same : other = ref
  · rw [if_pos same, awaited_pending, resolved_future]
    simp only [same, ne_eq, not_true_eq_false, and_false, iff_false]
    split
    · simp
    · rename_i settled
      exact fun pending => settled ((awaited_pending _).mpr pending)
  · rw [if_neg same]
    simp [same]

-- The queues stand still, and open requests stay open but for the ends that are named.
structure Stalled (l l' : Lifespan) (ends : Nat → Prop) : Prop where
  phase : l'.phase = l.phase
  closed : l'.server.shuttingDown = l.server.shuttingDown
  active : l'.server.engine.scheduler.active = l.server.engine.scheduler.active
  pending : l'.server.engine.scheduler.pending = l.server.engine.scheduler.pending
  fresh : l'.server.engine.scheduler.fresh = l.server.engine.scheduler.fresh
  awaited : ∀ ref, l'.server.engine.scheduler.awaited ref = true ↔ l.server.engine.scheduler.awaited ref = true ∧ ¬ ends ref

theorem stalled_refl (l : Lifespan) (ends : Nat → Prop) (none_ends : ∀ ref, ¬ ends ref) : Stalled l l ends :=
  ⟨rfl, rfl, rfl, rfl, rfl, fun ref => (and_iff_left (none_ends ref)).symm⟩

-- A cancellation of a task reaches the future, since who waits for an open one has not left.
theorem cancelled_ends (time : ℚ) (r : LifespanRun) (served : WellServed r) (h ref : Nat) (handler : Handler)
    (read : r.lifespan.server.handlers[h]? = some handler) (gathers : handler.gathers = some ref)
    (awaited : r.lifespan.server.engine.scheduler.awaited ref = true) :
    (r.lifespan.server.act torch app time (.cancel h)).engine =
      { r.lifespan.server.engine with scheduler := r.lifespan.server.engine.scheduler.cancel ref } := by
  have unfinished := (served.opened handler (List.mem_of_getElem? read) ref gathers awaited).2
  rw [Server.act, Server.cancelTask, read]
  simp [unfinished, (gathers_iff handler ref).mp gathers, Server.setHandler]

theorem serve_stalled (time : ℚ) (r : LifespanRun) (served : WellServed r)
    (closed : r.lifespan.server.shuttingDown = true) (action : ServerAction V) (silent : action.isRound = false) :
    Stalled r.lifespan { r.lifespan with server := r.lifespan.server.act torch app time action }
      (TaskCancelled (r, (time, .serve action))) := by
  have stays := closing_stays torch app ⟨r.lifespan.server, time⟩ _ (time, action) closed ⟨le_refl _, rfl⟩
  have still (engine : Engine) (scheduler : engine.scheduler = r.lifespan.server.engine.scheduler)
      (same : (r.lifespan.server.act torch app time action).engine = engine) :
      Stalled r.lifespan { r.lifespan with server := r.lifespan.server.act torch app time action }
        (TaskCancelled (r, (time, .serve action))) := by
    refine ⟨rfl, stays.trans closed.symm, ?_, ?_, ?_, fun ref => ?_⟩
    all_goals
      dsimp only
      rw [same, scheduler]
    refine (and_iff_left_of_imp fun awaited => ?_).symm
    rintro ⟨h, handler, cancels, read, gathers⟩
    obtain rfl := LifespanAction.serve.inj cancels
    have after := cancelled_ends torch app time r served h ref handler read gathers awaited
    have settled := (cancel_awaited r.lifespan.server.engine.scheduler ref ref).not.mpr fun both => both.2 rfl
    rw [same] at after
    rw [← scheduler, after] at awaited
    exact settled awaited
  have move := idle_move torch app time r.lifespan.server action closed silent
  generalize after : (r.lifespan.server.act torch app time action).engine = engine at move
  cases move with
  | same => exact still _ rfl after
  | flagged => exact still { r.lifespan.server.engine with shutdown := true } rfl after
  | cancelled h ref handler cancels read awaits =>
      have same := cancel_queues r.lifespan.server.engine.scheduler ref
      have gathers := (gathers_iff handler ref).mpr awaits
      refine ⟨rfl, stays.trans closed.symm, ?_, ?_, ?_, fun other => ?_⟩
      all_goals
        dsimp only
        rw [after]
      · exact same.active
      · exact same.pending
      · exact same.fresh
      · rw [cancel_awaited]
        refine and_congr_right fun _ => not_congr ⟨?_, ?_⟩
        · rintro rfl
          exact ⟨h, handler, congrArg LifespanAction.serve cancels, read, gathers⟩
        · rintro ⟨h', handler', cancels', read', gathers'⟩
          obtain rfl := ServerAction.cancel.inj ((LifespanAction.serve.inj cancels').symm.trans cancels)
          obtain rfl := Option.some.inj (read'.symm.trans read)
          exact Option.some.inj (gathers'.symm.trans gathers)

-- Behind the cancellation of the loop a step leaves open what was open, unless it cancels
-- the task that awaits it.
theorem over_step (r r' : LifespanRun) (a : ℚ × LifespanAction V) (served : WellServed r)
    (closed : r.lifespan.server.shuttingDown = true) (loopless : r.lifespan.phase.loopCancelled = true)
    (step : LifespanStep torch app r a r') : Stalled r.lifespan r'.lifespan (TaskCancelled (r, a)) := by
  obtain ⟨_, rfl⟩ := step
  obtain ⟨time, action⟩ := a
  have quiet (other : LifespanAction V) (different : ∀ h, other ≠ .serve (.cancel h)) (ref : Nat) :
      ¬ TaskCancelled (r, (time, other)) ref := by
    rintro ⟨h, _, cancels, _⟩
    exact different h cancels
  have later_phase (early : Phase) (open_loop : early.loopCancelled = false) : r.lifespan.phase ≠ early := by
    rintro same
    rw [same, open_loop] at loopless
    cases loopless
  cases action with
  | leave =>
      rw [Lifespan.act, if_neg (later_phase .serving rfl)]
      exact stalled_refl _ _ (quiet _ (by simp))
  | drained =>
      rw [Lifespan.act, if_neg fun both => later_phase .draining rfl both.1]
      exact stalled_refl _ _ (quiet _ (by simp))
  | timedOut =>
      rw [Lifespan.act, if_neg (later_phase .draining rfl)]
      exact stalled_refl _ _ (quiet _ (by simp))
  | serve action =>
      cases round : action.isRound with
      | true =>
          rw [Lifespan.act, loopless, round]
          refine stalled_refl _ _ (quiet _ fun h same => ?_)
          obtain rfl := LifespanAction.serve.inj same
          cases round
      | false =>
          rw [Lifespan.act, round, Bool.and_false]
          exact serve_stalled torch app time r served closed action round

-- Where lifespan is behind its yield the server takes no new requests, and a drain that
-- returned left nothing queued.
structure PhaseHolds (l : Lifespan) : Prop where
  closed : l.phase ≠ .serving → l.server.shuttingDown = true
  drained : l.phase = .drained → l.server.engine.scheduler.active ++ l.server.engine.scheduler.pending = []

theorem phase_step (r r' : LifespanRun) (a : ℚ × LifespanAction V) (served : WellServed r) (holds : PhaseHolds r.lifespan)
    (step : LifespanStep torch app r a r') : PhaseHolds r'.lifespan := by
  by_cases loopless : r.lifespan.phase.loopCancelled = true
  · have started : r.lifespan.phase ≠ .serving := by
      rintro same
      rw [same] at loopless
      cases loopless
    have stalled := over_step torch app r r' a served (holds.closed started) loopless step
    refine ⟨fun _ => stalled.closed.trans (holds.closed started), ?_⟩
    rw [stalled.phase, stalled.active, stalled.pending]
    exact holds.drained
  · obtain ⟨_, rfl⟩ := step
    obtain ⟨time, action⟩ := a
    have undrained : r.lifespan.phase ≠ .drained := by
      rintro same
      rw [same] at loopless
      exact loopless rfl
    cases action with
    | serve action =>
        rw [Lifespan.act, Bool.eq_false_iff.mpr loopless, Bool.false_and]
        refine ⟨fun started => ?_, fun drained => absurd drained undrained⟩
        exact closing_stays torch app ⟨r.lifespan.server, time⟩ _ (time, action) (holds.closed started) ⟨le_refl _, rfl⟩
    | leave =>
        dsimp only [Lifespan.act]
        split
        · exact ⟨fun _ => rfl, fun drained => by cases drained⟩
        · exact holds
    | drained =>
        dsimp only [Lifespan.act]
        split
        · rename_i ready
          exact ⟨fun _ => holds.closed (by rw [ready.1]; decide), fun _ => (has_work_order _).mp ready.2⟩
        · exact holds
    | timedOut =>
        dsimp only [Lifespan.act]
        split
        · rename_i waiting
          exact ⟨fun _ => holds.closed (by rw [waiting]; decide), fun drained => by cases drained⟩
        · exact holds

theorem reachable_phase_holds (r : LifespanRun)
    (reach : Transition.Reachable (InitialLifespan maxBatch maxWaiting) (LifespanStep torch app) r) :
    PhaseHolds r.lifespan := by
  apply Transition.reachable_invariant_under _ (fun r : LifespanRun => PhaseHolds r.lifespan) WellServed r reach
    (fun r reached => reachable_well_served torch app maxBatch maxWaiting r reached)
  · rintro r ⟨_, serving⟩
    exact ⟨fun started => absurd serving started, fun drained => by rw [serving] at drained; cases drained⟩
  · exact fun r a r' served holds step => phase_step torch app r r' a served holds step

theorem over_run (r after : LifespanRun)
    (reach : Transition.Reachable (InitialLifespan maxBatch maxWaiting) (LifespanStep torch app) r)
    (loopless : r.lifespan.phase.loopCancelled = true) (trace : List (LifespanRun × (ℚ × LifespanAction V)))
    (run : Transition.Run (LifespanStep torch app) r trace after) :
    Stalled r.lifespan after.lifespan fun ref => ∃ entry ∈ trace, TaskCancelled entry ref := by
  have holds := reachable_phase_holds torch app maxBatch maxWaiting r reach
  have started : r.lifespan.phase ≠ .serving := by
    intro same
    rw [same] at loopless
    cases loopless
  induction run with
  | nil => exact stalled_refl _ _ fun ref => by simp
  | snoc trace s t a earlier last early =>
      have served := reachable_well_served torch app maxBatch maxWaiting s (Transition.reachable_run _ r s trace reach earlier)
      have closed := early.closed.trans (holds.closed started)
      have late := over_step torch app s t a served closed (early.phase ▸ loopless) last
      refine ⟨late.phase.trans early.phase, late.closed.trans early.closed, late.active.trans early.active,
        late.pending.trans early.pending, late.fresh.trans early.fresh, fun ref => ?_⟩
      rw [late.awaited, early.awaited, and_assoc, ← not_or]
      refine and_congr_right fun _ => not_congr ?_
      simp [or_and_right, exists_or]

theorem open_waits (s : Server) (opened : StillOpen s) (h ref : Nat) (handler : Handler) (read : s.handlers[h]? = some handler)
    (gathers : handler.gathers = some ref) (awaited : s.engine.scheduler.awaited ref = true) : s.wake h = s := by
  obtain ⟨kept, unfinished⟩ := opened handler (List.mem_of_getElem? read) ref gathers awaited
  have pending := (awaited_pending _).mp (awaited_eq s.engine.scheduler ref ▸ awaited)
  rw [Server.wake, read]
  simp [Handler.resume, unfinished, (gathers_iff handler ref).mp gathers, kept, pending]

end Over

-- What the end of lifespan strands. Once the engine's task is cancelled, the queues stand
-- still for good, and a request stays open exactly when it was queued and awaited then and
-- the task that awaits it is not cancelled: its handler can do nothing but wait. Behind a
-- drain that returned in time there is no such request.
theorem lifespan_strands_iff {V : Type} (torch : Torch V) (app : App V) (maxBatch maxWaiting : Nat) (r after : LifespanRun)
    (reach : Transition.Reachable (InitialLifespan maxBatch maxWaiting) (LifespanStep torch app) r)
    (loopless : r.lifespan.phase.loopCancelled = true) (trace : List (LifespanRun × (ℚ × LifespanAction V)))
    (run : Transition.Run (LifespanStep torch app) r trace after) :
    after.lifespan.server.engine.scheduler.active ++ after.lifespan.server.engine.scheduler.pending =
        r.lifespan.server.engine.scheduler.active ++ r.lifespan.server.engine.scheduler.pending ∧
      after.lifespan.server.engine.scheduler.fresh = r.lifespan.server.engine.scheduler.fresh ∧
      (r.lifespan.phase = .drained →
        ∀ ref < r.lifespan.server.engine.scheduler.fresh, r.lifespan.server.engine.scheduler.awaited ref = false) ∧
      (∀ ref < r.lifespan.server.engine.scheduler.fresh, (after.lifespan.server.engine.scheduler.awaited ref = true ↔
        ref ∈ r.lifespan.server.engine.scheduler.active ++ r.lifespan.server.engine.scheduler.pending ∧
        r.lifespan.server.engine.scheduler.awaited ref = true ∧ ∀ entry ∈ trace, ¬ TaskCancelled entry ref)) ∧
      ∀ h handler ref, after.lifespan.server.handlers[h]? = some handler → handler.gathers = some ref →
        after.lifespan.server.engine.scheduler.awaited ref = true → after.lifespan.server.wake h = after.lifespan.server := by
  have known (t : LifespanRun)
      (reached : Transition.Reachable (InitialLifespan maxBatch maxWaiting) (LifespanStep torch app) t) :=
    reachable_well_served torch app maxBatch maxWaiting t reached
  have holds := reachable_phase_holds torch app maxBatch maxWaiting r reach
  have queued (ref : Nat) (alive : ref < r.lifespan.server.engine.scheduler.fresh)
      (awaited : r.lifespan.server.engine.scheduler.awaited ref = true) :
      ref ∈ r.lifespan.server.engine.scheduler.active ++ r.lifespan.server.engine.scheduler.pending := by
    by_contra absent
    rw [(known r reach).tracked.left ref alive absent] at awaited
    cases awaited
  have stalled := over_run torch app maxBatch maxWaiting r after reach loopless trace run
  refine ⟨by rw [stalled.active, stalled.pending], stalled.fresh, ?_, ?_, ?_⟩
  · intro drained ref alive
    by_contra open_request
    have member := queued ref alive (by simpa using open_request)
    rw [holds.drained drained] at member
    cases member
  · intro ref alive
    rw [stalled.awaited]
    simp only [not_exists, not_and]
    exact ⟨fun both => ⟨queued ref alive both.1, both⟩, And.right⟩
  · intro h handler ref read gathers awaited
    have reached := Transition.reachable_run _ r after trace reach run
    exact open_waits _ (known after reached).opened h ref handler read gathers awaited

section Leaves

variable {V : Type} (torch : Torch V) (app : App V)

def leavesFrom (r : LifespanRun) : List (LifespanAction V) → LifespanRun
  | [] => r
  | action :: actions => leavesFrom ⟨r.lifespan.act torch app (r.now + 1) action, r.now + 1⟩ actions

def leavesTrace (r : LifespanRun) : List (LifespanAction V) → List (LifespanRun × (ℚ × LifespanAction V))
  | [] => []
  | action :: actions => (r, r.now + 1, action) :: leavesTrace ⟨r.lifespan.act torch app (r.now + 1) action, r.now + 1⟩ actions

theorem leaves_from_run (r : LifespanRun) (actions : List (LifespanAction V)) :
    Transition.Run (LifespanStep torch app) r (leavesTrace torch app r actions) (leavesFrom torch app r actions) := by
  induction actions generalizing r with
  | nil => exact .nil
  | cons action actions ih =>
      have step : LifespanStep torch app r (r.now + 1, action) ⟨r.lifespan.act torch app (r.now + 1) action, r.now + 1⟩ :=
        ⟨by linarith, rfl⟩
      exact Transition.run_append _ _ _ _ _ (.snoc [] r _ _ .nil step) (ih _)

theorem leaves_trace_actions (r : LifespanRun) (actions : List (LifespanAction V)) :
    ∀ entry ∈ leavesTrace torch app r actions, entry.2.2 ∈ actions := by
  induction actions generalizing r with
  | nil => simp [leavesTrace]
  | cons action actions ih =>
      intro entry member
      rcases List.mem_cons.mp member with rfl | later
      · exact List.mem_cons_self
      · exact List.mem_cons_of_mem action (ih _ entry later)

end Leaves

def idleLifespan : LifespanRun := ⟨{ server := (idleServer 2 2).server }, 0⟩

def timedOutLifespan : LifespanRun :=
  leavesFrom writtenTorch writtenApp idleLifespan
    [.serve (.request "a" (tokenBody false) 0 .ample), .serve (.request "b" (tokenBody false) 0 .ample), .leave, .timedOut]

def lateActions : List (LifespanAction Written) := [.serve (.iterate false lowDraw), .serve (.wake 0)]

theorem lifespan_strands_iff_timed_out :
    (leavesFrom writtenTorch writtenApp timedOutLifespan lateActions).lifespan.server.engine.scheduler.awaited 0 = true ∧
      (leavesFrom writtenTorch writtenApp timedOutLifespan lateActions).lifespan.server.engine.scheduler.active ++
        (leavesFrom writtenTorch writtenApp timedOutLifespan lateActions).lifespan.server.engine.scheduler.pending = [0, 1] := by
  have initial : InitialLifespan 2 2 idleLifespan := ⟨idle_server_initial 2 2, rfl⟩
  have reach : Transition.Reachable (InitialLifespan 2 2) (LifespanStep writtenTorch writtenApp) timedOutLifespan :=
    ⟨_, _, initial, leaves_from_run writtenTorch writtenApp _ _⟩
  obtain ⟨queues, _, _, stranded, _⟩ := lifespan_strands_iff writtenTorch writtenApp 2 2 timedOutLifespan _ reach
    (by decide +kernel) _ (leaves_from_run writtenTorch writtenApp timedOutLifespan lateActions)
  refine ⟨(stranded 0 (by decide +kernel)).mpr ⟨by decide +kernel, by decide +kernel, ?_⟩,
    queues.trans (by decide +kernel)⟩
  rintro entry member ⟨h, handler, cancels, _, _⟩
  have taken := leaves_trace_actions writtenTorch writtenApp timedOutLifespan lateActions entry member
  rw [cancels] at taken
  simp [lateActions] at taken

end Dlmserve
