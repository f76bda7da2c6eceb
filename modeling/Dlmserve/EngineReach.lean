import Dlmserve.EngineInvariant

set_option autoImplicit false

namespace Dlmserve

variable {full : Full}

section Retired

variable (tokenizer : Tokenizer) (s : Scheduler) (time : ℚ) (leaving : List Nat) (change : Request → Request)

-- Requests may leave once the change closes their futures.
theorem retire_invariant (shutdown : Bool) (tracked : Tracked s time)
    (ids : ∀ req, (change req).reqId = req.reqId) (ages : ∀ req, (change req).admittedMs = req.admittedMs)
    (inside : ∀ ref ∈ leaving, ref ∈ s.active)
    (running : ∀ ref ∈ s.active ++ s.pending, ref ∉ leaving → Unfinished (s.objects ref).state)
    (answered : ∀ ref < s.fresh, ref ∉ leaving → Answered tokenizer (s.objects ref))
    (closes : ∀ ref ∈ leaving, (change (s.objects ref)).awaited = false ∧ (change (s.objects ref)).future ≠ none ∧
      Answered tokenizer (change (s.objects ref))) :
    EngineInvariant tokenizer { scheduler := retire s leaving change, shutdown := shutdown, loop := .running } time := by
  have retired := retire_tracked s time leaving change tracked ids ages inside fun ref member =>
    ⟨(closes ref member).1, (closes ref member).2.1⟩
  refine ⟨retired.queues, by simp, ?_, retired.futures, retired.left, ?_⟩
  · intro ref member
    obtain ⟨before, kept⟩ := (retire_members s time leaving change tracked.queues inside ref).mp member
    dsimp only
    rw [retire_staying s leaving change ref kept]
    exact running ref before kept
  · intro ref alive
    dsimp only
    by_cases member : ref ∈ leaving
    · rw [retire_leaving s leaving change ref member]
      exact (closes ref member).2.2
    · rw [retire_staying s leaving change ref member]
      exact answered ref alive member

end Retired

section Preserved

variable {V : Type} (torch : Torch V) (loaded : LoadedModel V) (e : Engine) (now time : ℚ) (fails : Bool) (draw : Draw V)

theorem pool_invariant (later : now ≤ time) (loop : LoopStatus) (alive : loop ≠ .crashed)
    (invariant : EngineInvariant loaded.tokenizer e now) :
    EngineInvariant loaded.tokenizer { e with scheduler := e.scheduler.promotePending, loop := loop } time :=
  same_members_invariant e now time loaded.tokenizer e.scheduler.promotePending loop e.shutdown invariant
    (promote_valid e.scheduler now time later invariant.queues)
    (Scheduler.promote_order e.scheduler) (by rw [Scheduler.promote_eq]) (promote_objects e.scheduler) alive

theorem unfinished_unanswered (tokenizer : Tokenizer) (req : Request) (unfinished : Unfinished req.state)
    (answered : Answered tokenizer req) (value : Option GenerationOutput) : req.future ≠ some (.result value) := by
  intro resolved
  have done := (answered value resolved).1
  rw [unfinished.2.2] at done
  cases done

theorem failed_answered (tokenizer : Tokenizer) (req : Request) (answered : Answered tokenizer req) :
    Answered tokenizer req.failed := by
  intro value resolved
  rw [failed_future] at resolved
  rw [failed_state]
  split at resolved
  · cases resolved
  · exact answered value resolved

theorem finished_answered (tokenizer : Tokenizer) (req : Request) (done : req.state.done = true)
    (output : tokenizer.makeOutput req.state ≠ none) (unanswered : ∀ value, req.future ≠ some (.result value)) :
    Answered tokenizer (req.finished tokenizer) := by
  intro value resolved
  rw [finished_future] at resolved
  rw [finished_state]
  split at resolved
  · obtain rfl : tokenizer.makeOutput req.state = value := by simpa using resolved
    exact ⟨done, output, rfl⟩
  · exact absurd resolved (unanswered value)

theorem failed_round_invariant (later : now ≤ time) (invariant : EngineInvariant loaded.tokenizer e now)
    (batch : List Nat) (inside : ∀ ref ∈ batch, ref ∈ e.scheduler.promotePending.active) :
    EngineInvariant loaded.tokenizer
      { e with scheduler := retire e.scheduler.promotePending batch Request.failed, loop := .running } time := by
  have pool := pool_invariant loaded e now time later .running (by simp) invariant
  have alive (ref : Nat) (member : ref ∈ batch) := pool.queues.alive ref (List.mem_append_left _ (inside ref member))
  apply retire_invariant loaded.tokenizer _ time batch Request.failed e.shutdown pool.tracked
    (fun req => (failed_keeps req).1) (fun req => (failed_keeps req).2) inside
    (fun ref member _ => pool.running ref member) (fun ref bound _ => pool.answered ref bound)
  intro ref member
  obtain ⟨settled, some_future⟩ := failed_closes _ (pool.futures ref (alive ref member))
  exact ⟨settled, some_future, failed_answered loaded.tokenizer _ (pool.answered ref (alive ref member))⟩

theorem stepped_member (invariant : EngineInvariant loaded.tokenizer e now) (states : List DenoiseState)
    (made : e.stepped torch loaded time fails draw = some states) (distinct : (e.batch time).Nodup) (ref : Nat)
    (member : ref ∈ e.batch time) (queued : ref ∈ e.scheduler.active ++ e.scheduler.pending) :
    ∃ state', Shaped state' ∧ state'.seq ≠ [] ∧
      (e.scheduler.promotePending.setStates (e.batch time) states).objects ref =
        { e.scheduler.objects ref with state := state' } := by
  obtain ⟨state', moved, _, object⟩ := stepped_state torch loaded e time fails draw states made ref member distinct
    e.scheduler.promotePending (promote_objects _)
  obtain ⟨params0, step⟩ := moves_state torch loaded e time draw _ state' moved
  exact ⟨state', state_step_shaped torch loaded.model loaded.maskId loaded.padTokenId draw params0 _ state' step
    (invariant.running ref queued).1,
    state_step_seq torch draw loaded.model loaded.maskId loaded.padTokenId params0 _ state' step, object⟩

theorem stepped_future (states : List DenoiseState) (ref : Nat) :
    ((e.scheduler.promotePending.setStates (e.batch time) states).objects ref).future =
      (e.scheduler.objects ref).future := by
  rw [set_states_future, promote_objects]

theorem stepped_unfinished (invariant : EngineInvariant loaded.tokenizer e now) (states : List DenoiseState)
    (made : e.stepped torch loaded time fails draw = some states) (distinct : (e.batch time).Nodup) (ref : Nat)
    (queued : ref ∈ e.scheduler.active ++ e.scheduler.pending)
    (kept : ref ∉ (e.batch time).filter fun r =>
      ((e.scheduler.promotePending.setStates (e.batch time) states).objects r).state.done) :
    Unfinished ((e.scheduler.promotePending.setStates (e.batch time) states).objects ref).state := by
  by_cases running : ref ∈ e.batch time
  · have unfinished : ((e.scheduler.promotePending.setStates (e.batch time) states).objects ref).state.done = false := by
      by_contra done
      exact kept (List.mem_filter.mpr ⟨running, by simpa using done⟩)
    obtain ⟨state', shaped, nonempty, object⟩ := stepped_member torch loaded e now time fails draw invariant states made
      distinct ref running queued
    rw [object] at unfinished ⊢
    exact ⟨shaped, nonempty, unfinished⟩
  · rw [set_states_other _ _ _ ref running, promote_objects]
    exact invariant.running ref queued

theorem stepped_round_invariant (later : now ≤ time) (decodes : Decodes loaded.tokenizer)
    (invariant : EngineInvariant loaded.tokenizer e now) (states : List DenoiseState)
    (inside : ∀ ref ∈ e.batch time, ref ∈ e.scheduler.promotePending.active) (distinct : (e.batch time).Nodup)
    (made : e.stepped torch loaded time fails draw = some states) :
    EngineInvariant loaded.tokenizer { e with
      scheduler := settle loaded.tokenizer (e.scheduler.promotePending.setStates (e.batch time) states) (e.batch time)
      loop := .running } time := by
  have queued (ref : Nat) (member : ref ∈ e.batch time) : ref ∈ e.scheduler.active ++ e.scheduler.pending :=
    Scheduler.promote_order e.scheduler ▸ List.mem_append_left _ (inside ref member)
  have pool := pool_invariant loaded e now time later .running (by simp) invariant
  have same := set_states_queues e.scheduler.promotePending (e.batch time) states
  have moved := set_states_tracked _ time pool.tracked (e.batch time) states
  have future := stepped_future e time states
  have alive (ref : Nat) (member : ref ∈ e.batch time) := invariant.queues.alive ref (queued ref member)
  have unanswered (ref : Nat) (member : ref ∈ e.batch time) (value : Option GenerationOutput) :
      ((e.scheduler.promotePending.setStates (e.batch time) states).objects ref).future ≠ some (.result value) := by
    rw [future]
    exact unfinished_unanswered loaded.tokenizer _ (invariant.running ref (queued ref member))
      (invariant.answered ref (alive ref member)) value
  rw [settle]
  apply retire_invariant loaded.tokenizer _ time _ (Request.finished loaded.tokenizer) e.shutdown moved
    (fun req => (finished_keeps loaded.tokenizer req).1)
    (fun req => (finished_keeps loaded.tokenizer req).2)
  · intro ref member
    rw [same.active]
    exact inside ref (List.mem_of_mem_filter member)
  · intro ref member kept
    rw [same.active, same.pending, Scheduler.promote_order] at member
    exact stepped_unfinished torch loaded e now time fails draw invariant states made distinct ref member kept
  · intro ref bound kept
    rw [same.fresh] at bound
    by_cases running : ref ∈ e.batch time
    · exact fun value resolved => absurd resolved (unanswered ref running value)
    · rw [set_states_other _ _ _ ref running]
      exact pool.answered ref bound
  · intro ref member
    obtain ⟨running, done⟩ := List.mem_filter.mp member
    have held := invariant.futures ref (alive ref running)
    rw [← future] at held
    obtain ⟨settled, some_future⟩ := finished_closes loaded.tokenizer _ held
    refine ⟨settled, some_future, finished_answered loaded.tokenizer _ done ?_ (unanswered ref running)⟩
    obtain ⟨state', _, nonempty, object⟩ := stepped_member torch loaded e now time fails draw invariant states made
      distinct ref running (queued ref running)
    rw [object]
    exact make_output_some loaded.tokenizer decodes state' nonempty

theorem iterate_invariant (later : now ≤ time) (decodes : Decodes loaded.tokenizer)
    (invariant : EngineInvariant loaded.tokenizer e now) :
    EngineInvariant loaded.tokenizer (e.iterate torch loaded time fails draw) time := by
  have pool := promote_valid e.scheduler now time later invariant.queues
  have round := iterate_round torch loaded e now time fails draw decodes later invariant
  generalize e.iterate torch loaded time fails draw = after at round ⊢
  cases round with
  | quiet loop s none_run kept stays =>
      have open_loop : loop ≠ .crashed := by
        rcases stays with rfl | ⟨rfl, _⟩
        · exact invariant.alive
        · simp
      rcases kept with rfl | rfl
      · exact waited_invariant e now time loaded.tokenizer later invariant loop e.shutdown open_loop
      · exact pool_invariant loaded e now time later loop open_loop invariant
  | failed key good chosen none_made busy =>
      exact failed_round_invariant loaded e now time later invariant (e.batch time) fun ref member => good.fifo.subset member
  | stepped key states good chosen made busy =>
      exact stepped_round_invariant torch loaded e now time fails draw later decodes invariant states
        (fun ref member => good.fifo.subset member) ((active_nodup _ time pool).sublist good.fifo) made

-- What a round does to one request: a failed batch fails its members, a stepped
-- batch moves their states, and the rest stay as they are.
theorem round_object (later : now ≤ time) (queues : Queues e.scheduler now) (after : Engine)
    (round : Round torch loaded e time fails draw after) (ref : Nat) :
    (ref ∉ e.batch time ∧ after.scheduler.objects ref = e.scheduler.objects ref) ∨
    (ref ∈ e.batch time ∧ e.stepped torch loaded time fails draw = none ∧
      after.scheduler.objects ref = (e.scheduler.objects ref).failed) ∨
    ∃ states state', ref ∈ e.batch time ∧ e.stepped torch loaded time fails draw = some states ∧
      states[(e.batch time).idxOf ref]? = some state' ∧
      Moves torch loaded e time draw (e.scheduler.objects ref).state state' ∧
      after.scheduler.objects ref =
        if state'.done = true then ({ e.scheduler.objects ref with state := state' } : Request).finished loaded.tokenizer
        else { e.scheduler.objects ref with state := state' } := by
  cases round with
  | quiet loop s none_run kept stays =>
      refine Or.inl ⟨by rw [none_run]; exact List.not_mem_nil, ?_⟩
      rcases kept with rfl | rfl
      · rfl
      · exact congrFun (promote_objects e.scheduler) ref
  | failed key good chosen none_made busy =>
      by_cases member : ref ∈ e.batch time
      · refine Or.inr (Or.inl ⟨member, none_made, ?_⟩)
        dsimp only
        rw [retire_leaving _ _ _ ref member, promote_objects]
      · refine Or.inl ⟨member, ?_⟩
        dsimp only
        rw [retire_staying _ _ _ ref member, promote_objects]
  | stepped key states good chosen made busy =>
      by_cases member : ref ∈ e.batch time
      · obtain ⟨distinct, _⟩ := batch_alive e now time later queues key good
        obtain ⟨state', moved, read, object⟩ := stepped_state torch loaded e time fails draw states made ref member distinct
          e.scheduler.promotePending (promote_objects _)
        refine Or.inr (Or.inr ⟨states, state', member, made, read, moved, ?_⟩)
        exact settle_member loaded.tokenizer _ (e.batch time) states ref member _ object
      · refine Or.inl ⟨member, ?_⟩
        dsimp only
        rw [settle_other loaded.tokenizer _ (e.batch time) states ref member, promote_objects]

theorem iterate_object (later : now ≤ time) (decodes : Decodes loaded.tokenizer)
    (invariant : EngineInvariant loaded.tokenizer e now) (ref : Nat) :
    (ref ∉ e.batch time ∧
      (e.iterate torch loaded time fails draw).scheduler.objects ref = e.scheduler.objects ref) ∨
    (ref ∈ e.batch time ∧ e.stepped torch loaded time fails draw = none ∧
      (e.iterate torch loaded time fails draw).scheduler.objects ref = (e.scheduler.objects ref).failed) ∨
    ∃ states state', ref ∈ e.batch time ∧ e.stepped torch loaded time fails draw = some states ∧
      states[(e.batch time).idxOf ref]? = some state' ∧
      Moves torch loaded e time draw (e.scheduler.objects ref).state state' ∧
      (e.iterate torch loaded time fails draw).scheduler.objects ref =
        if state'.done = true then ({ e.scheduler.objects ref with state := state' } : Request).finished loaded.tokenizer
        else { e.scheduler.objects ref with state := state' } :=
  round_object torch loaded e now time fails draw later invariant.queues _
    (iterate_round torch loaded e now time fails draw decodes later invariant) ref

theorem submit_object (promptIds : List Token) (params : SamplingParams) (ref : Nat) (alive : ref < e.scheduler.fresh) :
    (e.submit loaded time full promptIds params).scheduler.objects ref = e.scheduler.objects ref := by
  rw [Engine.submit]
  split
  · rfl
  · rename_i state _
    by_cases full : e.scheduler.maxWaiting ≤ e.scheduler.pending.length
    · rw [admit_full _ _ _ _ _ full]
    · rw [admit_room _ _ _ _ _ (by omega)]
      exact enqueued_old _ _ _ _ _ ref (Nat.ne_of_lt alive)

theorem submit_admits (promptIds : List Token) (params : SamplingParams)
    (accepted : (e.submit loaded time full promptIds params).scheduler.fresh = e.scheduler.fresh + 1) :
    ∃ state, initState full (.single promptIds) params loaded.maskId = .ok state ∧
      ((e.submit loaded time full promptIds params).scheduler.objects e.scheduler.fresh).state = state := by
  rw [Engine.submit] at accepted ⊢
  split at accepted
  · exact absurd accepted (Nat.ne_of_lt (Nat.lt_succ_self _))
  · rename_i state made
    rw [made]
    by_cases full : e.scheduler.maxWaiting ≤ e.scheduler.pending.length
    · rw [admit_full _ _ _ _ _ full] at accepted
      exact absurd accepted (Nat.ne_of_lt (Nat.lt_succ_self _))
    · dsimp only
      rw [admit_room _ _ _ _ _ (by omega)]
      exact ⟨state, rfl, by dsimp only; rw [enqueued_new]; rfl⟩

theorem cancel_keeps (s : Scheduler) (ref other : Nat) :
    ((s.cancel ref).objects other).params = (s.objects other).params ∧
      ((s.cancel ref).objects other).state = (s.objects other).state := by
  rw [cancel_objects]
  dsimp only
  split
  · obtain ⟨_, _, state, params⟩ := resolved_keeps (s.objects other) .cancelled
    exact ⟨params, state⟩
  · exact ⟨rfl, rfl⟩

theorem cancel_invariant (later : now ≤ time) (invariant : EngineInvariant loaded.tokenizer e now) (ref : Nat) :
    EngineInvariant loaded.tokenizer { e with scheduler := e.scheduler.cancel ref } time := by
  have tracked := cancel_tracked e.scheduler now time later invariant.tracked ref
  have same := cancel_queues e.scheduler ref
  refine ⟨tracked.queues, invariant.alive, ?_, tracked.futures, tracked.left, ?_⟩
  · intro other inside
    dsimp only at inside ⊢
    rw [same.active, same.pending] at inside
    rw [(cancel_keeps e.scheduler ref other).2]
    exact invariant.running other inside
  · intro other inside value resolved
    dsimp only at inside resolved ⊢
    rw [same.fresh] at inside
    rw [(cancel_keeps e.scheduler ref other).2]
    rw [cancel_objects] at resolved
    dsimp only at resolved
    split at resolved
    · rw [resolved_future] at resolved
      split at resolved
      · cases resolved
      · exact invariant.answered other inside value resolved
    · exact invariant.answered other inside value resolved

end Preserved

section Reach

variable {V : Type} (torch : Torch V) (loaded : LoadedModel V)

theorem act_invariant (decodes : Decodes loaded.tokenizer) (r r' : EngineRun) (a : ℚ × EngineAction V)
    (invariant : EngineInvariant loaded.tokenizer r.engine r.now) (step : EngineStep torch loaded r a r') :
    EngineInvariant loaded.tokenizer r'.engine r'.now := by
  obtain ⟨later, rfl⟩ := step
  obtain ⟨time, action⟩ := a
  cases action with
  | submit full promptIds params => exact submit_invariant loaded r.engine r.now time later invariant promptIds params
  | iterate fails draw => exact iterate_invariant torch loaded r.engine r.now time fails draw later decodes invariant
  | cancel ref => exact cancel_invariant loaded r.engine r.now time later invariant ref
  | shutdown =>
      exact waited_invariant r.engine r.now time loaded.tokenizer later invariant r.engine.loop true invariant.alive

theorem reachable_engine_invariant (decodes : Decodes loaded.tokenizer) (maxBatch maxWaiting : Nat)
    (r : EngineRun)
    (reach : Transition.Reachable (InitialEngine maxBatch maxWaiting) (EngineStep torch loaded) r) :
    EngineInvariant loaded.tokenizer r.engine r.now :=
  Transition.reachable_invariant _ (fun r => EngineInvariant loaded.tokenizer r.engine r.now) r reach
    (fun r initial => initial_engine_invariant loaded.tokenizer maxBatch maxWaiting r initial)
    (fun r a r' invariant step => act_invariant torch loaded decodes r r' a invariant step)

end Reach

end Dlmserve
