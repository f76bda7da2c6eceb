import Dlmserve.EngineDevice

set_option autoImplicit false

namespace Dlmserve

section Answer

variable {V : Type} (torch : Torch V) (loaded : LoadedModel V) (e : Engine) (now time : ℚ)

-- The answer that a step gives to an open future: the failure of its batch, the
-- output of its state when a step makes that state done, the cancellation, or none.
def Engine.answer (action : EngineAction V) (ref : Nat) : Future :=
  match action with
  | .iterate fails draw =>
      if ref ∈ e.batch time then
        match e.stepped torch loaded time fails draw with
        | none => .exception Scheduler.stepFailed
        | some states =>
            match states[(e.batch time).idxOf ref]? with
            | some state => if state.done then .result (loaded.tokenizer.makeOutput state) else .pending
            | none => .pending
      else .pending
  | .cancel other => if other = ref then .cancelled else .pending
  | _ => .pending

theorem untouched_future (action : EngineAction V) (ref : Nat)
    (object : (e.act torch loaded time action).scheduler.objects ref = e.scheduler.objects ref)
    (silent : e.answer torch loaded time action ref = .pending) :
    ((e.act torch loaded time action).scheduler.objects ref).future =
      if e.scheduler.awaited ref then some (e.answer torch loaded time action ref)
      else (e.scheduler.objects ref).future := by
  rw [object, silent]
  split
  · rename_i awaited
    exact (awaited_pending (e.scheduler.objects ref)).mp awaited
  · rfl

-- Only an open future is written, and with the answer of the step.
theorem act_future (action : EngineAction V) (later : now ≤ time) (decodes : Decodes loaded.tokenizer)
    (invariant : EngineInvariant loaded.tokenizer e now) (ref : Nat) (alive : ref < e.scheduler.fresh) :
    ((e.act torch loaded time action).scheduler.objects ref).future =
      if e.scheduler.awaited ref then some (e.answer torch loaded time action ref)
      else (e.scheduler.objects ref).future := by
  have untouched := untouched_future torch loaded e time action ref
  cases action with
  | submit full promptIds params => exact untouched (submit_object loaded e time promptIds params ref alive) rfl
  | shutdown => exact untouched rfl rfl
  | cancel other =>
      by_cases same : other = ref
      · subst same
        change ((e.scheduler.cancel other).objects other).future = _
        rw [cancel_objects]
        dsimp only
        rw [if_pos rfl, resolved_future, ← awaited_eq, Engine.answer, if_pos rfl]
      · apply untouched
        · change (e.scheduler.cancel other).objects ref = e.scheduler.objects ref
          rw [cancel_objects]
          exact if_neg fun equal => same equal.symm
        · rw [Engine.answer, if_neg same]
  | iterate fails draw =>
      change ((e.iterate torch loaded time fails draw).scheduler.objects ref).future = _
      rcases iterate_object torch loaded e now time fails draw later decodes invariant ref with
        ⟨absent, object⟩ | ⟨member, none_made, object⟩ | ⟨states, state', member, made, read, _, object⟩
      · exact untouched object (by rw [Engine.answer, if_neg absent])
      · rw [object, failed_future, ← awaited_eq, Engine.answer, if_pos member, none_made]
      · rw [object, Engine.answer, if_pos member, made]
        dsimp only
        rw [read]
        dsimp only
        split
        · rw [finished_future]
          rfl
        · split
          · rename_i awaited
            exact (awaited_pending (e.scheduler.objects ref)).mp awaited
          · rfl

theorem answer_exception (action : EngineAction V) (ref : Nat) (message : String) :
    e.answer torch loaded time action ref = .exception message ↔
      message = Scheduler.stepFailed ∧ ∃ fails draw, action = .iterate fails draw ∧ ref ∈ e.batch time ∧
        e.stepped torch loaded time fails draw = none := by
  unfold Engine.answer
  constructor
  · intro answered
    split at answered
    · rename_i fails draw
      split at answered
      · rename_i member
        split at answered
        · rename_i none_made
          obtain rfl := Future.exception.inj answered
          exact ⟨rfl, fails, draw, rfl, member, none_made⟩
        · split at answered
          · split at answered <;> cases answered
          · cases answered
      · cases answered
    · split at answered <;> cases answered
    · cases answered
  · rintro ⟨rfl, fails, draw, rfl, member, none_made⟩
    dsimp only
    rw [if_pos member, none_made]

theorem answer_result (action : EngineAction V) (ref : Nat) (value : Option GenerationOutput) :
    e.answer torch loaded time action ref = .result value ↔
      ∃ fails draw states state, action = .iterate fails draw ∧ ref ∈ e.batch time ∧
        e.stepped torch loaded time fails draw = some states ∧ states[(e.batch time).idxOf ref]? = some state ∧
        state.done = true ∧ value = loaded.tokenizer.makeOutput state := by
  unfold Engine.answer
  constructor
  · intro answered
    split at answered
    · rename_i fails draw
      split at answered
      · rename_i member
        split at answered
        · cases answered
        · rename_i states made
          split at answered
          · rename_i state read
            split at answered
            · rename_i done
              obtain rfl := Future.result.inj answered
              exact ⟨fails, draw, states, state, rfl, member, made, read, done, rfl⟩
            · cases answered
          · cases answered
      · cases answered
    · split at answered <;> cases answered
    · cases answered
  · rintro ⟨fails, draw, states, state, rfl, member, made, read, done, rfl⟩
    dsimp only
    rw [if_pos member, made]
    dsimp only
    rw [read]
    exact if_pos done

theorem answer_cancelled (action : EngineAction V) (ref : Nat) :
    e.answer torch loaded time action ref = .cancelled ↔ action = .cancel ref := by
  unfold Engine.answer
  constructor
  · intro answered
    split at answered
    · split at answered
      · split at answered
        · cases answered
        · split at answered
          · split at answered <;> cases answered
          · cases answered
      · cases answered
    · split at answered
      · rename_i same
        rw [same]
      · cases answered
    · cases answered
  · rintro rfl
    exact if_pos rfl

structure Accounted (r : EngineRun) (a : ℚ × EngineAction V) (r' : EngineRun) (ref : Nat) : Prop where
  settled : r.engine.scheduler.awaited ref = false →
    (r'.engine.scheduler.objects ref).future = (r.engine.scheduler.objects ref).future
  failed : r.engine.scheduler.awaited ref = true → ∀ message,
    ((r'.engine.scheduler.objects ref).future = some (.exception message) ↔
      message = Scheduler.stepFailed ∧ ∃ fails draw, a.2 = .iterate fails draw ∧ ref ∈ r.engine.batch a.1 ∧
        r.engine.stepped torch loaded a.1 fails draw = none)
  finished : r.engine.scheduler.awaited ref = true → ∀ value,
    ((r'.engine.scheduler.objects ref).future = some (.result value) ↔
      ∃ fails draw states state, a.2 = .iterate fails draw ∧ ref ∈ r.engine.batch a.1 ∧
        r.engine.stepped torch loaded a.1 fails draw = some states ∧
        states[(r.engine.batch a.1).idxOf ref]? = some state ∧
        (r.engine.scheduler.objects ref).state.done = false ∧ state.done = true ∧
        (r'.engine.scheduler.objects ref).state = state ∧
        value = loaded.tokenizer.makeOutput state ∧ value ≠ none)
  cancelled : r.engine.scheduler.awaited ref = true →
    ((r'.engine.scheduler.objects ref).future = some .cancelled ↔ a.2 = .cancel ref)

theorem step_accounted (decodes : Decodes loaded.tokenizer) (r r' : EngineRun) (a : ℚ × EngineAction V)
    (invariant : EngineInvariant loaded.tokenizer r.engine r.now) (step : EngineStep torch loaded r a r') (ref : Nat)
    (alive : ref < r.engine.scheduler.fresh) : Accounted torch loaded r a r' ref := by
  obtain ⟨later, rfl⟩ := step
  obtain ⟨time, action⟩ := a
  have future := act_future torch loaded r.engine r.now time action later decodes invariant ref alive
  have written (awaited : r.engine.scheduler.awaited ref = true) (answer : Future) :
      ((r.engine.act torch loaded time action).scheduler.objects ref).future = some answer ↔
        r.engine.answer torch loaded time action ref = answer := by
    rw [future, if_pos awaited, Option.some.injEq]
  refine ⟨?_, ?_, ?_, ?_⟩
  · intro settled
    dsimp only
    rw [future, settled]
    rfl
  · intro awaited message
    exact (written awaited (.exception message)).trans (answer_exception torch loaded r.engine time action ref message)
  · intro awaited value
    refine (written awaited (.result value)).trans ((answer_result torch loaded r.engine time action ref value).trans ?_)
    constructor
    · rintro ⟨fails, draw, states, state, rfl, member, made, read, done, rfl⟩
      have queued : ref ∈ r.engine.scheduler.active ++ r.engine.scheduler.pending := by
        by_contra absent
        rw [invariant.left ref alive absent] at awaited
        cases awaited
      rcases iterate_object torch loaded r.engine r.now time fails draw later decodes invariant ref with
        ⟨absent, _⟩ | ⟨_, none_made, _⟩ | ⟨states', state', _, made', read', moved, object⟩
      · exact absurd member absent
      · rw [made] at none_made
        cases none_made
      · obtain rfl := Option.some.inj (made.symm.trans made')
        obtain rfl := Option.some.inj (read.symm.trans read')
        obtain ⟨params0, step⟩ := moves_state torch loaded r.engine time draw _ state moved
        rw [if_pos done] at object
        refine ⟨fails, draw, states, state, rfl, member, made, read, (invariant.running ref queued).2.2, done, ?_, rfl,
          make_output_some loaded.tokenizer decodes state
            (state_step_seq torch draw loaded.model loaded.maskId loaded.padTokenId params0 _ state step)⟩
        change ((r.engine.iterate torch loaded time fails draw).scheduler.objects ref).state = state
        rw [object]
        exact finished_state loaded.tokenizer _
    · rintro ⟨fails, draw, states, state, started, member, made, read, _, done, _, same, _⟩
      exact ⟨fails, draw, states, state, started, member, made, read, done, same⟩
  · intro awaited
    exact (written awaited .cancelled).trans (answer_cancelled torch loaded r.engine time action ref)

end Answer

-- No answer is lost, given twice or given to another request, in any interleaving.
theorem answers_accounted {V : Type} (torch : Torch V) (loaded : LoadedModel V) (decodes : Decodes loaded.tokenizer)
    (maxBatch maxWaiting : Nat) (r : EngineRun)
    (reach : Transition.Reachable (InitialEngine maxBatch maxWaiting) (EngineStep torch loaded) r) :
    (∀ ref < r.engine.scheduler.fresh, r.engine.scheduler.awaited ref = true →
      (r.engine.scheduler.active ++ r.engine.scheduler.pending).count ref = 1) ∧
    (∀ ref < r.engine.scheduler.fresh, ref ∉ r.engine.scheduler.active ++ r.engine.scheduler.pending →
      ∃ future, (r.engine.scheduler.objects ref).future = some future ∧ future.done = true) ∧
    ∀ a r', EngineStep torch loaded r a r' → ∀ ref < r.engine.scheduler.fresh, Accounted torch loaded r a r' ref := by
  have invariant := reachable_engine_invariant torch loaded decodes maxBatch maxWaiting r reach
  refine ⟨?_, ?_, fun a r' step => step_accounted torch loaded decodes r r' a invariant step⟩
  · intro ref alive awaited
    have distinct := invariant.queues.order.imp fun less => Nat.ne_of_lt less
    apply List.count_eq_one_of_mem distinct
    by_contra absent
    rw [invariant.left ref alive absent] at awaited
    cases awaited
  · intro ref alive absent
    exact settled_done _ (invariant.futures ref alive) (invariant.left ref alive absent)

theorem answers_accounted_one_round : ∃ r r' : EngineRun,
    EngineStep writtenTorch (writtenLoaded sameAnswer) r (2, .iterate false lowDraw) r' ∧
      r.engine.scheduler.awaited 0 = true ∧ (r.engine.scheduler.objects 0).state.done = false ∧
      (r'.engine.scheduler.objects 0).future = some (.result (some ⟨[1], [2], "decoded"⟩)) ∧
      (r'.engine.scheduler.objects 0).state.done = true := by
  generalize starts : actsFrom writtenTorch (writtenLoaded sameAnswer) (idleEngine 1 1) [.submit .ample [1] tokenParams] = r
  have reach := acts_reachable writtenTorch (writtenLoaded sameAnswer) 1 1 [.submit .ample [1] tokenParams]
  have step : EngineStep writtenTorch (writtenLoaded sameAnswer) r (2, .iterate false lowDraw)
      ⟨r.engine.act writtenTorch (writtenLoaded sameAnswer) 2 (.iterate false lowDraw), 2⟩ :=
    ⟨by rw [← starts]; decide +kernel, rfl⟩
  rw [starts] at reach
  have accounted := (answers_accounted writtenTorch (writtenLoaded sameAnswer) written_decodes 1 1 r reach).2.2
    _ _ step 0 (by rw [← starts]; decide +kernel)
  have awaited : r.engine.scheduler.awaited 0 = true := by
    rw [← starts]
    decide +kernel
  have answered : ((r.engine.act writtenTorch (writtenLoaded sameAnswer) 2 (.iterate false lowDraw)).scheduler.objects
      0).future = some (.result (some ⟨[1], [2], "decoded"⟩)) := by
    rw [← starts]
    decide +kernel
  obtain ⟨_, _, _, state, _, _, _, _, before, after, same, _⟩ := (accounted.finished awaited _).mp answered
  exact ⟨r, _, step, awaited, before, answered, by rw [same]; exact after⟩

end Dlmserve
