import Dlmserve.Commitment
import Dlmserve.GenerateAlone

set_option autoImplicit false

namespace Dlmserve

-- As many steps into blocks of the same length are the same place.
theorem same_place {s t : DenoiseState} (blockLength : t.blockLength = s.blockLength)
    (stepsPerBlock : t.stepsPerBlock = s.stepsPerBlock) (early : s.stepInBlock < blockSteps s)
    (early' : t.stepInBlock < blockSteps t)
    (same : s.blockIdx * blockSteps s + s.stepInBlock = t.blockIdx * blockSteps t + t.stepInBlock) : stepIdx s = stepIdx t := by
  have steps : blockSteps t = blockSteps s := by rw [blockSteps, blockSteps, stepsPerBlock, blockLength]
  rw [steps] at early' same
  have block : s.blockIdx = t.blockIdx := by
    have left := Nat.div_eq_of_lt early
    have right := Nat.div_eq_of_lt early'
    have positive : 0 < blockSteps s := Nat.lt_of_le_of_lt (Nat.zero_le _) early
    rw [Nat.mul_comm, Nat.mul_comm t.blockIdx] at same
    have quotient := congrArg (· / blockSteps s) same
    simpa [Nat.mul_add_div positive, left, right] using quotient
  rw [block] at same
  rw [stepIdx, stepIdx, stepsPerBlock, block]
  omega

section InStep

variable (mask : Token) (params : SamplingParams)

-- The counters of a call: the length of its blocks, the steps of a block, and what one
-- request needs of the forward pass, since a block of n masks is used up after n steps.
def callBlockLength : Nat := params.blockLength.getD params.genLength

def callStepsPerBlock : Nat := params.numDenoisingSteps / (params.genLength / callBlockLength params)

def callBudget : Nat := params.genLength / callBlockLength params * min (callStepsPerBlock params) (callBlockLength params)

structure InStep (n : Nat) (s : DenoiseState) : Prop where
  exact : Exact mask s n
  progress : Progress mask s n
  given : s.params = params
  genLength : s.genLength = params.genLength
  blockLength : s.blockLength = callBlockLength params
  stepsPerBlock : s.stepsPerBlock = callStepsPerBlock params

theorem initial_in_step {V : Type} (torch : Torch V) (full : Full) (promptIds : List Token) (start : DenoiseState)
    (clean : mask ∉ promptIds) (made : initState full (.single promptIds) params mask = .ok start) : InStep mask params 0 start := by
  have fresh : FairRun torch mask params start [] start := ⟨⟨full, .single promptIds, promptIds, rfl, clean, made⟩, .nil, by simp⟩
  have exact := fair_run_exact torch mask params start start [] fresh (by simp)
  have progress := (fair_run_progress torch mask params start start [] fresh).1
  obtain ⟨numBlocks, blockLength, stepsPerBlock, accepted, rfl⟩ := init_state_ok _ params mask start made
  refine ⟨exact, progress, rfl, rfl, accepted.blockLength_eq, ?_⟩
  rw [callStepsPerBlock, callBlockLength, ← accepted.blockLength_eq, accepted.blocks,
    Nat.mul_div_cancel _ accepted.lengthPos, accepted.steps, Nat.mul_div_cancel_left _ accepted.blocksPos]
  rfl

variable {mask params} {n : Nat} {s t : DenoiseState}

theorem in_step_budget (inStep : InStep mask params n s) : stepBudget s = callBudget params := by
  rw [stepBudget, blockSteps, inStep.genLength, inStep.blockLength, inStep.stepsPerBlock, callBudget]

theorem in_step_done (inStep : InStep mask params n s) : s.done = true ↔ n = callBudget params := by
  rw [exact_done mask s n inStep.exact inStep.progress, in_step_budget inStep]

theorem in_step_same_index (inStep : InStep mask params n s) (other : InStep mask params n t) : stepIdx s = stepIdx t :=
  same_place (other.blockLength.trans inStep.blockLength.symm) (other.stepsPerBlock.trans inStep.stepsPerBlock.symm)
    inStep.progress.early other.progress.early (inStep.exact.spent.symm.trans other.exact.spent)

theorem in_step_next {V : Type} (torch : Torch V) (model : Model V) (pad : Token) (draw : Draw V)
    (inStep : InStep mask params n s) (plain : params.useLocalLeap = false) (running : s.done = false) (sound : TopKSound draw)
    (proper : pad ≠ mask) (never : NeverPredictsMask torch model mask draw params.temperature)
    (step : StateStep torch model mask pad draw params s t) : InStep mask params (n + 1) t := by
  have same := state_step_keeps torch model mask pad draw params s t step
  exact ⟨exact_step torch model mask pad draw params n s t step sound plain running inStep.exact inStep.progress.early,
    progress_step torch model mask pad draw params n s t step sound proper never running inStep.progress,
    same.params.trans inStep.given, same.genLength.trans inStep.genLength, same.blockLength.trans inStep.blockLength,
    same.stepsPerBlock.trans inStep.stepsPerBlock⟩

end InStep

section Batch

variable {V : Type} (torch : Torch V) (loaded : LoadedModel V) (around : Surroundings V)

variable (params : SamplingParams) (refs : List Nat) (tick n : Nat) (e : Engine) (now : ℚ)

-- The requests of a call after n rounds: all of them queued, each of them n steps on.
structure Lockstep : Prop where
  serving : Serving loaded refs e now
  unfailed : Unfailed refs e
  whole : ∀ ref ∈ refs, ref ∈ e.queue
  states : ∀ ref ∈ refs, InStep loaded.maskId params n (e.scheduler.objects ref).state
  fits : e.queue.length ≤ e.scheduler.maxBatch

theorem lockstep_batch (some_refs : refs ≠ []) (later : now ≤ around.clock tick)
    (step : Lockstep loaded params refs n e now) : e.batch (around.clock tick) = e.queue := by
  have serving := step.serving
  obtain ⟨first, known⟩ := List.exists_mem_of_ne_nil _ some_refs
  have work : e.queue ≠ [] := List.ne_nil_of_mem (step.whole first known)
  have running := serving.running ((has_work_queue e).mpr work)
  refine one_batch_whole loaded e now _ later serving.paced.engine running work ⟨step.fits, ?_⟩
  intro ref member other inside
  have mine := step.states ref (serving.known ref member)
  have theirs := step.states other (serving.known other inside)
  simp [Request.groupKey, Request.stepIdx, Request.blockLengthBucket, in_step_same_index mine theirs,
    mine.blockLength, theirs.blockLength, mine.given, theirs.given]

theorem lockstep_states (decodes : Decodes loaded.tokenizer) (plain : params.useLocalLeap = false)
    (proper : loaded.padTokenId ≠ loaded.maskId) (sound : TopKSound (around.draw tick))
    (never : NeverPredictsMask torch loaded.model loaded.maskId (around.draw tick) params.temperature)
    (batch : e.batch (around.clock tick) = e.queue)
    (stepped : e.stepped torch loaded (around.clock tick) (around.fails tick) (around.draw tick) ≠ none)
    (later : now ≤ around.clock tick) (step : Lockstep loaded params refs n e now) (ref : Nat) (known : ref ∈ refs) :
    InStep loaded.maskId params (n + 1) ((e.round torch loaded around tick).scheduler.objects ref).state := by
  have serving := step.serving
  have engine := serving.paced.engine
  have queued := step.whole ref known
  rcases iterate_object torch loaded e now _ (around.fails tick) (around.draw tick) later decodes engine ref with
    ⟨absent, _⟩ | ⟨_, none_made, _⟩ | ⟨_, state', _, _, _, ⟨leader, inside, window⟩, object⟩
  · rw [batch] at absent
    exact absurd queued absent
  · exact absurd none_made stepped
  · have state : ((e.round torch loaded around tick).scheduler.objects ref).state = state' := by
      rw [Engine.round, object]
      split
      · exact finished_state loaded.tokenizer _
      · rfl
    rw [batch] at inside
    rw [(step.states leader (serving.known leader inside)).given] at window
    rw [state]
    exact in_step_next torch loaded.model loaded.padTokenId (around.draw tick) (step.states ref known) plain
      (engine.running ref queued).2.2 sound proper never
      (window_step_state torch loaded.model loaded.maskId loaded.padTokenId (around.draw tick) params _ state' window)

-- A round takes all of them one step on, and leaves them queued unless it was the last.
theorem lockstep_round (decodes : Decodes loaded.tokenizer) (plain : params.useLocalLeap = false)
    (proper : loaded.padTokenId ≠ loaded.maskId) (sound : TopKSound (around.draw tick))
    (never : NeverPredictsMask torch loaded.model loaded.maskId (around.draw tick) params.temperature)
    (passes : around.fails tick = false) (some_refs : refs ≠ []) (later : now ≤ around.clock tick)
    (step : Lockstep loaded params refs n e now) :
    (n + 1 = callBudget params → (e.round torch loaded around tick).queue = []) ∧
      (n + 1 ≠ callBudget params →
        Lockstep loaded params refs (n + 1) (e.round torch loaded around tick) (around.clock tick)) := by
  have serving := step.serving
  have engine := serving.paced.engine
  have batch := lockstep_batch loaded around params refs tick n e now some_refs later step
  have stepped : e.stepped torch loaded (around.clock tick) (around.fails tick) (around.draw tick) ≠ none := by
    rw [ne_eq, stepped_none torch loaded e now _ _ _ engine later, passes]
    exact Bool.false_ne_true
  have states := lockstep_states torch loaded around params refs tick n e now decodes plain proper sound never batch stepped
    later step
  obtain ⟨batches, _, _, queue⟩ := iterate_queued torch loaded e now _ (around.fails tick) (around.draw tick) later decodes engine
  have stays (ref : Nat) : ref ∈ (e.round torch loaded around tick).queue ↔ ref ∈ e.queue ∧ n + 1 ≠ callBudget params := by
    refine (queue ref).trans (and_congr_right fun queued => ?_)
    have open_yet : ((e.round torch loaded around tick).scheduler.objects ref).state.done = false ↔ n + 1 ≠ callBudget params := by
      rw [← Bool.not_eq_true, in_step_done (states ref (serving.known ref queued))]
    rw [batch]
    exact ⟨fun kept => open_yet.mp (kept queued).2, fun more _ => ⟨stepped, open_yet.mpr more⟩⟩
  have after := serving_round torch loaded around refs tick e now decodes serving later
  constructor
  · intro last
    exact List.eq_nil_iff_forall_not_mem.mpr fun ref member => ((stays ref).mp member).2 last
  · intro more
    have failing : ¬ Failing around tick e := fun failing => by cases passes.symm.trans failing.2.2
    refine ⟨after, unfailed_round torch loaded around refs tick e now decodes serving later step.unfailed failing,
      fun ref known => (stays ref).mpr ⟨step.whole ref known, more⟩, states, ?_⟩
    have inside : (e.round torch loaded around tick).queue ⊆ e.queue := fun ref member => ((stays ref).mp member).1
    have distinct : (e.round torch loaded around tick).queue.Nodup :=
      after.paced.engine.queues.order.imp Nat.ne_of_lt
    exact ((distinct.subperm inside).length_le.trans step.fits).trans_eq batches.symm

-- The induction is on the rounds that are left of the budget.
theorem await_lockstep (decodes : Decodes loaded.tokenizer) (plain : params.useLocalLeap = false)
    (proper : loaded.padTokenId ≠ loaded.maskId) (monotone : Monotone around.clock)
    (sound : ∀ tick, TopKSound (around.draw tick))
    (never : ∀ tick, NeverPredictsMask torch loaded.model loaded.maskId (around.draw tick) params.temperature)
    (passes : ∀ tick, around.fails tick = false) (some_refs : refs ≠ []) (left : Nat) (later : now ≤ around.clock tick)
    (step : Lockstep loaded params refs n e now) (remaining : n + (left + 1) = callBudget params) (fuel : Nat) :
    (fuel < left + 1 → e.awaitGather torch loaded around refs tick fuel = none) ∧
      (left + 1 ≤ fuel → ∃ e' results, e.awaitGather torch loaded around refs tick fuel = some (e', .returned results) ∧
        results.length = refs.length) := by
  induction left generalizing n tick e now fuel with
  | zero =>
      have after := serving_round torch loaded around refs tick e now decodes step.serving later
      have failing : ¬ Failing around tick e := fun failing => by cases (passes tick).symm.trans failing.2.2
      have still := unfailed_round torch loaded around refs tick e now decodes step.serving later step.unfailed failing
      have empty := (lockstep_round torch loaded around params refs tick n e now decodes plain proper (sound tick) (never tick)
        (passes tick) some_refs later step).1 remaining
      cases fuel with
      | zero => exact ⟨fun _ => rfl, fun none_left => absurd none_left (by omega)⟩
      | succ fuel =>
          refine ⟨fun short => absurd short (by omega), fun _ => ?_⟩
          obtain ⟨outcome, gathered⟩ := (gathered_served loaded refs _ _ after still).mpr empty
          rcases gathered_cases _ refs outcome gathered with ⟨ref, known, message, failed, _⟩ | ⟨results, collected, rfl⟩
          · have fails := (unfailed_messages torch loaded around tick e now decodes refs step.serving later step.unfailed ref known
              message failed).2
            rw [passes tick] at fails
            cases fails
          · rw [Engine.awaitGather]
            simp only [gathered]
            exact ⟨_, results, rfl, Collect.map_m_length _ _ _ collected⟩
  | succ left ih =>
      have next := (lockstep_round torch loaded around params refs tick n e now decodes plain proper (sound tick) (never tick)
        (passes tick) some_refs later step).2 (by omega)
      cases fuel with
      | zero => exact ⟨fun _ => rfl, fun none_left => absurd none_left (by omega)⟩
      | succ fuel =>
          obtain ⟨first, known⟩ := List.exists_mem_of_ne_nil _ some_refs
          have waits : (e.round torch loaded around tick).scheduler.gathered refs = none := by
            by_contra settled
            have empty := (gathered_served loaded refs _ _ next.serving next.unfailed).mp (Option.ne_none_iff_exists'.mp settled)
            have queued := next.whole first known
            rw [empty] at queued
            cases queued
          obtain ⟨short, enough⟩ := ih (tick + 1) (n + 1) _ (around.clock tick) (monotone (Nat.le_succ tick)) next (by omega) fuel
          rw [Engine.awaitGather]
          simp only [waits]
          exact ⟨fun less => short (by omega), fun more => enough (by omega)⟩

end Batch

theorem admitted_lockstep {V : Type} (torch : Torch V) (front : Frontend) (loaded : LoadedModel V) (params : SamplingParams)
    (prerendered : Bool) (prompts : List String) (around : Surroundings V) (e : Engine) (now : ℚ)
    (invariant : PacedInvariant loaded.tokenizer ⟨e, now⟩) (empty : e.queue = []) (monotone : Monotone around.clock)
    (later : now ≤ around.clock 0) (admits : Fits front loaded params prerendered around prompts e)
    (clean : ∀ prompt ∈ prompts, ∀ encoded, front.encodePrompt prerendered prompt = .ok encoded → loaded.maskId ∉ encoded.1)
    (fits : prompts.length ≤ e.scheduler.maxBatch) :
    Lockstep loaded params (List.range' e.scheduler.fresh prompts.length) 0
      (Engine.admitted front loaded params prerendered around prompts e) (around.clock prompts.length) := by
  obtain ⟨serving, unfailed⟩ :=
    admitted_serving front loaded params prerendered around prompts e now monotone invariant later empty admits
  obtain ⟨_, admitted, queue⟩ := generate_room front loaded params prerendered around prompts e empty admits
  refine ⟨serving, unfailed, fun ref known => by rwa [queue], fun ref known => ?_, ?_⟩
  · obtain ⟨i, inside, rfl⟩ := List.mem_range'.mp known
    obtain ⟨encoded, encodes, made⟩ := admitted_states front loaded params prerendered around e prompts empty admits i prompts[i]
      (List.getElem?_eq_getElem inside)
    rw [Nat.one_mul]
    exact initial_in_step loaded.maskId params torch .ample encoded.1 _ (clean _ (List.getElem_mem inside) encoded encodes) made
  · rw [queue, List.length_range', admitted.maxBatch]
    exact fits

-- Batching is free: the prompts of a call that fit into one batch take their steps together,
-- so that the call takes as many forward passes as one prompt alone, and ends behind the last.
theorem generate_lockstep {V : Type} (torch : Torch V) (front : Frontend) (loaded : LoadedModel V)
    (decodes : Decodes loaded.tokenizer) (proper : loaded.padTokenId ≠ loaded.maskId) (maxBatch maxWaiting : Nat) (r : EngineRun)
    (reach : Transition.Reachable (InitialEngine maxBatch maxWaiting) (CallStep torch front loaded) r)
    (idle : r.engine.scheduler.pending = [] ∧ r.engine.scheduler.active = []) (params : SamplingParams)
    (plain : params.useLocalLeap = false) (prerendered : Bool) (prompts : List String) (some_prompts : prompts ≠ [])
    (around : Surroundings V) (accepted : AllPrepared front loaded params prerendered around 0 prompts)
    (clean : ∀ prompt ∈ prompts, ∀ encoded, front.encodePrompt prerendered prompt = .ok encoded → loaded.maskId ∉ encoded.1)
    (fits : prompts.length ≤ r.engine.scheduler.maxBatch) (room : prompts.length ≤ r.engine.scheduler.maxWaiting)
    (monotone : Monotone around.clock) (later : r.now ≤ around.clock 0) (sound : ∀ tick, TopKSound (around.draw tick))
    (never : ∀ tick, NeverPredictsMask torch loaded.model loaded.maskId (around.draw tick) params.temperature)
    (passes : ∀ tick, around.fails tick = false) (fuel : Nat) :
    (fuel < callBudget params →
      r.engine.generate torch front loaded params prerendered around prompts fuel = none) ∧
      (callBudget params ≤ fuel → ∃ e' results,
        r.engine.generate torch front loaded params prerendered around prompts fuel = some (e', .returned results) ∧
        results.length = prompts.length) := by
  have invariant := reachable_calls torch front loaded decodes maxBatch maxWaiting r reach
  have empty : r.engine.queue = [] := List.append_eq_nil_iff.mpr ⟨idle.2, idle.1⟩
  have admits : Fits front loaded params prerendered around prompts r.engine := ⟨accepted, room⟩
  have length : (List.range' r.engine.scheduler.fresh prompts.length).length = prompts.length := List.length_range'
  have some_refs : List.range' r.engine.scheduler.fresh prompts.length ≠ [] := by
    rw [← List.length_pos_iff, length]
    exact List.length_pos_of_ne_nil some_prompts
  have lockstep := admitted_lockstep torch front loaded params prerendered prompts around r.engine r.now invariant empty monotone
    later admits clean fits
  have serving := lockstep.serving
  have positive : 0 < callBudget params := by
    obtain ⟨first, known⟩ := List.exists_mem_of_ne_nil _ some_refs
    have unfinished := (serving.paced.engine.running first (lockstep.whole first known)).2.2
    have done := in_step_done (lockstep.states first known)
    rw [unfinished] at done
    exact Nat.pos_of_ne_zero fun none_left => Bool.false_ne_true (done.mpr none_left.symm)
  obtain ⟨short, enough⟩ := await_lockstep torch loaded around params _ prompts.length 0 _ _ decodes plain proper monotone sound
    never passes some_refs (callBudget params - 1) (le_refl _) lockstep (by omega) fuel
  rw [generate_awaits torch front loaded params prerendered around prompts r.engine empty admits, if_neg some_prompts]
  constructor
  · intro less
    rw [short (by omega)]
    rfl
  · intro more
    obtain ⟨last, results, awaited, count⟩ := enough (by omega)
    have paced := await_paced torch loaded around decodes monotone _ fuel _ _ _ serving.paced (le_refl _) last _ awaited
    rw [awaited, Option.map_some, finish_alive last _ paced.engine.alive]
    exact ⟨_, results, rfl, count.trans length⟩

theorem generate_lockstep_two :
    (idleEngine 2 2).engine.generate writtenTorch writtenFrontend (writtenLoaded sameAnswer) (blockParams false) true
        (failingAt []) ["a", "bcd"] 5 = none ∧
      ∃ e' results, (idleEngine 2 2).engine.generate writtenTorch writtenFrontend (writtenLoaded sameAnswer) (blockParams false)
        true (failingAt []) ["a", "bcd"] 6 = some (e', .returned results) ∧ results.length = 2 := by
  have accepted : AllPrepared writtenFrontend (writtenLoaded sameAnswer) (blockParams false) true (failingAt []) 0 ["a", "bcd"] := by
    intro i prompt _
    exact ⟨_, ([prompt.length], some [1]), rfl, by decide,
      init_state_accepts _ _ _ 3 4 2 ⟨rfl, rfl, rfl, by decide, by decide, by decide⟩ rfl⟩
  have clean : ∀ prompt ∈ ["a", "bcd"], ∀ encoded, writtenFrontend.encodePrompt true prompt = .ok encoded →
      (writtenLoaded sameAnswer).maskId ∉ encoded.1 := by
    rintro prompt member encoded ⟨⟩
    revert prompt
    decide
  have predicted : (2 : Token) ≠ 9 := by decide
  have budget : callBudget (blockParams false) = 6 := by decide
  have call (fuel : Nat) := generate_lockstep writtenTorch writtenFrontend (writtenLoaded sameAnswer) written_decodes (by decide)
    2 2 (idleEngine 2 2) ⟨_, [], idle_engine_initial 2 2, .nil⟩ ⟨rfl, rfl⟩ (blockParams false) rfl true ["a", "bcd"] (by simp)
    (failingAt []) accepted clean (by decide) (by decide) (fun _ _ less => Nat.cast_le.mpr less) (le_refl _)
    (fun _ => ties_low_sound _ low_draw_ties_low)
    (fun _ => written_never_mask sameAnswer 9 (fun _ => predicted) lowDraw) (fun _ => rfl) fuel
  exact ⟨(call 5).1 (by rw [budget]; decide), (call 6).2 (by rw [budget])⟩

end Dlmserve
