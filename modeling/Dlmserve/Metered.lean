import Dlmserve.EngineFollows
import Dlmserve.StepMetrics
import Mathlib.Algebra.BigOperators.Intervals

set_option autoImplicit false

namespace Dlmserve

variable {full : Full}

-- for req in batch: if req.state.done, with tokens_this_step, which an exception discards.
def Scheduler.finishCounted (tokenizer : Tokenizer) (s : Scheduler) (tokensThisStep : Nat) :
    List Nat → Scheduler × Option Nat
  | [] => (s, some tokensThisStep)
  | ref :: batch =>
      if (s.objects ref).state.done then
        match tokenizer.makeOutput (s.objects ref).state with
        | none => (s, none)
        | some output =>
            match (s.setResult ref output).complete ref with
            | .ok completed => finishCounted tokenizer completed (tokensThisStep + (s.objects ref).state.genLength) batch
            | .error _ => (s.setResult ref output, none)
      else finishCounted tokenizer s tokensThisStep batch

section Round

variable {V : Type} (torch : Torch V) (loaded : LoadedModel V) (now : ℚ)

-- One round of _engine_loop with the call of record_step that it makes, if it gets there:
-- duration is what the two readings around the step differ by, seconds the reading in
-- record_step.
def Engine.iterateRecorded (fails : Bool) (draw : Draw V) (duration seconds : ℚ) (e : Engine) : Engine × Option StepCall :=
  match e.loop with
  | .running =>
      if e.shutdown = true ∧ e.scheduler.hasWork = false then ({ e with loop := .returned }, none)
      else
        let (s, batch) := e.scheduler.schedule now
        if batch = [] then ({ e with scheduler := s }, none)
        else
          let states := batch.map fun ref => (s.objects ref).state
          match if fails then none else stepBatch torch loaded.model loaded.maskId loaded.padTokenId draw states with
          | none => ({ e with scheduler := batch.foldl Scheduler.failRequest s }, none)
          | some states =>
              match Scheduler.finishCounted loaded.tokenizer (s.setStates batch states) 0 batch with
              | (s, none) => ({ e with scheduler := s, loop := .crashed }, none)
              | (s, some tokens) => ({ e with scheduler := s, loop := .running }, some {
                  batchSize := batch.length
                  stepDurationS := duration
                  tokensCommitted := tokens
                  now := seconds
                  queueDepth := s.pending.length })
  | _ => (e, none)

end Round

section Counted

variable (tokenizer : Tokenizer) (s : Scheduler)

theorem finish_counted_scheduler (tokens : Nat) (batch : List Nat) :
    (s.finishCounted tokenizer tokens batch).1 = (s.finishBatch tokenizer batch).1 ∧
      ((s.finishCounted tokenizer tokens batch).2 = none ↔ (s.finishBatch tokenizer batch).2 = true) := by
  induction batch generalizing s tokens with
  | nil => exact ⟨rfl, by simp [Scheduler.finishCounted, Scheduler.finishBatch]⟩
  | cons ref batch ih =>
      rw [Scheduler.finishCounted, Scheduler.finishBatch]
      split
      · cases tokenizer.makeOutput (s.objects ref).state with
        | none => exact ⟨rfl, by simp⟩
        | some output =>
            dsimp only
            cases (s.setResult ref output).complete ref with
            | ok s' => exact ih s' _
            | error error => exact ⟨rfl, by simp⟩
      · exact ih s tokens

theorem resolve_state (ref other : Nat) : ((s.resolve ref).objects other).state = (s.objects other).state := by
  rw [resolve_objects]
  dsimp only
  split
  · exact (resolved_keeps _ _).2.2.1
  · rfl

theorem complete_state (s' : Scheduler) (ref other : Nat) (completed : s.complete ref = .ok s') :
    (s'.objects other).state = (s.objects other).state := by
  rw [Scheduler.complete] at completed
  cases removed : s.listRemove ref s.active with
  | ok active =>
      rw [removed] at completed
      obtain rfl := Except.ok.inj completed
      exact resolve_state { s with active := active } ref other
  | error error =>
      rw [removed] at completed
      cases error with
      | valueError message =>
          obtain rfl := Except.ok.inj completed
          exact resolve_state s ref other
      | zeroDivisionError | runtimeError | assertionError | notImplementedError | unboundLocalError | attributeError | other =>
          cases completed

theorem set_result_state (ref other : Nat) (output : GenerationOutput) :
    ((s.setResult ref output).objects other).state = (s.objects other).state := by
  rw [Scheduler.setResult]
  dsimp only
  by_cases same : other = ref
  · rw [same, Function.update_self]
  · rw [Function.update_of_ne same]

def Scheduler.doneTokens (batch : List Nat) : Nat :=
  ((batch.filter fun ref => (s.objects ref).state.done).map fun ref => (s.objects ref).state.genLength).sum

theorem done_tokens_congr (s' : Scheduler) (same : ∀ ref, (s'.objects ref).state = (s.objects ref).state)
    (batch : List Nat) : s'.doneTokens batch = s.doneTokens batch := by
  rw [Scheduler.doneTokens, Scheduler.doneTokens]
  simp only [same]

theorem finish_counted_tokens (tokens total : Nat) (batch : List Nat)
    (counted : (s.finishCounted tokenizer tokens batch).2 = some total) : total = tokens + s.doneTokens batch := by
  induction batch generalizing s tokens with
  | nil => exact (Option.some.inj counted).symm
  | cons ref batch ih =>
      rw [Scheduler.finishCounted] at counted
      by_cases done : (s.objects ref).state.done = true
      · rw [if_pos done] at counted
        cases made : tokenizer.makeOutput (s.objects ref).state with
        | none =>
            rw [made] at counted
            cases counted
        | some output =>
            rw [made] at counted
            dsimp only at counted
            cases completed : (s.setResult ref output).complete ref with
            | error error =>
                rw [completed] at counted
                cases counted
            | ok s' =>
                rw [completed] at counted
                have same (other : Nat) : (s'.objects other).state = (s.objects other).state :=
                  (complete_state _ s' ref other completed).trans (set_result_state s ref other output)
                have rest := ih s' _ counted
                rw [done_tokens_congr s s' same] at rest
                rw [rest, Scheduler.doneTokens, Scheduler.doneTokens, List.filter_cons, if_pos done, List.map_cons,
                  List.sum_cons]
                exact Nat.add_assoc _ _ _
      · rw [if_neg done] at counted
        rw [ih s tokens counted, Scheduler.doneTokens, Scheduler.doneTokens, List.filter_cons, if_neg done]

end Counted

section Recorded

variable {V : Type} (torch : Torch V) (loaded : LoadedModel V) (e : Engine) (now time : ℚ) (fails : Bool) (draw : Draw V)
  (duration seconds : ℚ)

theorem iterate_recorded_engine :
    (e.iterateRecorded torch loaded time fails draw duration seconds).1 = e.iterate torch loaded time fails draw := by
  rw [Engine.iterateRecorded, Engine.iterate]
  cases e.loop with
  | returned | crashed => rfl
  | running =>
      dsimp only
      split
      · rfl
      · split
        · rfl
        · generalize (if fails = true then none else stepBatch torch loaded.model loaded.maskId loaded.padTokenId draw
            ((e.scheduler.schedule time).2.map fun ref => ((e.scheduler.schedule time).1.objects ref).state)) = moved
          cases moved with
          | none => rfl
          | some states =>
              dsimp only
              obtain ⟨same, raised⟩ := finish_counted_scheduler loaded.tokenizer
                ((e.scheduler.schedule time).1.setStates (e.scheduler.schedule time).2 states) 0 (e.scheduler.schedule time).2
              generalize Scheduler.finishCounted loaded.tokenizer _ 0 (e.scheduler.schedule time).2 = counted at same raised ⊢
              generalize Scheduler.finishBatch loaded.tokenizer _ (e.scheduler.schedule time).2 = finished at same raised ⊢
              obtain ⟨s, tokens⟩ := counted
              obtain ⟨s', stops⟩ := finished
              dsimp only at same raised
              subst same
              cases tokens with
              | none =>
                  rw [raised.mp rfl]
                  rfl
              | some tokens =>
                  have clean : stops = false := Bool.eq_false_iff.mpr fun stopped => Option.some_ne_none _ (raised.mpr stopped)
                  rw [clean]
                  rfl

theorem iterate_recorded_call (later : now ≤ time) (queues : Queues e.scheduler now) :
    (∃ call states, (e.iterateRecorded torch loaded time fails draw duration seconds).2 = some call ∧
      e.batch time ≠ [] ∧ e.stepped torch loaded time fails draw = some states ∧
      call.batchSize = (e.batch time).length ∧ call.stepDurationS = duration ∧ call.now = seconds ∧
      call.tokensCommitted = (e.scheduler.promotePending.setStates (e.batch time) states).doneTokens (e.batch time) ∧
      call.queueDepth = (e.iterate torch loaded time fails draw).scheduler.pending.length) ∨
    ((e.iterateRecorded torch loaded time fails draw duration seconds).2 = none ∧
      (e.batch time = [] ∨ e.stepped torch loaded time fails draw = none ∨
        (e.iterate torch loaded time fails draw).loop = .crashed)) := by
  rw [← iterate_recorded_engine torch loaded e time fails draw duration seconds, Engine.iterateRecorded]
  cases status : e.loop with
  | returned | crashed =>
      refine Or.inr ⟨rfl, Or.inl ?_⟩
      rw [Engine.batch, if_neg]
      simp [status]
  | running =>
      dsimp only
      by_cases stop : e.shutdown = true ∧ e.scheduler.hasWork = false
      · rw [if_pos stop]
        refine Or.inr ⟨rfl, Or.inl ?_⟩
        rw [Engine.batch, if_neg]
        exact fun both => both.2 stop
      · have batchEq : e.batch time = (e.scheduler.schedule time).2 := by rw [Engine.batch, if_pos ⟨status, stop⟩]
        rw [if_neg stop]
        by_cases idle : (e.scheduler.schedule time).2 = []
        · rw [if_pos idle]
          exact Or.inr ⟨rfl, Or.inl (batchEq.trans idle)⟩
        · rw [if_neg idle]
          have pool : (e.scheduler.schedule time).1 = e.scheduler.promotePending := by
            rcases schedule_cases e.scheduler now time later queues with ⟨_, made⟩ | ⟨batch, key, reqs, _, made, _, _⟩ <;>
              rw [made]
          have stepEq : e.stepped torch loaded time fails draw = if fails = true then none
              else stepBatch torch loaded.model loaded.maskId loaded.padTokenId draw
                ((e.scheduler.schedule time).2.map fun ref => (e.scheduler.promotePending.objects ref).state) := by
            rw [Engine.stepped, batchEq, promote_objects]
          rw [pool, ← stepEq, ← batchEq]
          rw [← batchEq] at idle
          cases moved : e.stepped torch loaded time fails draw with
          | none => exact Or.inr ⟨rfl, Or.inr (Or.inl rfl)⟩
          | some states =>
              dsimp only
              have tokens := finish_counted_tokens loaded.tokenizer
                (e.scheduler.promotePending.setStates (e.batch time) states) 0
              cases counted : Scheduler.finishCounted loaded.tokenizer
                (e.scheduler.promotePending.setStates (e.batch time) states) 0 (e.batch time) with
              | mk s total =>
                  cases total with
                  | none => exact Or.inr ⟨rfl, Or.inr (Or.inr rfl)⟩
                  | some total =>
                      refine Or.inl ⟨_, states, rfl, idle, rfl, rfl, rfl, rfl, ?_, rfl⟩
                      exact (tokens total (e.batch time) (by rw [counted])).trans (Nat.zero_add _)

end Recorded

def Request.producedTokens (req : Request) : Nat := (req.result.map fun output => output.outputIds.length).getD 0

def Scheduler.producedTokens (s : Scheduler) : Nat := ∑ ref ∈ Finset.range s.fresh, (s.objects ref).producedTokens

section Produced

theorem sum_members (n : Nat) (refs : List Nat) (distinct : refs.Nodup) (inside : ∀ ref ∈ refs, ref < n) (tokens : Nat → Nat) :
    ∑ ref ∈ Finset.range n, (if ref ∈ refs then tokens ref else 0) = (refs.map tokens).sum := by
  have members : Finset.range n ∩ refs.toFinset = refs.toFinset := by
    apply Finset.inter_eq_right.mpr
    intro ref member
    exact Finset.mem_range.mpr (inside ref (List.mem_toFinset.mp member))
  rw [← List.sum_toFinset tokens distinct, ← members, ← Finset.sum_ite_mem]
  simp only [List.mem_toFinset]

theorem resolved_result (req : Request) (future : Future) : (req.resolved future).result = req.result := by
  rw [Request.resolved]
  split <;> rfl

theorem failed_produced (req : Request) : req.failed.producedTokens = req.producedTokens := by
  rw [Request.producedTokens, Request.producedTokens, Request.failed, resolved_result]

theorem output_length (tokenizer : Tokenizer) (state : DenoiseState) (shaped : Shaped state) (output : GenerationOutput)
    (made : tokenizer.makeOutput state = some output) : output.outputIds.length = state.genLength := by
  rw [Tokenizer.makeOutput] at made
  obtain ⟨texts, _, made⟩ := Option.bind_eq_some_iff.mp made
  obtain ⟨text, _, made⟩ := Option.bind_eq_some_iff.mp made
  obtain ⟨row, first, made⟩ := Option.bind_eq_some_iff.mp made
  obtain ⟨outputIds, generated, made⟩ := Option.bind_eq_some_iff.mp made
  obtain rfl := Option.some.inj made
  rw [List.head?_map, first] at generated
  obtain rfl := Option.some.inj generated
  dsimp only
  rw [List.length_drop, shaped.rows row (List.mem_of_mem_head? first), Nat.add_sub_cancel_left]

theorem finished_produced (tokenizer : Tokenizer) (req : Request) (shaped : Shaped req.state)
    (made : tokenizer.makeOutput req.state ≠ none) : (req.finished tokenizer).producedTokens = req.state.genLength := by
  obtain ⟨output, answer⟩ := Option.ne_none_iff_exists'.mp made
  rw [Request.producedTokens, Request.finished, resolved_result]
  dsimp only
  rw [answer]
  exact output_length tokenizer req.state shaped output answer

end Produced

section Account

variable {V : Type} (torch : Torch V) (loaded : LoadedModel V) (e : Engine) (now time : ℚ) (fails : Bool) (draw : Draw V)

def Engine.ResultsDone (e : Engine) : Prop :=
  ∀ ref < e.scheduler.fresh, (e.scheduler.objects ref).result ≠ none → (e.scheduler.objects ref).state.done = true

theorem queued_unproduced (invariant : EngineInvariant loaded.tokenizer e now) (results : e.ResultsDone) (ref : Nat)
    (queued : ref ∈ e.scheduler.active ++ e.scheduler.pending) : (e.scheduler.objects ref).producedTokens = 0 := by
  have none_yet : (e.scheduler.objects ref).result = none := by
    by_contra answered
    have done := results ref (invariant.queues.alive ref queued) answered
    rw [(invariant.running ref queued).2.2] at done
    cases done
  rw [Request.producedTokens, none_yet]
  rfl

theorem iterate_results (later : now ≤ time) (decodes : Decodes loaded.tokenizer)
    (invariant : EngineInvariant loaded.tokenizer e now) (results : e.ResultsDone) :
    (e.iterate torch loaded time fails draw).ResultsDone := by
  have fresh := (iterate_queued torch loaded e now time fails draw later decodes invariant).2.2.1
  intro ref alive answered
  rw [fresh] at alive
  rcases iterate_object torch loaded e now time fails draw later decodes invariant ref with
    ⟨_, object⟩ | ⟨_, _, object⟩ | ⟨states, state', member, _, _, _, object⟩
  · rw [object] at answered ⊢
    exact results ref alive answered
  · rw [object, Request.failed, resolved_result] at answered
    rw [object, failed_state]
    exact results ref alive answered
  · rw [object] at answered ⊢
    by_cases done : state'.done = true
    · rw [if_pos done, finished_state]
      exact done
    · rw [if_neg done] at answered
      have finished := results ref alive answered
      rw [(invariant.running ref (batch_queued loaded e now time later invariant ref member)).2.2] at finished
      cases finished

-- A round that steps its batch produces the tokens of what it makes done, request by request.
theorem stepped_produced (later : now ≤ time) (decodes : Decodes loaded.tokenizer)
    (invariant : EngineInvariant loaded.tokenizer e now) (results : e.ResultsDone) (states : List DenoiseState)
    (made : e.stepped torch loaded time fails draw = some states) (distinct : (e.batch time).Nodup) (ref : Nat) :
    ((e.iterate torch loaded time fails draw).scheduler.objects ref).producedTokens =
      (e.scheduler.objects ref).producedTokens +
        if ref ∈ (e.batch time).filter fun ref =>
          ((e.scheduler.promotePending.setStates (e.batch time) states).objects ref).state.done then
          ((e.scheduler.promotePending.setStates (e.batch time) states).objects ref).state.genLength
        else 0 := by
  rcases iterate_object torch loaded e now time fails draw later decodes invariant ref with
    ⟨absent, object⟩ | ⟨_, none_made, _⟩ | ⟨states', state', member, made', read, moved, object⟩
  · rw [object, if_neg fun inside => absent (List.mem_of_mem_filter inside)]
    rfl
  · rw [made] at none_made
    cases none_made
  · obtain rfl := Option.some.inj (made'.symm.trans made)
    have queued := batch_queued loaded e now time later invariant ref member
    obtain ⟨same', _, read', stepped⟩ := stepped_state torch loaded e time fails draw states' made ref member distinct
      e.scheduler.promotePending (promote_objects _)
    obtain rfl := Option.some.inj (read'.symm.trans read)
    obtain ⟨params0, step⟩ := moves_state torch loaded e time draw _ same' moved
    have shaped := state_step_shaped torch loaded.model loaded.maskId loaded.padTokenId draw params0 _ same' step
      (invariant.running ref queued).1
    have before := queued_unproduced loaded e now invariant results ref queued
    have seq := state_step_seq torch draw loaded.model loaded.maskId loaded.padTokenId params0 _ same' step
    simp only [List.mem_filter, member, true_and, stepped]
    rw [object, before, Nat.zero_add]
    split
    · exact finished_produced loaded.tokenizer _ shaped (make_output_some loaded.tokenizer decodes same' seq)
    · exact before

theorem unstepped_produced (later : now ≤ time) (decodes : Decodes loaded.tokenizer)
    (invariant : EngineInvariant loaded.tokenizer e now)
    (quiet : e.batch time = [] ∨ e.stepped torch loaded time fails draw = none) (ref : Nat) :
    ((e.iterate torch loaded time fails draw).scheduler.objects ref).producedTokens =
      (e.scheduler.objects ref).producedTokens := by
  rcases iterate_object torch loaded e now time fails draw later decodes invariant ref with
    ⟨_, object⟩ | ⟨_, _, object⟩ | ⟨states, state', member, made, _, _, _⟩
  · rw [object]
  · rw [object, failed_produced]
  · rcases quiet with empty | none_made
    · rw [empty] at member
      cases member
    · rw [made] at none_made
      cases none_made

theorem iterate_produced (later : now ≤ time) (decodes : Decodes loaded.tokenizer)
    (invariant : EngineInvariant loaded.tokenizer e now) (results : e.ResultsDone) (duration seconds : ℚ) :
    (e.iterate torch loaded time fails draw).scheduler.producedTokens = e.scheduler.producedTokens +
      ((e.iterateRecorded torch loaded time fails draw duration seconds).2.toList.map StepCall.tokensCommitted).sum := by
  have fresh := (iterate_queued torch loaded e now time fails draw later decodes invariant).2.2.1
  rw [Scheduler.producedTokens, Scheduler.producedTokens, fresh]
  rcases iterate_recorded_call torch loaded e now time fails draw duration seconds later invariant.queues with
    ⟨call, states, recorded, busy, made, _, _, _, tokens, _⟩ | ⟨unrecorded, quiet⟩
  · have distinct : (e.batch time).Nodup ∧ ∀ ref ∈ e.batch time, ref < e.scheduler.fresh := by
      refine ⟨?_, fun ref member => invariant.queues.alive ref (batch_queued loaded e now time later invariant ref member)⟩
      have iteration := iterate_iteration torch loaded e now time fails draw later invariant.queues
      generalize e.iterate torch loaded time fails draw = after at iteration
      cases iteration with
      | quiet loop s none_run kept stays => exact absurd none_run busy
      | failed key good | stepped key states good => exact (batch_alive e now time later invariant.queues key good).1
    rw [recorded, Finset.sum_congr rfl fun ref _ =>
      stepped_produced torch loaded e now time fails draw later decodes invariant results states made distinct.1 ref,
      Finset.sum_add_distrib, sum_members _ _ (distinct.1.filter _)
        (fun ref member => distinct.2 ref (List.mem_of_mem_filter member))]
    simp [tokens, Scheduler.doneTokens]
  · have calm : e.batch time = [] ∨ e.stepped torch loaded time fails draw = none := by
      rcases quiet with empty | none_made | crashed
      · exact Or.inl empty
      · exact Or.inr none_made
      · have running := (act_invariant torch loaded decodes ⟨e, now⟩ _ (time, .iterate fails draw) invariant ⟨later, rfl⟩).alive
        exact absurd crashed running
    rw [unrecorded, Finset.sum_congr rfl fun ref _ =>
      unstepped_produced torch loaded e now time fails draw later decodes invariant calm ref]
    simp

end Account

section Runs

variable {V : Type} (torch : Torch V) (loaded : LoadedModel V) (maxBatch maxWaiting : Nat)

-- The engine with the calls of record_step that its loop made so far, under the two
-- clocks that it reads: milliseconds in schedule, seconds in record_step.
structure MeteredRun where
  engine : Engine
  now : ℚ
  seconds : ℚ
  calls : List StepCall

structure MeteredAction (V : Type) where
  time : ℚ
  action : EngineAction V
  duration : ℚ
  seconds : ℚ

def MeteredRun.act (r : MeteredRun) (a : MeteredAction V) : MeteredRun :=
  match a.action with
  | .iterate fails draw =>
      let round := r.engine.iterateRecorded torch loaded a.time fails draw a.duration a.seconds
      { engine := round.1, now := a.time, seconds := a.seconds, calls := r.calls ++ round.2.toList }
  | action => { r with engine := r.engine.act torch loaded a.time action, now := a.time, seconds := a.seconds }

def MeteredStep (r : MeteredRun) (a : MeteredAction V) (r' : MeteredRun) : Prop :=
  r.now ≤ a.time ∧ r.seconds ≤ a.seconds ∧ r' = r.act torch loaded a

def InitialMetered (r : MeteredRun) : Prop := InitialEngine maxBatch maxWaiting ⟨r.engine, r.now⟩ ∧ r.calls = []

-- Behind the recorded calls the engine runs as it does without them.
theorem metered_step_engine (r r' : MeteredRun) (a : MeteredAction V) (step : MeteredStep torch loaded r a r') :
    EngineStep torch loaded ⟨r.engine, r.now⟩ (a.time, a.action) ⟨r'.engine, r'.now⟩ := by
  obtain ⟨later, _, rfl⟩ := step
  obtain ⟨time, action, duration, seconds⟩ := a
  refine ⟨later, ?_⟩
  cases action with
  | iterate fails draw =>
      exact congrArg (EngineRun.mk · time) (iterate_recorded_engine torch loaded r.engine time fails draw duration seconds)
  | submit | cancel | shutdown => rfl

theorem metered_engine_reachable (r : MeteredRun)
    (reach : Transition.Reachable (InitialMetered maxBatch maxWaiting) (MeteredStep torch loaded) r) :
    Transition.Reachable (InitialEngine maxBatch maxWaiting) (EngineStep torch loaded) ⟨r.engine, r.now⟩ := by
  apply Transition.reachable_invariant _ (fun r : MeteredRun =>
    Transition.Reachable (InitialEngine maxBatch maxWaiting) (EngineStep torch loaded) ⟨r.engine, r.now⟩) r reach
  · exact fun r initial => ⟨_, [], initial.1, .nil⟩
  · exact fun r a r' reached step =>
      Transition.reachable_step _ _ _ _ reached (metered_step_engine torch loaded r r' a step)

structure Kept (r : MeteredRun) : Prop where
  tokens : (r.calls.map StepCall.tokensCommitted).sum = r.engine.scheduler.producedTokens
  results : r.engine.ResultsDone
  limits : r.engine.scheduler.maxBatch = maxBatch ∧ r.engine.scheduler.maxWaiting = maxWaiting
  ordered : Window.Ordered StepCall.now r.calls
  clock : ∀ call ∈ r.calls, call.now ≤ r.seconds
  bounds : ∀ call ∈ r.calls, 1 ≤ call.batchSize ∧ call.batchSize ≤ maxBatch ∧ call.queueDepth ≤ maxWaiting

theorem submit_kept (e : Engine) (time : ℚ) (promptIds : List Token) (params : SamplingParams) (results : e.ResultsDone) :
    (e.submit loaded time full promptIds params).scheduler.producedTokens = e.scheduler.producedTokens ∧
      (e.submit loaded time full promptIds params).ResultsDone ∧
      (e.submit loaded time full promptIds params).scheduler.maxBatch = e.scheduler.maxBatch ∧
      (e.submit loaded time full promptIds params).scheduler.maxWaiting = e.scheduler.maxWaiting := by
  rw [Engine.submit]
  cases initState full (.single promptIds) params loaded.maskId with
  | error error => exact ⟨rfl, results, rfl, rfl⟩
  | ok state =>
      dsimp only
      by_cases room : e.scheduler.pending.length < e.scheduler.maxWaiting
      · rw [admit_room _ _ _ _ _ room]
        have old (ref : Nat) (alive : ref < e.scheduler.fresh) :=
          enqueued_old e.scheduler time state params (some .pending) ref (Nat.ne_of_lt alive)
        have new := enqueued_new e.scheduler time state params (some .pending)
        refine ⟨?_, ?_, rfl, rfl⟩
        · rw [Scheduler.producedTokens, Scheduler.producedTokens]
          refine (Finset.sum_range_succ _ _).trans ?_
          rw [new]
          refine (Nat.add_zero _).trans (Finset.sum_congr rfl fun ref member => ?_)
          rw [old ref (Finset.mem_range.mp member)]
        · intro ref alive answered
          by_cases here : ref = e.scheduler.fresh
          · subst here
            dsimp only at answered
            rw [new] at answered
            exact absurd rfl answered
          · have before : ref < e.scheduler.fresh := Nat.lt_of_le_of_ne (Nat.le_of_lt_succ alive) here
            dsimp only at answered ⊢
            rw [old ref before] at answered ⊢
            exact results ref before answered
      · rw [admit_full _ _ _ _ _ (Nat.not_lt.mp room)]
        exact ⟨rfl, results, rfl, rfl⟩

theorem batch_size (e : Engine) (now time : ℚ) (later : now ≤ time) (queues : Queues e.scheduler now) :
    (e.batch time).length ≤ e.scheduler.maxBatch := by
  rw [Engine.batch]
  split
  · rcases schedule_cases e.scheduler now time later queues with ⟨_, made⟩ | ⟨batch, key, reqs, _, made, _, good⟩
    · rw [made]
      exact Nat.zero_le _
    · rw [made]
      exact good.size.trans_le (Nat.min_le_left _ _)
  · exact Nat.zero_le _

theorem iterate_kept (decodes : Decodes loaded.tokenizer) (r : MeteredRun)
    (invariant : EngineInvariant loaded.tokenizer r.engine r.now) (kept : Kept maxBatch maxWaiting r) (time : ℚ)
    (later : r.now ≤ time) (fails : Bool) (draw : Draw V) (duration seconds : ℚ) (ticks : r.seconds ≤ seconds) :
    Kept maxBatch maxWaiting (r.act torch loaded ⟨time, .iterate fails draw, duration, seconds⟩) := by
  have engine := iterate_recorded_engine torch loaded r.engine time fails draw duration seconds
  obtain ⟨batches, waits, _⟩ := iterate_queued torch loaded r.engine r.now time fails draw later decodes invariant
  have results := iterate_results torch loaded r.engine r.now time fails draw later decodes invariant kept.results
  have produced := iterate_produced torch loaded r.engine r.now time fails draw later decodes invariant kept.results duration seconds
  have after := act_invariant torch loaded decodes ⟨r.engine, r.now⟩ _ (time, .iterate fails draw) invariant ⟨later, rfl⟩
  have recorded := iterate_recorded_call torch loaded r.engine r.now time fails draw duration seconds later invariant.queues
  have calls (call : StepCall)
      (member : call ∈ (r.engine.iterateRecorded torch loaded time fails draw duration seconds).2.toList) :
      call.now = seconds ∧ 1 ≤ call.batchSize ∧ call.batchSize ≤ maxBatch ∧ call.queueDepth ≤ maxWaiting := by
    rcases recorded with ⟨call', states, made, busy, _, size, _, instant, _, depth⟩ | ⟨unrecorded, _⟩
    · rw [made, Option.toList_some, List.mem_singleton] at member
      subst member
      refine ⟨instant, ?_, ?_, ?_⟩
      · rw [size]
        exact List.length_pos_of_ne_nil busy
      · rw [size, ← kept.limits.1]
        exact batch_size r.engine r.now time later invariant.queues
      · rw [depth, ← kept.limits.2, ← waits]
        exact after.queues.pendingBound
    · rw [unrecorded] at member
      cases member
  rw [MeteredRun.act]
  dsimp only
  refine ⟨?_, ?_, ?_, ?_, ?_, ?_⟩
  · rw [List.map_append, List.sum_append, kept.tokens, engine]
    exact produced.symm
  · rw [engine]
    exact results
  · dsimp only
    rw [engine, batches, waits]
    exact kept.limits
  · refine List.pairwise_append.mpr ⟨kept.ordered, ?_, ?_⟩
    · cases (r.engine.iterateRecorded torch loaded time fails draw duration seconds).2 <;> simp
    · intro old before call new
      rw [(calls call new).1]
      exact (kept.clock old before).trans ticks
  · intro call member
    rcases List.mem_append.mp member with old | new
    · exact (kept.clock call old).trans ticks
    · exact (calls call new).1.le
  · intro call member
    rcases List.mem_append.mp member with old | new
    · exact kept.bounds call old
    · exact (calls call new).2

theorem act_kept (decodes : Decodes loaded.tokenizer) (r r' : MeteredRun) (a : MeteredAction V)
    (invariant : EngineInvariant loaded.tokenizer r.engine r.now) (kept : Kept maxBatch maxWaiting r)
    (step : MeteredStep torch loaded r a r') : Kept maxBatch maxWaiting r' := by
  obtain ⟨later, ticks, rfl⟩ := step
  obtain ⟨time, action, duration, seconds⟩ := a
  have clock (call : StepCall) (member : call ∈ r.calls) : call.now ≤ seconds := (kept.clock call member).trans ticks
  cases action with
  | iterate fails draw =>
      exact iterate_kept torch loaded maxBatch maxWaiting decodes r invariant kept time later fails draw duration seconds ticks
  | shutdown => exact ⟨kept.tokens, kept.results, kept.limits, kept.ordered, clock, kept.bounds⟩
  | cancel ref =>
      have same := cancel_queues r.engine.scheduler ref
      have request (other : Nat) : ((r.engine.scheduler.cancel ref).objects other).result =
          (r.engine.scheduler.objects other).result ∧
          ((r.engine.scheduler.cancel ref).objects other).state = (r.engine.scheduler.objects other).state := by
        rw [cancel_objects]
        dsimp only
        split
        · exact ⟨resolved_result _ _, (resolved_keeps _ _).2.2.1⟩
        · exact ⟨rfl, rfl⟩
      refine ⟨kept.tokens.trans ?_, ?_, ⟨same.maxBatch.trans kept.limits.1, same.maxWaiting.trans kept.limits.2⟩,
        kept.ordered, clock, kept.bounds⟩
      · change r.engine.scheduler.producedTokens = (r.engine.scheduler.cancel ref).producedTokens
        rw [Scheduler.producedTokens, Scheduler.producedTokens, same.fresh]
        exact Finset.sum_congr rfl fun other _ => by rw [Request.producedTokens, Request.producedTokens, (request other).1]
      · intro other alive answered
        change ((r.engine.scheduler.cancel ref).objects other).state.done = true
        rw [(request other).2]
        exact kept.results other (same.fresh ▸ alive) ((request other).1 ▸ answered)
  | submit full promptIds params =>
      obtain ⟨tokens, results, limits⟩ := submit_kept loaded r.engine time promptIds params kept.results
      exact ⟨kept.tokens.trans tokens.symm, results, ⟨limits.1.trans kept.limits.1, limits.2.trans kept.limits.2⟩,
        kept.ordered, clock, kept.bounds⟩

theorem reachable_kept (decodes : Decodes loaded.tokenizer) (r : MeteredRun)
    (reach : Transition.Reachable (InitialMetered maxBatch maxWaiting) (MeteredStep torch loaded) r) :
    Kept maxBatch maxWaiting r := by
  apply Transition.reachable_invariant_under _ (Kept maxBatch maxWaiting)
    (fun r => EngineInvariant loaded.tokenizer r.engine r.now) r reach
    (fun r reached => reachable_engine_invariant torch loaded decodes maxBatch maxWaiting ⟨r.engine, r.now⟩
      (metered_engine_reachable torch loaded maxBatch maxWaiting r reached))
  · rintro ⟨engine, now, seconds, calls⟩ ⟨⟨unused, now', same⟩, rfl⟩
    obtain ⟨rfl, rfl⟩ := EngineRun.mk.inj same
    exact ⟨rfl, fun ref alive => absurd alive (Nat.not_lt_zero ref), ⟨rfl, rfl⟩, .nil, by simp, by simp⟩
  · exact fun r a r' invariant kept step => act_kept torch loaded maxBatch maxWaiting decodes r r' a invariant kept step

end Runs

-- The metrics of the engine's loop tell the truth about every run: the tokens they were
-- given are those of the answers that the engine has made, each counted once, whatever
-- fails, is cancelled or still runs; every recorded batch had a size that the scheduler
-- allows; and the throughput gauge is that of the last ten seconds.
theorem metrics_account {V : Type} (torch : Torch V) (loaded : LoadedModel V) (decodes : Decodes loaded.tokenizer)
    (maxBatch maxWaiting : Nat) (r : MeteredRun)
    (reach : Transition.Reachable (InitialMetered maxBatch maxWaiting) (MeteredStep torch loaded) r) :
    (r.calls.map StepCall.tokensCommitted).sum = r.engine.scheduler.producedTokens ∧
      (∀ size ∈ (StepMetrics.recordAll r.calls).stepBatchSize, 1 ≤ size ∧ size ≤ maxBatch) ∧
      (StepMetrics.recordAll r.calls).queueDepth ≤ maxWaiting ∧
      ∀ earlier last, r.calls = earlier ++ [last] →
        (StepMetrics.recordAll r.calls).tokensCommittedWindow =
          Window.recent Prod.fst windowSeconds last.now (r.calls.map StepCall.entry) := by
  have kept := reachable_kept torch loaded maxBatch maxWaiting decodes r reach
  refine ⟨kept.tokens, ?_, ?_, ?_⟩
  · intro size member
    rw [(record_all_histograms r.calls).1] at member
    obtain ⟨call, recorded, rfl⟩ := List.mem_map.mp member
    exact ⟨(kept.bounds call recorded).1, (kept.bounds call recorded).2.1⟩
  · rcases List.eq_nil_or_concat r.calls with none_yet | ⟨earlier, last, shape⟩
    · rw [none_yet]
      exact Nat.zero_le _
    · have recorded := kept.bounds last (by rw [shape]; simp)
      rw [shape, List.concat_eq_append, record_all_last]
      exact recorded.2.2
  · intro earlier last shape
    rw [shape]
    exact record_all_recent earlier last (List.pairwise_map.mpr (shape ▸ kept.ordered))

def MeteredRun.actAt (r : MeteredRun) (time : ℚ) (action : EngineAction Written) : MeteredRun :=
  r.act writtenTorch (writtenLoaded sameAnswer) ⟨time, action, 1 / 1000, time / 1000⟩

def idleMetered : MeteredRun :=
  { engine := (idleEngine 2 2).engine, now := 0, seconds := 0, calls := [] }

def meteredTwo : MeteredRun :=
  ((idleMetered.actAt 1 (.submit .ample [1] tokenParams)).actAt 2 (.submit .ample [3, 4] tokenParams)).actAt 3
    (.iterate false lowDraw)

theorem metrics_account_two : meteredTwo.calls.length = 1 ∧ meteredTwo.engine.scheduler.producedTokens = 2 := by
  have step (r : MeteredRun) (time : ℚ) (action : EngineAction Written) (later : r.now ≤ time)
      (ticks : r.seconds ≤ time / 1000) : MeteredStep writtenTorch (writtenLoaded sameAnswer) r
        ⟨time, action, 1 / 1000, time / 1000⟩ (r.actAt time action) := ⟨later, ticks, rfl⟩
  have reach : Transition.Reachable (InitialMetered 2 2) (MeteredStep writtenTorch (writtenLoaded sameAnswer)) meteredTwo :=
    ⟨idleMetered, _, ⟨idle_engine_initial 2 2, rfl⟩, .snoc _ _ _ _ (.snoc _ _ _ _ (.snoc _ _ _ _ .nil
      (step _ 1 _ (by decide) (by decide +kernel))) (step _ 2 _ (by decide) (by decide +kernel)))
        (step _ 3 _ (by decide) (by decide +kernel))⟩
  have account := metrics_account writtenTorch (writtenLoaded sameAnswer) written_decodes 2 2 meteredTwo reach
  exact ⟨by decide +kernel, account.1.symm.trans (by decide +kernel)⟩

end Dlmserve
