import Dlmserve.Admission
import Dlmserve.EngineDevice

set_option autoImplicit false

namespace Dlmserve

variable {V : Type} (torch : Torch V) (front : Frontend) (loaded : LoadedModel V) (params : SamplingParams)
  (prerendered : Bool) (around : Surroundings V)

section Returns

def planned (s : Scheduler) (deadline : ℚ) : Nat := ∑ ref ∈ admittedBy s deadline, (s.objects ref).params.numDenoisingSteps

theorem potential_planned (tokenizer : Tokenizer) (e : Engine) (now deadline : ℚ)
    (invariant : PacedInvariant tokenizer ⟨e, now⟩) : potential e.scheduler deadline ≤ planned e.scheduler deadline :=
  Finset.sum_le_sum fun ref member =>
    spent_le tokenizer ⟨e, now⟩ invariant ref (Finset.mem_range.mp (Finset.mem_filter.mp member).1)

variable (refs : List Nat) (tick : Nat) (e : Engine) (now : ℚ)

theorem planned_round (decodes : Decodes loaded.tokenizer) (invariant : PacedInvariant loaded.tokenizer ⟨e, now⟩)
    (later : now ≤ around.clock tick) (deadline : ℚ) :
    planned (e.round torch loaded around tick).scheduler deadline = planned e.scheduler deadline := by
  have moved (ref : Nat) := request_moved torch loaded e now _ (around.fails tick) (around.draw tick) ref later decodes
    invariant.engine
  have fresh := (iterate_queued torch loaded e now _ (around.fails tick) (around.draw tick) later decodes
    invariant.engine).2.2.1
  rw [planned, planned, admittedBy, admittedBy, Engine.round, fresh]
  simp only [(moved _).1, (moved _).2.1]

theorem round_spends (decodes : Decodes loaded.tokenizer) (invariant : PacedInvariant loaded.tokenizer ⟨e, now⟩)
    (later : now ≤ around.clock tick) (deadline : ℚ)
    (recent : ∀ ref ∈ e.queue, (e.scheduler.objects ref).admittedMs ≤ deadline)
    (nonempty : e.batch (around.clock tick) ≠ []) :
    potential e.scheduler deadline < potential (e.round torch loaded around tick).scheduler deadline := by
  obtain ⟨ref, member⟩ := List.exists_mem_of_ne_nil _ nonempty
  have queued := batch_queued loaded e now _ later invariant.engine ref member
  have follows := act_follows torch loaded e now _ (.iterate (around.fails tick) (around.draw tick)) later decodes
    invariant.engine
  refine potential_increases loaded.tokenizer ⟨e, now⟩ invariant _ follows deadline ref queued
    (recent ref queued) ?_
  intro after
  have kept := ((iterate_queued torch loaded e now _ _ _ later decodes invariant.engine).2.2.2 ref).mp after
  exact (request_moved torch loaded e now _ _ _ ref later decodes invariant.engine).2.2.2.2 member (kept.2 member).1

-- A wait that goes on has not failed and still has work.
theorem await_goes_on (decodes : Decodes loaded.tokenizer) (serving : Serving loaded refs e now)
    (later : now ≤ around.clock tick) (unfailed : Unfailed refs e)
    (gathered : (e.round torch loaded around tick).scheduler.gathered refs = none) :
    Unfailed refs (e.round torch loaded around tick) ∧ e.scheduler.hasWork = true := by
  have after := serving_round torch loaded around refs tick e now decodes serving later
  have passes : ¬ Failing around tick e := by
    intro failing
    obtain ⟨ref, known, message⟩ := failing_message torch loaded around refs tick e now decodes serving later failing
    obtain ⟨outcome, settled⟩ := gathered_failed _ refs ref known _ message
    rw [gathered] at settled
    cases settled
  have still := unfailed_round torch loaded around refs tick e now decodes serving later unfailed passes
  refine ⟨still, (has_work_queue e).mpr fun empty => ?_⟩
  have idle := empty_round torch loaded around tick e now decodes serving.paced.engine later empty
  obtain ⟨outcome, settled⟩ := (gathered_served loaded refs _ _ after still).mpr idle
  rw [gathered] at settled
  cases settled

-- Every awaited round spends a step of the plan, so the wait ends when it is spent.
theorem await_returns (decodes : Decodes loaded.tokenizer) (monotone : Monotone around.clock) (rest : Nat) (deadline : ℚ)
    (recent : ∀ ref ∈ e.queue, (e.scheduler.objects ref).admittedMs ≤ deadline)
    (serving : Serving loaded refs e now) (later : now ≤ around.clock tick) (unfailed : Unfailed refs e)
    (room : 1 ≤ e.scheduler.maxBatch)
    (budget : planned e.scheduler deadline ≤ potential e.scheduler deadline + rest) :
    ∃ fuel final, e.awaitGather torch loaded around refs tick fuel = some final := by
  induction rest using Nat.strong_induction_on generalizing tick e now with
  | _ rest ih =>
      cases gathered : (e.round torch loaded around tick).scheduler.gathered refs with
      | some outcome => exact ⟨1, _, by rw [Engine.awaitGather]; simp only [gathered]; rfl⟩
      | none =>
          obtain ⟨still, work⟩ := await_goes_on torch loaded around refs tick e now decodes serving later unfailed gathered
          have after := serving_round torch loaded around refs tick e now decodes serving later
          have nonempty := busy_batch loaded e now _ later serving.paced.engine (serving.running work) work room
          have spends := round_spends torch loaded around tick e now decodes serving.paced later deadline recent nonempty
          have same := planned_round torch loaded around tick e now decodes serving.paced later deadline
          have bound := potential_planned loaded.tokenizer _ _ deadline after.paced
          have batches := (iterate_queued torch loaded e now _ (around.fails tick) (around.draw tick) later decodes
            serving.paced.engine).1
          have aged (ref : Nat) (member : ref ∈ (e.round torch loaded around tick).queue) :
              ((e.round torch loaded around tick).scheduler.objects ref).admittedMs ≤ deadline := by
            rw [Engine.round, (request_moved torch loaded e now _ _ _ ref later decodes serving.paced.engine).1]
            refine recent ref ?_
            by_contra absent
            exact (round_unqueued torch loaded e now _ _ _ later decodes serving.paced.engine ref absent).1 member
          obtain ⟨fuel, final, ended⟩ := ih (rest - 1) (by omega) (tick + 1) (e.round torch loaded around tick)
            (around.clock tick) aged after (monotone (Nat.le_succ tick)) still (room.trans_eq batches.symm) (by omega)
          exact ⟨fuel + 1, final, by rw [Engine.awaitGather]; simp only [gathered]; exact ended⟩

end Returns

section Start

variable (prompts : List String) (e : Engine) (now : ℚ)

-- The engine behind the admissions of a call, at which its loop task starts.
def Engine.admitted : Engine :=
  (Engine.admitAll front loaded params prerendered around 0 { e with loop := .running } prompts).1

def Fits : Prop :=
  AllPrepared front loaded params prerendered around 0 prompts ∧ prompts.length ≤ e.scheduler.maxWaiting

theorem generate_refused (idle : e.queue = []) (refused : ¬ Fits front loaded params prerendered around prompts e)
    (fuel : Nat) : ∃ e' error,
      e.generate torch front loaded params prerendered around prompts fuel = some (e', .raised error) ∧
      (e'.queue = [] ↔ FirstRefused front loaded params prerendered around 0 e prompts) := by
  have none_pending : e.scheduler.pending = [] := (List.append_eq_nil_iff.mp idle).2
  obtain ⟨error, raised⟩ := admit_all_error front loaded params prerendered around 0 { e with loop := .running } prompts
    (by dsimp only; rw [none_pending, List.length_nil, Nat.zero_add]; exact refused)
    (by dsimp only; rw [none_pending]; exact Nat.zero_le _)
  obtain ⟨loop, _⟩ := admit_all_queue front loaded params prerendered around 0 { e with loop := .running } prompts
  have left := admit_all_leaves front loaded params prerendered around 0 { e with loop := .running } prompts idle refused
  refine ⟨{ Engine.admitted front loaded params prerendered around prompts e with shutdown := false }, error, ?_, left⟩
  rw [Engine.generate]
  simp only [raised]
  exact congrArg some (finish_alive _ _ (by rw [loop]; exact LoopStatus.noConfusion))

theorem generate_room (idle : e.queue = []) (fits : Fits front loaded params prerendered around prompts e) :
    (Engine.admitAll front loaded params prerendered around 0 { e with loop := .running } prompts).2 =
        .ok (List.range' e.scheduler.fresh prompts.length) ∧
      Admitted prompts.length { e with loop := .running } (Engine.admitted front loaded params prerendered around prompts e) ∧
      (Engine.admitted front loaded params prerendered around prompts e).queue =
        List.range' e.scheduler.fresh prompts.length := by
  obtain ⟨active, pending⟩ := List.append_eq_nil_iff.mp idle
  obtain ⟨refs, admitted⟩ := admit_all_room front loaded params prerendered around 0 { e with loop := .running } prompts fits.1
    (by dsimp only; rw [pending]; exact (Nat.zero_add _).trans_le fits.2)
  refine ⟨refs, admitted, ?_⟩
  rw [Engine.queue, Engine.admitted, admitted.active, admitted.pending]
  dsimp only
  rw [active, pending]
  rfl

theorem admitted_serving (monotone : Monotone around.clock) (invariant : PacedInvariant loaded.tokenizer ⟨e, now⟩)
    (later : now ≤ around.clock 0) (idle : e.queue = []) (fits : Fits front loaded params prerendered around prompts e) :
    Serving loaded (List.range' e.scheduler.fresh prompts.length)
        (Engine.admitted front loaded params prerendered around prompts e) (around.clock prompts.length) ∧
      Unfailed (List.range' e.scheduler.fresh prompts.length)
        (Engine.admitted front loaded params prerendered around prompts e) := by
  obtain ⟨_, admitted, queue⟩ := generate_room front loaded params prerendered around prompts e idle fits
  have started := paced_restarts loaded.tokenizer e now now invariant (le_refl now) e.shutdown .running (by decide)
  have paced := admit_all_paced front loaded params prerendered around monotone prompts 0 { e with loop := .running } now
    started later
  rw [Nat.zero_add] at paced
  rw [Unfailed, queue]
  refine ⟨⟨paced, fun _ => admitted.loop, ?_, ?_⟩, fun ref member => Or.inl member⟩ <;> rw [queue]
  · exact admitted.awaited
  · exact fun _ => id

theorem generate_awaits (idle : e.queue = []) (fits : Fits front loaded params prerendered around prompts e) (fuel : Nat) :
    e.generate torch front loaded params prerendered around prompts fuel =
      if prompts = [] then
        some ((Engine.admitted front loaded params prerendered around prompts e).finish (.returned []))
      else ((Engine.admitted front loaded params prerendered around prompts e).awaitGather torch loaded around
        (List.range' e.scheduler.fresh prompts.length) prompts.length fuel).map fun final => final.1.finish final.2 := by
  obtain ⟨refs, _, _⟩ := generate_room front loaded params prerendered around prompts e idle fits
  rw [Engine.generate]
  simp only [refs]
  cases prompts with
  | nil => rfl
  | cons prompt prompts => rfl

theorem no_prompts (holds : Nat → Engine → Prop) (decodes : Decodes loaded.tokenizer) (monotone : Monotone around.clock)
    (invariant : PacedInvariant loaded.tokenizer ⟨e, now⟩) (later : now ≤ around.clock 0) (idle : e.queue = []) :
    AtFirstFailure torch loaded around holds 0 (Engine.admitted front loaded params prerendered around [] e) := by
  have started := paced_restarts loaded.tokenizer e now now invariant (le_refl now) e.shutdown .running (by decide)
  exact at_first_failure_empty torch loaded around 0 _ now holds decodes monotone started.engine later idle

theorem generate_room_idle (decodes : Decodes loaded.tokenizer) (monotone : Monotone around.clock)
    (invariant : PacedInvariant loaded.tokenizer ⟨e, now⟩) (later : now ≤ around.clock 0) (idle : e.queue = [])
    (fits : Fits front loaded params prerendered around prompts e) (fuel : Nat) (e' : Engine) (outcome : Outcome)
    (ended : e.generate torch front loaded params prerendered around prompts fuel = some (e', outcome)) :
    (AtFirstFailure torch loaded around (Survives torch loaded around) prompts.length
        (Engine.admitted front loaded params prerendered around prompts e) → e'.queue = []) ∧
      (AtFirstFailure torch loaded around (fun tick e => ¬ Undecided torch loaded around tick e) prompts.length
          (Engine.admitted front loaded params prerendered around prompts e) →
        e'.queue = [] → AtFirstFailure torch loaded around (Survives torch loaded around) prompts.length
          (Engine.admitted front loaded params prerendered around prompts e)) := by
  obtain ⟨serving, unfailed⟩ :=
    admitted_serving front loaded params prerendered around prompts e now monotone invariant later idle fits
  rw [generate_awaits torch front loaded params prerendered around prompts e idle fits] at ended
  split at ended
  · rename_i none_given
    subst none_given
    rw [finish_alive _ _ serving.paced.engine.alive] at ended
    obtain ⟨rfl, -⟩ := Prod.mk.inj (Option.some.inj ended)
    exact ⟨fun _ => idle,
      fun _ _ => no_prompts torch front loaded params prerendered around e now _ decodes monotone invariant later idle⟩
  · obtain ⟨⟨last, result⟩, awaited, done⟩ := Option.map_eq_some_iff.mp ended
    have paced := await_paced torch loaded around decodes monotone _ fuel _ _ _ serving.paced (le_refl _) last result awaited
    have final : last.finish result = (e', outcome) := done
    rw [finish_alive last result paced.engine.alive] at final
    obtain ⟨rfl, -⟩ := Prod.mk.inj final
    exact await_leaves torch loaded around _ decodes monotone fuel prompts.length _ _ serving (le_refl _) unfailed last result
      awaited

theorem generate_returns (decodes : Decodes loaded.tokenizer) (monotone : Monotone around.clock)
    (invariant : PacedInvariant loaded.tokenizer ⟨e, now⟩) (later : now ≤ around.clock 0) (idle : e.queue = [])
    (steps : 1 ≤ e.scheduler.maxBatch) :
    ∃ fuel final, e.generate torch front loaded params prerendered around prompts fuel = some final := by
  by_cases fits : Fits front loaded params prerendered around prompts e
  · obtain ⟨_, admitted, _⟩ := generate_room front loaded params prerendered around prompts e idle fits
    obtain ⟨serving, unfailed⟩ :=
      admitted_serving front loaded params prerendered around prompts e now monotone invariant later idle fits
    obtain ⟨fuel, final, awaited⟩ := await_returns torch loaded around _ prompts.length _ _ decodes monotone
      (planned (Engine.admitted front loaded params prerendered around prompts e).scheduler (around.clock prompts.length))
      (around.clock prompts.length)
      (fun ref queued => serving.paced.engine.queues.clock ref (serving.paced.engine.queues.alive ref queued)) serving
      (le_refl _) unfailed (steps.trans_eq admitted.maxBatch.symm) (Nat.le_add_left _ _)
    refine ⟨fuel, ?_⟩
    rw [generate_awaits torch front loaded params prerendered around prompts e idle fits, awaited]
    split <;> exact ⟨_, rfl⟩
  · obtain ⟨e', error, ended, _⟩ :=
      generate_refused torch front loaded params prerendered around prompts e idle fits 0
    exact ⟨0, _, ended⟩

end Start

-- The calls that leave an idle engine idle: the first prompt is refused, or all are
-- admitted and the first round that fails is survived.
def Reusable (prompts : List String) (e : Engine) : Prop :=
  FirstRefused front loaded params prerendered around 0 e prompts ∨
    (Fits front loaded params prerendered around prompts e ∧ AtFirstFailure torch loaded around (Survives torch loaded around)
      prompts.length (Engine.admitted front loaded params prerendered around prompts e))

-- Whether the call is reusable does not depend on the tokens that it predicts.
def Decided (prompts : List String) (e : Engine) : Prop :=
  Fits front loaded params prerendered around prompts e →
    AtFirstFailure torch loaded around (fun tick e => ¬ Undecided torch loaded around tick e) prompts.length
      (Engine.admitted front loaded params prerendered around prompts e)

theorem reachable_calls (decodes : Decodes loaded.tokenizer) (maxBatch maxWaiting : Nat) (r : EngineRun)
    (reach : Transition.Reachable (InitialEngine maxBatch maxWaiting) (CallStep torch front loaded) r) :
    PacedInvariant loaded.tokenizer r := by
  refine Transition.reachable_invariant _ (PacedInvariant loaded.tokenizer) r reach
    (initial_paced_engine loaded maxBatch maxWaiting) ?_
  intro r call r' invariant step
  cases call with
  | act time action => exact (paced_step torch loaded decodes r r' (time, action) invariant step).1
  | generate params prerendered around prompts fuel =>
      obtain ⟨monotone, later, ends, outcome, ended⟩ := step
      have final := generate_paced torch front loaded params prerendered around decodes monotone prompts fuel r.engine r.now
        invariant later r'.engine outcome ended
      rw [← ends] at final
      exact final

theorem first_refused_unfit (prompts : List String) (e : Engine)
    (refused : FirstRefused front loaded params prerendered around 0 e prompts) :
    ¬ Fits front loaded params prerendered around prompts e := by
  obtain ⟨prompt, head, reason⟩ := refused
  rintro ⟨prepared, room⟩
  cases prompts with
  | nil => cases head
  | cons first rest =>
      rcases reason with none_wait | ⟨error, unprepared⟩
      · rw [none_wait] at room
        cases room
      · obtain ⟨state, prepares⟩ := prepared 0 prompt head
        exact prepared_excludes front _ _ params prerendered prompt state prepares error unprepared

-- A call of generate on an idle engine ends, and the engine is idle again where the call
-- is reusable, and only there unless that depends on the predicted tokens.
theorem engine_reuse {V : Type} (torch : Torch V) (front : Frontend) (loaded : LoadedModel V)
    (decodes : Decodes loaded.tokenizer) (maxBatch maxWaiting : Nat) (r : EngineRun)
    (reach : Transition.Reachable (InitialEngine maxBatch maxWaiting) (CallStep torch front loaded) r)
    (idle : r.engine.scheduler.pending = [] ∧ r.engine.scheduler.active = []) (params : SamplingParams)
    (prerendered : Bool) (prompts : List String) (around : Surroundings V) (monotone : Monotone around.clock)
    (later : r.now ≤ around.clock 0) :
    (1 ≤ r.engine.scheduler.maxBatch → ∃ fuel final,
      r.engine.generate torch front loaded params prerendered around prompts fuel = some final) ∧
    ∀ fuel e' outcome,
      r.engine.generate torch front loaded params prerendered around prompts fuel = some (e', outcome) →
      (Reusable torch front loaded params prerendered around prompts r.engine →
        e'.scheduler.pending = [] ∧ e'.scheduler.active = []) ∧
      (Decided torch front loaded params prerendered around prompts r.engine →
        e'.scheduler.pending = [] ∧ e'.scheduler.active = [] →
        Reusable torch front loaded params prerendered around prompts r.engine) := by
  have invariant := reachable_calls torch front loaded decodes maxBatch maxWaiting r reach
  have empty : r.engine.queue = [] := List.append_eq_nil_iff.mpr ⟨idle.2, idle.1⟩
  refine ⟨generate_returns torch front loaded params prerendered around prompts r.engine r.now decodes monotone invariant later
    empty, fun fuel e' outcome ended => ?_⟩
  have settled : (e'.scheduler.pending = [] ∧ e'.scheduler.active = []) ↔ e'.queue = [] := by
    rw [and_comm]
    exact List.append_eq_nil_iff.symm
  rw [settled]
  by_cases fits : Fits front loaded params prerendered around prompts r.engine
  · obtain ⟨survived, decided⟩ := generate_room_idle torch front loaded params prerendered around prompts r.engine r.now
      decodes monotone invariant later empty fits fuel e' outcome ended
    refine ⟨fun reusable => ?_, fun each left => Or.inr ⟨fits, decided (each fits) left⟩⟩
    rcases reusable with refused | ⟨_, swept⟩
    · exact absurd fits (first_refused_unfit front loaded params prerendered around prompts r.engine refused)
    · exact survived swept
  · obtain ⟨refused, error, made, left⟩ :=
      generate_refused torch front loaded params prerendered around prompts r.engine empty fits fuel
    rw [made] at ended
    obtain ⟨rfl, -⟩ := Prod.mk.inj (Option.some.inj ended)
    rw [left]
    exact ⟨fun reusable => reusable.elim id fun others => absurd others.1 fits, fun _ first => Or.inl first⟩

def failingAt (ticks : List Nat) : Surroundings Written where
  clock tick := tick
  fails tick := ticks.contains tick
  draw _ := lowDraw
  full _ := .ample

-- The first round after the admission of both requests fails, and takes both.
theorem failed_batch_decided :
    Decided writtenTorch writtenFrontend (writtenLoaded sameAnswer) tokenParams true (failingAt [2]) ["a", "b"]
      (idleEngine 2 2).engine := by
  intro _
  have failing : Failing (failingAt [2]) 2
      (Engine.admitted writtenFrontend (writtenLoaded sameAnswer) tokenParams true (failingAt [2]) ["a", "b"]
        (idleEngine 2 2).engine) := by
    refine ⟨?_, ?_, rfl⟩ <;> decide +kernel
  have emptied : ((Engine.admitted writtenFrontend (writtenLoaded sameAnswer) tokenParams true (failingAt [2]) ["a", "b"]
      (idleEngine 2 2).engine).round writtenTorch (writtenLoaded sameAnswer) (failingAt [2]) 2).queue = [] := by
    decide +kernel
  refine (at_first_failure_here writtenTorch (writtenLoaded sameAnswer) (failingAt [2]) 2 _ _ failing).mpr ?_
  rintro ⟨_, _, _, ref, queued, _⟩
  rw [emptied] at queued
  cases queued

theorem engine_reuse_failed_batch : ∃ e',
    (idleEngine 2 2).engine.generate writtenTorch writtenFrontend (writtenLoaded sameAnswer) tokenParams true (failingAt [2])
      ["a", "b"] 1 = some (e', .raised (.runtimeError Scheduler.stepFailed)) ∧
    Reusable writtenTorch writtenFrontend (writtenLoaded sameAnswer) tokenParams true (failingAt [2]) ["a", "b"]
      (idleEngine 2 2).engine := by
  have runs : ((idleEngine 2 2).engine.generate writtenTorch writtenFrontend (writtenLoaded sameAnswer) tokenParams true
      (failingAt [2]) ["a", "b"] 1).map (fun final => (final.1.scheduler.pending, final.1.scheduler.active, final.2)) =
        some ([], [], .raised (.runtimeError Scheduler.stepFailed)) := by decide +kernel
  obtain ⟨⟨e', outcome⟩, ended, left⟩ := Option.map_eq_some_iff.mp runs
  obtain ⟨pending, rest⟩ := Prod.mk.inj left
  obtain ⟨active, rfl⟩ := Prod.mk.inj rest
  refine ⟨e', ended, ?_⟩
  exact ((engine_reuse writtenTorch writtenFrontend (writtenLoaded sameAnswer) written_decodes 2 2 (idleEngine 2 2)
    ⟨_, [], idle_engine_initial 2 2, .nil⟩ ⟨rfl, rfl⟩ tokenParams true ["a", "b"] (failingAt [2])
    (fun _ _ less => Nat.cast_le.mpr less) (le_refl _)).2 1 e' _ ended).2 failed_batch_decided ⟨pending, active⟩

-- Two requests for one place: the call that is rejected keeps the place, and a later
-- call for one prompt is rejected as well. Without a rejection, the round behind a
-- failure takes one request of two, and the other stays.
theorem engine_reuse_leftover :
    (∃ e' e'', (idleEngine 1 1).engine.generate writtenTorch writtenFrontend (writtenLoaded sameAnswer) tokenParams true
        (failingAt []) ["a", "b"] 9 = some (e', .raised Engine.queueFull) ∧ e'.scheduler.pending = [0] ∧
      e'.generate writtenTorch writtenFrontend (writtenLoaded sameAnswer) tokenParams true (failingAt []) ["c"] 9 =
        some (e'', .raised Engine.queueFull)) ∧
    ∃ e', (idleEngine 1 3).engine.generate writtenTorch writtenFrontend (writtenLoaded sameAnswer) tokenParams true
        (failingAt [3]) ["a", "b", "c"] 9 = some (e', .raised (.runtimeError Scheduler.stepFailed)) ∧
      e'.scheduler.active = [2] := by
  constructor
  · have runs : ((idleEngine 1 1).engine.generate writtenTorch writtenFrontend (writtenLoaded sameAnswer) tokenParams true
        (failingAt []) ["a", "b"] 9).map (fun final => (final.2, final.1.scheduler.pending,
          (final.1.generate writtenTorch writtenFrontend (writtenLoaded sameAnswer) tokenParams true (failingAt []) ["c"]
            9).map Prod.snd)) =
        some (.raised Engine.queueFull, [0], some (.raised Engine.queueFull)) := by decide +kernel
    obtain ⟨⟨e', outcome⟩, ended, left⟩ := Option.map_eq_some_iff.mp runs
    obtain ⟨rfl, rest⟩ := Prod.mk.inj left
    obtain ⟨pending, later⟩ := Prod.mk.inj rest
    obtain ⟨⟨e'', outcome⟩, rejected, rfl⟩ := Option.map_eq_some_iff.mp later
    exact ⟨e', e'', ended, pending, rejected⟩
  · have runs : ((idleEngine 1 3).engine.generate writtenTorch writtenFrontend (writtenLoaded sameAnswer) tokenParams true
        (failingAt [3]) ["a", "b", "c"] 9).map (fun final => (final.2, final.1.scheduler.active)) =
        some (.raised (.runtimeError Scheduler.stepFailed), [2]) := by decide +kernel
    obtain ⟨⟨e', outcome⟩, ended, left⟩ := Option.map_eq_some_iff.mp runs
    obtain ⟨rfl, active⟩ := Prod.mk.inj left
    exact ⟨e', ended, active⟩

end Dlmserve
