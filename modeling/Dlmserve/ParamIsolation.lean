import Dlmserve.SchedulerInvariant

set_option autoImplicit false

namespace Dlmserve

namespace Scheduler

variable (s : Scheduler)

def sharedOf (ref : Nat) : SharedParams := (s.objects ref).state.params.shared

def Uniform (refs : List Nat) : Prop := ∀ a ∈ refs, ∀ b ∈ refs, s.sharedOf a = s.sharedOf b

-- The requests that a call of schedule chooses among: the active ones, and the waiting
-- ones that there is room for.
def pool : List Nat := s.active ++ s.pending.take (s.maxBatch * 2 - s.active.length)

def KeyDetermines : Prop :=
  ∀ a ∈ s.pool, ∀ b ∈ s.pool, (s.objects a).groupKey = (s.objects b).groupKey → s.sharedOf a = s.sharedOf b

end Scheduler

theorem promoted_pool (s : Scheduler) : s.promotePending.active = s.pool := by
  rw [Scheduler.promote_eq]
  rfl

theorem promoted_shared (s : Scheduler) (ref : Nat) : s.promotePending.sharedOf ref = s.sharedOf ref := by
  rw [Scheduler.promote_eq]
  rfl

theorem chosen_member (now : ℚ) (s : Scheduler) (batch : List Nat) (key : GroupKey) (reqs : List Nat)
    (chosen : Scheduler.Chosen now s.promotePending batch key reqs) (ref : Nat) (inside : ref ∈ batch) :
    ref ∈ s.pool ∧ (s.objects ref).groupKey = key := by
  have grouped : ref ∈ reqs := by
    rw [chosen.batch_eq] at inside
    exact List.mem_of_mem_take inside
  rw [chosen.group] at grouped
  obtain ⟨active, keyed⟩ := List.mem_filter.mp grouped
  rw [promoted_pool] at active
  rw [Scheduler.promote_eq] at keyed
  exact ⟨active, of_decide_eq_true keyed⟩

theorem single_uniform (s : Scheduler) (batch : List Nat) (single : batch.length ≤ 1) : s.Uniform batch := by
  intro a memberA b memberB
  obtain ⟨i, inside, rfl⟩ := List.mem_iff_getElem.mp memberA
  obtain ⟨j, within, rfl⟩ := List.mem_iff_getElem.mp memberB
  have same : i = j := by omega
  subst same
  rfl

-- A batch lies in one group of the pool, and is at most one request where max_batch is.
theorem chosen_uniform (now : ℚ) (s : Scheduler) (batch : List Nat) (key : GroupKey) (reqs : List Nat)
    (chosen : Scheduler.Chosen now s.promotePending batch key reqs) (separated : s.maxBatch ≤ 1 ∨ s.KeyDetermines) :
    s.promotePending.Uniform batch := by
  rcases separated with one | determines
  · apply single_uniform
    rw [chosen.batch_eq, List.length_take, Scheduler.promote_eq]
    exact (Nat.min_le_left _ _).trans one
  · intro a memberA b memberB
    obtain ⟨poolA, keyA⟩ := chosen_member now s batch key reqs chosen a memberA
    obtain ⟨poolB, keyB⟩ := chosen_member now s batch key reqs chosen b memberB
    rw [promoted_shared, promoted_shared]
    exact determines a poolA b poolB (keyA.trans keyB.symm)

-- Batches do not mix parameters in runs where requests of one key agree in them, or where
-- a batch is one request, and then every row is committed under its own request's parameters.
theorem parameter_isolation {V : Type} (torch : Torch V) (mask : Token) (maxBatch maxWaiting : Nat)
    (first r : SchedulerRun) (trace : List (SchedulerRun × ℚ × SchedulerAction))
    (initial : InitialRun maxBatch maxWaiting first) (run : Transition.Run SchedulerStep first trace r)
    (separated : ∀ before time, (before, time, SchedulerAction.schedule) ∈ trace →
      before.scheduler.maxBatch ≤ 1 ∨ before.scheduler.KeyDetermines) :
    ∀ before time, (before, time, SchedulerAction.schedule) ∈ trace →
      (before.scheduler.schedule time).1.Uniform (before.scheduler.schedule time).2 ∧
      ∀ leader ∈ (before.scheduler.schedule time).2.head?, ∀ ref ∈ (before.scheduler.schedule time).2,
        commitRows torch mask ((before.scheduler.schedule time).1.objects leader).state.params =
          commitRows torch mask ((before.scheduler.schedule time).1.objects ref).state.params := by
  intro before time member
  obtain ⟨earlier, after, reached, step⟩ := Transition.run_entry first r before _ trace run member
  have invariant := reachable_run_invariant maxBatch maxWaiting before ⟨first, earlier, initial, reached⟩
  have later : before.now ≤ time := by
    cases step with
    | schedule _ later => exact later
  have uniform : (before.scheduler.schedule time).1.Uniform (before.scheduler.schedule time).2 := by
    rcases schedule_cases before.scheduler before.now time later invariant.queues with
      ⟨_, made⟩ | ⟨batch, key, reqs, _, made, chosen, _⟩
    · rw [made]
      exact fun _ member => absurd member List.not_mem_nil
    · rw [made]
      exact chosen_uniform time _ batch key reqs chosen (separated before time member)
  refine ⟨uniform, ?_⟩
  intro leader first_of ref inside
  exact commit_rows_shared torch mask _ _ (uniform leader (List.mem_of_mem_head? first_of) ref inside)

section TwoRequests

def warmParams (temperature : ℚ) : SamplingParams := { blockParams false with temperature := temperature }

def warmStart (temperature : ℚ) : DenoiseState := initialState (onePrompt 1) (warmParams temperature) 9 4 2

def idleRun (maxBatch maxWaiting : Nat) : SchedulerRun :=
  { scheduler := Scheduler.init maxBatch maxWaiting { reqId := 0, state := warmStart 0, params := {}, admittedMs := 0 }
    now := 0 }

def admitWarm (r : SchedulerRun) (temperature : ℚ) : SchedulerRun :=
  { r with
    scheduler := (r.scheduler.admitRequest 0 (warmStart temperature) (warmParams temperature) (some .pending)).1, now := 0 }

theorem admit_warm_step (r : SchedulerRun) (temperature : ℚ) (start : r.now = 0) :
    SchedulerStep r (0, .admitRequest (warmStart temperature) (warmParams temperature) (some .pending))
      (admitWarm r temperature) :=
  .admitRequest r 0 (warmStart temperature) (warmParams temperature) (some .pending) (le_of_eq start)

theorem warm_start_made (temperature : ℚ) :
    initState .ample (onePrompt 1) (warmParams temperature) 9 = .ok (warmStart temperature) :=
  init_state_accepts (onePrompt 1) (warmParams temperature) 9 3 4 2 ⟨rfl, rfl, rfl, by decide, by decide, by decide⟩ rfl

theorem parameter_isolation_same : ∃ r : SchedulerRun,
    Transition.Reachable (InitialRun 2 2) SchedulerStep r ∧ (r.scheduler.schedule 20).2 = [0, 1] ∧
      (r.scheduler.schedule 20).1.Uniform (r.scheduler.schedule 20).2 := by
  have run : Transition.Run SchedulerStep (idleRun 2 2) _ (admitWarm (admitWarm (idleRun 2 2) 1) 1) :=
    .snoc _ _ _ _ (.snoc _ _ _ _ .nil (admit_warm_step _ 1 rfl)) (admit_warm_step _ 1 rfl)
  have step := SchedulerStep.schedule (admitWarm (admitWarm (idleRun 2 2) 1) 1) 20 (by change (0 : ℚ) ≤ 20; norm_num)
  have shared : ∀ ref ∈ (admitWarm (admitWarm (idleRun 2 2) 1) 1).scheduler.pool,
      (admitWarm (admitWarm (idleRun 2 2) 1) 1).scheduler.sharedOf ref = (warmParams 1).shared := by
    decide +kernel
  refine ⟨_, ⟨_, _, ⟨_, _, rfl⟩, run⟩, by decide +kernel, ?_⟩
  refine (parameter_isolation writtenTorch 9 2 2 _ _ _ ⟨_, _, rfl⟩ (.snoc _ _ _ _ run step) ?_ _ 20
    (List.mem_append_right _ List.mem_cons_self)).1
  intro before time member
  rcases List.mem_append.mp member with early | last
  · simp at early
  · obtain ⟨rfl, _⟩ := Prod.mk.inj (List.mem_singleton.mp last)
    right
    intro a memberA b memberB _
    rw [shared a memberA, shared b memberB]

-- Two requests of one shape and different temperatures meet in one batch.
theorem parameter_isolation_mixed : ∃ r : SchedulerRun,
    Transition.Reachable (InitialRun 2 2) SchedulerStep r ∧
      initState .ample (onePrompt 1) (warmParams 0) 9 = .ok (warmStart 0) ∧
      initState .ample (onePrompt 1) (warmParams 1) 9 = .ok (warmStart 1) ∧
      (r.scheduler.schedule 20).2 = [0, 1] ∧
      ((r.scheduler.schedule 20).1.objects 0).state.params.temperature = 0 ∧
      ((r.scheduler.schedule 20).1.objects 1).state.params.temperature = 1 ∧
      ¬ (r.scheduler.schedule 20).1.Uniform (r.scheduler.schedule 20).2 := by
  have run : Transition.Run SchedulerStep (idleRun 2 2) _ (admitWarm (admitWarm (idleRun 2 2) 0) 1) :=
    .snoc _ _ _ _ (.snoc _ _ _ _ .nil (admit_warm_step _ 0 rfl)) (admit_warm_step _ 1 rfl)
  have batch : ((admitWarm (admitWarm (idleRun 2 2) 0) 1).scheduler.schedule 20).2 = [0, 1] := by decide +kernel
  refine ⟨_, ⟨_, _, ⟨_, _, rfl⟩, run⟩, warm_start_made 0, warm_start_made 1, batch, by decide +kernel, by decide +kernel, ?_⟩
  intro uniform
  rw [batch] at uniform
  exact absurd (uniform 0 (by decide) 1 (by decide)) (by decide +kernel)

end TwoRequests

end Dlmserve
