import Dlmserve.Device
import Dlmserve.SchedulerRun

set_option autoImplicit false

namespace Dlmserve

section Batch

variable (s : Scheduler) (now : ℚ)

structure GoodBatch (pool : Scheduler) (batch : List Nat) (key : GroupKey) : Prop where
  nonempty : batch ≠ []
  fifo : batch.Sublist pool.active
  uniform : ∀ ref ∈ batch, (pool.objects ref).groupKey = key
  size : batch.length =
    min pool.maxBatch (pool.active.filter fun ref => (pool.objects ref).groupKey = key).length
  oldest : ∃ ref ∈ batch, ∀ other ∈ pool.active, (pool.objects other).groupKey = key →
    (pool.objects ref).admittedMs ≤ (pool.objects other).admittedMs

theorem has_work_iff : s.hasWork = true ↔ s.pending ≠ [] ∨ s.active ≠ [] := by
  simp [Scheduler.hasWork]

theorem has_work_order : s.hasWork = false ↔ s.active ++ s.pending = [] := by
  rw [← Bool.not_eq_true, has_work_iff, List.append_eq_nil_iff]
  tauto

theorem promote_some_work (occupied : s.promotePending.active ≠ []) : s.hasWork = true := by
  rw [has_work_iff]
  rw [Scheduler.promote_eq] at occupied
  by_contra idle
  rw [not_or, not_not, not_not] at idle
  exact occupied (by simp [idle.1, idle.2])

theorem promote_work (positive : 1 ≤ s.maxBatch) : s.promotePending.active ≠ [] ↔ s.hasWork = true := by
  refine ⟨promote_some_work s, ?_⟩
  rw [has_work_iff, Scheduler.promote_eq]
  · rintro (waiting | running) empty
    · obtain ⟨first, second⟩ := List.append_eq_nil_iff.mp empty
      rcases List.take_eq_nil_iff.mp second with none | same
      · rw [first] at none
        simp only [List.length_nil, Nat.sub_zero] at none
        omega
      · exact waiting same
    · exact running (List.append_eq_nil_iff.mp empty).1

theorem chosen_good (pool : Scheduler) (batch : List Nat) (key : GroupKey) (reqs : List Nat)
    (queues : Queues pool now) (chosen : Scheduler.Chosen now pool batch key reqs) : GoodBatch pool batch key := by
  obtain ⟨group, nonempty, cut, _⟩ := chosen
  have positive : 1 ≤ pool.maxBatch := by
    have bound := queues.activeBound
    have some_active : pool.active ≠ [] := by
      rintro empty
      rw [group, empty] at nonempty
      exact nonempty rfl
    have length := List.length_pos_of_ne_nil some_active
    omega
  have sublist : batch.Sublist pool.active := by
    rw [cut, group]
    exact (List.take_sublist _ _).trans List.filter_sublist
  obtain ⟨first, rest, shape⟩ := List.exists_cons_of_ne_nil nonempty
  have head : first ∈ batch := by
    obtain ⟨left, count⟩ := Nat.exists_eq_add_of_le' positive
    rw [cut, shape, count, List.take_succ_cons]
    exact List.mem_cons_self
  refine ⟨List.ne_nil_of_mem head, sublist, ?_, ?_, first, head, ?_⟩
  · intro ref member
    rw [cut, group] at member
    simpa using (List.mem_filter.mp (List.mem_of_mem_take member)).2
  · rw [cut, List.length_take, group]
  · intro other inside same
    have member : other ∈ reqs := by
      rw [group]
      exact List.mem_filter.mpr ⟨inside, by simpa using same⟩
    have sorted : reqs.Pairwise (· < ·) := by
      rw [group]
      exact (List.pairwise_append.mp queues.order).1.sublist List.filter_sublist
    have alive := queues.alive other (List.mem_append_left _ inside)
    rw [shape] at member sorted
    rcases List.mem_cons.mp member with rfl | later
    · exact le_refl _
    · exact queues.aged first other (Nat.le_of_lt (List.rel_of_pairwise_cons sorted later)) alive

theorem schedule_cases (time : ℚ) (later : now ≤ time) (queues : Queues s now) :
    ((1 ≤ s.maxBatch → s.hasWork = false) ∧ s.schedule time = (s.promotePending, [])) ∨
      ∃ batch key reqs, s.hasWork = true ∧ s.schedule time = (s.promotePending, batch) ∧
        Scheduler.Chosen time s.promotePending batch key reqs ∧ GoodBatch s.promotePending batch key := by
  have pool := promote_valid s now time later queues
  by_cases occupied : s.promotePending.active = []
  · refine Or.inl ⟨fun positive => ?_, Scheduler.schedule_idle s time occupied⟩
    cases busy : s.hasWork with
    | false => rfl
    | true => exact absurd occupied ((promote_work s positive).mpr busy)
  · have objects : s.promotePending.objects = s.objects := by rw [Scheduler.promote_eq]
    obtain ⟨batch, key, reqs, made, chosen⟩ := Scheduler.schedule_chosen s time occupied fun r member => by
      rw [← objects]
      exact pool.clock r (pool.alive r (List.mem_append_left _ member))
    exact Or.inr ⟨batch, key, reqs, promote_some_work s occupied, made, chosen,
      chosen_good time s.promotePending batch key reqs pool chosen⟩

theorem schedule_member (time : ℚ) (later : now ≤ time) (queues : Queues s now) (ref : Nat)
    (member : ref ∈ (s.schedule time).2) : ref ∈ s.promotePending.active := by
  rcases schedule_cases s now time later queues with ⟨_, made⟩ | ⟨batch, key, reqs, _, made, _, good⟩
  · rw [made] at member
    cases member
  · rw [made] at member
    exact good.fifo.subset member

end Batch

-- The run's invariant: the queues list what was admitted and not completed, and
-- nothing that was handed out is waiting again.
structure RunInvariant (maxBatch maxWaiting : Nat) (r : SchedulerRun) : Prop where
  queues : Queues r.scheduler r.now
  maxBatch : r.scheduler.maxBatch = maxBatch
  maxWaiting : r.scheduler.maxWaiting = maxWaiting
  holds : ∀ ref, ref ∈ r.scheduler.active ++ r.scheduler.pending ↔ ref < r.scheduler.fresh ∧ ref ∉ r.completed
  handed : ∀ ref ∈ r.handed, ref < r.scheduler.fresh ∧ ref ∉ r.scheduler.pending
  known : ∀ ref ∈ r.completed, ref < r.scheduler.fresh

section Invariant

variable (maxBatch maxWaiting : Nat)

theorem initial_invariant (r : SchedulerRun) (initial : InitialRun maxBatch maxWaiting r) :
    RunInvariant maxBatch maxWaiting r := by
  obtain ⟨unused, now, rfl⟩ := initial
  refine ⟨⟨?_, ?_, ?_, ?_, ?_, ?_, ?_, ?_⟩, rfl, rfl, ?_, ?_, ?_⟩ <;> simp [Scheduler.init]

theorem same_queues_invariant (r : SchedulerRun) (after : Scheduler) (time : ℚ) (later : r.now ≤ time)
    (same : SameQueues r.scheduler after) (invariant : RunInvariant maxBatch maxWaiting r) :
    RunInvariant maxBatch maxWaiting { r with scheduler := after, now := time } := by
  refine ⟨same_queues_valid r.scheduler after r.now time same later invariant.queues, same.maxBatch.trans invariant.maxBatch,
    same.maxWaiting.trans invariant.maxWaiting, ?_, ?_, ?_⟩
  · intro ref
    dsimp only
    rw [same.active, same.pending, same.fresh]
    exact invariant.holds ref
  · intro ref member
    dsimp only
    rw [same.pending, same.fresh]
    exact invariant.handed ref member
  · intro ref member
    dsimp only
    rw [same.fresh]
    exact invariant.known ref member

theorem admit_invariant (r : SchedulerRun) (time : ℚ) (state : DenoiseState) (params : SamplingParams)
    (future : Option Future) (later : r.now ≤ time) (invariant : RunInvariant maxBatch maxWaiting r) :
    RunInvariant maxBatch maxWaiting { r with
      scheduler := (r.scheduler.admitRequest time state params future).1, now := time } := by
  by_cases full : r.scheduler.maxWaiting ≤ r.scheduler.pending.length
  · rw [admit_full r.scheduler time state params future full]
    exact same_queues_invariant maxBatch maxWaiting r r.scheduler time later (same_queues_refl _) invariant
  · rw [admit_room r.scheduler time state params future (by omega)]
    refine ⟨enqueued_valid _ _ _ _ _ r.now later (by omega) invariant.queues, invariant.maxBatch, invariant.maxWaiting, ?_, ?_,
      fun ref member => Nat.lt_succ_of_lt (invariant.known ref member)⟩
    · intro ref
      change ref ∈ r.scheduler.active ++ (r.scheduler.pending ++ [r.scheduler.fresh]) ↔
        ref < r.scheduler.fresh + 1 ∧ ref ∉ r.completed
      rw [← List.append_assoc, List.mem_append, List.mem_singleton, invariant.holds ref]
      constructor
      · rintro (⟨old, kept⟩ | rfl)
        · exact ⟨by omega, kept⟩
        · exact ⟨by omega, fun member => Nat.lt_irrefl _ (invariant.known _ member)⟩
      · rintro ⟨inside, kept⟩
        by_cases new : ref = r.scheduler.fresh
        · exact Or.inr new
        · exact Or.inl ⟨by omega, kept⟩
    · intro ref member
      obtain ⟨old, absent⟩ := invariant.handed ref member
      refine ⟨Nat.lt_succ_of_lt old, ?_⟩
      change ref ∉ r.scheduler.pending ++ [r.scheduler.fresh]
      rw [List.mem_append, List.mem_singleton, not_or]
      exact ⟨absent, Nat.ne_of_lt old⟩

theorem schedule_invariant (r : SchedulerRun) (time : ℚ) (later : r.now ≤ time)
    (invariant : RunInvariant maxBatch maxWaiting r) :
    RunInvariant maxBatch maxWaiting { r with
      scheduler := (r.scheduler.schedule time).1, now := time, handed := r.handed ++ (r.scheduler.schedule time).2 } := by
  have pool := promote_valid r.scheduler r.now time later invariant.queues
  have inside := schedule_member r.scheduler r.now time later invariant.queues
  have order := Scheduler.promote_order r.scheduler
  have fresh : r.scheduler.promotePending.fresh = r.scheduler.fresh := by rw [Scheduler.promote_eq]
  rw [schedule_pool]
  refine ⟨pool, ?_, ?_, ?_, ?_, fun ref member => fresh ▸ invariant.known ref member⟩
  · rw [Scheduler.promote_eq]
    exact invariant.maxBatch
  · rw [Scheduler.promote_eq]
    exact invariant.maxWaiting
  · intro ref
    dsimp only
    rw [order, fresh]
    exact invariant.holds ref
  · intro ref member
    dsimp only at member ⊢
    rw [fresh]
    rcases List.mem_append.mp member with old | new
    · obtain ⟨bound, absent⟩ := invariant.handed ref old
      refine ⟨bound, fun waiting => absent ?_⟩
      rw [Scheduler.promote_eq] at waiting
      exact List.mem_of_mem_drop waiting
    · have running := inside ref new
      refine ⟨fresh ▸ pool.alive ref (List.mem_append_left _ running), fun waiting => ?_⟩
      exact absurd ((List.pairwise_append.mp pool.order).2.2 ref running ref waiting) (Nat.lt_irrefl ref)

theorem complete_invariant (r : SchedulerRun) (time : ℚ) (ref : Nat) (after : Scheduler) (later : r.now ≤ time)
    (member : ref ∈ r.handed) (removed : r.scheduler.complete ref = .ok after)
    (invariant : RunInvariant maxBatch maxWaiting r) :
    RunInvariant maxBatch maxWaiting { r with scheduler := after, now := time, completed := ref :: r.completed } := by
  obtain ⟨alive, absent⟩ := invariant.handed ref member
  have valid := complete_valid r.scheduler after r.now time later invariant.queues ref alive removed
  rw [complete_valid_eq r.scheduler r.now invariant.queues ref alive] at removed
  obtain rfl := Except.ok.inj removed
  have same := Scheduler.resolve_queues { r.scheduler with active := r.scheduler.active.filter (· ≠ ref) } ref
  refine ⟨valid, same.maxBatch.trans invariant.maxBatch, same.maxWaiting.trans invariant.maxWaiting, ?_, ?_, ?_⟩
  · intro other
    have before := invariant.holds other
    dsimp only
    rw [same.active, same.pending, same.fresh, List.mem_cons, not_or]
    rw [List.mem_append] at before ⊢
    simp only [List.mem_filter, ne_eq, decide_not, Bool.not_eq_eq_eq_not, Bool.not_true, decide_eq_false_iff_not]
    constructor
    · rintro (⟨inside, different⟩ | waiting)
      · obtain ⟨bound, kept⟩ := before.mp (Or.inl inside)
        exact ⟨bound, different, kept⟩
      · obtain ⟨bound, kept⟩ := before.mp (Or.inr waiting)
        exact ⟨bound, fun equal => absent (equal ▸ waiting), kept⟩
    · rintro ⟨bound, different, kept⟩
      rcases before.mpr ⟨bound, kept⟩ with inside | waiting
      · exact Or.inl ⟨inside, different⟩
      · exact Or.inr waiting
  · intro other handed
    dsimp only
    rw [same.pending, same.fresh]
    exact invariant.handed other handed
  · intro other completed
    dsimp only
    rw [same.fresh]
    rcases List.mem_cons.mp completed with rfl | earlier
    · exact alive
    · exact invariant.known other earlier

theorem step_invariant (r r' : SchedulerRun) (a : ℚ × SchedulerAction)
    (invariant : RunInvariant maxBatch maxWaiting r) (step : SchedulerStep r a r') :
    RunInvariant maxBatch maxWaiting r' := by
  cases step with
  | admitRequest time state params future later =>
      exact admit_invariant maxBatch maxWaiting r time state params future later invariant
  | schedule time later => exact schedule_invariant maxBatch maxWaiting r time later invariant
  | step time ref state later member =>
      exact same_queues_invariant maxBatch maxWaiting r _ time later (Scheduler.set_state_queues _ ref state) invariant
  | complete time ref after later member removed =>
      exact complete_invariant maxBatch maxWaiting r time ref after later member removed invariant

theorem reachable_run_invariant (r : SchedulerRun)
    (reach : Transition.Reachable (InitialRun maxBatch maxWaiting) SchedulerStep r) :
    RunInvariant maxBatch maxWaiting r :=
  Transition.reachable_invariant _ (RunInvariant maxBatch maxWaiting) r reach
    (fun r initial => initial_invariant maxBatch maxWaiting r initial)
    (fun r a r' invariant step => step_invariant maxBatch maxWaiting r r' a invariant step)

end Invariant

-- The scheduler's representation over every run of its callers.
theorem scheduler_representation (maxBatch maxWaiting : Nat) (positive : 1 ≤ maxBatch) (r : SchedulerRun)
    (reach : Transition.Reachable (InitialRun maxBatch maxWaiting) SchedulerStep r) :
    r.scheduler.pending.length ≤ maxWaiting ∧ r.scheduler.active.length ≤ 2 * maxBatch ∧
    ((r.scheduler.active ++ r.scheduler.pending).map fun ref => (r.scheduler.objects ref).reqId).Pairwise (· < ·) ∧
    (∀ ref, ref ∈ r.scheduler.active ++ r.scheduler.pending ↔ ref < r.scheduler.fresh ∧ ref ∉ r.completed) ∧
    (∀ time state params future, (r.scheduler.admitRequest time state params future).2 = none →
      (r.scheduler.admitRequest time state params future).1 = r.scheduler) ∧
    (∀ ref ∈ r.handed, ∃ after, r.scheduler.complete ref = .ok after ∧
      after.active = r.scheduler.active.filter (· ≠ ref) ∧ after.pending = r.scheduler.pending) ∧
    ∀ time, r.now ≤ time →
      ((r.scheduler.schedule time).2 ≠ [] ↔ r.scheduler.hasWork = true) ∧
      (r.scheduler.schedule time).2.Nodup ∧
      (r.scheduler.schedule time).2.Sublist (r.scheduler.schedule time).1.active ∧
      ((r.scheduler.schedule time).2 ≠ [] → ∃ key,
        GoodBatch (r.scheduler.schedule time).1 (r.scheduler.schedule time).2 key) := by
  have invariant := reachable_run_invariant maxBatch maxWaiting r reach
  have queues := invariant.queues
  refine ⟨?_, ?_, ?_, invariant.holds, ?_, ?_, ?_⟩
  · rw [← invariant.maxWaiting]
    exact queues.pendingBound
  · rw [← invariant.maxBatch]
    exact queues.activeBound
  · rw [List.pairwise_map]
    refine queues.order.imp_of_mem ?_
    intro a b memberA memberB less
    rwa [queues.ids a (queues.alive a memberA), queues.ids b (queues.alive b memberB)]
  · intro time state params future rejected
    by_cases full : r.scheduler.maxWaiting ≤ r.scheduler.pending.length
    · rw [admit_full r.scheduler time state params future full]
    · rw [admit_room r.scheduler time state params future (by omega)] at rejected
      cases rejected
  · intro ref member
    have same := Scheduler.resolve_queues { r.scheduler with active := r.scheduler.active.filter (· ≠ ref) } ref
    exact ⟨_, complete_valid_eq r.scheduler r.now queues ref (invariant.handed ref member).1, same.active, same.pending⟩
  · intro time later
    have pool := promote_valid r.scheduler r.now time later queues
    have batches : 1 ≤ r.scheduler.maxBatch := by rw [invariant.maxBatch]; exact positive
    rcases schedule_cases r.scheduler r.now time later queues with
      ⟨idle, made⟩ | ⟨batch, key, reqs, busy, made, _, good⟩
    · rw [made]
      exact ⟨⟨fun impossible => absurd rfl impossible, fun busy => by rw [idle batches] at busy; cases busy⟩, List.nodup_nil,
        List.nil_sublist _, fun impossible => absurd rfl impossible⟩
    · rw [made]
      exact ⟨⟨fun _ => busy, fun _ => good.nonempty⟩, (active_nodup _ time pool).sublist good.fifo, good.fifo,
        fun _ => ⟨key, good⟩⟩

theorem scheduler_representation_two_requests : ∃ r,
    Transition.Reachable (InitialRun 1 2) SchedulerStep r ∧ r.handed = [0] ∧ r.scheduler.active = [0, 1] ∧
      ∃ after, r.scheduler.complete 0 = .ok after ∧ after.active = [1] := by
  have admitted (t : Token) (r : SchedulerRun) (time : ℚ) (later : r.now ≤ time) :=
    SchedulerStep.admitRequest r time (blockStart true t) (blockParams true) (some .pending) later
  have reach : Transition.Reachable (InitialRun 1 2) SchedulerStep _ :=
    ⟨_, _, ⟨{ reqId := 0, state := blockStart true 0, params := {}, admittedMs := 0 }, 0, rfl⟩,
      .snoc _ _ _ _ (.snoc _ _ _ _ (.snoc _ _ _ _ .nil (admitted 1 _ 0 (le_refl _))) (admitted 2 _ 10 (by norm_num)))
        (.schedule _ 20 (by norm_num))⟩
  have handed := scheduler_representation 1 2 (le_refl 1) _ reach
  refine ⟨_, reach, by decide +kernel, by decide +kernel, ?_⟩
  obtain ⟨after, completed, active, _⟩ := handed.2.2.2.2.2.1 0 (by decide +kernel)
  exact ⟨after, completed, active.trans (by decide +kernel)⟩

end Dlmserve
