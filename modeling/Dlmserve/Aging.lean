import Dlmserve.EngineDevice
import Dlmserve.EngineFollows
import Mathlib.Algebra.BigOperators.Group.Finset.Basic
import Mathlib.Algebra.Order.BigOperators.Group.Finset

set_option autoImplicit false

namespace Dlmserve

section Outbid

variable (s : Scheduler) (now : ℚ)

theorem flush_bonus_mono (reqs others : List Nat) (younger : s.oldestWait now reqs < s.oldestWait now others) :
    s.flushBonus now reqs ≤ s.flushBonus now others ∧ s.flushBonus now others ≤ 1000 := by
  rw [Scheduler.flushBonus, Scheduler.flushBonus]
  by_cases flushed : Scheduler.flushWaitMs < s.oldestWait now others
  · rw [if_pos flushed]
    split <;> norm_num
  · rw [if_neg flushed, if_neg fun both => flushed (both.trans younger)]
    norm_num

-- A group that outscores an older one is larger by the periods it is younger, up to what
-- the floats of the scores lose.
theorem score_gap (reqs others : List Nat) (outscored : s.score now others ≤ s.score now reqs)
    (waited : 0 ≤ s.oldestWait now reqs) (younger : s.oldestWait now reqs < s.oldestWait now others) :
    (1 - 1 / 2 ^ 51) * s.oldestWait now others ≤ (1 + 1 / 2 ^ 51) * s.oldestWait now reqs +
      Scheduler.agingPeriodMs * ((reqs.length : ℚ) - others.length) +
        1 / 2 ^ 51 * (100 * (reqs.length + others.length) + 200000) := by
  have low := (Scheduler.score_within s now others (waited.trans younger.le)).lower
  have high := (Scheduler.score_within s now reqs waited).upper
  obtain ⟨flushed, bounded⟩ := flush_bonus_mono s now reqs others younger
  have flushes := Scheduler.flush_bonus_nonneg s now reqs
  have size : (0 : ℚ) ≤ reqs.length := Nat.cast_nonneg _
  have otherSize : (0 : ℚ) ≤ others.length := Nat.cast_nonneg _
  rw [Scheduler.agingPeriodMs] at low high ⊢
  generalize s.oldestWait now reqs = young at *
  generalize s.oldestWait now others = old at *
  have below : (1 - 1 / 2 ^ 51) * ((others.length : ℚ) + old / 100 + s.flushBonus now others) ≤
      (1 + 1 / 2 ^ 51) * ((reqs.length : ℚ) + young / 100 + s.flushBonus now reqs) := by
    calc (1 - 1 / 2 ^ 51) * ((others.length : ℚ) + old / 100 + s.flushBonus now others)
        ≤ (1 - 1 / 2 ^ 53) ^ 3 * ((others.length : ℚ) + old / 100 + s.flushBonus now others) :=
          mul_le_mul_of_nonneg_right (by norm_num) (by linarith)
      _ ≤ s.score now others := low
      _ ≤ s.score now reqs := outscored
      _ ≤ (1 + 1 / 2 ^ 53) ^ 3 * ((reqs.length : ℚ) + young / 100 + s.flushBonus now reqs) := high
      _ ≤ (1 + 1 / 2 ^ 51) * ((reqs.length : ℚ) + young / 100 + s.flushBonus now reqs) :=
          mul_le_mul_of_nonneg_right (by norm_num) (by linarith)
  linarith

theorem disjoint_groups (key other : GroupKey) (different : key ≠ other) :
    (s.active.filter fun ref => (s.objects ref).groupKey = key).length +
      (s.active.filter fun ref => (s.objects ref).groupKey = other).length ≤ s.active.length := by
  rw [List.length_eq_length_filter_add (l := s.active) fun ref => (s.objects ref).groupKey = key]
  apply Nat.add_le_add_left
  rw [← List.countP_eq_length_filter, ← List.countP_eq_length_filter]
  apply List.countP_mono_left
  intro ref _ same
  have here : (s.objects ref).groupKey = other := by simpa using same
  simpa [here] using fun equal : other = key => different equal.symm

def floatSlack (maxBatch : Nat) (waited : ℚ) : ℚ := (waited + 50 * maxBatch + 50000) / 2 ^ 49

def agingDeadline (ref : Nat) : ℚ :=
  (s.objects ref).admittedMs + Scheduler.agingPeriodMs * (2 * (s.maxBatch : ℚ) - 2) +
    floatSlack s.maxBatch (now - (s.objects ref).admittedMs)

theorem positive_batch (pool : Scheduler) (queues : Queues pool now) (ref : Nat) (running : ref ∈ pool.active) :
    (1 : ℚ) ≤ pool.maxBatch := by
  have bound := queues.activeBound
  have length := List.length_pos_of_mem running
  exact_mod_cast (by omega : 1 ≤ pool.maxBatch)

-- A group outbids an older one by its size only, which the pool bounds, and by the slack of
-- the floats.
theorem outbid_deadline (pool : Scheduler) (batch : List Nat) (key : GroupKey) (reqs : List Nat) (queues : Queues pool now)
    (chosen : Scheduler.Chosen now pool batch key reqs) (ref : Nat) (running : ref ∈ pool.active) (member : Nat)
    (inside : member ∈ reqs) (oldest : pool.oldestWait now reqs = pool.wait now member) :
    (pool.objects member).admittedMs ≤ agingDeadline pool now ref := by
  obtain ⟨group, nonempty, _, best⟩ := chosen
  have clock (r : Nat) (here : r ∈ pool.active) : (pool.objects r).admittedMs ≤ now :=
    queues.clock r (queues.alive r (List.mem_append_left _ here))
  have mine : ref ∈ pool.active.filter (fun r => (pool.objects r).groupKey = (pool.objects ref).groupKey) :=
    List.mem_filter.mpr ⟨running, by simp⟩
  have outscored := best (pool.objects ref).groupKey (List.ne_nil_of_mem mine)
  have longest := (Scheduler.oldest_wait_spec pool now _ (List.ne_nil_of_mem mine)).1 ref mine
  have waited := (Scheduler.wait_within pool now ref (clock ref running)).lower
  have insidePool : member ∈ pool.active := by
    rw [group] at inside
    exact List.mem_of_mem_filter inside
  have memberWaited := (Scheduler.wait_within pool now member (clock member insidePool)).upper
  have nonneg := Scheduler.oldest_wait_nonneg pool now reqs nonempty fun r here => clock r (by
    rw [group] at here
    exact List.mem_of_mem_filter here)
  have positive := positive_batch now pool queues ref running
  have since := clock ref running
  rw [pow_one] at waited memberWaited
  rw [← oldest] at memberWaited
  by_contra late
  rw [agingDeadline, floatSlack, Scheduler.agingPeriodMs] at late
  by_cases younger : pool.oldestWait now reqs <
      pool.oldestWait now (pool.active.filter fun r => (pool.objects r).groupKey = (pool.objects ref).groupKey)
  · have gap := score_gap pool now reqs _ outscored nonneg younger
    have different : key ≠ (pool.objects ref).groupKey := by
      rintro same
      rw [group, same] at younger
      exact lt_irrefl _ younger
    have disjoint := disjoint_groups pool key (pool.objects ref).groupKey different
    rw [← group] at disjoint
    have occupied := List.length_pos_of_mem mine
    have bound := queues.activeBound
    have total : reqs.length + 2 ≤ 2 * pool.maxBatch + (pool.active.filter fun r =>
        (pool.objects r).groupKey = (pool.objects ref).groupKey).length := by omega
    have both : reqs.length + (pool.active.filter fun r =>
        (pool.objects r).groupKey = (pool.objects ref).groupKey).length ≤ 2 * pool.maxBatch := by omega
    have total : (reqs.length : ℚ) + 2 ≤ 2 * (pool.maxBatch : ℚ) + (pool.active.filter fun r =>
        (pool.objects r).groupKey = (pool.objects ref).groupKey).length := by exact_mod_cast total
    have both : (reqs.length : ℚ) + (pool.active.filter fun r =>
        (pool.objects r).groupKey = (pool.objects ref).groupKey).length ≤ 2 * (pool.maxBatch : ℚ) := by exact_mod_cast both
    rw [Scheduler.agingPeriodMs] at gap
    linarith
  · linarith

-- However many requests came later, the batch holds a request that was admitted
-- before the deadline of any request that waits.
theorem chosen_before_deadline (pool : Scheduler) (batch : List Nat) (key : GroupKey) (reqs : List Nat)
    (queues : Queues pool now) (chosen : Scheduler.Chosen now pool batch key reqs) (good : GoodBatch pool batch key)
    (ref : Nat) (queued : ref ∈ pool.active ++ pool.pending) :
    ∃ oldest ∈ batch, (pool.objects oldest).admittedMs ≤ agingDeadline pool now ref := by
  obtain ⟨oldest, member, first⟩ := good.oldest
  have running := good.fifo.subset member
  refine ⟨oldest, member, ?_⟩
  rcases List.mem_append.mp queued with inside | waiting
  · obtain ⟨r, chosenR, wait⟩ := (Scheduler.oldest_wait_spec pool now reqs chosen.nonempty).2
    have bound := outbid_deadline now pool batch key reqs queues chosen ref inside r chosenR wait
    rw [chosen.group] at chosenR
    exact (first r (List.mem_of_mem_filter chosenR) (by simpa using (List.mem_filter.mp chosenR).2)).trans bound
  · -- The pool is full of requests that were admitted earlier.
    have less := (List.pairwise_append.mp queues.order).2.2 oldest running ref waiting
    have older := queues.aged oldest ref (Nat.le_of_lt less) (queues.alive ref queued)
    have positive := positive_batch now pool queues oldest running
    have since := queues.clock ref (queues.alive ref queued)
    rw [agingDeadline, floatSlack, Scheduler.agingPeriodMs]
    linarith

end Outbid

section Potential

def spent (s : Scheduler) (ref : Nat) : Nat :=
  if ref ∈ s.active ++ s.pending then (s.objects ref).stepIdx else (s.objects ref).params.numDenoisingSteps

def admittedBy (s : Scheduler) (deadline : ℚ) : Finset Nat :=
  (Finset.range s.fresh).filter fun ref => (s.objects ref).admittedMs ≤ deadline

def potential (s : Scheduler) (deadline : ℚ) : Nat := ∑ ref ∈ admittedBy s deadline, spent s ref

-- Every request admitted so far plans as many steps as it asked for.
structure PacedInvariant (tokenizer : Tokenizer) (r : EngineRun) : Prop where
  engine : EngineInvariant tokenizer r.engine r.now
  paced : ∀ ref < r.engine.scheduler.fresh, Paced (r.engine.scheduler.objects ref)

theorem index_below (req : Request) (paced : Paced req) (unfinished : Unfinished req.state) :
    req.stepIdx < req.params.numDenoisingSteps := by
  obtain ⟨shaped, _, running⟩ := unfinished
  have block : req.state.blockIdx + 1 ≤ req.state.genLength / req.state.blockLength := by
    by_contra late
    rw [(done_iff req.state).mpr (by omega)] at running
    cases running
  have bound := shaped.stepBound
  have product := Nat.mul_le_mul_right req.state.stepsPerBlock block
  rw [paced, Request.stepIdx, stepIdx]
  rw [Nat.add_mul, Nat.one_mul] at product
  omega

theorem spent_le (tokenizer : Tokenizer) (r : EngineRun) (invariant : PacedInvariant tokenizer r) (ref : Nat)
    (alive : ref < r.engine.scheduler.fresh) :
    spent r.engine.scheduler ref ≤ (r.engine.scheduler.objects ref).params.numDenoisingSteps := by
  rw [spent]
  split
  · rename_i queued
    exact Nat.le_of_lt (index_below _ (invariant.paced ref alive) (invariant.engine.running ref queued))
  · exact le_refl _

theorem follows_paced (s s' : Scheduler) (follows : Follows s s') (paced : ∀ ref < s.fresh, Paced (s.objects ref)) :
    ∀ ref < s'.fresh, Paced (s'.objects ref) := by
  intro ref alive
  by_cases old : ref < s.fresh
  · have same := follows.same ref old
    rw [Paced, follows.params ref old, same.genLength, same.blockLength, same.stepsPerBlock]
    exact paced ref old
  · exact follows.opened ref (Nat.le_of_not_lt old) alive

theorem spent_mono (s s' : Scheduler) (follows : Follows s s') (ref : Nat) (alive : ref < s.fresh)
    (below : ref ∈ s.active ++ s.pending → (s.objects ref).stepIdx ≤ (s.objects ref).params.numDenoisingSteps) :
    spent s ref ≤ spent s' ref := by
  rw [spent, spent]
  by_cases after : ref ∈ s'.active ++ s'.pending
  · rw [if_pos after, if_pos (follows.queued ref alive after)]
    exact follows.index ref alive
  · rw [if_neg after, follows.params ref alive]
    split
    · rename_i before
      exact below before
    · exact le_refl _

theorem admitted_by_mono (s s' : Scheduler) (follows : Follows s s') (deadline : ℚ) :
    admittedBy s deadline ⊆ admittedBy s' deadline := by
  intro ref member
  obtain ⟨alive, early⟩ := Finset.mem_filter.mp member
  rw [Finset.mem_range] at alive
  refine Finset.mem_filter.mpr ⟨Finset.mem_range.mpr (Nat.lt_of_lt_of_le alive follows.fresh), ?_⟩
  rw [follows.admittedMs ref alive]
  exact early

theorem potential_mono (tokenizer : Tokenizer) (r : EngineRun) (invariant : PacedInvariant tokenizer r) (s' : Scheduler)
    (follows : Follows r.engine.scheduler s') (deadline : ℚ) :
    potential r.engine.scheduler deadline ≤ potential s' deadline := by
  calc potential r.engine.scheduler deadline
      ≤ ∑ ref ∈ admittedBy r.engine.scheduler deadline, spent s' ref := by
        apply Finset.sum_le_sum
        intro ref member
        have alive := Finset.mem_range.mp (Finset.mem_filter.mp member).1
        exact spent_mono _ s' follows ref alive fun queued =>
          Nat.le_of_lt (index_below _ (invariant.paced ref alive) (invariant.engine.running ref queued))
    _ ≤ potential s' deadline :=
        Finset.sum_le_sum_of_subset (admitted_by_mono r.engine.scheduler s' follows deadline)

theorem potential_increases (tokenizer : Tokenizer) (r : EngineRun) (invariant : PacedInvariant tokenizer r)
    (s' : Scheduler) (follows : Follows r.engine.scheduler s') (deadline : ℚ) (ref : Nat)
    (queued : ref ∈ r.engine.scheduler.active ++ r.engine.scheduler.pending)
    (early : (r.engine.scheduler.objects ref).admittedMs ≤ deadline)
    (moved : ref ∈ s'.active ++ s'.pending → (r.engine.scheduler.objects ref).stepIdx < (s'.objects ref).stepIdx) :
    potential r.engine.scheduler deadline < potential s' deadline := by
  have alive := invariant.engine.queues.alive ref queued
  have member : ref ∈ admittedBy r.engine.scheduler deadline :=
    Finset.mem_filter.mpr ⟨Finset.mem_range.mpr alive, early⟩
  have below (other : Nat) (bound : other < r.engine.scheduler.fresh)
      (inside : other ∈ r.engine.scheduler.active ++ r.engine.scheduler.pending) :=
    index_below _ (invariant.paced other bound) (invariant.engine.running other inside)
  have raised : spent r.engine.scheduler ref < spent s' ref := by
    rw [spent, if_pos queued, spent]
    split
    · rename_i after
      exact moved after
    · rw [follows.params ref alive]
      exact below ref alive queued
  calc potential r.engine.scheduler deadline
      < ∑ other ∈ admittedBy r.engine.scheduler deadline, spent s' other := by
        apply Finset.sum_lt_sum
        · intro other inside
          have bound := Finset.mem_range.mp (Finset.mem_filter.mp inside).1
          exact spent_mono _ s' follows other bound fun present => Nat.le_of_lt (below other bound present)
        · exact ⟨ref, member, raised⟩
    _ ≤ potential s' deadline :=
        Finset.sum_le_sum_of_subset (admitted_by_mono r.engine.scheduler s' follows deadline)

end Potential

section Bound

variable {V : Type} (torch : Torch V) (loaded : LoadedModel V)

theorem batch_chosen (e : Engine) (now time : ℚ) (later : now ≤ time) (invariant : EngineInvariant loaded.tokenizer e now)
    (nonempty : e.batch time ≠ []) : ∃ key reqs, Scheduler.Chosen time e.scheduler.promotePending (e.batch time) key reqs ∧
      GoodBatch e.scheduler.promotePending (e.batch time) key := by
  rw [Engine.batch] at nonempty ⊢
  split at nonempty
  · rename_i running
    rw [if_pos running]
    rcases schedule_cases e.scheduler now time later invariant.queues with ⟨_, made⟩ | ⟨batch, key, reqs, _, made, chosen, good⟩
    · rw [made] at nonempty
      exact absurd rfl nonempty
    · rw [made]
      exact ⟨key, reqs, chosen, good⟩
  · exact absurd rfl nonempty

-- A round that steps a batch while the given request is still queued.
def roundWhile (ref : Nat) (r : EngineRun) (a : ℚ × EngineAction V) : Bool :=
  match a.2 with
  | .iterate _ _ =>
      decide (r.engine.batch a.1 ≠ [] ∧ ref ∈ r.engine.scheduler.active ++ r.engine.scheduler.pending)
  | _ => false

-- The deadline of a request never moves, as long as it is known.
structure Due (horizon : ℚ) (ref : Nat) (deadline : ℚ) (r : EngineRun) : Prop where
  invariant : PacedInvariant loaded.tokenizer r
  alive : ref < r.engine.scheduler.fresh
  deadline_eq : agingDeadline r.engine.scheduler horizon ref = deadline

theorem paced_step (decodes : Decodes loaded.tokenizer) (r r' : EngineRun) (a : ℚ × EngineAction V)
    (invariant : PacedInvariant loaded.tokenizer r) (step : EngineStep torch loaded r a r') :
    PacedInvariant loaded.tokenizer r' ∧ Follows r.engine.scheduler r'.engine.scheduler := by
  have engine := act_invariant torch loaded decodes r r' a invariant.engine step
  obtain ⟨later, rfl⟩ := step
  have follows := act_follows torch loaded r.engine r.now a.1 a.2 later decodes invariant.engine
  exact ⟨⟨engine, follows_paced _ _ follows invariant.paced⟩, follows⟩

theorem due_step (decodes : Decodes loaded.tokenizer) (horizon : ℚ) (ref : Nat) (deadline : ℚ) (r r' : EngineRun)
    (a : ℚ × EngineAction V) (due : Due loaded horizon ref deadline r) (step : EngineStep torch loaded r a r') :
    Due loaded horizon ref deadline r' := by
  obtain ⟨invariant, follows⟩ := paced_step torch loaded decodes r r' a due.invariant step
  refine ⟨invariant, Nat.lt_of_lt_of_le due.alive follows.fresh, ?_⟩
  rw [agingDeadline, follows.maxBatch, follows.admittedMs ref due.alive]
  exact due.deadline_eq

theorem aging_deadline_mono (s : Scheduler) (ref : Nat) (now later : ℚ) (passed : now ≤ later) :
    agingDeadline s now ref ≤ agingDeadline s later ref := by
  rw [agingDeadline, agingDeadline, floatSlack, floatSlack]
  linarith

theorem round_pays (decodes : Decodes loaded.tokenizer) (horizon : ℚ) (ref : Nat) (deadline : ℚ) (r r' : EngineRun)
    (a : ℚ × EngineAction V) (due : Due loaded horizon ref deadline r) (step : EngineStep torch loaded r a r')
    (within : a.1 ≤ horizon) (round : roundWhile ref r a = true) :
    potential r.engine.scheduler deadline < potential r'.engine.scheduler deadline := by
  obtain ⟨_, follows⟩ := paced_step torch loaded decodes r r' a due.invariant step
  obtain ⟨later, rfl⟩ := step
  obtain ⟨time, action⟩ := a
  have engine := due.invariant.engine
  cases action with
  | submit full promptIds params => cases round
  | cancel other => cases round
  | shutdown => cases round
  | iterate fails draw =>
      obtain ⟨nonempty, queued⟩ := of_decide_eq_true round
      obtain ⟨key, reqs, chosen, good⟩ := batch_chosen loaded r.engine r.now time later engine nonempty
      have pool := promote_valid r.engine.scheduler r.now time later engine.queues
      have waiting : ref ∈ r.engine.scheduler.promotePending.active ++ r.engine.scheduler.promotePending.pending := by
        rw [Scheduler.promote_order]
        exact queued
      obtain ⟨oldest, member, early⟩ := chosen_before_deadline time _ _ key reqs pool chosen good ref waiting
      have batches : r.engine.scheduler.promotePending.maxBatch = r.engine.scheduler.maxBatch := by rw [Scheduler.promote_eq]
      rw [agingDeadline, promote_objects, batches] at early
      have due_by : (r.engine.scheduler.objects oldest).admittedMs ≤ deadline :=
        early.trans ((aging_deadline_mono r.engine.scheduler ref time horizon within).trans (le_of_eq due.deadline_eq))
      apply potential_increases loaded.tokenizer r due.invariant _ follows deadline oldest
        (batch_queued loaded r.engine r.now time later engine oldest member) due_by
      intro after
      have kept := ((iterate_queued torch loaded r.engine r.now time fails draw later decodes engine).2.2.2 oldest).mp after
      exact (request_moved torch loaded r.engine r.now time fails draw oldest later decodes engine).2.2.2.2 member (kept.2 member).1

theorem initial_paced_engine (maxBatch maxWaiting : Nat) (r : EngineRun) (initial : InitialEngine maxBatch maxWaiting r) :
    PacedInvariant loaded.tokenizer r := by
  refine ⟨initial_engine_invariant loaded.tokenizer maxBatch maxWaiting r initial, ?_⟩
  obtain ⟨unused, now, rfl⟩ := initial
  exact fun ref impossible => absurd impossible (Nat.not_lt_zero ref)

theorem reachable_paced (decodes : Decodes loaded.tokenizer) (maxBatch maxWaiting : Nat) (r : EngineRun)
    (reach : Transition.Reachable (InitialEngine maxBatch maxWaiting) (EngineStep torch loaded) r) :
    PacedInvariant loaded.tokenizer r :=
  Transition.reachable_invariant _ (PacedInvariant loaded.tokenizer) r reach
    (initial_paced_engine loaded maxBatch maxWaiting)
    (fun r a r' invariant step => (paced_step torch loaded decodes r r' a invariant step).1)

theorem run_clock (start r : EngineRun) (trace : List (EngineRun × ℚ × EngineAction V))
    (run : Transition.Run (EngineStep torch loaded) start trace r) : ∀ entry ∈ trace, entry.2.1 ≤ r.now := by
  induction run with
  | nil => simp
  | snoc trace s t a _ last ih =>
      obtain ⟨later, rfl⟩ := last
      intro entry member
      rcases List.mem_append.mp member with before | here
      · exact (ih entry before).trans later
      · rw [List.mem_singleton.mp here]

end Bound

-- No stream of later requests keeps an admitted request from its turn: while it is
-- queued, every round that steps a batch is paid for by a request that was admitted
-- before its deadline.
theorem aging_bound {V : Type} (torch : Torch V) (loaded : LoadedModel V) (decodes : Decodes loaded.tokenizer)
    (maxBatch maxWaiting : Nat) (admitted r : EngineRun)
    (reach : Transition.Reachable (InitialEngine maxBatch maxWaiting) (EngineStep torch loaded) admitted) (ref : Nat)
    (alive : ref < admitted.engine.scheduler.fresh) (trace : List (EngineRun × ℚ × EngineAction V))
    (run : Transition.Run (EngineStep torch loaded) admitted trace r) :
    trace.countP (fun entry => roundWhile ref entry.1 entry.2) ≤
      ∑ other ∈ admittedBy r.engine.scheduler (agingDeadline r.engine.scheduler r.now ref),
        (r.engine.scheduler.objects other).params.numDenoisingSteps := by
  have start : Due loaded r.now ref (agingDeadline admitted.engine.scheduler r.now ref) admitted :=
    ⟨reachable_paced torch loaded decodes maxBatch maxWaiting admitted reach, alive, rfl⟩
  have finish := Transition.run_invariant (Due loaded r.now ref _) admitted r trace run start
    (fun s a t due step => due_step torch loaded decodes r.now ref _ s t a due step)
  have rounds := Transition.run_budget (Due loaded r.now ref (agingDeadline admitted.engine.scheduler r.now ref))
    (fun s => potential s.engine.scheduler (agingDeadline admitted.engine.scheduler r.now ref))
    (fun s a => roundWhile ref s a && decide (a.1 ≤ r.now)) admitted r trace
    run start (fun s a t due step => due_step torch loaded decodes r.now ref _ s t a due step)
    (fun s a t due step =>
      potential_mono loaded.tokenizer s due.invariant t.engine.scheduler
        (paced_step torch loaded decodes s t a due.invariant step).2 _)
    (fun s a t due step round => by
      obtain ⟨counted, within⟩ := Bool.and_eq_true_iff.mp round
      exact round_pays torch loaded decodes r.now ref _ s t a due step (of_decide_eq_true within) counted)
  have all : trace.countP (fun entry => roundWhile ref entry.1 entry.2) =
      trace.countP (fun entry => roundWhile ref entry.1 entry.2 && decide (entry.2.1 ≤ r.now)) := by
    apply List.countP_congr
    intro entry member
    rw [decide_eq_true (run_clock torch loaded admitted r trace run entry member), Bool.and_true]
  rw [finish.deadline_eq, all]
  calc trace.countP (fun entry => roundWhile ref entry.1 entry.2 && decide (entry.2.1 ≤ r.now))
      ≤ potential r.engine.scheduler (agingDeadline admitted.engine.scheduler r.now ref) := by omega
    _ ≤ _ := by
        apply Finset.sum_le_sum
        intro other member
        exact spent_le loaded.tokenizer r finish.invariant other (Finset.mem_range.mp (Finset.mem_filter.mp member).1)

theorem aging_bound_attained : ∃ admitted trace r,
    Transition.Run (EngineStep writtenTorch (writtenLoaded sameAnswer)) admitted trace r ∧
      trace.countP (fun entry => roundWhile 1 entry.1 entry.2) = 2 ∧
      trace.countP (fun entry => roundWhile 1 entry.1 entry.2) ≤
        ∑ other ∈ admittedBy r.engine.scheduler (agingDeadline r.engine.scheduler r.now 1),
          (r.engine.scheduler.objects other).params.numDenoisingSteps ∧
      ∑ other ∈ admittedBy r.engine.scheduler (agingDeadline r.engine.scheduler r.now 1),
          (r.engine.scheduler.objects other).params.numDenoisingSteps = 2 := by
  have reach := acts_reachable writtenTorch (writtenLoaded sameAnswer) 1 2
    [.submit .ample [1] tokenParams, .submit .ample [1] tokenParams]
  have step (r : EngineRun) : EngineStep writtenTorch (writtenLoaded sameAnswer) r (r.now + 1, .iterate false lowDraw)
      ⟨r.engine.act writtenTorch (writtenLoaded sameAnswer) (r.now + 1) (.iterate false lowDraw), r.now + 1⟩ :=
    ⟨by linarith, rfl⟩
  have run := Transition.Run.snoc _ _ _ _ (.snoc _ _ _ _ .nil (step (actsFrom writtenTorch (writtenLoaded sameAnswer)
    (idleEngine 1 2) [.submit .ample [1] tokenParams, .submit .ample [1] tokenParams]))) (step _)
  exact ⟨_, _, _, run, by decide +kernel, aging_bound writtenTorch (writtenLoaded sameAnswer) written_decodes 1 2 _ _ reach 1
    (by decide +kernel) _ run, by decide +kernel⟩

section Timed

variable {V : Type} (torch : Torch V) (loaded : LoadedModel V)

def timedRun (r : EngineRun) : List (ℚ × EngineAction V) → List (EngineRun × ℚ × EngineAction V) × EngineRun
  | [] => ([], r)
  | a :: rest =>
      let later := timedRun ⟨r.engine.act torch loaded a.1 a.2, a.1⟩ rest
      ((r, a) :: later.1, later.2)

theorem timed_run (r : EngineRun) (actions : List (ℚ × EngineAction V))
    (ordered : (r.now :: actions.map Prod.fst).IsChain (· ≤ ·)) :
    Transition.Run (EngineStep torch loaded) r (timedRun torch loaded r actions).1 (timedRun torch loaded r actions).2 := by
  induction actions generalizing r with
  | nil => exact .nil
  | cons a rest ih =>
      rw [List.map_cons, List.isChain_cons_cons] at ordered
      have first : EngineStep torch loaded r a ⟨r.engine.act torch loaded a.1 a.2, a.1⟩ := ⟨ordered.1, rfl⟩
      exact Transition.run_append _ _ _ [(r, a)] _ (.snoc [] r _ a .nil first) (ih _ ordered.2)

end Timed

-- Three requests of another group, admitted just after the deadline without the slack,
-- have the higher score in floats.
def overtakenRequests : List (ℚ × EngineAction Written) :=
  let admitted := float (33356 / 100)
  let after := admitted + 200 + 1 / 2 ^ 44
  (admitted, .submit .ample [1] tokenParams) ::
    List.replicate 3 (after, .submit .ample [1] { tokenParams with useLocalLeap := true })

def overtakingRounds : List (ℚ × EngineAction Written) := List.replicate 2 (2087 + 1 / 4, .iterate false lowDraw)

example : float (float (33356 / 100) + 200 + 1 / 2 ^ 44) = float (33356 / 100) + 200 + 1 / 2 ^ 44 := by decide +kernel

theorem float_scores_overtake : ∃ admitted trace r,
    Transition.Reachable (InitialEngine 2 4) (EngineStep writtenTorch (writtenLoaded sameAnswer)) admitted ∧
      0 < admitted.engine.scheduler.fresh ∧
      Transition.Run (EngineStep writtenTorch (writtenLoaded sameAnswer)) admitted trace r ∧
      trace.countP (fun entry => roundWhile 0 entry.1 entry.2) = 2 ∧
      ∑ other ∈ admittedBy r.engine.scheduler ((r.engine.scheduler.objects 0).admittedMs +
          Scheduler.agingPeriodMs * (2 * (r.engine.scheduler.maxBatch : ℚ) - 2)),
        (r.engine.scheduler.objects other).params.numDenoisingSteps = 1 := by
  have submitted := timed_run writtenTorch (writtenLoaded sameAnswer) (idleEngine 2 4) overtakenRequests (by decide +kernel)
  have stepped := timed_run writtenTorch (writtenLoaded sameAnswer)
    (timedRun writtenTorch (writtenLoaded sameAnswer) (idleEngine 2 4) overtakenRequests).2 overtakingRounds (by decide +kernel)
  exact ⟨_, _, _, ⟨_, _, idle_engine_initial 2 4, submitted⟩, by decide +kernel, stepped, by decide +kernel, by decide +kernel⟩

end Dlmserve
