import Dlmserve.Scheduler
import Mathlib.Algebra.Order.Field.Rat
import Mathlib.Tactic.Linarith

set_option autoImplicit false

namespace Dlmserve

namespace Scheduler

section Promote

theorem promote_loop_eq (active pending : List Nat) (room : Nat) :
    promoteLoop active pending room = (active ++ pending.take room, pending.drop room) := by
  induction pending generalizing active room with
  | nil => cases room <;> simp [promoteLoop]
  | cons ref pending ih =>
      cases room with
      | zero => simp [promoteLoop]
      | succ room => rw [promoteLoop, ih]; simp

variable (s : Scheduler)

theorem promote_eq : s.promotePending = { s with
    active := s.active ++ s.pending.take (s.maxBatch * 2 - s.active.length)
    pending := s.pending.drop (s.maxBatch * 2 - s.active.length) } := by
  rw [promotePending, promote_loop_eq]

theorem promote_order : s.promotePending.active ++ s.promotePending.pending = s.active ++ s.pending := by
  rw [promote_eq]
  simp only [List.append_assoc, List.take_append_drop]

theorem promote_active_length (bounded : s.active.length ≤ 2 * s.maxBatch) :
    s.promotePending.active.length ≤ 2 * s.maxBatch := by
  rw [promote_eq]
  simp only [List.length_append, List.length_take]
  omega

end Promote

section Score

variable (s : Scheduler) (now : ℚ)

theorem foldl_wait (reqs : List Nat) (start : ℚ) :
    start ≤ reqs.foldl (fun longest r => max longest (s.wait now r)) start ∧
      (∀ r ∈ reqs, s.wait now r ≤ reqs.foldl (fun longest r => max longest (s.wait now r)) start) ∧
      (reqs.foldl (fun longest r => max longest (s.wait now r)) start = start ∨
        ∃ r ∈ reqs, reqs.foldl (fun longest r => max longest (s.wait now r)) start = s.wait now r) := by
  induction reqs generalizing start with
  | nil => exact ⟨le_refl _, by simp, Or.inl rfl⟩
  | cons ref reqs ih =>
      obtain ⟨carried, others, attained⟩ := ih (max start (s.wait now ref))
      refine ⟨(le_max_left _ _).trans carried, ?_, ?_⟩
      · intro r member
        rcases List.mem_cons.mp member with rfl | later
        · exact (le_max_right _ _).trans carried
        · exact others r later
      · rw [List.foldl_cons]
        rcases attained with same | ⟨r, later, same⟩
        · rcases max_choice start (s.wait now ref) with first | here
          · exact Or.inl (same.trans first)
          · exact Or.inr ⟨ref, List.mem_cons_self, same.trans here⟩
        · exact Or.inr ⟨r, List.mem_cons_of_mem ref later, same⟩

theorem oldest_wait_spec (reqs : List Nat) (nonempty : reqs ≠ []) :
    (∀ r ∈ reqs, s.wait now r ≤ s.oldestWait now reqs) ∧ ∃ r ∈ reqs, s.oldestWait now reqs = s.wait now r := by
  cases reqs with
  | nil => exact absurd rfl nonempty
  | cons ref reqs =>
      obtain ⟨carried, others, attained⟩ := foldl_wait s now reqs (s.wait now ref)
      refine ⟨?_, ?_⟩
      · intro r member
        rcases List.mem_cons.mp member with rfl | later
        · exact carried
        · exact others r later
      · rcases attained with same | ⟨r, later, same⟩
        · exact ⟨ref, List.mem_cons_self, same⟩
        · exact ⟨r, List.mem_cons_of_mem ref later, same⟩

theorem wait_within (ref : Nat) (clock : (s.objects ref).admittedMs ≤ now) :
    Rounding.Within 53 1 (now - (s.objects ref).admittedMs) (s.wait now ref) :=
  Rounding.within_nearest 53 0 _ _ (by linarith) (Rounding.within_exact 53 _)

theorem oldest_wait_nonneg (reqs : List Nat) (nonempty : reqs ≠ [])
    (clock : ∀ r ∈ reqs, (s.objects r).admittedMs ≤ now) : 0 ≤ s.oldestWait now reqs := by
  obtain ⟨r, member, wait⟩ := (oldest_wait_spec s now reqs nonempty).2
  rw [wait]
  exact Rounding.within_nonneg 53 1 _ _ (by linarith [clock r member]) (wait_within s now r (clock r member))

def flushBonus (reqs : List Nat) : ℚ := if flushWaitMs < s.oldestWait now reqs then 1000 else 0

theorem score_within (reqs : List Nat) (waited : 0 ≤ s.oldestWait now reqs) :
    Rounding.Within 53 3 (reqs.length + s.oldestWait now reqs / agingPeriodMs + s.flushBonus now reqs)
      (s.score now reqs) := by
  have size : (0 : ℚ) ≤ reqs.length := Nat.cast_nonneg _
  have age : 0 ≤ s.oldestWait now reqs / agingPeriodMs := div_nonneg waited (by norm_num [agingPeriodMs])
  have sum : Rounding.Within 53 2 (reqs.length + s.oldestWait now reqs / agingPeriodMs)
      (float (float reqs.length + float (s.oldestWait now reqs / agingPeriodMs))) :=
    Rounding.within_nearest 53 1 _ _ (add_nonneg size age) (Rounding.within_add 53 1 _ _ _ _
      (Rounding.within_nearest 53 0 _ _ size (Rounding.within_exact 53 _))
      (Rounding.within_nearest 53 0 _ _ age (Rounding.within_exact 53 _)))
  rw [score, flushBonus]
  split
  · have thousand := Rounding.within_more 53 0 2 1000 1000 (by norm_num) (by norm_num) (Rounding.within_exact 53 1000)
    exact Rounding.within_nearest 53 2 _ _ (add_nonneg (add_nonneg size age) (by norm_num))
      (Rounding.within_add 53 2 _ _ _ _ sum thousand)
  · rw [add_zero]
    exact Rounding.within_more 53 2 3 _ _ (add_nonneg size age) (by norm_num) sum

theorem flush_bonus_nonneg (reqs : List Nat) : 0 ≤ s.flushBonus now reqs := by
  rw [flushBonus]
  split <;> norm_num

theorem score_positive (reqs : List Nat) (nonempty : reqs ≠ [])
    (clock : ∀ r ∈ reqs, (s.objects r).admittedMs ≤ now) : (-1 : ℚ) < s.score now reqs := by
  have waited := oldest_wait_nonneg s now reqs nonempty clock
  have aged : 0 ≤ s.oldestWait now reqs / agingPeriodMs := div_nonneg waited (by norm_num [agingPeriodMs])
  have sized : (0 : ℚ) ≤ (reqs.length : ℚ) := Nat.cast_nonneg _
  have scored := Rounding.within_nonneg 53 3 _ _ (by linarith [flush_bonus_nonneg s now reqs])
    (score_within s now reqs waited)
  linarith

end Score

section Schedule

variable (s : Scheduler) (now : ℚ)

theorem mem_groups (key : GroupKey) (reqs : List Nat) :
    (key, reqs) ∈ s.groups ↔ reqs = s.active.filter (fun ref => (s.objects ref).groupKey = key) ∧ reqs ≠ [] :=
  Groups.mem_group_by _ _ _ _

theorem lookup_group (groups : List (GroupKey × List Nat)) (distinct : (groups.map Prod.fst).Nodup) (key : GroupKey)
    (reqs : List Nat) (member : (key, reqs) ∈ groups) : groups.lookup key = some reqs := by
  induction groups with
  | nil => cases member
  | cons entry rest ih =>
      rw [List.map_cons, List.nodup_cons] at distinct
      rw [List.lookup_cons]
      rcases List.mem_cons.mp member with rfl | later
      · simp
      · have different : key ≠ entry.1 := fun same => distinct.1 (List.mem_map.mpr ⟨_, later, same⟩)
        rw [beq_eq_false_iff_ne.mpr different]
        exact ih distinct.2 later

-- With work at hand schedule returns the first max_batch members of a group that
-- no other group outscores.
structure Chosen (pool : Scheduler) (batch : List Nat) (key : GroupKey) (reqs : List Nat) : Prop where
  group : reqs = pool.active.filter (fun ref => (pool.objects ref).groupKey = key)
  nonempty : reqs ≠ []
  batch_eq : batch = reqs.take pool.maxBatch
  best : ∀ other, pool.active.filter (fun ref => (pool.objects ref).groupKey = other) ≠ [] →
    pool.score now (pool.active.filter (fun ref => (pool.objects ref).groupKey = other)) ≤ pool.score now reqs

theorem schedule_idle (idle : s.promotePending.active = []) : s.schedule now = (s.promotePending, []) := by
  rw [schedule]
  exact if_pos idle

theorem schedule_chosen (work : s.promotePending.active ≠ [])
    (clock : ∀ r ∈ s.promotePending.active, (s.objects r).admittedMs ≤ now) :
    ∃ batch key reqs, s.schedule now = (s.promotePending, batch) ∧ Chosen now s.promotePending batch key reqs := by
  have objects : s.promotePending.objects = s.objects := by rw [promote_eq]
  generalize poolEq : s.promotePending = pool at work clock objects ⊢
  have some_group : pool.groups ≠ [] := by
    obtain ⟨ref, member⟩ := List.exists_mem_of_ne_nil _ work
    have inside : ref ∈ pool.active.filter (fun r => (pool.objects r).groupKey = (pool.objects ref).groupKey) :=
      List.mem_filter.mpr ⟨member, by simp⟩
    exact List.ne_nil_of_mem ((mem_groups pool _ _).mpr ⟨rfl, List.ne_nil_of_mem inside⟩)
  have above : ∀ entry ∈ pool.groups, (-1 : ℚ) < pool.score now entry.2 := by
    rintro ⟨key, reqs⟩ member
    obtain ⟨rfl, nonempty⟩ := (mem_groups pool key reqs).mp member
    apply score_positive pool now _ nonempty
    intro r inside
    rw [objects]
    exact clock r (List.mem_of_mem_filter inside)
  obtain ⟨⟨key, reqs⟩, member, winner, best⟩ := Groups.best_of_winner (pool.score now) (-1) pool.groups some_group above
  obtain ⟨group, nonempty⟩ := (mem_groups pool key reqs).mp member
  refine ⟨reqs.take pool.maxBatch, key, reqs, ?_, group, nonempty, rfl, ?_⟩
  · rw [schedule, poolEq, if_neg work, winner]
    dsimp only
    rw [lookup_group pool.groups (Groups.group_by_nodup _ _) key reqs member]
    rfl
  · intro other occupied
    exact best (other, _) ((mem_groups pool other _).mpr ⟨rfl, occupied⟩)

end Schedule

section Remove

variable (s : Scheduler) (target : Nat)

-- The comparison by fields finds the object itself as long as no two of the
-- compared objects share their id.
theorem list_remove_eq (refs : List Nat) (distinct : refs.Nodup)
    (ids : ∀ ref ∈ refs, (s.objects ref).reqId = (s.objects target).reqId → ref = target) :
    s.listRemove target refs =
      if target ∈ refs then .ok (refs.filter (· ≠ target))
      else .error (.valueError "list.remove(x): x not in list") := by
  induction refs with
  | nil => rfl
  | cons ref rest ih =>
      obtain ⟨fresh, distinct⟩ := List.nodup_cons.mp distinct
      by_cases same : ref = target
      · subst same
        have kept : rest.filter (· ≠ ref) = rest := by
          rw [List.filter_eq_self]
          intro other member
          simpa using fun equal : other = ref => fresh (equal ▸ member)
        rw [listRemove, if_pos rfl, if_pos List.mem_cons_self, List.filter_cons_of_neg (by simp), kept]
      · have differs : (s.objects ref).reqId ≠ (s.objects target).reqId :=
          fun equal => same (ids ref List.mem_cons_self equal)
        have rest_eq := ih distinct (fun other member => ids other (List.mem_cons_of_mem ref member))
        have missing : ¬ target = ref := fun equal => same equal.symm
        rw [listRemove, if_neg same, requestEq, if_neg differs, rest_eq]
        by_cases member : target ∈ rest
        · simp [member, missing, same]
          rfl
        · simp [member, missing]
          rfl

theorem complete_eq (distinct : s.active.Nodup)
    (ids : ∀ ref ∈ s.active, (s.objects ref).reqId = (s.objects target).reqId → ref = target) :
    s.complete target = .ok (resolve { s with active := s.active.filter (· ≠ target) } target) := by
  rw [complete, list_remove_eq s target s.active distinct ids]
  by_cases member : target ∈ s.active
  · rw [if_pos member]
  · have kept : s.active.filter (· ≠ target) = s.active := by
      rw [List.filter_eq_self]
      intro other inside
      simpa using fun equal : other = target => member (equal ▸ inside)
    rw [if_neg member, kept]

end Remove

end Scheduler

end Dlmserve
