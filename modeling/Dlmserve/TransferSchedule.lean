import Dlmserve.ReferenceMatch

set_option autoImplicit false

namespace Dlmserve

theorem transfer_schedule_row (maskCount : List Nat) (steps j n : Nat) (row : List Nat) (schedule : List (List Nat))
    (made : computeTransferSchedule maskCount steps = some schedule) (planned : schedule[j]? = some row)
    (counted : maskCount[j]? = some n) : row = EvenSplit.shares n steps := by
  obtain ⟨-, rfl⟩ := compute_transfer_schedule_some maskCount steps schedule made
  rw [List.getElem?_map, counted] at planned
  exact (Option.some.inj planned).symm

theorem num_transfer_tokens_row (maskIndex : List (List Bool)) (steps j : Nat) (marks : List Bool) (positive : 0 < steps)
    (marked : maskIndex[j]? = some marks) :
    ∃ transfer, getNumTransferTokens maskIndex steps = some transfer ∧
      transfer[j]? = some (EvenSplit.shares (marks.count true) steps) := by
  refine ⟨_, (num_transfer_tokens_counts maskIndex steps).trans (compute_transfer_schedule_eq _ steps positive), ?_⟩
  rw [List.map_map, List.getElem?_map, marked]
  rfl

-- The schedule of a row is the one even split of its mask count, it is the
-- reference's row for every mask with that count, and it is spent by step
-- min(steps, count).
theorem transfer_schedule_even_split (maskCount : List Nat) (steps : Nat) (positive : 1 ≤ steps) :
    ∃ schedule, computeTransferSchedule maskCount steps = some schedule ∧ schedule.length = maskCount.length ∧
      ∀ (j n : Nat) (row : List Nat), schedule[j]? = some row → maskCount[j]? = some n →
        (row.length = steps ∧ row.sum = n ∧ EvenSplit.Even row) ∧
        (∀ other : List Nat, other.length = steps → other.sum = n → EvenSplit.Even other → other = row) ∧
        (∀ (maskIndex : List (List Bool)) (i : Nat) (marks : List Bool), maskIndex[i]? = some marks →
          marks.count true = n →
          ∃ transfer, getNumTransferTokens maskIndex steps = some transfer ∧ transfer[i]? = some row) ∧
        (row.take (min steps n)).sum = n ∧ ∀ k ∈ row.drop (min steps n), k = 0 := by
  refine ⟨_, compute_transfer_schedule_eq maskCount steps positive, List.length_map _, ?_⟩
  intro j n row planned counted
  have same := transfer_schedule_row maskCount steps j n row _ (compute_transfer_schedule_eq maskCount steps positive)
    planned counted
  subst same
  refine ⟨⟨EvenSplit.shares_length n steps, EvenSplit.shares_sum n steps positive, EvenSplit.shares_even n steps⟩,
    ?_, ?_, ?_, ?_⟩
  · intro other length sum even
    exact EvenSplit.shares_unique n steps other positive length sum even
  · intro maskIndex i marks marked count
    subst count
    exact num_transfer_tokens_row maskIndex steps i marks positive marked
  · exact EvenSplit.shares_prefix_sum n steps _ positive (Nat.min_le_left _ _) (Nat.le_refl _)
  · apply List.sum_eq_zero_iff.mp
    exact EvenSplit.shares_rest_zero n steps _ positive (Nat.min_le_left _ _) (Nat.le_refl _)

theorem transfer_schedule_five_in_three :
    computeTransferSchedule [5, 0] 3 = some [[2, 2, 1], [0, 0, 0]] ∧ EvenSplit.Even [2, 2, 1] ∧
      ([2, 2, 1].take (min 3 5)).sum = 5 := by
  have known : computeTransferSchedule [5, 0] 3 = some [[2, 2, 1], [0, 0, 0]] := by decide
  obtain ⟨schedule, made, -, rows⟩ := transfer_schedule_even_split [5, 0] 3 (by decide)
  rw [known] at made
  cases made
  obtain ⟨split, -, -, spent, -⟩ := rows 0 5 [2, 2, 1] rfl rfl
  exact ⟨known, split.2.2, spent⟩

end Dlmserve
