import Mathlib.Data.Finset.Card
import Mathlib.Data.List.Sort
import Mathlib.Order.Interval.Finset.Nat

set_option autoImplicit false

namespace TopK

variable {α : Type*} [LinearOrder α]

-- A choice of k of the first n indices whose values no unchosen index exceeds.
-- Nothing is said about the order of equal values: any tie rule satisfies it.
structure IsTopK (value : Nat → α) (n k : Nat) (chosen : List Nat) : Prop where
  nodup : chosen.Nodup
  size : chosen.length = k
  inRange : ∀ i ∈ chosen, i < n
  top : ∀ i ∈ chosen, ∀ j < n, j ∉ chosen → value j ≤ value i

structure TiesLow (value : Nat → α) (n k : Nat) (chosen : List Nat) : Prop extends
    IsTopK value n k chosen where
  low : ∀ i ∈ chosen, ∀ j < n, j ∉ chosen → value j = value i → i < j

theorem peak_chosen (value : Nat → α) (n k : Nat) (chosen : List Nat) (top : IsTopK value n k chosen) (positive : 0 < k)
    (c : Nat) (inRange : c < n) (peak : ∀ i < n, i ≠ c → value i < value c) : c ∈ chosen := by
  by_contra absent
  obtain ⟨i, member⟩ := List.exists_mem_of_length_pos (by rw [top.size]; exact positive : 0 < chosen.length)
  have below := top.top i member c inRange absent
  exact absurd (peak i (top.inRange i member) fun same => absent (same ▸ member)) (not_lt.mpr below)

structure Dominates (value : Nat → α) (n : Nat) (eligible : Finset Nat) : Prop where
  inRange : ∀ i ∈ eligible, i < n
  above : ∀ i ∈ eligible, ∀ j < n, j ∉ eligible → value j < value i

theorem chosen_card (value : Nat → α) (n k : Nat) (chosen : List Nat) (top : IsTopK value n k chosen) :
    chosen.toFinset.card = k := by
  rw [List.toFinset_card_of_nodup top.nodup, top.size]

theorem chosen_eligible (value : Nat → α) (n k : Nat) (chosen : List Nat) (eligible : Finset Nat)
    (top : IsTopK value n k chosen) (dominant : Dominates value n eligible) (enough : k ≤ eligible.card) :
    ∀ i ∈ chosen, i ∈ eligible := by
  intro i chosenI
  by_contra outside
  have covered : eligible ⊆ chosen.toFinset.erase i := by
    intro j eligibleJ
    rw [Finset.mem_erase, List.mem_toFinset]
    refine ⟨fun same => outside (same ▸ eligibleJ), ?_⟩
    by_contra absent
    have above := dominant.above j eligibleJ i (top.inRange i chosenI) outside
    exact absurd (top.top i chosenI j (dominant.inRange j eligibleJ) absent) (not_le_of_gt above)
  have bound := Finset.card_le_card covered
  rw [Finset.card_erase_of_mem (List.mem_toFinset.mpr chosenI), chosen_card value n k chosen top] at bound
  have positive : 0 < k := by
    rw [← top.size]
    exact List.length_pos_of_mem chosenI
  omega

theorem eligible_chosen (value : Nat → α) (n k : Nat) (chosen : List Nat) (eligible : Finset Nat)
    (top : IsTopK value n k chosen) (dominant : Dominates value n eligible) (few : eligible.card ≤ k) :
    ∀ i ∈ eligible, i ∈ chosen := by
  intro j eligibleJ
  by_contra absent
  have inside : chosen.toFinset ⊆ eligible.erase j := by
    intro i chosenI
    rw [List.mem_toFinset] at chosenI
    rw [Finset.mem_erase]
    refine ⟨fun same => absent (same ▸ chosenI), ?_⟩
    by_contra outside
    have above := dominant.above j eligibleJ i (top.inRange i chosenI) outside
    exact absurd (top.top i chosenI j (dominant.inRange j eligibleJ) absent) (not_le_of_gt above)
  have bound := Finset.card_le_card inside
  rw [Finset.card_erase_of_mem eligibleJ, chosen_card value n k chosen top] at bound
  have positive : 0 < eligible.card := Finset.card_pos.mpr ⟨j, eligibleJ⟩
  omega

theorem chosen_eligible_card (value : Nat → α) (n k : Nat) (chosen : List Nat) (eligible : Finset Nat)
    (top : IsTopK value n k chosen) (dominant : Dominates value n eligible) :
    (eligible.filter (· ∈ chosen)).card = min k eligible.card := by
  by_cases enough : k ≤ eligible.card
  · have inside := chosen_eligible value n k chosen eligible top dominant enough
    have same : eligible.filter (· ∈ chosen) = chosen.toFinset := by
      ext i
      simp only [Finset.mem_filter, List.mem_toFinset]
      exact ⟨fun both => both.2, fun chosenI => ⟨inside i chosenI, chosenI⟩⟩
    rw [same, chosen_card value n k chosen top, min_eq_left enough]
  · have few : eligible.card ≤ k := by omega
    have all := eligible_chosen value n k chosen eligible top dominant few
    rw [Finset.filter_true_of_mem all, min_eq_right few]

-- With ties going to the lower index the choice is unique: an index is chosen
-- exactly when fewer than k indices are ahead of it.
def Ahead (value : Nat → α) (i j : Nat) : Prop := value i < value j ∨ (value i = value j ∧ j < i)

instance (value : Nat → α) (i : Nat) : DecidablePred (Ahead value i) :=
  fun j => inferInstanceAs (Decidable (value i < value j ∨ (value i = value j ∧ j < i)))

def rank (value : Nat → α) (n i : Nat) : Nat := ((Finset.range n).filter (Ahead value i)).card

theorem ties_low_rank (value : Nat → α) (n k : Nat) (chosen : List Nat) (low : TiesLow value n k chosen)
    (i : Nat) (inRange : i < n) : i ∈ chosen ↔ rank value n i < k := by
  have card := chosen_card value n k chosen low.toIsTopK
  constructor
  · intro chosenI
    have inside : (Finset.range n).filter (Ahead value i) ⊆ chosen.toFinset.erase i := by
      intro j member
      obtain ⟨bound, ahead⟩ := Finset.mem_filter.mp member
      rw [Finset.mem_range] at bound
      rw [Finset.mem_erase, List.mem_toFinset]
      refine ⟨?_, ?_⟩
      · rintro rfl
        rcases ahead with less | ⟨_, less⟩ <;> exact absurd less (lt_irrefl _)
      · by_contra absent
        rcases ahead with less | ⟨equal, before⟩
        · exact absurd (low.top i chosenI j bound absent) (not_le_of_gt less)
        · exact absurd (low.low i chosenI j bound absent equal.symm) (Nat.not_lt_of_gt before)
    have bound := Finset.card_le_card inside
    rw [Finset.card_erase_of_mem (List.mem_toFinset.mpr chosenI), card] at bound
    have positive : 0 < k := by
      rw [← low.size]
      exact List.length_pos_of_mem chosenI
    simp only [rank]
    omega
  · intro less
    by_contra absent
    have inside : chosen.toFinset ⊆ (Finset.range n).filter (Ahead value i) := by
      intro j chosenJ
      rw [List.mem_toFinset] at chosenJ
      rw [Finset.mem_filter, Finset.mem_range]
      refine ⟨low.inRange j chosenJ, ?_⟩
      rcases lt_or_eq_of_le (low.top j chosenJ i inRange absent) with above | equal
      · exact Or.inl above
      · exact Or.inr ⟨equal, low.low j chosenJ i inRange absent equal⟩
    have bound := Finset.card_le_card inside
    rw [card] at bound
    simp only [rank] at less
    omega

def lowest (value : Nat → α) (n k : Nat) : List Nat := (List.range n).filter fun i => rank value n i < k

theorem mem_lowest (value : Nat → α) (n k i : Nat) : i ∈ lowest value n k ↔ i < n ∧ rank value n i < k := by
  rw [lowest, List.mem_filter, List.mem_range, decide_eq_true_eq]

-- A window of a longer row ranks its own indices as the short row does, when
-- everything outside the window lies below the index in question.
theorem rank_window (value wide : Nat → α) (offset n m i : Nat) (fits : offset + n ≤ m)
    (same : ∀ j < n, wide (offset + j) = value j) (inRange : i < n)
    (below : ∀ c < m, c < offset ∨ offset + n ≤ c → wide c < value i) :
    rank wide m (offset + i) = rank value n i := by
  symm
  apply Finset.card_bij (fun j _ => offset + j)
  · intro j member
    obtain ⟨bound, ahead⟩ := Finset.mem_filter.mp member
    rw [Finset.mem_range] at bound
    rw [Finset.mem_filter, Finset.mem_range]
    refine ⟨by omega, ?_⟩
    rcases ahead with less | ⟨equal, before⟩
    · exact Or.inl (by rwa [same i inRange, same j bound])
    · exact Or.inr ⟨by rw [same i inRange, same j bound, equal], by omega⟩
  · intro a _ b _ equal
    omega
  · intro c member
    obtain ⟨bound, ahead⟩ := Finset.mem_filter.mp member
    rw [Finset.mem_range] at bound
    rw [Ahead, same i inRange] at ahead
    have window : offset ≤ c ∧ c < offset + n := by
      by_contra outside
      have less := below c bound (by omega)
      rcases ahead with above | ⟨equal, _⟩
      · exact absurd above (not_lt_of_gt less)
      · exact absurd equal.symm (ne_of_lt less)
    obtain ⟨j, rfl⟩ := Nat.exists_eq_add_of_le window.1
    refine ⟨j, ?_, rfl⟩
    have bounded : j < n := by omega
    rw [same j bounded] at ahead
    rw [Finset.mem_filter, Finset.mem_range]
    refine ⟨bounded, ?_⟩
    rcases ahead with less | ⟨equal, before⟩
    · exact Or.inl less
    · exact Or.inr ⟨equal, by omega⟩

theorem rank_at_least (value : Nat → α) (n i b : Nat) (inRange : i ≤ n) (before : b ≤ i)
    (least : ∀ j < b, value i ≤ value j) : b ≤ rank value n i := by
  have inside : Finset.range b ⊆ (Finset.range n).filter (Ahead value i) := by
    intro j member
    rw [Finset.mem_range] at member
    rw [Finset.mem_filter, Finset.mem_range]
    refine ⟨by omega, ?_⟩
    rcases lt_or_eq_of_le (least j member) with above | equal
    · exact Or.inl above
    · exact Or.inr ⟨equal, by omega⟩
  simpa [rank] using Finset.card_le_card inside

section Selection

variable (before : Nat → Nat → Prop) [DecidableRel before]

def select (n k : Nat) : List Nat := ((List.range n).insertionSort before).take k

variable {before}

theorem select_splits (n k : Nat) (total : ∀ i j, before i j ∨ before j i)
    (trans : ∀ i j l, before i j → before j l → before i l) (i j : Nat)
    (chosen : i ∈ select before n k) (inRange : j < n) (absent : j ∉ select before n k) : before i j := by
  have sorted : ((List.range n).insertionSort before).Pairwise before := by
    have : Std.Total before := ⟨total⟩
    have : IsTrans Nat before := ⟨trans⟩
    exact List.pairwise_insertionSort before (List.range n)
  rw [← List.take_append_drop k ((List.range n).insertionSort before), List.pairwise_append] at sorted
  have member : j ∈ (List.range n).insertionSort before :=
    (List.perm_insertionSort before _).mem_iff.mpr (List.mem_range.mpr inRange)
  rw [← List.take_append_drop k ((List.range n).insertionSort before), List.mem_append] at member
  rcases member with taken | dropped
  · exact absurd taken absent
  · exact sorted.2.2 i chosen j dropped

theorem select_nodup (n k : Nat) : (select before n k).Nodup := by
  have nodup := (List.perm_insertionSort before (List.range n)).nodup_iff.mpr List.nodup_range
  exact nodup.sublist (List.take_sublist k _)

theorem select_length (n k : Nat) (fits : k ≤ n) : (select before n k).length = k := by
  simp [select, List.length_insertionSort, fits]

theorem select_in_range (n k i : Nat) (chosen : i ∈ select before n k) : i < n := by
  have member := (List.perm_insertionSort before (List.range n)).mem_iff.mp (List.mem_of_mem_take chosen)
  exact List.mem_range.mp member

theorem select_is_top_k (value : Nat → α) (n k : Nat) (fits : k ≤ n)
    (total : ∀ i j, before i j ∨ before j i) (trans : ∀ i j l, before i j → before j l → before i l)
    (sound : ∀ i j, before i j → value j ≤ value i) : IsTopK value n k (select before n k) :=
  ⟨select_nodup n k, select_length n k fits, select_in_range n k,
    fun i chosen j inRange absent => sound i j (select_splits n k total trans i j chosen inRange absent)⟩

end Selection

def ranked (tie : Nat → Nat → Prop) (value : Nat → α) (i j : Nat) : Prop :=
  value j < value i ∨ (value j = value i ∧ tie i j)

instance (tie : Nat → Nat → Prop) [DecidableRel tie] (value : Nat → α) : DecidableRel (ranked tie value) :=
  fun i j => inferInstanceAs (Decidable (value j < value i ∨ (value j = value i ∧ tie i j)))

theorem ranked_total (tie : Nat → Nat → Prop) (value : Nat → α) (total : ∀ i j, tie i j ∨ tie j i)
    (i j : Nat) : ranked tie value i j ∨ ranked tie value j i := by
  rcases lt_trichotomy (value i) (value j) with less | equal | greater
  · exact Or.inr (Or.inl less)
  · rcases total i j with before | after
    · exact Or.inl (Or.inr ⟨equal.symm, before⟩)
    · exact Or.inr (Or.inr ⟨equal, after⟩)
  · exact Or.inl (Or.inl greater)

theorem ranked_trans (tie : Nat → Nat → Prop) (value : Nat → α)
    (trans : ∀ i j l, tie i j → tie j l → tie i l) (i j l : Nat) (first : ranked tie value i j)
    (second : ranked tie value j l) : ranked tie value i l := by
  rcases first with first | ⟨firstEq, firstTie⟩ <;> rcases second with second | ⟨secondEq, secondTie⟩
  · exact Or.inl (second.trans first)
  · exact Or.inl (secondEq ▸ first)
  · exact Or.inl (firstEq ▸ second)
  · exact Or.inr ⟨secondEq.trans firstEq, trans i j l firstTie secondTie⟩

theorem select_ranked (tie : Nat → Nat → Prop) [DecidableRel tie] (value : Nat → α) (n k : Nat) (fits : k ≤ n)
    (total : ∀ i j, tie i j ∨ tie j i) (trans : ∀ i j l, tie i j → tie j l → tie i l) :
    IsTopK value n k (select (ranked tie value) n k) := by
  refine select_is_top_k value n k fits (ranked_total tie value total) (ranked_trans tie value trans) ?_
  rintro i j (less | ⟨equal, _⟩)
  · exact le_of_lt less
  · exact le_of_eq equal

theorem select_low (value : Nat → α) (n k : Nat) (fits : k ≤ n) :
    TiesLow value n k (select (ranked (· ≤ ·) value) n k) := by
  refine ⟨select_ranked (· ≤ ·) value n k fits Nat.le_total (fun _ _ _ => Nat.le_trans), ?_⟩
  intro i chosen j inRange absent equal
  rcases select_splits n k (ranked_total (· ≤ ·) value Nat.le_total)
      (ranked_trans (· ≤ ·) value (fun _ _ _ => Nat.le_trans)) i j chosen inRange absent with less | ⟨_, before⟩
  · exact absurd equal (ne_of_lt less)
  · exact lt_of_le_of_ne before (fun same => absent (same ▸ chosen))

end TopK
