import Dlmserve.CommitRule

set_option autoImplicit false

namespace Dlmserve

def BlockEnd.at (blockEnd : BlockEnd) (L j : Nat) : Nat :=
  match blockEnd with
  | .int e => sliceStart e L
  | .perRow e => (e j).toNat

theorem block_end_at_int (e L j : Nat) : (BlockEnd.int e).at L j = e := by
  rw [BlockEnd.at, sliceStart, if_neg (by omega), Int.toNat_natCast]

theorem gather_prob_proper {V : Type} (torch : Torch V) (logits : V) (t : Token) :
    gatherProb torch logits t ≠ .negInf := by
  rw [gatherProb]
  split <;> simp

-- Both ways the code writes the block restriction rule out the same columns.
theorem clip_block_end_get (blockEnd : BlockEnd) (L : Nat) (score : Nat → Nat → Score) (j c : Nat) (inRange : c < L) :
    clipBlockEnd (some blockEnd) L score j c = if blockEnd.at L j ≤ c then .negInf else score j c := by
  cases blockEnd with
  | perRow e =>
      by_cases late : e j ≤ (c : Int)
      · exact (if_pos late).trans (if_pos (Int.toNat_le.mpr late)).symm
      · exact (if_neg late).trans (if_neg fun reached => late (Int.toNat_le.mp reached)).symm
  | int e =>
      by_cases short : e < L
      · rw [clipBlockEnd, if_pos short]
        rfl
      · have early : ¬ sliceStart e L ≤ c := by
          rw [sliceStart]
          split <;> omega
        rw [clipBlockEnd, if_neg short, BlockEnd.at, if_neg early]

def eligible (isOpen : Nat → Bool) (e L : Nat) : Finset Nat :=
  (Finset.range L).filter fun c => isOpen c = true ∧ c < e

theorem mem_eligible (isOpen : Nat → Bool) (e L c : Nat) :
    c ∈ eligible isOpen e L ↔ c < L ∧ isOpen c = true ∧ c < e := by
  rw [eligible, Finset.mem_filter, Finset.mem_range]

theorem eligible_holding (mask : Token) (row : List Token) (e : Nat) :
    eligible (Rows.isMask mask row) e row.length = Rows.holding mask row 0 e := by
  ext c
  rw [mem_eligible, Rows.mem_holding, Rows.is_mask_iff]
  constructor
  · rintro ⟨_, read, early⟩
    exact ⟨Nat.zero_le c, early, read⟩
  · rintro ⟨_, early, read⟩
    exact ⟨Rows.get_lt row c mask read, read, early⟩

section Confidence

variable {V : Type} (torch : Torch V) (draw : Draw V) (logits : Nat → Nat → V) (temperature : ℚ)
  (maskIndex : Nat → Nat → Bool) (blockEnd : BlockEnd) (j L : Nat)

theorem row_confidence_get (c : Nat) (inRange : c < L) :
    (rowConfidence torch draw logits temperature maskIndex (some blockEnd) j L).getD c .negInf =
      if c ∈ eligible (maskIndex j) (blockEnd.at L j) L then
        (predictAndScore torch draw logits temperature).2 j c
      else .negInf := by
  have read : (rowConfidence torch draw logits temperature maskIndex (some blockEnd) j L).getD c .negInf =
      if maskIndex j c then clipBlockEnd (some blockEnd) L (predictAndScore torch draw logits temperature).2 j c
      else .negInf := by
    simp [rowConfidence, confidence, inRange]
  rw [read, clip_block_end_get blockEnd L _ j c inRange]
  by_cases opened : maskIndex j c = true
  · by_cases late : blockEnd.at L j ≤ c
    · have outside : c ∉ eligible (maskIndex j) (blockEnd.at L j) L := by
        rw [mem_eligible]
        omega
      simp only [opened, if_true, if_pos late, if_neg outside]
    · have inside : c ∈ eligible (maskIndex j) (blockEnd.at L j) L := by
        rw [mem_eligible]
        exact ⟨inRange, opened, by omega⟩
      simp only [opened, if_true, if_neg late, if_pos inside]
  · have outside : c ∉ eligible (maskIndex j) (blockEnd.at L j) L := by
      rw [mem_eligible]
      exact fun member => opened member.2.1
    simp only [if_neg outside, if_neg opened]

theorem row_confidence_proper (c : Nat) (inRange : c < L) :
    (rowConfidence torch draw logits temperature maskIndex (some blockEnd) j L).getD c .negInf ≠ .negInf ↔
      c ∈ eligible (maskIndex j) (blockEnd.at L j) L := by
  rw [row_confidence_get torch draw logits temperature maskIndex blockEnd j L c inRange]
  split
  · rename_i inside
    exact iff_of_true (gather_prob_proper torch _ _) inside
  · rename_i outside
    exact iff_of_false (fun proper => proper rfl) outside

theorem eligible_dominates : TopK.Dominates
    (fun c => (rowConfidence torch draw logits temperature maskIndex (some blockEnd) j L).getD c .negInf) L
    (eligible (maskIndex j) (blockEnd.at L j) L) := by
  refine ⟨fun c inside => ((mem_eligible _ _ _ _).mp inside).1, ?_⟩
  intro c inside other inRange outside
  have proper := (row_confidence_proper torch draw logits temperature maskIndex blockEnd j L c
    ((mem_eligible _ _ _ _).mp inside).1).mpr inside
  change List.getD _ other _ < List.getD _ c _
  rw [row_confidence_get torch draw logits temperature maskIndex blockEnd j L other inRange, if_neg outside]
  exact neg_inf_lt _ proper

end Confidence

theorem mem_leap_offsets (radius : Nat) (d : Int) : d ∈ leapOffsets radius ↔ -(radius : Int) ≤ d ∧ d ≤ radius := by
  simp only [leapOffsets, List.mem_map, List.mem_range]
  constructor
  · rintro ⟨i, bound, rfl⟩
    omega
  · rintro ⟨lower, upper⟩
    exact ⟨(d + radius).toNat, by omega, by omega⟩

-- Clamping to the row ends only reaches positions already within the radius.
theorem mem_neighbor_positions (strong : List Nat) (radius L q : Nat) (inside : ∀ a ∈ strong, a < L) :
    q ∈ neighborPositions strong radius L ↔ q < L ∧ ∃ a ∈ strong, q ≤ a + radius ∧ a ≤ q + radius := by
  simp only [neighborPositions, List.mem_insertionSort, List.mem_dedup, List.mem_flatMap, List.mem_map, mem_leap_offsets]
  constructor
  · rintro ⟨a, member, d, ⟨lower, upper⟩, rfl⟩
    have bound := inside a member
    refine ⟨?_, a, member, ?_, ?_⟩ <;> rw [clampIndex] <;> omega
  · rintro ⟨bound, a, member, upper, lower⟩
    refine ⟨a, member, (q : Int) - a, ⟨by omega, by omega⟩, ?_⟩
    rw [clampIndex]
    omega

theorem at_least_in_range (threshold : ℚ) (conf : List Score) (c : Nat)
    (reached : (conf.getD c .negInf).atLeast threshold = true) : c < conf.length := by
  by_contra late
  rw [List.getD_eq_default _ _ (by omega)] at reached
  cases reached

theorem mem_leap_positions (anchorThreshold neighborThreshold : ℚ) (radius : Nat) (conf : List Score) (idx : List Nat)
    (q : Nat) :
    q ∈ leapPositions anchorThreshold neighborThreshold radius conf idx ↔
      q < conf.length ∧ (conf.getD q .negInf).atLeast neighborThreshold = true ∧
        ∃ a ∈ idx, (conf.getD a .negInf).atLeast anchorThreshold = true ∧ q ≤ a + radius ∧ a ≤ q + radius := by
  have strongInside : ∀ a ∈ idx.filter fun i => (conf.getD i .negInf).atLeast anchorThreshold, a < conf.length :=
    fun a member => at_least_in_range anchorThreshold conf a (List.mem_filter.mp member).2
  rw [leapPositions, List.mem_filter, mem_neighbor_positions _ _ _ _ strongInside]
  constructor
  · rintro ⟨⟨bound, a, member, near⟩, kept⟩
    obtain ⟨chosen, strong⟩ := List.mem_filter.mp member
    exact ⟨bound, kept, a, chosen, strong, near⟩
  · rintro ⟨bound, kept, a, chosen, strong, near⟩
    exact ⟨⟨bound, a, List.mem_filter.mpr ⟨chosen, strong⟩, near⟩, kept⟩

section Chosen

variable {V : Type} (torch : Torch V) (draw : Draw V) (j : Nat) (conf : List Score) (k : Nat)

theorem top_chosen_is_top_k (sound : TopKSound draw) (fits : k ≤ conf.length) :
    TopK.IsTopK (fun c => conf.getD c .negInf) conf.length k (topChosen draw j conf k) := by
  by_cases zero : k = 0
  · subst zero
    exact ⟨List.nodup_nil, rfl, by simp [topChosen], by simp [topChosen]⟩
  · rw [topChosen, if_neg zero]
    exact sound j conf k fits

theorem top_chosen_ties_low (low : TopKTiesLow draw) (fits : k ≤ conf.length) :
    TopK.TiesLow (fun c => conf.getD c .negInf) conf.length k (topChosen draw j conf k) := by
  refine ⟨top_chosen_is_top_k draw j conf k (ties_low_sound draw low) fits, ?_⟩
  by_cases zero : k = 0
  · simp [topChosen, zero]
  · rw [topChosen, if_neg zero]
    exact (low j conf k fits).low

theorem rule_chosen_cases (params0 : SamplingParams) (c : Nat)
    (member : c ∈ ruleChosen torch draw params0 j conf k) :
    c ∈ topChosen draw j conf k ∨ (c < conf.length ∧ conf.getD c .negInf ≠ .negInf) := by
  rw [ruleChosen] at member
  split at member
  · rcases List.mem_append.mp member with top | leap
    · exact Or.inl top
    · obtain ⟨bound, kept, _⟩ := (mem_leap_positions _ _ _ _ _ _).mp leap
      obtain ⟨p, value, _⟩ := (at_least_iff _ _).mp kept
      exact Or.inr ⟨bound, by rw [value]; simp⟩
  · exact Or.inl member

theorem top_chosen_rule (params0 : SamplingParams) (c : Nat) (member : c ∈ topChosen draw j conf k) :
    c ∈ ruleChosen torch draw params0 j conf k := by
  rw [ruleChosen]
  split
  · exact List.mem_append_left _ member
  · exact member

end Chosen

end Dlmserve
