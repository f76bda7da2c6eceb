import Dlmserve.Eligible

set_option autoImplicit false

namespace Dlmserve

def NeverPredictsMask {V : Type} (torch : Torch V) (model : Model V) (mask : Token) (draw : Draw V)
    (temperature : ℚ) : Prop :=
  ∀ x attn positions j c, (predictAndScore torch draw (model.forward x attn positions) temperature).1 j c ≠ mask

-- What a commit rule owes the row it works on, whatever the padding around it:
-- the plain rule takes at most k positions, nothing past the block end is taken
-- while k positions are eligible, and eligible ones are taken before all others.
structure RowCommit (mask pad : Token) (leap : Bool) (row : List Token) (k blockEnd : Nat) (chosen : List Nat) :
    Prop where
  size : leap = false → chosen.length ≤ k
  inBlock : k ≤ (Rows.holding mask row 0 blockEnd).card → ∀ c ∈ chosen, c < blockEnd
  covers : pad ≠ mask → min k (Rows.holding mask row 0 blockEnd).card ≤
    ((Rows.holding mask row 0 blockEnd).filter (· ∈ chosen)).card

theorem mask_index_row (mask : Token) (x : List (List Token)) (j : Nat) (row : List Token) (read : x[j]? = some row) :
    maskIndex mask x j = Rows.isMask mask row := by
  funext c
  rw [maskIndex, read]

section Padded

variable {V : Type} (torch : Torch V) (draw : Draw V) (mask pad : Token) (params0 : SamplingParams)
  (x : List (List Token)) (logits : Nat → Nat → V) (blockEnd : BlockEnd) (j left right k e : Nat) (row : List Token)

theorem rule_chosen_commit (sound : TopKSound draw) (read : x[j]? = some (Rows.padded pad left right row))
    (endAt : blockEnd.at (Rows.padded pad left right row).length j = left + e) (fits : k ≤ (Rows.padded pad left right row).length) :
    RowCommit mask pad params0.useLocalLeap row k e
      (Rows.shifted left (ruleChosen torch draw params0 j
        (rowConfidence torch draw logits params0.temperature (maskIndex mask x) (some blockEnd) j
          (Rows.padded pad left right row).length) k)) := by
  generalize confEq : rowConfidence torch draw logits params0.temperature (maskIndex mask x) (some blockEnd) j
    (Rows.padded pad left right row).length = conf
  have length : conf.length = (Rows.padded pad left right row).length := by
    rw [← confEq, row_confidence_length]
  have eligibleEq : eligible (maskIndex mask x j) (blockEnd.at (Rows.padded pad left right row).length j)
      (Rows.padded pad left right row).length = Rows.holding mask (Rows.padded pad left right row) 0 (left + e) := by
    rw [mask_index_row mask x j _ read, endAt, eligible_holding]
  have dominant : TopK.Dominates (fun c => conf.getD c .negInf) conf.length
      (Rows.holding mask (Rows.padded pad left right row) 0 (left + e)) := by
    rw [← eligibleEq, length, ← confEq]
    exact eligible_dominates torch draw logits params0.temperature (maskIndex mask x) blockEnd j _
  rw [← length] at fits
  have top := top_chosen_is_top_k draw j conf k sound fits
  refine ⟨?_, ?_, ?_⟩
  · intro plain
    rw [ruleChosen, plain]
    exact (Rows.shifted_length _ _).trans (le_of_eq top.size)
  · intro enough c member
    rw [Rows.mem_shifted] at member
    have inside : left + c ∈ Rows.holding mask (Rows.padded pad left right row) 0 (left + e) := by
      rcases rule_chosen_cases torch draw j conf k params0 (left + c) member with chosen | ⟨bound, proper⟩
      · refine TopK.chosen_eligible _ _ k _ _ top dominant ?_ (left + c) chosen
        rw [← Rows.holding_image_card mask left] at enough
        exact enough.trans (Finset.card_le_card (Rows.holding_padded_subset mask pad left right row e))
      · rw [← confEq] at proper
        rw [length] at bound
        have member := (row_confidence_proper torch draw logits params0.temperature (maskIndex mask x) blockEnd j _
          (left + c) bound).mp proper
        rwa [eligibleEq] at member
    have upper := ((Rows.mem_holding _ _ _ _ _).mp inside).2.1
    omega
  · intro proper
    have count := TopK.chosen_eligible_card _ _ k _ _ top dominant
    rw [Rows.holding_padded mask pad left right row e proper, Rows.holding_image_card] at count
    rw [← count, Finset.filter_image, Finset.card_image_of_injective _ (fun _ _ same => Nat.add_left_cancel same)]
    apply Finset.card_le_card
    intro c member
    obtain ⟨inside, chosen⟩ := Finset.mem_filter.mp member
    rw [Finset.mem_filter, Rows.mem_shifted]
    exact ⟨inside, top_chosen_rule torch draw j conf k params0 (left + c) chosen⟩

end Padded

section Step

variable {V : Type} (torch : Torch V) (model : Model V) (draw : Draw V) (mask pad : Token) (params0 : SamplingParams)

def RowStep (row row' : List Token) (k blockEnd : Nat) : Prop :=
  ∃ (chosen : List Nat) (fresh : Nat → Token), row' = Rows.fill (Rows.isMask mask row) fresh chosen row ∧
    (TopKSound draw → RowCommit mask pad params0.useLocalLeap row k blockEnd chosen) ∧
    (NeverPredictsMask torch model mask draw params0.temperature → ∀ c, fresh c ≠ mask)

variable {torch model draw mask pad params0} {row row' : List Token} {k e : Nat}

theorem row_step_absorbs (step : RowStep torch model draw mask pad params0 row row' k e) :
    Rows.Absorbs mask row row' := by
  obtain ⟨chosen, fresh, rfl, _⟩ := step
  exact Rows.fill_absorbs mask row _ fresh chosen (fun c _ opened => (Rows.is_mask_iff mask row c).mp opened)

theorem row_step_size (step : RowStep torch model draw mask pad params0 row row' k e) (sound : TopKSound draw)
    (plain : params0.useLocalLeap = false) (a b : Nat) :
    (Rows.holding mask row a b).card ≤ (Rows.holding mask row' a b).card + k := by
  obtain ⟨chosen, fresh, rfl, rule, _⟩ := step
  have size := (rule sound).size plain
  have bound := Rows.fill_holding_card mask row fresh chosen a b
  omega

theorem row_step_in_block (step : RowStep torch model draw mask pad params0 row row' k e) (sound : TopKSound draw)
    (enough : k ≤ (Rows.holding mask row 0 e).card) (c : Nat) (late : e ≤ c) (read : row[c]? = some mask) :
    row'[c]? = some mask := by
  obtain ⟨chosen, fresh, rfl, rule, _⟩ := step
  apply Rows.fill_keeps_open mask row fresh chosen c read
  intro member
  have early := (rule sound).inBlock enough c member
  omega

theorem row_step_covers (step : RowStep torch model draw mask pad params0 row row' k e) (sound : TopKSound draw)
    (proper : pad ≠ mask) (never : NeverPredictsMask torch model mask draw params0.temperature) :
    (Rows.holding mask row' 0 e).card + min k (Rows.holding mask row 0 e).card ≤ (Rows.holding mask row 0 e).card := by
  have absorbs := row_step_absorbs step
  obtain ⟨chosen, fresh, rfl, rule, predicted⟩ := step
  have covers := (rule sound).covers proper
  have kept : Rows.holding mask (Rows.fill (Rows.isMask mask row) fresh chosen row) 0 e ⊆
      (Rows.holding mask row 0 e).filter (· ∉ chosen) := by
    intro c member
    rw [Finset.mem_filter]
    refine ⟨Rows.absorbs_holding mask _ _ 0 e absorbs member, ?_⟩
    intro taken
    have read := ((Rows.mem_holding _ _ _ _ _).mp member).2.2
    have before := ((Rows.mem_holding _ _ _ _ _).mp (Rows.absorbs_holding mask _ _ 0 e absorbs member)).2.2
    exact Rows.fill_closes mask row fresh chosen c before taken (predicted never c) read
  have bound := Finset.card_le_card kept
  have split := Finset.card_filter_add_card_filter_not (s := Rows.holding mask row 0 e) (· ∈ chosen)
  omega

end Step

end Dlmserve
