import Dlmserve.DenoiseLoop

set_option autoImplicit false

namespace Dlmserve

section Score

theorem at_least_iff (threshold : ℚ) (score : Score) :
    score.atLeast threshold = true ↔ ∃ p, score = .prob p ∧ threshold ≤ p := by
  cases score <;> simp [Score.atLeast]

theorem neg_inf_least (score : Score) : Score.negInf ≤ score := by
  change Score.rank .negInf ≤ Score.rank score
  exact bot_le

theorem neg_inf_lt (score : Score) (proper : score ≠ .negInf) : Score.negInf < score :=
  lt_of_le_of_ne (neg_inf_least score) (Ne.symm proper)

end Score

-- What torch.topk documents: the k largest values, with any order among ties.
def TopKSound {V : Type} (draw : Draw V) : Prop :=
  ∀ (j : Nat) (row : List Score) (k : Nat), k ≤ row.length →
    TopK.IsTopK (fun i => row.getD i .negInf) row.length k (draw.topk j row k)

def TopKTiesLow {V : Type} (draw : Draw V) : Prop :=
  ∀ (j : Nat) (row : List Score) (k : Nat), k ≤ row.length →
    TopK.TiesLow (fun i => row.getD i .negInf) row.length k (draw.topk j row k)

theorem ties_low_sound {V : Type} (draw : Draw V) (low : TopKTiesLow draw) : TopKSound draw :=
  fun j row k fits => (low j row k fits).toIsTopK

section Writes

variable (isOpen : Nat → Bool) (x0 : Nat → Token) (row : List Token)

theorem index_put_where (idx : List Nat) :
    indexPut row idx (whereMask isOpen x0 row) = Rows.fill isOpen x0 idx row := by
  apply List.ext_getElem?
  intro c
  rw [indexPut, Rows.fill_get, List.getElem?_mapIdx]
  cases read : row[c]? with
  | none => rfl
  | some t =>
      have source : (whereMask isOpen x0 row).getD c t = if isOpen c = true then x0 c else t := by
        rw [List.getD_eq_getElem?_getD, whereMask, List.getElem?_mapIdx, read]
        rfl
      simp only [Option.map_some, source]
      by_cases taken : c ∈ idx <;> simp [taken]

theorem index_put_again (first second : List Nat) :
    indexPut (Rows.fill isOpen x0 first row) second (whereMask isOpen x0 row) =
      Rows.fill isOpen x0 (first ++ second) row := by
  apply List.ext_getElem?
  intro c
  rw [indexPut, Rows.fill_get, List.getElem?_mapIdx, Rows.fill_get]
  cases read : row[c]? with
  | none => rfl
  | some t =>
      have source (u : Token) : (whereMask isOpen x0 row).getD c u = if isOpen c = true then x0 c else t := by
        rw [List.getD_eq_getElem?_getD, whereMask, List.getElem?_mapIdx, read]
        rfl
      simp only [Option.map_some, source, List.mem_append]
      by_cases opened : isOpen c = true
      · by_cases early : c ∈ first <;> by_cases late : c ∈ second <;> simp [opened, early, late]
      · simp [opened]

theorem fill_nothing : Rows.fill isOpen x0 [] row = row := by
  apply List.ext_getElem?
  intro c
  rw [Rows.fill_get]
  cases row[c]? <;> simp

end Writes

-- The positions a row commits: torch.topk's choice, and with LocalLeap the
-- confident neighbors of its strong anchors.
def leapPositions (anchorThreshold neighborThreshold : ℚ) (radius : Nat) (conf : List Score) (idx : List Nat) : List Nat :=
  (neighborPositions (idx.filter fun i => (conf.getD i .negInf).atLeast anchorThreshold) radius conf.length).filter
    fun q => (conf.getD q .negInf).atLeast neighborThreshold

section Rules

variable {V : Type} (torch : Torch V) (draw : Draw V)

def rowConfidence (logits : Nat → Nat → V) (temperature : ℚ) (maskIndex : Nat → Nat → Bool)
    (blockEndAbs : Option BlockEnd) (j L : Nat) : List Score :=
  confidence (maskIndex j) (clipBlockEnd blockEndAbs L (predictAndScore torch draw logits temperature).2 j) L

def topChosen (j : Nat) (conf : List Score) (k : Nat) : List Nat := if k = 0 then [] else draw.topk j conf k

def leapChosen (anchorThreshold neighborThreshold : ℚ) (radius : Nat) (j : Nat) (conf : List Score) (k : Nat) :
    List Nat :=
  topChosen draw j conf k ++ leapPositions anchorThreshold neighborThreshold radius conf (topChosen draw j conf k)

theorem row_confidence_length (logits : Nat → Nat → V) (temperature : ℚ) (maskIndex : Nat → Nat → Bool)
    (blockEndAbs : Option BlockEnd) (j L : Nat) :
    (rowConfidence torch draw logits temperature maskIndex blockEndAbs j L).length = L := by
  simp [rowConfidence, confidence]

theorem leap_positions_nil (anchorThreshold neighborThreshold : ℚ) (radius : Nat) (conf : List Score) (idx : List Nat)
    (none_strong : (idx.filter fun i => (conf.getD i .negInf).atLeast anchorThreshold) = []) :
    leapPositions anchorThreshold neighborThreshold radius conf idx = [] := by
  rw [leapPositions, none_strong]
  rfl

variable (x : List (List Token)) (logits : Nat → Nat → V) (maskIndex : Nat → Nat → Bool) (kPerRow : Nat → Nat)
  (blockEndAbs : Option BlockEnd) (temperature : ℚ)

-- One commit of either kind fills, row by row, the chosen positions; it raises
-- exactly when some row is asked for more positions than it has.
def commitBy (chosen : Nat → List Score → Nat → List Nat) : Option (List (List Token)) :=
  x.zipIdx.mapM fun (row, j) =>
    if kPerRow j ≤ row.length then
      some (Rows.fill (maskIndex j) ((predictAndScore torch draw logits temperature).1 j)
        (chosen j (rowConfidence torch draw logits temperature maskIndex blockEndAbs j row.length) (kPerRow j)) row)
    else none

theorem commit_top_k_rows :
    commitTopKByConfidence torch draw x logits maskIndex kPerRow blockEndAbs temperature =
      commitBy torch draw x logits maskIndex kPerRow blockEndAbs temperature (topChosen draw) := by
  apply Collect.map_m_congr
  rintro ⟨row, j⟩ _
  by_cases zero : kPerRow j = 0
  · simp [zero, topChosen, fill_nothing]
  · by_cases fits : kPerRow j ≤ row.length
    · simp [zero, fits, topChosen, topk, confidence, rowConfidence, index_put_where]
    · simp [zero, fits, topk, confidence]

theorem commit_leap_rows (anchorThreshold neighborThreshold : ℚ) (radius : Nat) :
    commitWithLocalLeap torch draw x logits maskIndex kPerRow blockEndAbs anchorThreshold neighborThreshold radius
        temperature =
      commitBy torch draw x logits maskIndex kPerRow blockEndAbs temperature
        (leapChosen draw (torch.castFloat anchorThreshold) (torch.castFloat neighborThreshold) radius) := by
  apply Collect.map_m_congr
  rintro ⟨row, j⟩ _
  by_cases zero : kPerRow j = 0
  · simp [zero, leapChosen, topChosen, leap_positions_nil, fill_nothing]
  · by_cases fits : kPerRow j ≤ row.length
    · have length := row_confidence_length torch draw logits temperature maskIndex blockEndAbs j row.length
      simp only [rowConfidence] at length
      simp only [if_neg zero, topk, length, if_pos fits, leapChosen, topChosen, rowConfidence, Option.bind_eq_bind,
        Option.bind_some]
      split
      · rename_i noneStrong
        rw [leap_positions_nil _ _ _ _ _ noneStrong, List.append_nil, index_put_where]
      · rw [index_put_where]
        split
        · rename_i noneKept
          rw [leapPositions, length, noneKept, List.append_nil]
        · rw [index_put_again, leapPositions, length]
    · simp [zero, fits, topk, confidence]

end Rules

def ruleChosen {V : Type} (torch : Torch V) (draw : Draw V) (params0 : SamplingParams) :
    Nat → List Score → Nat → List Nat :=
  if params0.useLocalLeap then
    leapChosen draw (torch.castFloat params0.localLeapAnchorThreshold)
      (torch.castFloat params0.localLeapNeighborThreshold) params0.localLeapRadius
  else topChosen draw

theorem commit_rows_eq {V : Type} (torch : Torch V) (mask : Token) (params0 : SamplingParams) (draw : Draw V)
    (x : List (List Token)) (logits : Nat → Nat → V) (kPerRow : Nat → Nat) (blockEndAbs : BlockEnd) :
    commitRows torch mask params0 draw x logits kPerRow blockEndAbs =
      commitBy torch draw x logits (maskIndex mask x) kPerRow (some blockEndAbs) params0.temperature
        (ruleChosen torch draw params0) := by
  rw [commitRows, ruleChosen]
  split
  · rw [commit_leap_rows]
  · rw [commit_top_k_rows]

-- The parameters that step_batch takes from the first state for every row.
structure SharedParams where
  temperature : ℚ
  useLocalLeap : Bool
  localLeapAnchorThreshold : ℚ
  localLeapNeighborThreshold : ℚ
  localLeapRadius : Nat
deriving DecidableEq

def SamplingParams.shared (params : SamplingParams) : SharedParams :=
  ⟨params.temperature, params.useLocalLeap, params.localLeapAnchorThreshold, params.localLeapNeighborThreshold,
    params.localLeapRadius⟩

theorem commit_rows_shared {V : Type} (torch : Torch V) (mask : Token) (a b : SamplingParams) (same : a.shared = b.shared) :
    commitRows torch mask a = commitRows torch mask b := by
  obtain ⟨temperature, leap, anchor, neighbor, radius⟩ := SharedParams.mk.inj same
  funext draw x logits kPerRow blockEndAbs
  rw [commitRows, commitRows, temperature, leap, anchor, neighbor, radius]

end Dlmserve
