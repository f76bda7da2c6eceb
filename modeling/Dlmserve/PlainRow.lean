import Dlmserve.StepSpec

set_option autoImplicit false

namespace Dlmserve

section Plain

variable {V : Type} (torch : Torch V) (view : List Token → Nat → V) (mask : Token) (params : SamplingParams)

-- The commit of a row on its own: no padding, no company and no noise, with ties
-- going to the lower position. The logits depend on the row and the position.
def plainToken (row : List Token) (c : Nat) : Token := torch.argmax (view row c)

def plainConfidence (row : List Token) (blockEnd : Nat) : List Score :=
  (List.range row.length).map fun c =>
    if c ∈ eligible (Rows.isMask mask row) blockEnd row.length then gatherProb torch (view row c) (plainToken torch view row c)
    else .negInf

def plainTop (conf : List Score) (k : Nat) : List Nat := TopK.lowest (fun c => conf.getD c .negInf) conf.length k

def plainChosen (conf : List Score) (k : Nat) : List Nat :=
  if params.useLocalLeap then
    plainTop conf k ++ leapPositions (torch.castFloat params.localLeapAnchorThreshold)
      (torch.castFloat params.localLeapNeighborThreshold) params.localLeapRadius conf (plainTop conf k)
  else plainTop conf k

def plainRow (row : List Token) (k blockEnd : Nat) : List Token :=
  Rows.fill (Rows.isMask mask row) (plainToken torch view row)
    (plainChosen torch params (plainConfidence torch view mask row blockEnd) k) row

theorem plain_confidence_length (row : List Token) (blockEnd : Nat) :
    (plainConfidence torch view mask row blockEnd).length = row.length := by
  rw [plainConfidence, List.length_map, List.length_range]

theorem plain_confidence_get (row : List Token) (blockEnd c : Nat) (inside : c < row.length) :
    (plainConfidence torch view mask row blockEnd).getD c .negInf =
      if c ∈ eligible (Rows.isMask mask row) blockEnd row.length then
        gatherProb torch (view row c) (plainToken torch view row c)
      else .negInf := by
  simp [plainConfidence, inside]

-- Logits at the attended columns of a row are those of its attended tokens,
-- whatever padding surrounds them and whatever the other rows hold.
structure PaddingLocal (model : Model V) (view : List Token → Nat → V) : Prop where
  padded : ∀ (x attn : List (List Nat)) (positions : Option (List (List Nat))) (j pad left right : Nat) (row : List Token)
    (c : Nat), c < row.length → x[j]? = some (Rows.padded pad left right row) →
    attn[j]? = some (Rows.padded 0 left right (List.replicate row.length 1)) →
    (∀ ids, positions = some ids → ids[j]? = some (Rows.padded 0 left right (List.range row.length))) →
    model.forward x (some attn) positions j (left + c) = view row c
  bare : ∀ (x : List (List Nat)) (j : Nat) (row : List Token) (c : Nat), c < row.length → x[j]? = some row →
    model.forward x none none j c = view row c

end Plain

section Window

variable {V : Type} (torch : Torch V) (view : List Token → Nat → V) (mask : Token) (params : SamplingParams)
  (conf plain : List Score) (left e k n : Nat) (isOpen : Nat → Bool)

-- The confidences of a padded row: those of the row inside the window, -inf
-- around it, and -inf at the closed positions and past the block end.
structure Window : Prop where
  length : plain.length = n
  fits : left + n ≤ conf.length
  inner : ∀ c < n, conf.getD (left + c) .negInf = plain.getD c .negInf
  outer : ∀ c, c < left ∨ left + n ≤ c → conf.getD c .negInf = .negInf
  late : ∀ c < n, e ≤ c → plain.getD c .negInf = .negInf
  opened : ∀ c < n, c < e → isOpen c = true → plain.getD c .negInf ≠ .negInf

variable {conf plain left e k n isOpen}

-- Where k positions come before the block end, an open position is chosen in the
-- padded row exactly when it is chosen in the row.
theorem window_top (window : Window conf plain left e n isOpen) (small : k ≤ e) (chosen : List Nat)
    (low : TopK.TiesLow (fun c => conf.getD c .negInf) conf.length k chosen) (c : Nat) (inside : c < n)
    (opened : isOpen c = true) : left + c ∈ chosen ↔ c ∈ plainTop plain k := by
  have fits := window.fits
  rw [TopK.ties_low_rank _ _ k chosen low (left + c) (by omega), plainTop, TopK.mem_lowest, window.length,
    and_iff_right inside]
  by_cases early : c < e
  · have proper := neg_inf_lt _ (window.opened c inside early opened)
    rw [TopK.rank_window (fun c => plain.getD c .negInf) _ left n conf.length c fits window.inner inside]
    intro other _ outside
    rw [window.outer other outside]
    exact proper
  · have least := window.late c inside (by omega)
    have wide : left + e ≤ TopK.rank (fun c => conf.getD c .negInf) conf.length (left + c) := by
      apply TopK.rank_at_least _ _ _ _ (by omega) (by omega)
      intro other _
      rw [window.inner c inside, least]
      exact neg_inf_least _
    have narrow : e ≤ TopK.rank (fun c => plain.getD c .negInf) n c := by
      apply TopK.rank_at_least _ _ _ _ (by omega) (by omega)
      intro other _
      rw [least]
      exact neg_inf_least _
    exact iff_of_false (by omega) (by omega)

theorem window_leap (window : Window conf plain left e n isOpen) (anchorThreshold neighborThreshold : ℚ) (radius : Nat)
    (chosen small : List Nat)
    (same : ∀ c < n, plain.getD c .negInf ≠ .negInf → (left + c ∈ chosen ↔ c ∈ small)) (c : Nat) (bound : c < n) :
    left + c ∈ leapPositions anchorThreshold neighborThreshold radius conf chosen ↔
      c ∈ leapPositions anchorThreshold neighborThreshold radius plain small := by
  have fits := window.fits
  rw [mem_leap_positions, mem_leap_positions, window.inner c bound, window.length]
  constructor
  · rintro ⟨_, kept, a, member, strong, near⟩
    obtain ⟨p, value, _⟩ := (at_least_iff _ _).mp strong
    have inner : left ≤ a ∧ a < left + n := by
      by_contra outside
      rw [window.outer a (by omega)] at value
      cases value
    obtain ⟨b, rfl⟩ := Nat.exists_eq_add_of_le inner.1
    have small_bound : b < n := by omega
    rw [window.inner b small_bound] at strong value
    exact ⟨bound, kept, b, (same b small_bound (by rw [value]; simp)).mp member, strong, by omega, by omega⟩
  · rintro ⟨_, kept, b, member, strong, near⟩
    have small_bound := at_least_in_range _ _ _ strong
    rw [window.length] at small_bound
    obtain ⟨p, value, _⟩ := (at_least_iff _ _).mp strong
    refine ⟨by omega, kept, left + b, (same b small_bound (by rw [value]; simp)).mpr member, ?_, by omega, by omega⟩
    rw [window.inner b small_bound]
    exact strong

theorem window_chosen {V : Type} (torch : Torch V) (draw : Draw V) (params : SamplingParams) (window : Window conf plain left e n isOpen)
    (closed : ∀ c < n, plain.getD c .negInf ≠ .negInf → isOpen c = true) (small : k ≤ e) (fits : k ≤ conf.length)
    (low : TopKTiesLow draw) (j c : Nat) (inside : c < n) (opened : isOpen c = true) :
    left + c ∈ ruleChosen torch draw params j conf k ↔ c ∈ plainChosen torch params plain k := by
  have ties := top_chosen_ties_low draw j conf k low fits
  have top (b : Nat) (bound : b < n) (openB : isOpen b = true) :=
    window_top window small (topChosen draw j conf k) ties b bound openB
  rw [ruleChosen, plainChosen]
  split
  · rw [leapChosen, List.mem_append, List.mem_append, top c inside opened]
    apply or_congr_right
    exact window_leap window _ _ _ _ _ (fun b bound proper => top b bound (closed b bound proper)) c inside
  · exact top c inside opened

end Window

section Row

variable {V : Type} (torch : Torch V) (view : List Token → Nat → V) (mask pad : Token) (params : SamplingParams)
  (draw : Draw V) (x : List (List Token)) (logits : Nat → Nat → V) (blockEnd : BlockEnd) (j left right k e : Nat)
  (row : List Token)

theorem cold_predict (cold : params.temperature = 0) (p c : Nat) :
    (predictAndScore torch draw logits params.temperature).1 p c = torch.argmax (logits p c) := by
  have noiseless : ¬ (0 : ℚ) < params.temperature := by
    rw [cold]
    exact lt_irrefl 0
  exact if_neg noiseless

theorem cold_score (cold : params.temperature = 0) (p c : Nat) :
    (predictAndScore torch draw logits params.temperature).2 p c =
      gatherProb torch (logits p c) (torch.argmax (logits p c)) := by
  rw [← cold_predict torch params draw logits cold p c]
  rfl

theorem padded_window (cold : params.temperature = 0) (proper : pad ≠ mask)
    (read : x[j]? = some (Rows.padded pad left right row))
    (endAt : blockEnd.at (Rows.padded pad left right row).length j = left + e)
    (same : ∀ c < row.length, logits j (left + c) = view row c) :
    Window (rowConfidence torch draw logits params.temperature (maskIndex mask x) (some blockEnd) j
        (Rows.padded pad left right row).length)
      (plainConfidence torch view mask row e) left e row.length (Rows.isMask mask row) := by
  have width := Rows.padded_length pad left right row
  have opened (c : Nat) (bound : c < left + row.length + right) :
      c ∈ eligible (maskIndex mask x j) (blockEnd.at (Rows.padded pad left right row).length j)
          (Rows.padded pad left right row).length ↔
        ∃ b < row.length, c = left + b ∧ b ∈ eligible (Rows.isMask mask row) e row.length := by
    rw [mask_index_row mask x j _ read, endAt, eligible_holding, eligible_holding,
      Rows.holding_padded mask pad left right row e proper, Finset.mem_image]
    constructor
    · rintro ⟨b, member, rfl⟩
      exact ⟨b, Rows.get_lt _ _ _ ((Rows.mem_holding _ _ _ _ _).mp member).2.2, rfl, member⟩
    · rintro ⟨b, _, rfl, member⟩
      exact ⟨b, member, rfl⟩
  refine ⟨plain_confidence_length torch view mask row e, ?_, ?_, ?_, ?_, ?_⟩
  · rw [row_confidence_length, width]
    omega
  · intro c inside
    rw [row_confidence_get _ _ _ _ _ _ _ _ _ (by omega), plain_confidence_get torch view mask row e c inside,
      cold_score torch params draw logits cold, same c inside]
    have iff_inside := opened (left + c) (by omega)
    by_cases member : c ∈ eligible (Rows.isMask mask row) e row.length
    · rw [if_pos member, if_pos (iff_inside.mpr ⟨c, inside, rfl, member⟩)]
      rfl
    · rw [if_neg member, if_neg]
      intro wide
      obtain ⟨b, _, equal, inner⟩ := iff_inside.mp wide
      exact member ((Nat.add_left_cancel equal) ▸ inner)
  · intro c outside
    by_cases bound : c < left + row.length + right
    · rw [row_confidence_get _ _ _ _ _ _ _ _ _ (by omega), if_neg]
      intro wide
      obtain ⟨b, inside, rfl, _⟩ := (opened c bound).mp wide
      omega
    · rw [List.getD_eq_default]
      rw [row_confidence_length, width]
      omega
  · intro c inside late
    rw [plain_confidence_get torch view mask row e c inside, if_neg]
    rw [mem_eligible]
    omega
  · intro c inside early masked
    rw [plain_confidence_get torch view mask row e c inside, if_pos ((mem_eligible _ _ _ _).mpr ⟨inside, masked, early⟩)]
    exact gather_prob_proper torch _ _

-- What a batched step writes into a row's window is the row's own plain commit.
theorem padded_plain (cold : params.temperature = 0) (proper : pad ≠ mask)
    (read : x[j]? = some (Rows.padded pad left right row))
    (endAt : blockEnd.at (Rows.padded pad left right row).length j = left + e) (small : k ≤ e)
    (fits : k ≤ (Rows.padded pad left right row).length) (low : TopKTiesLow draw)
    (same : ∀ c < row.length, logits j (left + c) = view row c) :
    Rows.fill (Rows.isMask mask row)
      (fun c => (predictAndScore torch draw logits params.temperature).1 j (left + c))
      (Rows.shifted left (ruleChosen torch draw params j
        (rowConfidence torch draw logits params.temperature (maskIndex mask x) (some blockEnd) j
          (Rows.padded pad left right row).length) k)) row = plainRow torch view mask params row k e := by
  have window := padded_window torch view mask pad params draw x logits blockEnd j left right e row cold proper read endAt same
  apply Rows.fill_congr
  · intro c inside opened
    rw [Rows.mem_shifted]
    apply window_chosen torch draw params window _ small (by rw [row_confidence_length]; exact fits) low j c inside opened
    intro b bound finite
    rw [plain_confidence_get torch view mask row e b bound] at finite
    by_contra closed
    rw [if_neg] at finite
    · exact finite rfl
    · exact fun member => closed ((mem_eligible _ _ _ _).mp member).2.1
  · intro c inside _
    rw [cold_predict torch params draw logits cold, same c inside]
    rfl

end Row

end Dlmserve
