import Dlmserve.RowStep

set_option autoImplicit false

namespace Dlmserve

theorem pad_row_some (pad total offset : Nat) (row wide : List Nat) (made : padRow pad total offset row = some wide) :
    offset + row.length ≤ total ∧ wide = Rows.padded pad offset (total - (offset + row.length)) row := by
  rw [padRow] at made
  split at made
  · rename_i fits
    exact ⟨fits, (Option.some.inj made).symm⟩
  · cases made

theorem unpad_row_some (states : List DenoiseState) (s : DenoiseState) (old row newRow : List Token)
    (read : seqRow s = some old) (cut : unpadRow states s row = some newRow) :
    newRow = Rows.slice row (rowOffset states s) (rowOffset states s + old.length) := by
  rw [unpadRow, read] at cut
  exact (Option.some.inj cut).symm

theorem per_row_at (column : DenoiseState → Nat) (states : List DenoiseState) (i : Nat) (s : DenoiseState)
    (read : states[i]? = some s) (L : Nat) : (BlockEnd.perRow fun j => (states.map column).getD j 0).at L i = column s := by
  rw [BlockEnd.at, Int.toNat_natCast, List.getD_eq_getElem?_getD, List.getElem?_map, read]
  rfl

theorem commit_by_get {V : Type} (torch : Torch V) (draw : Draw V) (x y : List (List Token)) (logits : Nat → Nat → V)
    (opened : Nat → Nat → Bool) (kPerRow : Nat → Nat) (blockEndAbs : Option BlockEnd) (temperature : ℚ)
    (chosen : Nat → List Score → Nat → List Nat)
    (made : commitBy torch draw x logits opened kPerRow blockEndAbs temperature chosen = some y)
    (j : Nat) (row : List Token) (read : x[j]? = some row) :
    kPerRow j ≤ row.length ∧ y[j]? = some (Rows.fill (opened j) ((predictAndScore torch draw logits temperature).1 j)
      (chosen j (rowConfidence torch draw logits temperature opened blockEndAbs j row.length) (kPerRow j)) row) := by
  obtain ⟨row', read', value⟩ := Collect.map_m_get _ _ _ made j (row, j) (Collect.zip_idx_get x j row read)
  simp only at value
  split at value
  · rename_i fits
    exact ⟨fits, by rw [read', ← Option.some.inj value]⟩
  · cases value

theorem commit_by_length {V : Type} (torch : Torch V) (draw : Draw V) (x y : List (List Token))
    (logits : Nat → Nat → V) (opened : Nat → Nat → Bool) (kPerRow : Nat → Nat) (blockEndAbs : Option BlockEnd)
    (temperature : ℚ) (chosen : Nat → List Score → Nat → List Nat)
    (made : commitBy torch draw x logits opened kPerRow blockEndAbs temperature chosen = some y) :
    y.length = x.length := by
  rw [Collect.map_m_length _ _ _ made, List.length_zipIdx]

theorem commit_by_total {V : Type} (torch : Torch V) (draw : Draw V) (x : List (List Token))
    (logits : Nat → Nat → V) (opened : Nat → Nat → Bool) (kPerRow : Nat → Nat) (blockEndAbs : Option BlockEnd)
    (temperature : ℚ) (chosen : Nat → List Score → Nat → List Nat)
    (fits : ∀ j row, x[j]? = some row → kPerRow j ≤ row.length) :
    ∃ y, commitBy torch draw x logits opened kPerRow blockEndAbs temperature chosen = some y := by
  apply Collect.map_m_total
  rintro ⟨row, j⟩ member
  obtain ⟨i, read⟩ := List.getElem?_of_mem member
  rw [List.getElem?_zipIdx] at read
  obtain ⟨row₀, readRow, same⟩ := Option.map_eq_some_iff.mp read
  obtain ⟨rfl, rfl⟩ := Prod.mk.inj same
  exact ⟨_, if_pos (fits (0 + i) row₀ (by rwa [Nat.zero_add]))⟩

section Batch

variable {V : Type} (torch : Torch V) (model : Model V) (mask pad : Token) (draw : Draw V)

theorem batch_rows_cases (states : List DenoiseState) (params0 : SamplingParams) (y : List (List Token))
    (made : batchRows torch model mask pad draw states params0 = some y) :
    ∃ batchSeq ks logits, padStates states pad id = some batchSeq ∧ states.mapM scheduledK = some ks ∧
      forwardLogits model states batchSeq = some logits ∧
      commitBy torch draw batchSeq logits (maskIndex mask batchSeq) (fun j => ks.getD j 0)
        (some (.perRow fun j => (states.map fun s => rowOffset states s + s.blockEndAbs).getD j 0))
        params0.temperature (ruleChosen torch draw params0) = some y := by
  rw [batchRows] at made
  obtain ⟨batchSeq, padded, made⟩ := Option.bind_eq_some_iff.mp made
  obtain ⟨ks, scheduled, made⟩ := Option.bind_eq_some_iff.mp made
  obtain ⟨logits, forward, made⟩ := Option.bind_eq_some_iff.mp made
  rw [commit_rows_eq] at made
  exact ⟨batchSeq, ks, logits, padded, scheduled, forward, made⟩

theorem forward_logits_cases (states : List DenoiseState) (batchSeq : List (List Token)) (logits : Nat → Nat → V)
    (made : forwardLogits model states batchSeq = some logits) :
    ∃ attn positions, padStates states 0 (fun row => List.replicate row.length 1) = some attn ∧
      padStates states 0 (fun row => List.range row.length) = some positions ∧
      logits = model.forward batchSeq (some attn) (if model.takesPositionIds then some positions else none) := by
  rw [forwardLogits] at made
  obtain ⟨attn, attended, made⟩ := Option.bind_eq_some_iff.mp made
  obtain ⟨positions, numbered, made⟩ := Option.bind_eq_some_iff.mp made
  exact ⟨attn, positions, attended, numbered, (Option.some.inj made).symm⟩

theorem pad_states_get (states : List DenoiseState) (fill : Nat) (content : List Token → List Nat)
    (wide : List (List Nat)) (padded : padStates states fill content = some wide) (i : Nat) (s : DenoiseState)
    (row : List Token) (read : states[i]? = some s) (readRow : seqRow s = some row) :
    wide[i]? = some (Rows.padded fill (rowOffset states s)
      (maxTotal states - (rowOffset states s + (content row).length)) (content row)) := by
  obtain ⟨out, readOut, widened⟩ := Collect.map_m_get _ _ _ padded i s read
  rw [readRow] at widened
  obtain ⟨_, rfl⟩ := pad_row_some _ _ _ _ _ widened
  exact readOut

-- One state's share of a batched step: its own row, scheduled count and block
-- end, whatever else the batch holds.
def StateStep (params0 : SamplingParams) (s s' : DenoiseState) : Prop :=
  ∃ row row' k, seqRow s = some row ∧ scheduledK s = some k ∧
    RowStep torch model draw mask pad params0 row row' k s.blockEndAbs ∧ writeBack mask s row' = some s'

-- The same share with the padding of the batch around the state's row.
inductive WindowStep (params0 : SamplingParams) (s : DenoiseState) : DenoiseState → Prop where
  | mk (x attn : List (List Nat)) (positions : Option (List (List Nat))) (blockEnd : BlockEnd) (j left right k : Nat)
      (row : List Token) (s' : DenoiseState) (readRow : seqRow s = some row) (scheduled : scheduledK s = some k)
      (read : x[j]? = some (Rows.padded pad left right row))
      (attended : attn[j]? = some (Rows.padded 0 left right (List.replicate row.length 1)))
      (numbered : ∀ ids, positions = some ids → ids[j]? = some (Rows.padded 0 left right (List.range row.length)))
      (endAt : blockEnd.at (Rows.padded pad left right row).length j = left + s.blockEndAbs)
      (fits : k ≤ (Rows.padded pad left right row).length)
      (written : writeBack mask s (Rows.fill (Rows.isMask mask row)
        (fun c => (predictAndScore torch draw (model.forward x (some attn) positions) params0.temperature).1 j (left + c))
        (Rows.shifted left (ruleChosen torch draw params0 j
          (rowConfidence torch draw (model.forward x (some attn) positions) params0.temperature (maskIndex mask x)
            (some blockEnd) j (Rows.padded pad left right row).length) k)) row) = some s') :
      WindowStep params0 s s'

theorem window_step_state (params0 : SamplingParams) (s s' : DenoiseState)
    (step : WindowStep torch model mask pad draw params0 s s') : StateStep torch model mask pad draw params0 s s' := by
  obtain ⟨x, attn, positions, blockEnd, j, left, right, k, row, _, readRow, scheduled, read, _, _, endAt, fits, written⟩ := step
  refine ⟨row, _, k, readRow, scheduled, ⟨_, _, rfl, ?_, ?_⟩, written⟩
  · intro sound
    exact rule_chosen_commit torch draw mask pad params0 x _ blockEnd j left right k s.blockEndAbs row sound read endAt fits
  · intro never c
    exact never x (some attn) positions j _

theorem step_batch_length (states states' : List DenoiseState)
    (made : stepBatch torch model mask pad draw states = some states') : states'.length = states.length := by
  cases states with
  | nil => cases made; rfl
  | cons leader rest =>
      obtain ⟨y, rows, made⟩ := Option.bind_eq_some_iff.mp made
      obtain ⟨batchSeq, _, _, padded, _, _, committed⟩ := batch_rows_cases torch model mask pad draw _ _ y rows
      have wide := commit_by_length torch draw _ _ _ _ _ _ _ _ committed
      have tall := Collect.map_m_length _ _ _ padded
      rw [Collect.map_m_length _ _ _ made, List.length_zip, wide, tall, Nat.min_self]

theorem step_batch_window (leader : DenoiseState) (rest states' : List DenoiseState)
    (made : stepBatch torch model mask pad draw (leader :: rest) = some states') (i : Nat) (s : DenoiseState)
    (read : (leader :: rest)[i]? = some s) :
    ∃ s', states'[i]? = some s' ∧ WindowStep torch model mask pad draw leader.params s s' := by
  obtain ⟨y, rows, made⟩ := Option.bind_eq_some_iff.mp made
  obtain ⟨batchSeq, ks, logits, padded, scheduled, forward, committed⟩ :=
    batch_rows_cases torch model mask pad draw _ _ y rows
  obtain ⟨attn, positions, attended, numbered, logitsEq⟩ := forward_logits_cases model _ _ _ forward
  obtain ⟨wide, readWide, widened⟩ := Collect.map_m_get _ _ _ padded i s read
  obtain ⟨k, readK, scheduledS⟩ := Collect.map_m_get _ _ _ scheduled i s read
  obtain ⟨row, readRow, widened⟩ := Option.bind_eq_some_iff.mp widened
  obtain ⟨_, wideEq⟩ := pad_row_some _ _ _ _ _ widened
  rw [wideEq] at readWide
  obtain ⟨fits, newRead⟩ := commit_by_get torch draw _ _ _ _ _ _ _ _ committed i _ readWide
  have kEq : ks.getD i 0 = k := by rw [List.getD_eq_getElem?_getD, readK]; rfl
  rw [kEq] at fits newRead
  obtain ⟨newWide, newEq, newRead⟩ : ∃ wide, wide = _ ∧ y[i]? = some wide := ⟨_, rfl, newRead⟩
  obtain ⟨s', read', unpadded⟩ := Collect.map_m_get _ _ _ made i (s, newWide)
    (List.getElem?_zip_eq_some.mpr ⟨read, newRead⟩)
  obtain ⟨newRow, cut, written⟩ := Option.bind_eq_some_iff.mp unpadded
  have cutEq := unpad_row_some _ s row newWide newRow readRow cut
  rw [newEq, mask_index_row mask batchSeq i _ readWide, id_eq, Rows.fill_window] at cutEq
  have endAt := per_row_at (fun s => rowOffset (leader :: rest) s + s.blockEndAbs) (leader :: rest) i s read
  have ones := pad_states_get _ _ _ _ attended i s row read readRow
  have ids := pad_states_get _ _ _ _ numbered i s row read readRow
  rw [List.length_replicate] at ones
  rw [List.length_range] at ids
  subst logitsEq cutEq
  refine ⟨s', read', .mk batchSeq attn _ _ i _ _ k row s' readRow scheduledS readWide ones ?_ (endAt _) fits written⟩
  intro given same
  split at same
  · rwa [← Option.some.inj same]
  · cases same

theorem step_batch_state (leader : DenoiseState) (rest states' : List DenoiseState)
    (made : stepBatch torch model mask pad draw (leader :: rest) = some states') (i : Nat) (s : DenoiseState)
    (read : (leader :: rest)[i]? = some s) :
    ∃ s', states'[i]? = some s' ∧ StateStep torch model mask pad draw leader.params s s' := by
  obtain ⟨s', read', step⟩ := step_batch_window torch model mask pad draw leader rest states' made i s read
  exact ⟨s', read', window_step_state torch model mask pad draw leader.params s s' step⟩

end Batch

end Dlmserve
