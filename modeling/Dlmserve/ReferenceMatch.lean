import Dlmserve.Budget
import Dlmserve.Device
import Dlmserve.Reference

set_option autoImplicit false

namespace Dlmserve

-- torch.topk returns as many indices as it was asked for.
def TopKSize {V : Type} (draw : Draw V) : Prop :=
  ∀ (j : Nat) (row : List Score) (k : Nat), k ≤ row.length → (draw.topk j row k).length = k

theorem top_k_sound_size {V : Type} (draw : Draw V) (sound : TopKSound draw) : TopKSize draw :=
  fun j row k fits => (sound j row k fits).size

theorem num_transfer_tokens_counts (maskIndex : List (List Bool)) (steps : Nat) :
    getNumTransferTokens maskIndex steps = computeTransferSchedule (maskIndex.map fun row => row.count true) steps := by
  rw [getNumTransferTokens, computeTransferSchedule, List.map_map]
  rfl

theorem num_transfer_tokens_eq (mask : Token) (rows : List (List Token)) (steps : Nat) :
    getNumTransferTokens (rows.map fun row => row.map (· == mask)) steps =
      computeTransferSchedule (rows.map fun row => row.count mask) steps := by
  rw [num_transfer_tokens_counts, List.map_map]
  congr 1
  apply List.map_congr_left
  intro row _
  rw [Function.comp_apply, List.count, List.countP_map, List.count]
  apply List.countP_congr
  intro t _
  simp

def referenceArgs (params : SamplingParams) (blockLength : Nat) (mask : Token) : GenerateArgs :=
  { steps := params.numDenoisingSteps, genLength := params.genLength, blockLength := blockLength, maskId := mask }

section Step

variable {V : Type} (torch : Torch V) (model : Model V) (mask : Token) (params : SamplingParams) (blockLength : Nat)
  (draw : Draw V) (attn : Option (List (List Nat))) (promptIndex : List (List Bool)) (blockEnd : Nat)
  (schedule : List (List Nat)) (i : Nat) (x : List (List Token))

theorem top_chosen_topk (size : TopKSize draw) (j : Nat) (conf : List Score) (k : Nat) :
    topk draw j conf k = if k ≤ conf.length then some (topChosen draw j conf k) else none := by
  rw [topk]
  split
  · rename_i fits
    rw [topChosen]
    split
    · rename_i zero
      have none := size j conf k fits
      rw [zero] at none ⊢
      rw [List.eq_nil_of_length_eq_zero none]
    · rfl
  · rfl

theorem generate_step_rows (size : TopKSize draw) (y : List (List Token))
    (committed : commitBy torch draw x (model.forward x attn none) (maskIndex mask x)
      (fun j => (schedule.getD j []).getD i 0) (some (.int blockEnd)) 0 (topChosen draw) = some y) :
    generateStep torch model (referenceArgs params blockLength mask) draw attn promptIndex blockEnd schedule i x =
      .ok y := by
  have rows : (x.zipIdx.mapM fun entry => do
      let row := entry.1
      let j := entry.2
      let x0p := fun c => if blockEnd ≤ c then .negInf
        else gatherProb torch (model.forward x attn none j c) (torch.argmax (model.forward x attn none j c))
      let x0 := whereMask (maskIndex mask x j) (fun c => torch.argmax (model.forward x attn none j c)) row
      let conf := confidence (maskIndex mask x j) x0p row.length
      let selectIndex ← topk draw j conf ((schedule.getD j []).getD i 0)
      some (indexPut row selectIndex x0)) =
      commitBy torch draw x (model.forward x attn none) (maskIndex mask x) (fun j => (schedule.getD j []).getD i 0)
        (some (.int blockEnd)) 0 (topChosen draw) := by
    apply Collect.map_m_congr
    rintro ⟨row, j⟩ _
    have conf : confidence (maskIndex mask x j) (fun c => if blockEnd ≤ c then .negInf
        else gatherProb torch (model.forward x attn none j c) (torch.argmax (model.forward x attn none j c))) row.length =
        rowConfidence torch draw (model.forward x attn none) 0 (maskIndex mask x) (some (.int blockEnd)) j row.length := by
      rw [rowConfidence, confidence, confidence]
      apply List.map_congr_left
      intro c inRange
      rw [clip_block_end_get (.int blockEnd) row.length _ j c (List.mem_range.mp inRange)]
      simp [block_end_at_int, predictAndScore]
    have length := row_confidence_length torch draw (model.forward x attn none) 0 (maskIndex mask x)
      (some (.int blockEnd)) j row.length
    have chosen := top_chosen_topk draw size j
      (rowConfidence torch draw (model.forward x attn none) 0 (maskIndex mask x) (some (.int blockEnd)) j row.length)
      ((schedule.getD j []).getD i 0)
    rw [length] at chosen
    dsimp only
    rw [conf, chosen]
    split
    · simp [index_put_where, predictAndScore]
    · rfl
  have logits : generateLogits torch model (referenceArgs params blockLength mask) attn promptIndex x =
      .ok (model.forward x attn none) := by
    simp [generateLogits, referenceArgs]
  rw [generateStep, logits]
  dsimp only [generateScore, referenceArgs, bind, Except.bind]
  split
  · rename_i z made
    exact congrArg Except.ok (Option.some.inj (made.symm.trans (rows.trans committed)))
  · rename_i stuck
    cases stuck.symm.trans (rows.trans committed)

theorem generate_step_idle (size : TopKSize draw)
    (idle : ∀ j row, x[j]? = some row → (schedule.getD j []).getD i 0 = 0) :
    generateStep torch model (referenceArgs params blockLength mask) draw attn promptIndex blockEnd schedule i x = .ok x := by
  apply generate_step_rows torch model mask params blockLength draw attn promptIndex blockEnd schedule i x size
  have kept : commitBy torch draw x (model.forward x attn none) (maskIndex mask x)
      (fun j => (schedule.getD j []).getD i 0) (some (.int blockEnd)) 0 (topChosen draw) = some x := by
    rw [commitBy, Collect.map_m_congr _ (fun entry => some entry.1), Collect.map_m_some, List.zipIdx_map_fst]
    rintro ⟨row, j⟩ member
    have none := idle j row (List.mem_zipIdx_iff_getElem?.mp member)
    simp only [none, Nat.zero_le, if_true, topChosen, fill_nothing]
  exact kept

end Step

section Loops

variable {V : Type} (torch : Torch V) (model : Model V) (mask : Token) (params : SamplingParams) (blockLength : Nat)
  (draws : Nat → Nat → Draw V) (attn : Option (List (List Nat))) (promptIndex : List (List Bool))

theorem generate_steps_idle (size : ∀ block step, TopKSize (draws block step)) (block blockEnd : Nat)
    (schedule : List (List Nat)) (x : List (List Token)) (left i : Nat)
    (idle : ∀ j row, x[j]? = some row → ((schedule.getD j []).drop i).sum = 0) :
    generateSteps torch model (referenceArgs params blockLength mask) (draws block) attn promptIndex blockEnd schedule i x
      left = .ok x := by
  induction left generalizing i with
  | zero => rfl
  | succ left ih =>
      have split (j : Nat) (row : List Token) (read : x[j]? = some row) :
          (schedule.getD j []).getD i 0 = 0 ∧ ((schedule.getD j []).drop (i + 1)).sum = 0 := by
        have whole := idle j row read
        rw [EvenSplit.drop_sum_step] at whole
        omega
      rw [generateSteps, generate_step_idle torch model mask params blockLength (draws block i) attn promptIndex blockEnd
        schedule i x (size block i) fun j row read => (split j row read).1]
      exact ih (i + 1) fun j row read => (split j row read).2

theorem commit_plain_size (draw : Draw V) (size : TopKSize draw) (x y : List (List Token)) (logits : Nat → Nat → V)
    (kPerRow : Nat → Nat) (blockEndAbs : Option BlockEnd) (temperature : ℚ)
    (committed : commitBy torch draw x logits (maskIndex mask x) kPerRow blockEndAbs temperature (topChosen draw) = some y)
    (j : Nat) (row row' : List Token) (before : x[j]? = some row) (after : y[j]? = some row') (a b : Nat) :
    (Rows.holding mask row a b).card ≤ (Rows.holding mask row' a b).card + kPerRow j := by
  obtain ⟨fits, filled⟩ := commit_by_get torch draw x y _ _ _ _ _ _ committed j row before
  rw [mask_index_row mask x j row before] at filled
  obtain rfl := Option.some.inj (after.symm.trans filled)
  have length : ∀ conf, conf.length = row.length → (topChosen draw j conf (kPerRow j)).length = kPerRow j := by
    intro conf same
    rw [topChosen]
    split
    · rename_i zero
      rw [zero]
      rfl
    · exact size j conf (kPerRow j) (by rw [same]; exact fits)
  refine (Rows.fill_holding_card mask row _ _ a b).trans (Nat.add_le_add_left (le_of_eq (length _ ?_)) _)
  rw [row_confidence_length]

-- One step of both loops from the same sequence: they commit the same positions,
-- and the block keeps at least the masks that are still planned.
theorem denoise_step_generate (size : ∀ block step, TopKSize (draws block step)) (plain : params.useLocalLeap = false)
    (cold : params.temperature = 0) (s : DenoiseState) (step : Nat) (affordable : Affordable mask s step) :
    ∃ s', denoiseStep torch model mask draws params attn step s = some s' ∧
      generateStep torch model (referenceArgs params blockLength mask) (draws s.blockIdx step) attn promptIndex
        s.blockEndAbs s.schedule step s.seq = .ok s'.seq ∧
      Affordable mask s' (step + 1) ∧ SameRequest s s' ∧ s'.blockIdx = s.blockIdx ∧ s'.schedule = s.schedule := by
  obtain ⟨y, committed⟩ := commit_by_total torch (draws s.blockIdx step) s.seq (model.forward s.seq attn none)
    (maskIndex mask s.seq) (plannedK s step) (some (.int s.blockEndAbs)) 0 (topChosen (draws s.blockIdx step))
    (planned_fits mask s step affordable)
  have rule : ruleChosen torch (draws s.blockIdx step) params = topChosen (draws s.blockIdx step) := by
    rw [ruleChosen, plain]
    rfl
  refine ⟨{ s with seq := y, committed := notMask mask y, stepInBlock := step }, ?_, ?_, ?_, ⟨rfl, rfl, rfl, rfl, rfl⟩, rfl, rfl⟩
  · rw [denoiseStep]
    dsimp only
    rw [commit_rows_eq, rule, cold]
    exact Option.bind_eq_some_iff.mpr ⟨y, committed, rfl⟩
  · exact generate_step_rows torch model mask params blockLength _ attn promptIndex _ _ _ _ (size s.blockIdx step) y committed
  · intro j row' read
    change y[j]? = some row' at read
    have bound := Rows.get_lt _ _ _ read
    rw [commit_by_length torch _ _ _ _ _ _ _ _ _ committed] at bound
    have before := List.getElem?_eq_getElem bound
    have taken := commit_plain_size torch mask _ (size s.blockIdx step) s.seq y _ _ _ _ committed j _ row' before read
      s.blockStartAbs s.blockEndAbs
    have planned := rest_step s step j
    have enough := affordable j _ before
    change restOf s (step + 1) j ≤ (Rows.holding mask row' s.blockStartAbs s.blockEndAbs).card
    rw [openIn] at enough
    omega

-- Where denoise leaves the block early, the reference goes on with steps that
-- plan nothing.
theorem denoise_steps_generate (size : ∀ block step, TopKSize (draws block step)) (plain : params.useLocalLeap = false)
    (cold : params.temperature = 0) (left : Nat) (s : DenoiseState) (step : Nat)
    (affordable : Affordable mask s step) :
    ∃ s', denoiseSteps torch model mask draws params attn s step left = some s' ∧
      generateSteps torch model (referenceArgs params blockLength mask) (draws s.blockIdx) attn promptIndex s.blockEndAbs
        s.schedule step s.seq left = .ok s'.seq ∧ SameRequest s s' := by
  induction left generalizing s step with
  | zero => exact ⟨s, rfl, rfl, same_request_refl s⟩
  | succ left ih =>
      obtain ⟨next, stepped, generated, after, same, block, schedule⟩ := denoise_step_generate torch model mask params
        blockLength draws attn promptIndex size plain cold s step affordable
      have ends : next.blockEndAbs = s.blockEndAbs := by
        rw [DenoiseState.blockEndAbs, block, same.promptLen, same.blockLength]
        rfl
      rw [denoiseSteps, generateSteps, stepped, generated]
      by_cases ended : (next.blockMaskCount mask).sum = 0
      · refine ⟨next, if_pos ended, ?_, same⟩
        apply generate_steps_idle torch model mask params blockLength draws attn promptIndex size
        intro j row read
        have enough := after j row read
        have counted : openIn mask next row ∈ next.blockMaskCount mask := by
          rw [openIn, ← Rows.slice_count]
          exact List.mem_map_of_mem (List.mem_of_getElem? read)
        rw [List.sum_eq_zero_iff_forall_eq_nat.mp ended _ counted, restOf, schedule] at enough
        exact Nat.le_zero.mp enough
      · obtain ⟨s', looped, rest, keeps⟩ := ih next (step + 1) after
        rw [block, ends, schedule] at rest
        exact ⟨s', (if_neg ended).trans looped, rest, same_request_trans s next s' same keeps⟩

theorem denoise_blocks_generate (size : ∀ block step, TopKSize (draws block step)) (plain : params.useLocalLeap = false)
    (cold : params.temperature = 0) (left : Nat) (s : DenoiseState) (block : Nat) (positive : 0 < s.stepsPerBlock)
    (length : s.blockLength = blockLength) :
    ∃ s', denoiseBlocks torch model mask draws params attn s block left = some s' ∧
      generateBlocks torch model (referenceArgs params blockLength mask) draws attn promptIndex s.promptLen
        s.stepsPerBlock block s.seq left = .ok s'.seq := by
  induction left generalizing s block with
  | zero => exact ⟨s, rfl, rfl⟩
  | succ left ih =>
      have entered := enter_block_eq mask block s positive
      obtain ⟨fresh, _⟩ := enter_block_fresh mask block s _ entered
      obtain ⟨next, looped, generated, same⟩ := denoise_steps_generate torch model mask params blockLength draws attn
        promptIndex size plain cold s.stepsPerBlock (entering mask block s) 0 (fresh_affordable mask _ fresh positive)
      obtain ⟨s', blocks, rest⟩ := ih next (block + 1) (by rw [same.stepsPerBlock]; exact positive)
        (by rw [same.blockLength]; exact length)
      rw [same.promptLen, same.stepsPerBlock] at rest
      have tokens : getNumTransferTokens (s.seq.map fun row =>
          (Rows.slice row (s.promptLen + block * blockLength) (s.promptLen + (block + 1) * blockLength)).map (· == mask))
          s.stepsPerBlock = some (entering mask block s).schedule := by
        have counts := num_transfer_tokens_eq mask (s.seq.map fun row =>
          Rows.slice row (s.promptLen + block * blockLength) (s.promptLen + (block + 1) * blockLength)) s.stepsPerBlock
        rw [List.map_map, List.map_map, compute_transfer_schedule_eq _ _ positive, ← length] at counts
        rw [← length]
        exact counts
      refine ⟨s', ?_, ?_⟩
      · rw [denoiseBlocks]
        exact Option.bind_eq_some_iff.mpr ⟨_, entered, Option.bind_eq_some_iff.mpr ⟨next, looped, blocks⟩⟩
      · have ends : (entering mask block s).blockEndAbs = s.promptLen + (block + 1) * blockLength := by
          rw [← length]
          rfl
        have index : (entering mask block s).blockIdx = block := rfl
        have seq : (entering mask block s).seq = s.seq := rfl
        rw [ends, index, seq] at generated
        rw [generateBlocks]
        dsimp only [referenceArgs] at tokens generated rest ⊢
        rw [tokens]
        dsimp only
        rw [generated]
        exact rest

end Loops

section Whole

variable {V : Type} (torch : Torch V) (model : Model V) (mask : Token) (full : Full) (draws : Nat → Nat → Draw V)
  (prompt : Prompt) (attention : Option (List (List Nat))) (params : SamplingParams) (numBlocks blockLength stepsPerBlock : Nat)

theorem denoise_returns_generate (accepted : Accepted params numBlocks blockLength stepsPerBlock)
    (size : ∀ block step, TopKSize (draws block step)) (plain : params.useLocalLeap = false)
    (cold : params.temperature = 0) (fits : full prompt.rows.length (prompt.width + params.genLength) = .ok ()) :
    ∃ out, denoise torch model mask full draws prompt attention params = .ok out ∧
      generate torch model (referenceArgs params blockLength mask) full draws prompt attention = .ok out := by
  have quotient : params.genLength / blockLength = numBlocks := by
    rw [accepted.blocks, Nat.mul_div_cancel _ accepted.lengthPos]
  have steps : params.numDenoisingSteps / numBlocks = stepsPerBlock := by
    rw [accepted.steps, Nat.mul_div_cancel_left _ accepted.blocksPos]
  have even : params.genLength % blockLength = 0 := by rw [accepted.blocks, Nat.mul_mod_left]
  have whole : params.numDenoisingSteps % numBlocks = 0 := by rw [accepted.steps, Nat.mul_mod_right]
  have made := init_state_accepts prompt params mask numBlocks blockLength stepsPerBlock accepted fits
  obtain ⟨final, looped, generated⟩ := denoise_blocks_generate torch model mask params blockLength draws
    (fullAttentionMask params attention) (notMask mask (prompt.rows.map fun row => row ++ List.replicate params.genLength mask))
    size plain cold numBlocks (initialState prompt params mask blockLength stepsPerBlock) 0 accepted.stepsPos rfl
  refine ⟨final.seq, ?_, ?_⟩
  · apply denoise_looped torch model mask draws params prompt attention _ final made
    change denoiseBlocks torch model mask draws params (fullAttentionMask params attention)
      (initialState prompt params mask blockLength stepsPerBlock) 0 (params.genLength / blockLength) = some final
    rw [quotient, looped]
  · simp only [generate, referenceArgs, fits, Nat.ne_of_gt accepted.lengthPos, even, quotient,
      Nat.ne_of_gt accepted.blocksPos, whole, steps, ne_eq, not_true_eq_false, if_false]
    exact generated

theorem denoise_raises_generate (accepted : Accepted params numBlocks blockLength stepsPerBlock) (error : PyError)
    (unallocated : full prompt.rows.length (prompt.width + params.genLength) = .error error) :
    denoise torch model mask full draws prompt attention params =
      generate torch model (referenceArgs params blockLength mask) full draws prompt attention := by
  rw [denoise, init_state_accepted prompt params mask numBlocks blockLength stepsPerBlock accepted, unallocated, generate,
    referenceArgs]
  dsimp only
  rw [unallocated]
  rfl

end Whole

-- With the settings of the reference test both procedures come to the same: they return the
-- same tokens, unless the canvas cannot be allocated, when both raise.
theorem reference_equivalence {V : Type} (torch : Torch V) (model : Model V) (mask : Token) (full : Full)
    (draws : Nat → Nat → Draw V) (prompt : Prompt) (attention : Option (List (List Nat))) (params : SamplingParams)
    (numBlocks blockLength stepsPerBlock : Nat) (accepted : Accepted params numBlocks blockLength stepsPerBlock)
    (size : ∀ block step, TopKSize (draws block step)) (plain : params.useLocalLeap = false)
    (cold : params.temperature = 0) :
    denoise torch model mask full draws prompt attention params =
        generate torch model (referenceArgs params blockLength mask) full draws prompt attention ∧
      (full prompt.rows.length (prompt.width + params.genLength) = .ok () →
        ∃ out, denoise torch model mask full draws prompt attention params = .ok out) := by
  cases allocated : full prompt.rows.length (prompt.width + params.genLength) with
  | error error =>
      exact ⟨denoise_raises_generate torch model mask full draws prompt attention params numBlocks blockLength stepsPerBlock
        accepted error allocated, fun fits => by cases fits⟩
  | ok _ =>
      obtain ⟨out, returned, generated⟩ := denoise_returns_generate torch model mask full draws prompt attention params numBlocks
        blockLength stepsPerBlock accepted size plain cold allocated
      exact ⟨returned.trans generated.symm, fun _ => ⟨out, returned⟩⟩

theorem reference_equivalence_two_rows : ∃ out,
    denoise writtenTorch (writtenModel anchorAnswer) 9 .ample (fun _ _ => highDraw) ⟨[[1, 2], [9, 3]], 2, by simp⟩
        (some [[0, 1], [1, 1]]) (blockParams false) = .ok out ∧
      generate writtenTorch (writtenModel anchorAnswer) (referenceArgs (blockParams false) 4 9) .ample (fun _ _ => highDraw)
        ⟨[[1, 2], [9, 3]], 2, by simp⟩ (some [[0, 1], [1, 1]]) = .ok out := by
  obtain ⟨same, returns⟩ := reference_equivalence writtenTorch (writtenModel anchorAnswer) 9 .ample (fun _ _ => highDraw)
    ⟨[[1, 2], [9, 3]], 2, by simp⟩ (some [[0, 1], [1, 1]]) (blockParams false) 3 4 2
    ⟨rfl, rfl, rfl, by decide, by decide, by decide⟩ (fun _ _ => top_k_sound_size highDraw high_draw_sound) rfl rfl
  obtain ⟨out, returned⟩ := returns rfl
  exact ⟨out, returned, same.symm.trans returned⟩

end Dlmserve
