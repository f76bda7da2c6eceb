import Dlmserve.PlainStep

set_option autoImplicit false

namespace Dlmserve

variable {full : Full}

def DenoiseState.reparam (change : SamplingParams → SamplingParams) (s : DenoiseState) : DenoiseState :=
  { s with params := change s.params }

section Reparam

variable (change : SamplingParams → SamplingParams) (mask : Token) (s : DenoiseState)

-- The counters, the schedule and the rows of a state never look at its parameters.
theorem next_block_reparam : nextBlock mask (s.reparam change) = (nextBlock mask s).map (·.reparam change) := by
  have scheduled (counts : Option (List (List Nat))) :
      (counts.bind fun schedule => some (({ passing s with schedule := schedule } : DenoiseState).reparam change)) =
        (counts.bind fun schedule => some { passing s with schedule := schedule }).map (·.reparam change) := by
    cases counts <;> rfl
  change (if (passing s).done = true then some ((passing s).reparam change) else _) =
    (if (passing s).done = true then some (passing s) else _).map _
  split
  · rfl
  · exact scheduled (computeTransferSchedule ((passing s).blockMaskCount mask) s.stepsPerBlock)

theorem advance_reparam : advance mask (s.reparam change) = (advance mask s).map (·.reparam change) := by
  have same : blockOver mask (s.reparam change) ↔ blockOver mask s := Iff.rfl
  rw [advance_unfold, advance_unfold]
  by_cases ended : blockOver mask s
  · rw [if_pos ended, if_pos (same.mpr ended)]
    exact next_block_reparam change mask (staying s)
  · rw [if_neg ended, if_neg (same.not.mpr ended)]
    rfl

theorem write_back_reparam (row : List Token) :
    writeBack mask (s.reparam change) row = (writeBack mask s row).map (·.reparam change) :=
  advance_reparam change mask (committedRow mask s row)

variable {V : Type} (torch : Torch V)

theorem plain_step_reparam (view : List Token → Nat → V) (same : (change s.params).shared = s.params.shared) :
    plainStep torch view mask (s.reparam change) = (plainStep torch view mask s).map (·.reparam change) := by
  change ((seqRow s).bind fun row => (scheduledK s).bind fun k =>
    writeBack mask (s.reparam change) (plainRow torch view mask (change s.params) row k s.blockEndAbs)) =
    ((seqRow s).bind fun row => (scheduledK s).bind fun k =>
      writeBack mask s (plainRow torch view mask s.params row k s.blockEndAbs)).map (·.reparam change)
  cases seqRow s with
  | none => rfl
  | some row =>
      cases scheduledK s with
      | none => rfl
      | some k =>
          dsimp only [Option.bind_some]
          rw [plain_row_shared torch view mask _ _ same, write_back_reparam]

end Reparam

section Batch

variable {V : Type} (torch : Torch V) (model : Model V) (mask pad : Token) (draw : Draw V)
  (change : SamplingParams → SamplingParams) (states : List DenoiseState)

theorem max_prompt_reparam : maxPromptLen (states.map (·.reparam change)) = maxPromptLen states := by
  rw [maxPromptLen, maxPromptLen, List.map_map]
  rfl

theorem max_total_reparam : maxTotal (states.map (·.reparam change)) = maxTotal states := by
  rw [maxTotal, maxTotal, List.map_map, max_prompt_reparam]
  rfl

theorem row_offset_reparam (s : DenoiseState) :
    rowOffset (states.map (·.reparam change)) (s.reparam change) = rowOffset states s := by
  rw [rowOffset, rowOffset, max_prompt_reparam]
  rfl

theorem pad_states_reparam (fill : Nat) (content : List Token → List Nat) :
    padStates (states.map (·.reparam change)) fill content = padStates states fill content := by
  rw [padStates, padStates, List.mapM_map]
  apply Collect.map_m_congr
  intro s _
  change ((seqRow s).bind fun row => padRow fill (maxTotal (states.map (·.reparam change)))
    (rowOffset (states.map (·.reparam change)) (s.reparam change)) (content row)) = _
  rw [max_total_reparam, row_offset_reparam]
  rfl

theorem forward_logits_reparam (batchSeq : List (List Token)) :
    forwardLogits model (states.map (·.reparam change)) batchSeq = forwardLogits model states batchSeq := by
  rw [forwardLogits, forwardLogits, pad_states_reparam, pad_states_reparam]

theorem unpad_row_reparam (s : DenoiseState) (row : List Token) :
    unpadRow (states.map (·.reparam change)) (s.reparam change) row = unpadRow states s row := by
  rw [unpadRow, unpadRow, row_offset_reparam]
  rfl

theorem batch_rows_reparam (params0 params0' : SamplingParams) (same : params0'.shared = params0.shared) :
    batchRows torch model mask pad draw (states.map (·.reparam change)) params0' =
      batchRows torch model mask pad draw states params0 := by
  have planned : (states.map (·.reparam change)).mapM scheduledK = states.mapM scheduledK := by
    rw [List.mapM_map]
    rfl
  have ends : ((states.map (·.reparam change)).map fun s => rowOffset (states.map (·.reparam change)) s + s.blockEndAbs) =
      states.map fun s => rowOffset states s + s.blockEndAbs := by
    rw [List.map_map]
    apply List.map_congr_left
    intro s _
    exact congrArg (· + s.blockEndAbs) (row_offset_reparam change states s)
  rw [batchRows, batchRows, pad_states_reparam, planned, ends, commit_rows_shared torch mask _ _ same]
  simp only [forward_logits_reparam]

-- A batch depends on the parameters of its states by what they share only.
theorem step_batch_reparam (same : ∀ params, (change params).shared = params.shared) :
    stepBatch torch model mask pad draw (states.map (·.reparam change)) =
      (stepBatch torch model mask pad draw states).map (List.map (·.reparam change)) := by
  cases states with
  | nil => rfl
  | cons leader rest =>
      have rows := batch_rows_reparam torch model mask pad draw change (leader :: rest) leader.params (change leader.params)
        (same leader.params)
      change ((batchRows torch model mask pad draw ((leader :: rest).map (·.reparam change)) (change leader.params)).bind
        fun newBatchSeq => (((leader :: rest).map (·.reparam change)).zip newBatchSeq).mapM _) = Option.map _
          ((batchRows torch model mask pad draw (leader :: rest) leader.params).bind fun newBatchSeq =>
            ((leader :: rest).zip newBatchSeq).mapM _)
      rw [rows]
      cases batchRows torch model mask pad draw (leader :: rest) leader.params with
      | none => rfl
      | some newBatchSeq =>
          dsimp only [Option.bind_some]
          rw [List.zip_map_left, List.mapM_map, ← Collect.map_m_map_results]
          apply Collect.map_m_congr
          rintro ⟨s, row⟩ _
          change ((unpadRow ((leader :: rest).map (·.reparam change)) (s.reparam change) row).bind fun newRow =>
            writeBack mask (s.reparam change) newRow) = ((unpadRow (leader :: rest) s row).bind fun newRow =>
              writeBack mask s newRow).map (·.reparam change)
          rw [unpad_row_reparam]
          simp only [write_back_reparam]
          cases unpadRow (leader :: rest) s row <;> rfl

end Batch

section Reseed

def SamplingParams.reseed (seed : Int) (params : SamplingParams) : SamplingParams := { params with seed := seed }

variable (seed : Int) (mask : Token)

theorem init_state_reseed (prompt : Prompt) (params : SamplingParams) (start : DenoiseState)
    (made : initState full prompt params mask = .ok start) :
    initState full prompt (params.reseed seed) mask = .ok (start.reparam (SamplingParams.reseed seed)) := by
  obtain ⟨fits, numBlocks, blockLength, stepsPerBlock, accepted, rfl⟩ := init_state_cases prompt params mask start made
  exact init_state_accepts prompt (params.reseed seed) mask numBlocks blockLength stepsPerBlock
    ⟨accepted.blockLength_eq, accepted.blocks, accepted.steps, accepted.blocksPos, accepted.lengthPos, accepted.stepsPos⟩ fits

-- A seed never decides whether a request is accepted.
theorem init_state_reseed_error (prompt : Prompt) (params : SamplingParams) (error : PyError)
    (raised : initState full prompt params mask = .error error) :
    ∃ error', initState full prompt (params.reseed seed) mask = .error error' := by
  cases made : initState full prompt (params.reseed seed) mask with
  | error error' => exact ⟨error', rfl⟩
  | ok start =>
      have back := init_state_reseed params.seed mask prompt (params.reseed seed) start made
      exact absurd (raised.symm.trans back) (by simp)

end Reseed

end Dlmserve
