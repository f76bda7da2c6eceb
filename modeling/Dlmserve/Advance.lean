import Dlmserve.StepSpec

set_option autoImplicit false

namespace Dlmserve

theorem compute_transfer_schedule_eq (maskCount : List Nat) (steps : Nat) (positive : 0 < steps) :
    computeTransferSchedule maskCount steps = some (maskCount.map fun n => EvenSplit.shares n steps) := by
  rw [computeTransferSchedule, if_neg (Nat.ne_of_gt positive)]
  rfl

theorem compute_transfer_schedule_some (maskCount : List Nat) (steps : Nat) (schedule : List (List Nat))
    (made : computeTransferSchedule maskCount steps = some schedule) :
    0 < steps ∧ schedule = maskCount.map fun n => EvenSplit.shares n steps := by
  rcases Nat.eq_zero_or_pos steps with zero | positive
  · rw [computeTransferSchedule, if_pos zero] at made
    cases made
  · rw [compute_transfer_schedule_eq maskCount steps positive] at made
    exact ⟨positive, (Option.some.inj made).symm⟩

section Advance

variable (mask : Token) (s : DenoiseState)

-- Advancing keeps the block, or opens the next one with a schedule recomputed
-- from its masks, or passes the last one and leaves the schedule alone.
def staying : DenoiseState := { s with stepInBlock := s.stepInBlock + 1 }

def passing : DenoiseState := { s with stepInBlock := 0, blockIdx := s.blockIdx + 1 }

def opening : DenoiseState :=
  { passing s with schedule := ((passing s).blockMaskCount mask).map fun n => EvenSplit.shares n s.stepsPerBlock }

def blockOver : Prop := s.stepsPerBlock ≤ s.stepInBlock + 1 ∨ (s.blockMaskCount mask).sum = 0

instance : Decidable (blockOver mask s) :=
  inferInstanceAs (Decidable (s.stepsPerBlock ≤ s.stepInBlock + 1 ∨ (s.blockMaskCount mask).sum = 0))

theorem advance_unfold :
    advance mask s = if blockOver mask s then nextBlock mask (staying s) else some (staying s) := rfl

theorem next_block_unfold : nextBlock mask (staying s) =
    if (passing s).done = true then some (passing s)
    else (computeTransferSchedule ((passing s).blockMaskCount mask) s.stepsPerBlock).bind fun schedule =>
      some { passing s with schedule := schedule } := rfl

theorem advance_eq (positive : 0 < s.stepsPerBlock) :
    advance mask s = some (if blockOver mask s then if (passing s).done then passing s else opening mask s
      else staying s) := by
  rw [advance_unfold, next_block_unfold, compute_transfer_schedule_eq _ _ positive]
  by_cases ended : blockOver mask s
  · rw [if_pos ended, if_pos ended]
    by_cases last : (passing s).done = true
    · rw [if_pos last, if_pos last]
    · rw [if_neg last, if_neg last]
      rfl
  · rw [if_neg ended, if_neg ended]

theorem advance_cases (s' : DenoiseState) (moved : advance mask s = some s') :
    (¬ blockOver mask s ∧ s' = staying s) ∨ (blockOver mask s ∧ (passing s).done = true ∧ s' = passing s) ∨
      (blockOver mask s ∧ (passing s).done = false ∧ 0 < s.stepsPerBlock ∧ s' = opening mask s) := by
  rw [advance_unfold, next_block_unfold] at moved
  by_cases ended : blockOver mask s
  · rw [if_pos ended] at moved
    by_cases last : (passing s).done = true
    · rw [if_pos last] at moved
      exact Or.inr (Or.inl ⟨ended, last, (Option.some.inj moved).symm⟩)
    · rw [if_neg last] at moved
      obtain ⟨schedule, computed, same⟩ := Option.bind_eq_some_iff.mp moved
      obtain ⟨positive, rfl⟩ := compute_transfer_schedule_some _ _ _ computed
      exact Or.inr (Or.inr ⟨ended, by simpa using last, positive, (Option.some.inj same).symm⟩)
  · rw [if_neg ended] at moved
    exact Or.inl ⟨ended, (Option.some.inj moved).symm⟩

def committedRow (row : List Token) : DenoiseState :=
  { s with seq := s.seq.set 0 row, committed := s.committed.set 0 (row.map (· != mask)) }

theorem write_back_eq (row : List Token) : writeBack mask s row = advance mask (committedRow mask s row) := rfl

end Advance

structure SameRequest (s s' : DenoiseState) : Prop where
  promptLen : s'.promptLen = s.promptLen
  genLength : s'.genLength = s.genLength
  blockLength : s'.blockLength = s.blockLength
  stepsPerBlock : s'.stepsPerBlock = s.stepsPerBlock
  params : s'.params = s.params

theorem same_request_refl (s : DenoiseState) : SameRequest s s := ⟨rfl, rfl, rfl, rfl, rfl⟩

theorem same_request_trans (a b c : DenoiseState) (early : SameRequest a b) (late : SameRequest b c) :
    SameRequest a c :=
  ⟨late.1.trans early.1, late.2.trans early.2, late.3.trans early.3, late.4.trans early.4, late.5.trans early.5⟩

theorem write_back_keeps (mask : Token) (s s' : DenoiseState) (row : List Token) (written : writeBack mask s row = some s') :
    SameRequest s s' ∧ s'.seq = s.seq.set 0 row ∧ s'.committed = s.committed.set 0 (row.map (· != mask)) := by
  rw [write_back_eq] at written
  rcases advance_cases mask _ s' written with ⟨_, rfl⟩ | ⟨_, _, rfl⟩ | ⟨_, _, _, rfl⟩ <;>
    exact ⟨⟨rfl, rfl, rfl, rfl, rfl⟩, rfl, rfl⟩

structure Accepted (params : SamplingParams) (numBlocks blockLength stepsPerBlock : Nat) : Prop where
  blockLength_eq : blockLength = params.blockLength.getD params.genLength
  blocks : params.genLength = numBlocks * blockLength
  steps : params.numDenoisingSteps = numBlocks * stepsPerBlock
  blocksPos : 0 < numBlocks
  lengthPos : 0 < blockLength
  stepsPos : 0 < stepsPerBlock

def initialState (prompt : Prompt) (params : SamplingParams) (mask : Token) (blockLength stepsPerBlock : Nat) :
    DenoiseState :=
  let seq := prompt.rows.map fun row => row ++ List.replicate params.genLength mask
  { seq := seq
    committed := notMask mask seq
    promptLen := prompt.width
    genLength := params.genLength
    blockLength := blockLength
    stepsPerBlock := stepsPerBlock
    schedule := seq.map fun row =>
      EvenSplit.shares ((Rows.slice row prompt.width (prompt.width + blockLength)).count mask) stepsPerBlock
    params := params }

theorem count_not_mask (mask : Token) (row : List Token) (a b : Nat) :
    (Rows.slice (row.map (· != mask)) a b).count false = (Rows.slice row a b).count mask := by
  rw [Rows.slice, Rows.slice, ← List.map_take, ← List.map_drop, List.count, List.countP_map, List.count]
  apply List.countP_congr
  intro t _
  by_cases same : t = mask <;> simp [same]

theorem init_state_cases {full : Full} (prompt : Prompt) (params : SamplingParams) (mask : Token) (s : DenoiseState)
    (made : initState full prompt params mask = .ok s) :
    full prompt.rows.length (prompt.width + params.genLength) = .ok () ∧
    ∃ numBlocks blockLength stepsPerBlock, Accepted params numBlocks blockLength stepsPerBlock ∧
      s = initialState prompt params mask blockLength stepsPerBlock := by
  rw [initState] at made
  dsimp only at made
  by_cases zeroLength : params.blockLength.getD params.genLength = 0
  · rw [if_pos zeroLength] at made
    cases made
  rw [if_neg zeroLength] at made
  by_cases ragged : params.genLength % params.blockLength.getD params.genLength ≠ 0
  · rw [if_pos ragged] at made
    cases made
  rw [if_neg ragged] at made
  by_cases zeroBlocks : params.genLength / params.blockLength.getD params.genLength = 0
  · rw [if_pos zeroBlocks] at made
    cases made
  rw [if_neg zeroBlocks] at made
  by_cases uneven : params.numDenoisingSteps % (params.genLength / params.blockLength.getD params.genLength) ≠ 0
  · rw [if_pos uneven] at made
    cases made
  rw [if_neg uneven] at made
  split at made
  · cases made
  rename_i _ fits
  split at made
  · cases made
  · rename_i schedule computed
    obtain ⟨positive, rfl⟩ := compute_transfer_schedule_some _ _ _ computed
    refine ⟨fits, _, _, _, ⟨rfl, ?_, ?_, Nat.pos_of_ne_zero zeroBlocks, Nat.pos_of_ne_zero zeroLength, positive⟩, ?_⟩
    · exact (Nat.div_mul_cancel (Nat.dvd_of_mod_eq_zero (not_not.mp ragged))).symm
    · exact (Nat.mul_div_cancel' (Nat.dvd_of_mod_eq_zero (not_not.mp uneven))).symm
    · rw [← Except.ok.inj made, initialState]
      simp only [notMask, List.map_map, DenoiseState.mk.injEq, true_and, and_true]
      apply List.map_congr_left
      intro row _
      simp only [Function.comp_apply, count_not_mask]

theorem init_state_ok {full : Full} (prompt : Prompt) (params : SamplingParams) (mask : Token) (s : DenoiseState)
    (made : initState full prompt params mask = .ok s) :
    ∃ numBlocks blockLength stepsPerBlock, Accepted params numBlocks blockLength stepsPerBlock ∧
      s = initialState prompt params mask blockLength stepsPerBlock :=
  (init_state_cases prompt params mask s made).2

theorem init_state_accepted {full : Full} (prompt : Prompt) (params : SamplingParams) (mask : Token)
    (numBlocks blockLength stepsPerBlock : Nat) (accepted : Accepted params numBlocks blockLength stepsPerBlock) :
    initState full prompt params mask = (full prompt.rows.length (prompt.width + params.genLength)).map
      fun _ => initialState prompt params mask blockLength stepsPerBlock := by
  have quotient : params.genLength / blockLength = numBlocks := by
    rw [accepted.blocks, Nat.mul_div_cancel _ accepted.lengthPos]
  have steps : params.numDenoisingSteps / numBlocks = stepsPerBlock := by
    rw [accepted.steps, Nat.mul_div_cancel_left _ accepted.blocksPos]
  have even : params.genLength % blockLength = 0 := by rw [accepted.blocks, Nat.mul_mod_left]
  have whole : params.numDenoisingSteps % numBlocks = 0 := by rw [accepted.steps, Nat.mul_mod_right]
  rw [initState]
  dsimp only
  rw [← accepted.blockLength_eq, if_neg (Nat.ne_of_gt accepted.lengthPos), if_neg (not_not.mpr even), quotient,
    if_neg (Nat.ne_of_gt accepted.blocksPos), if_neg (not_not.mpr whole), steps]
  cases full prompt.rows.length (prompt.width + params.genLength) with
  | error error => rfl
  | ok _ =>
      dsimp only [Except.map]
      rw [compute_transfer_schedule_eq _ _ accepted.stepsPos]
      simp only [initialState, notMask, List.map_map, Except.ok.injEq, DenoiseState.mk.injEq, true_and, and_true]
      apply List.map_congr_left
      intro row _
      simp only [Function.comp_apply, count_not_mask]

theorem init_state_accepts {full : Full} (prompt : Prompt) (params : SamplingParams) (mask : Token)
    (numBlocks blockLength stepsPerBlock : Nat) (accepted : Accepted params numBlocks blockLength stepsPerBlock)
    (fits : full prompt.rows.length (prompt.width + params.genLength) = .ok ()) :
    initState full prompt params mask = .ok (initialState prompt params mask blockLength stepsPerBlock) := by
  rw [init_state_accepted prompt params mask numBlocks blockLength stepsPerBlock accepted, fits]
  rfl

-- The state that init_state makes does not depend on how its canvas came to be allocated.
theorem init_state_ample {full : Full} (prompt : Prompt) (params : SamplingParams) (mask : Token) (s : DenoiseState)
    (made : initState full prompt params mask = .ok s) : initState .ample prompt params mask = .ok s := by
  obtain ⟨numBlocks, blockLength, stepsPerBlock, accepted, rfl⟩ := init_state_ok prompt params mask s made
  exact init_state_accepts prompt params mask numBlocks blockLength stepsPerBlock accepted rfl

end Dlmserve
