import Dlmserve.Device
import Dlmserve.Protocol

set_option autoImplicit false

namespace Dlmserve

variable {full : Full}

theorem init_state_accepted_iff (prompt : Prompt) (params : SamplingParams) (mask : Token) :
    (∃ s, initState full prompt params mask = .ok s) ↔
      (∃ numBlocks blockLength stepsPerBlock, Accepted params numBlocks blockLength stepsPerBlock) ∧
        full prompt.rows.length (prompt.width + params.genLength) = .ok () := by
  constructor
  · rintro ⟨s, made⟩
    obtain ⟨fits, numBlocks, blockLength, stepsPerBlock, accepted, _⟩ := init_state_cases prompt params mask s made
    exact ⟨⟨numBlocks, blockLength, stepsPerBlock, accepted⟩, fits⟩
  · rintro ⟨⟨numBlocks, blockLength, stepsPerBlock, accepted⟩, fits⟩
    exact ⟨_, init_state_accepts prompt params mask numBlocks blockLength stepsPerBlock accepted fits⟩

theorem init_state_divides (prompt : Prompt) (params : SamplingParams) (mask : Token) (gen : 0 < params.genLength)
    (steps : 0 < params.numDenoisingSteps) :
    (∃ s, initState full prompt params mask = .ok s) ↔
      (params.blockLength.getD params.genLength ∣ params.genLength ∧
        params.genLength / params.blockLength.getD params.genLength ∣ params.numDenoisingSteps) ∧
        full prompt.rows.length (prompt.width + params.genLength) = .ok () := by
  rw [init_state_accepted_iff]
  refine and_congr_left fun _ => ?_
  constructor
  · rintro ⟨numBlocks, blockLength, stepsPerBlock, accepted⟩
    rw [← accepted.blockLength_eq, accepted.blocks, Nat.mul_div_cancel _ accepted.lengthPos, accepted.steps]
    exact ⟨Nat.dvd_mul_left blockLength numBlocks, Nat.dvd_mul_right numBlocks stepsPerBlock⟩
  · rintro ⟨even, whole⟩
    have division := Nat.div_mul_cancel even
    have product := Nat.mul_div_cancel' whole
    refine ⟨_, _, _, rfl, division.symm, product.symm, ?_, Nat.pos_of_dvd_of_pos even gen, ?_⟩
    · exact Nat.pos_of_dvd_of_pos whole steps
    · exact Nat.div_pos (Nat.le_of_dvd steps whole) (Nat.pos_of_dvd_of_pos whole steps)

-- Where it fails it is by one of those checks or by the allocation, not by a division by zero.
theorem init_state_raises (prompt : Prompt) (params : SamplingParams) (mask : Token)
    (block : 0 < params.blockLength.getD params.genLength) (gen : 0 < params.genLength)
    (steps : 0 < params.numDenoisingSteps) (error : PyError) (raised : initState full prompt params mask = .error error) :
    (∃ message, error = .valueError message) ∨
      full prompt.rows.length (prompt.width + params.genLength) = .error error := by
  rw [initState] at raised
  dsimp only at raised
  rw [if_neg (Nat.ne_of_gt block)] at raised
  by_cases ragged : params.genLength % params.blockLength.getD params.genLength ≠ 0
  · rw [if_pos ragged] at raised
    exact Or.inl ⟨_, (Except.error.inj raised).symm⟩
  rw [if_neg ragged] at raised
  have even := Nat.dvd_of_mod_eq_zero (not_not.mp ragged)
  have blocks : 0 < params.genLength / params.blockLength.getD params.genLength :=
    Nat.div_pos (Nat.le_of_dvd gen even) block
  rw [if_neg (Nat.ne_of_gt blocks)] at raised
  by_cases uneven : params.numDenoisingSteps % (params.genLength / params.blockLength.getD params.genLength) ≠ 0
  · rw [if_pos uneven] at raised
    exact Or.inl ⟨_, (Except.error.inj raised).symm⟩
  rw [if_neg uneven] at raised
  cases allocated : full prompt.rows.length (prompt.width + params.genLength) with
  | error other =>
      rw [allocated] at raised
      obtain rfl := Except.error.inj raised
      exact Or.inr rfl
  | ok _ =>
      have whole := Nat.dvd_of_mod_eq_zero (not_not.mp uneven)
      rw [allocated] at raised
      dsimp only at raised
      rw [compute_transfer_schedule_eq _ _ (Nat.div_pos (Nat.le_of_dvd steps whole) blocks)] at raised
      cases raised

section Body

variable (req : ChatCompletionRequest) (drawn : Int) (prompt : Prompt) (mask : Token)

theorem validated_init_error (valid : req.validate = .ok ()) (error : PyError)
    (raised : initState full prompt (req.samplingParams drawn) mask = .error error) :
    (∃ message, error = .valueError message) ∨
      full prompt.rows.length (prompt.width + req.chosenGenLength.toNat) = .error error := by
  have bounded := req.validate_bounded valid
  have gen := req.chosen_gen_length_positive bounded
  have block := req.chosen_block_length_positive bounded
  have steps := bounded.steps
  apply init_state_raises prompt (req.samplingParams drawn) mask _ _ _ error raised
  · change 0 < req.chosenBlockLength.toNat
    omega
  · change 0 < req.chosenGenLength.toNat
    omega
  · change 0 < req.numDenoisingSteps.toNat
    omega

theorem validated_init_divides (valid : req.validate = .ok ()) :
    (∃ s, initState full prompt (req.samplingParams drawn) mask = .ok s) ↔
      (req.chosenBlockLength ∣ req.chosenGenLength ∧
        req.chosenGenLength / req.chosenBlockLength ∣ req.numDenoisingSteps) ∧
        full prompt.rows.length (prompt.width + req.chosenGenLength.toNat) = .ok () := by
  have bounded := req.validate_bounded valid
  have gen := req.chosen_gen_length_positive bounded
  have block := req.chosen_block_length_positive bounded
  have steps := bounded.steps
  rw [init_state_divides prompt (req.samplingParams drawn) mask (by change 0 < req.chosenGenLength.toNat; omega)
    (by change 0 < req.numDenoisingSteps.toNat; omega)]
  refine and_congr_left fun _ => ?_
  change req.chosenBlockLength.toNat ∣ req.chosenGenLength.toNat ∧
    req.chosenGenLength.toNat / req.chosenBlockLength.toNat ∣ req.numDenoisingSteps.toNat ↔ _
  rw [← Int.natCast_dvd_natCast, ← Int.natCast_dvd_natCast, Int.natCast_div, Int.toNat_of_nonneg gen.le,
    Int.toNat_of_nonneg block.le, Int.toNat_of_nonneg steps.le]

-- A body that passes validation passes init_state exactly when its block length divides its
-- length, the number of blocks divides its steps, and the canvas can be allocated; otherwise
-- one of these raises, and nothing divides by zero.
theorem validated_init_iff (valid : req.validate = .ok ()) :
    ((∃ s, initState full prompt (req.samplingParams drawn) mask = .ok s) ↔
      (req.chosenBlockLength ∣ req.chosenGenLength ∧
        req.chosenGenLength / req.chosenBlockLength ∣ req.numDenoisingSteps) ∧
        full prompt.rows.length (prompt.width + req.chosenGenLength.toNat) = .ok ()) ∧
    ∀ error, initState full prompt (req.samplingParams drawn) mask = .error error →
      (∃ message, error = .valueError message) ∨
        full prompt.rows.length (prompt.width + req.chosenGenLength.toNat) = .error error :=
  ⟨validated_init_divides req drawn prompt mask valid, validated_init_error req drawn prompt mask valid⟩

end Body

def lengthsBody (maxTokens blockLength : Int) : ChatCompletionRequest :=
  { messages := [⟨.user, "hi"⟩], maxTokens := some maxTokens, blockLength := some blockLength }

theorem validated_init_two_blocks :
    ∃ s, initState .ample (.single [1]) ((lengthsBody 64 32).samplingParams 0) 9 = .ok s :=
  (validated_init_iff (lengthsBody 64 32) 0 (.single [1]) 9 (by decide +kernel)).1.mpr ⟨by decide, rfl⟩

-- Three bodies in the bounds of their fields that init_state does not take: a length that
-- the blocks do not divide, three blocks for the default 128 steps, and a canvas that is too
-- large.
theorem validated_body_raises :
    (lengthsBody 100 64).validate = .ok () ∧ (lengthsBody 192 64).validate = .ok () ∧
      (lengthsBody (2 ^ 62) (2 ^ 62)).validate = .ok () ∧
      initState .ample (.single [1]) ((lengthsBody 100 64).samplingParams 0) 9 =
        .error (.valueError "gen_length (100) must be divisible by block_length (64)") ∧
      initState .ample (.single [1]) ((lengthsBody 192 64).samplingParams 0) 9 =
        .error (.valueError "num_denoising_steps (128) must be divisible by num_blocks (3)") ∧
      initState (smallFull (2 ^ 40)) (.single [1]) ((lengthsBody (2 ^ 62) (2 ^ 62)).samplingParams 0) 9 =
        .error outOfMemory := by
  refine ⟨by decide +kernel, by decide +kernel, by decide +kernel, by decide +kernel, by decide +kernel, by decide +kernel⟩

end Dlmserve
