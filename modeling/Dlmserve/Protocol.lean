import Dlmserve.Device

set_option autoImplicit false

namespace Dlmserve

inductive Role where
  | system
  | user
  | assistant
deriving DecidableEq

structure ChatMessage where
  role : Role
  content : String
deriving DecidableEq

inductive BlockSchedule where
  | uniform
  | frontLoaded
  | cosine
deriving DecidableEq

inductive ConfidenceMetric where
  | top1Prob
  | entropyInverse
deriving DecidableEq

inductive AttentionBackend where
  | sdpa
  | fa2
deriving DecidableEq

abbrev Json := String

structure ChatCompletionRequest where
  model : String := "gsai-ml/LLaDA-8B-Instruct"
  messages : List ChatMessage
  temperature : ℚ := 0
  seed : Option Int := none
  stream : Bool := false
  maxTokens : Option Int := none
  topP : Option ℚ := none
  topK : Option Int := none
  presencePenalty : Option ℚ := none
  frequencyPenalty : Option ℚ := none
  n : Option Int := none
  logitBias : Option (List (String × ℚ)) := none
  logprobs : Option Bool := none
  tools : Option (List Json) := none
  toolChoice : Option Json := none
  functions : Option (List Json) := none
  numDenoisingSteps : Int := 128
  blockLength : Option Int := none
  blockSchedule : BlockSchedule := .uniform
  confidenceMetric : ConfidenceMetric := .top1Prob
  targetLength : Option Int := none
  attentionBackend : AttentionBackend := .sdpa
  forceSingleBatch : Bool := false
  useLocalLeap : Bool := false
  localLeapAnchorThreshold : ℚ := 9 / 10
  localLeapNeighborThreshold : ℚ := 3 / 4
  localLeapRadius : Int := 4
deriving DecidableEq

structure UsageInfo where
  promptTokens : Nat
  completionTokens : Nat
  totalTokens : Nat
deriving DecidableEq

inductive FinishReason where
  | stop
  | length
deriving DecidableEq

structure ChatCompletionChoice where
  index : Nat
  message : ChatMessage
  finishReason : FinishReason := .stop
deriving DecidableEq

structure ChatCompletionResponse where
  id : String
  object : String := "chat.completion"
  model : String
  choices : List ChatCompletionChoice
  usage : UsageInfo
deriving DecidableEq

structure DeltaContent where
  role : Option Role := none
  content : Option String := none
  denoisingStep : Option Nat := none
deriving DecidableEq

structure ChatCompletionStreamChoice where
  index : Nat
  delta : DeltaContent
  finishReason : Option FinishReason := none
deriving DecidableEq

structure ChatCompletionStreamChunk where
  id : String
  object : String := "chat.completion.chunk"
  model : String
  choices : List ChatCompletionStreamChoice
deriving DecidableEq

-- What pydantic raises: the fields out of their bounds, or the validator's error.
inductive ValidationError where
  | fields (names : List String)
  | value (message : String)
deriving DecidableEq

def positive (value : Option Int) : Bool := value.all fun v => decide (0 < v)

def withinInt (low high value : Int) : Bool := decide (low ≤ value ∧ value ≤ high)

def withinFloat (low high value : ℚ) : Bool := decide (low ≤ value ∧ value ≤ high)

namespace ChatCompletionRequest

variable (req : ChatCompletionRequest)

def constraints : List (String × Bool) :=
  [("temperature", withinFloat 0 2 req.temperature),
    ("max_tokens", positive req.maxTokens),
    ("num_denoising_steps", withinInt 1 512 req.numDenoisingSteps),
    ("block_length", positive req.blockLength),
    ("target_length", positive req.targetLength),
    ("local_leap_anchor_threshold", withinFloat 0 1 req.localLeapAnchorThreshold),
    ("local_leap_neighbor_threshold", withinFloat 0 1 req.localLeapNeighborThreshold),
    ("local_leap_radius", withinInt 1 16 req.localLeapRadius)]

def badFields : List String := (req.constraints.filter fun entry => !entry.2).map Prod.fst

def rejects : List (String × Bool) :=
  [("top_p", req.topP.isSome), ("presence_penalty", req.presencePenalty.isSome),
    ("frequency_penalty", req.frequencyPenalty.isSome), ("n", req.n.isSome), ("logit_bias", req.logitBias.isSome),
    ("tools", req.tools.isSome), ("tool_choice", req.toolChoice.isSome), ("functions", req.functions.isSome)]

def reprNames (names : List String) : String := "[" ++ String.intercalate ", " (names.map fun k => "'" ++ k ++ "'") ++ "]"

-- The fields' own bounds already exclude the last case.
def rejectUnsupported : Except ValidationError Unit :=
  let bad := (req.rejects.filter fun entry => entry.2).map Prod.fst
  if bad ≠ [] then
    .error (.value ("Parameter(s) " ++ reprNames bad ++ " are not supported for diffusion models. " ++
      "See dlmserve API docs at /docs for deviations from OpenAI spec."))
  else if req.topK.any fun k => decide (1 < k) then
    .error (.value "top_k > 1 is not supported in v0.1. Use temperature > 0 for stochasticity.")
  else if req.maxTokens = some 0 then
    .error (.value "max_tokens=0 is not valid; diffusion has no zero-length output.")
  else .ok ()

def validate : Except ValidationError Unit :=
  if req.badFields ≠ [] then .error (.fields req.badFields) else req.rejectUnsupported

end ChatCompletionRequest

-- Python's "a or b" on an optional integer: None and 0 give way to b.
def orElse (a : Option Int) (b : Int) : Int :=
  match a with
  | some v => if v = 0 then b else v
  | none => b

namespace ChatCompletionRequest

variable (req : ChatCompletionRequest)

def chosenGenLength : Int := orElse req.targetLength (orElse req.maxTokens 128)

def chosenBlockLength : Int := orElse req.blockLength req.chosenGenLength

-- The lengths of a validated body are positive, so that nothing is cut off here;
-- drawn is what torch.randint gives where the body has no seed.
def samplingParams (drawn : Int) : SamplingParams where
  numDenoisingSteps := req.numDenoisingSteps.toNat
  genLength := req.chosenGenLength.toNat
  blockLength := some req.chosenBlockLength.toNat
  temperature := req.temperature
  seed := req.seed.getD drawn
  useLocalLeap := req.useLocalLeap
  localLeapAnchorThreshold := req.localLeapAnchorThreshold
  localLeapNeighborThreshold := req.localLeapNeighborThreshold
  localLeapRadius := req.localLeapRadius.toNat

structure Bounded : Prop where
  steps : 0 < req.numDenoisingSteps
  maxTokens : ∀ v, req.maxTokens = some v → 0 < v
  blockLength : ∀ v, req.blockLength = some v → 0 < v
  targetLength : ∀ v, req.targetLength = some v → 0 < v

theorem mem_bad_fields (name : String) : name ∈ req.badFields ↔ (name, false) ∈ req.constraints := by
  rw [badFields, List.mem_map]
  constructor
  · rintro ⟨⟨field, holds⟩, member, rfl⟩
    obtain ⟨inside, fails⟩ := List.mem_filter.mp member
    obtain rfl : holds = false := by simpa using fails
    exact inside
  · intro inside
    exact ⟨(name, false), List.mem_filter.mpr ⟨inside, rfl⟩, rfl⟩

theorem positive_some (value : Option Int) (holds : positive value = true) (v : Int) (given : value = some v) : 0 < v := by
  rw [positive, given, Option.all_some] at holds
  exact of_decide_eq_true holds

theorem validate_ok (valid : req.validate = .ok ()) : ∀ entry ∈ req.constraints, entry.2 = true := by
  intro entry member
  rw [validate] at valid
  split at valid
  · cases valid
  · rename_i noneBad
    by_contra fails
    have bad : entry.1 ∈ req.badFields := by
      rw [mem_bad_fields, ← Bool.eq_false_iff.mpr fails]
      exact member
    rw [not_not.mp noneBad] at bad
    exact List.not_mem_nil bad

theorem validate_bounded (valid : req.validate = .ok ()) : Bounded req := by
  have holds := validate_ok req valid
  refine ⟨?_, ?_, ?_, ?_⟩
  · have range := of_decide_eq_true (holds ("num_denoising_steps", withinInt 1 512 req.numDenoisingSteps) (by simp [constraints]))
    omega
  · exact positive_some _ (holds ("max_tokens", positive req.maxTokens) (by simp [constraints]))
  · exact positive_some _ (holds ("block_length", positive req.blockLength) (by simp [constraints]))
  · exact positive_some _ (holds ("target_length", positive req.targetLength) (by simp [constraints]))

theorem or_else_positive (a : Option Int) (b : Int) (given : ∀ v, a = some v → 0 < v) (other : 0 < b) : 0 < orElse a b := by
  cases a with
  | none => exact other
  | some v =>
      have some_positive := given v rfl
      rw [orElse, if_neg (by omega)]
      exact some_positive

theorem chosen_gen_length_positive (bounded : Bounded req) : 0 < req.chosenGenLength :=
  or_else_positive _ _ bounded.targetLength (or_else_positive _ _ bounded.maxTokens (by decide))

theorem chosen_block_length_positive (bounded : Bounded req) : 0 < req.chosenBlockLength :=
  or_else_positive _ _ bounded.blockLength (chosen_gen_length_positive req bounded)

-- Every default passes its own check.
theorem defaults_valid (messages : List ChatMessage) : validate { messages := messages } = .ok () := by
  have messageless : validate { messages := messages } = validate { messages := [] } := rfl
  rw [messageless]
  decide +kernel

end ChatCompletionRequest

end Dlmserve
