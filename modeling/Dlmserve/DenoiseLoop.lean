import Dlmserve.Sampler

set_option autoImplicit false

namespace Dlmserve

inductive PyError where
  | valueError (message : String)
  | zeroDivisionError
  | runtimeError (message : String)
  | assertionError
  | notImplementedError (message : String)
  | unboundLocalError (name : String)
  | attributeError (message : String)
  | other (name message : String)
deriving DecidableEq

-- A (B, L) tensor of token ids: every row has the tensor's width.
structure Prompt where
  rows : List (List Token)
  width : Nat
  rect : ∀ row ∈ rows, row.length = width

def Prompt.single (promptIds : List Token) : Prompt :=
  ⟨[promptIds], promptIds.length, fun _ member => congrArg List.length (List.mem_singleton.mp member)⟩

structure DenoiseState where
  seq : List (List Token)
  committed : List (List Bool)
  promptLen : Nat
  genLength : Nat
  blockLength : Nat
  stepsPerBlock : Nat
  schedule : List (List Nat)
  params : SamplingParams := {}
  blockIdx : Nat := 0
  stepInBlock : Nat := 0
deriving DecidableEq

namespace DenoiseState

variable (s : DenoiseState)

def blockStartAbs : Nat := s.promptLen + s.blockIdx * s.blockLength

def blockEndAbs : Nat := s.promptLen + (s.blockIdx + 1) * s.blockLength

def done : Bool := decide (s.genLength / s.blockLength ≤ s.blockIdx)

-- (seq[:, block_start_abs : block_end_abs] == mask_id).sum(dim=1)
def blockMaskCount (mask : Token) : List Nat :=
  s.seq.map fun row => (Rows.slice row s.blockStartAbs s.blockEndAbs).count mask

end DenoiseState

def notMask (mask : Token) (seq : List (List Token)) : List (List Bool) := seq.map fun row => row.map (· != mask)

-- What the allocation of a tensor of so many rows and columns comes to: torch.full
-- raises where the memory does not suffice or a size is too large.
def Full := Nat → Nat → Except PyError Unit

def Full.ample : Full := fun _ _ => .ok ()

def initState (full : Full) (prompt : Prompt) (params : SamplingParams) (mask : Token) : Except PyError DenoiseState :=
  let blockLength := params.blockLength.getD params.genLength
  if blockLength = 0 then .error .zeroDivisionError
  else if params.genLength % blockLength ≠ 0 then
    .error (.valueError s!"gen_length ({params.genLength}) must be divisible by block_length ({blockLength})")
  else
    let numBlocks := params.genLength / blockLength
    if numBlocks = 0 then .error .zeroDivisionError
    else if params.numDenoisingSteps % numBlocks ≠ 0 then
      .error (.valueError
        s!"num_denoising_steps ({params.numDenoisingSteps}) must be divisible by num_blocks ({numBlocks})")
    else
      let stepsPerBlock := params.numDenoisingSteps / numBlocks
      match full prompt.rows.length (prompt.width + params.genLength) with
      | .error error => .error error
      | .ok _ =>
          let seq := prompt.rows.map fun row => row ++ List.replicate params.genLength mask
          let committed := notMask mask seq
          let blockMaskCount := committed.map fun row => (Rows.slice row prompt.width (prompt.width + blockLength)).count false
          match computeTransferSchedule blockMaskCount stepsPerBlock with
          | none => .error (.runtimeError "ZeroDivisionError")
          | some schedule => .ok {
              seq := seq
              committed := committed
              promptLen := prompt.width
              genLength := params.genLength
              blockLength := blockLength
              stepsPerBlock := stepsPerBlock
              schedule := schedule
              params := params }

-- The model: logits at (row, column) of a forward call. Whether its signature
-- takes position ids is a property of the model that step_batch inspects.
structure Model (V : Type) where
  forward : List (List Token) → Option (List (List Nat)) → Option (List (List Nat)) → Nat → Nat → V
  takesPositionIds : Bool

-- torch.full(total, pad) with row written at offset; the slice must fit.
def padRow (pad : Nat) (total offset : Nat) (row : List Nat) : Option (List Nat) :=
  if offset + row.length ≤ total then
    some (List.replicate offset pad ++ row ++ List.replicate (total - (offset + row.length)) pad)
  else none

def maskIndex (mask : Token) (x : List (List Token)) (j c : Nat) : Bool :=
  match x[j]? with
  | some row => Rows.isMask mask row c
  | none => false

section StepBatch

variable {V : Type} (torch : Torch V) (model : Model V) (mask pad : Token)

def maxPromptLen (states : List DenoiseState) : Nat := (states.map (·.promptLen)).foldl max 0

def maxTotal (states : List DenoiseState) : Nat :=
  (states.map fun s => maxPromptLen states + s.genLength).foldl max 0

def rowOffset (states : List DenoiseState) (s : DenoiseState) : Nat := maxPromptLen states - s.promptLen

def seqRow (s : DenoiseState) : Option (List Token) := s.seq.head?

def padStates (states : List DenoiseState) (fill : Nat) (content : List Token → List Nat) :
    Option (List (List Nat)) :=
  states.mapM fun s => do
    let row ← seqRow s
    padRow fill (maxTotal states) (rowOffset states s) (content row)

def forwardLogits (states : List DenoiseState) (batchSeq : List (List Token)) : Option (Nat → Nat → V) := do
  let batchAttn ← padStates states 0 fun row => List.replicate row.length 1
  let positionIds ← padStates states 0 fun row => List.range row.length
  some (model.forward batchSeq (some batchAttn) (if model.takesPositionIds then some positionIds else none))

def scheduledK (s : DenoiseState) : Option Nat := do
  let row ← s.schedule.head?
  row[s.stepInBlock]?

-- The parameters of the first state apply to every row.
def commitRows (params0 : SamplingParams) (draw : Draw V) (x : List (List Token)) (logits : Nat → Nat → V)
    (kPerRow : Nat → Nat) (blockEndAbs : BlockEnd) : Option (List (List Token)) :=
  if params0.useLocalLeap then
    commitWithLocalLeap torch draw x logits (maskIndex mask x) kPerRow (some blockEndAbs)
      params0.localLeapAnchorThreshold params0.localLeapNeighborThreshold params0.localLeapRadius params0.temperature
  else
    commitTopKByConfidence torch draw x logits (maskIndex mask x) kPerRow (some blockEndAbs) params0.temperature

def batchRows (draw : Draw V) (states : List DenoiseState) (params0 : SamplingParams) : Option (List (List Token)) := do
  let batchSeq ← padStates states pad id
  let kPerRow ← states.mapM scheduledK
  let logits ← forwardLogits model states batchSeq
  let blockEndPerRow := states.map fun s => rowOffset states s + s.blockEndAbs
  commitRows torch mask params0 draw batchSeq logits (fun j => kPerRow.getD j 0)
    (.perRow fun j => blockEndPerRow.getD j 0)

def nextBlock (s : DenoiseState) : Option DenoiseState :=
  let s := { s with stepInBlock := 0, blockIdx := s.blockIdx + 1 }
  if s.done then some s
  else do
    let schedule ← computeTransferSchedule (s.blockMaskCount mask) s.stepsPerBlock
    some { s with schedule := schedule }

def advance (s : DenoiseState) : Option DenoiseState :=
  let s := { s with stepInBlock := s.stepInBlock + 1 }
  let blockDone := (s.blockMaskCount mask).sum = 0
  if s.stepsPerBlock ≤ s.stepInBlock ∨ blockDone then nextBlock mask s else some s

def writeBack (s : DenoiseState) (row : List Token) : Option DenoiseState :=
  advance mask { s with
    seq := s.seq.set 0 row
    committed := s.committed.set 0 (row.map (· != mask)) }

def unpadRow (states : List DenoiseState) (s : DenoiseState) (row : List Token) : Option (List Token) := do
  let old ← seqRow s
  some (Rows.slice row (rowOffset states s) (rowOffset states s + old.length))

-- The states of a batch are distinct objects; the result lists them in order.
def stepBatch (draw : Draw V) (states : List DenoiseState) : Option (List DenoiseState) :=
  match states with
  | [] => some []
  | leader :: _ => do
      let newBatchSeq ← batchRows torch model mask pad draw states leader.params
      (states.zip newBatchSeq).mapM fun (s, row) => do
        let newRow ← unpadRow states s row
        writeBack mask s newRow

end StepBatch

section Denoise

variable {V : Type} (torch : Torch V) (model : Model V) (mask : Token) (draws : Nat → Nat → Draw V)
  (params : SamplingParams) (attn : Option (List (List Nat)))

def fullAttentionMask (attention : Option (List (List Nat))) : Option (List (List Nat)) :=
  attention.map fun rows => rows.map fun row => row ++ List.replicate params.genLength 1

def enterBlock (blockIdx : Nat) (s : DenoiseState) : Option DenoiseState := do
  let s := { s with blockIdx := blockIdx }
  let schedule ← computeTransferSchedule (s.blockMaskCount mask) s.stepsPerBlock
  some { s with schedule := schedule }

def denoiseStep (step : Nat) (s : DenoiseState) : Option DenoiseState := do
  let s := { s with stepInBlock := step }
  let logits := model.forward s.seq attn none
  let kPerRow := fun j => (s.schedule.getD j []).getD step 0
  let seq ← commitRows torch mask params (draws s.blockIdx step) s.seq logits kPerRow (.int s.blockEndAbs)
  some { s with seq := seq, committed := notMask mask seq }

-- for step in range(steps_per_block), left of which remain, with the break.
def denoiseSteps (s : DenoiseState) (step : Nat) : Nat → Option DenoiseState
  | 0 => some s
  | left + 1 => do
      let next ← denoiseStep torch model mask draws params attn step s
      if (next.blockMaskCount mask).sum = 0 then some next
      else denoiseSteps next (step + 1) left

def denoiseBlocks (s : DenoiseState) (blockIdx : Nat) : Nat → Option DenoiseState
  | 0 => some s
  | left + 1 => do
      let entered ← enterBlock mask blockIdx s
      let next ← denoiseSteps torch model mask draws params attn entered 0 entered.stepsPerBlock
      denoiseBlocks next (blockIdx + 1) left

end Denoise

def denoise {V : Type} (torch : Torch V) (model : Model V) (mask : Token) (full : Full) (draws : Nat → Nat → Draw V)
    (prompt : Prompt) (attention : Option (List (List Nat))) (params : SamplingParams) :
    Except PyError (List (List Token)) := do
  let state ← initState full prompt params mask
  let attn := fullAttentionMask params attention
  match denoiseBlocks torch model mask draws params attn state 0 (params.genLength / state.blockLength) with
  | some final => .ok final.seq
  | none => .error (.runtimeError "selected index k out of range")

end Dlmserve
