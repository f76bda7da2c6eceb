import Dlmserve.DenoiseLoop

set_option autoImplicit false

namespace Dlmserve

inductive Remasking where
  | lowConfidence
  | random
  | other (name : String)
deriving DecidableEq

structure GenerateArgs where
  steps : Nat := 128
  genLength : Nat := 128
  blockLength : Nat := 128
  temperature : ℚ := 0
  cfgScale : ℚ := 0
  remasking : Remasking := .lowConfidence
  maskId : Token := 126336
  logitsEosInf : Bool := false
  confidenceEosEotInf : Bool := false

def eosToken : Token := 126081

def eotToken : Token := 126348

def getNumTransferTokens (maskIndex : List (List Bool)) (steps : Nat) : Option (List (List Nat)) :=
  if steps = 0 then none
  else some (maskIndex.map fun row =>
    let maskNum := row.count true
    let base := maskNum / steps
    let remainder := maskNum % steps
    (List.range steps).map fun i => base + if i < remainder then 1 else 0)

section Generate

variable {V : Type} (torch : Torch V) (model : Model V) (args : GenerateArgs)

-- The guided branch reads attention_mask_, which is bound only when a mask was given.
def generateLogits (attention : Option (List (List Nat))) (promptIndex : List (List Bool)) (x : List (List Token)) :
    Except PyError (Nat → Nat → V) :=
  if 0 < args.cfgScale then
    match attention with
    | none => .error (.unboundLocalError "attention_mask_")
    | some rows =>
        let unX := x.zipIdx.map fun (row, j) => row.zipIdx.map fun (t, c) =>
          if (promptIndex.getD j []).getD c false then args.maskId else t
        let logits := model.forward (x ++ unX) (some (rows ++ rows)) none
        .ok fun j c => torch.guide args.cfgScale (logits j c) (logits (x.length + j) c)
  else .ok (model.forward x attention none)

-- The prediction and its confidence. At temperature 0 logits_with_noise is logits
-- itself, so that the confidence flag then writes both ids into the same tensor.
def generateScore (draw : Draw V) (logits : Nat → Nat → V) :
    Except PyError ((Nat → Nat → Token) × (Nat → Nat → Score)) :=
  let logits := if args.logitsEosInf then fun j c => torch.setNegInf (logits j c) eosToken else logits
  let x0 := fun j c => torch.argmax (addGumbelNoise draw j c args.temperature (logits j c))
  let logits :=
    if args.confidenceEosEotInf then
      if args.temperature = 0 then fun j c => torch.setNegInf (torch.setNegInf (logits j c) eosToken) eotToken
      else fun j c => torch.setNegInf (logits j c) eotToken
    else logits
  match args.remasking with
  | .lowConfidence => .ok (x0, fun j c => gatherProb torch (logits j c) (x0 j c))
  | .random => .ok (x0, fun j c => .prob (draw.rand j c))
  | .other name => .error (.notImplementedError name)

def generateStep (draw : Draw V) (attention : Option (List (List Nat))) (promptIndex : List (List Bool))
    (blockEnd : Nat) (numTransferTokens : List (List Nat)) (i : Nat) (x : List (List Token)) :
    Except PyError (List (List Token)) := do
  let logits ← generateLogits torch model args attention promptIndex x
  let scored ← generateScore torch args draw logits
  let rows := x.zipIdx.mapM fun (row, j) => do
    let x0p := fun c => if blockEnd ≤ c then .negInf else scored.2 j c
    let x0 := whereMask (maskIndex args.maskId x j) (scored.1 j) row
    let conf := confidence (maskIndex args.maskId x j) x0p row.length
    let selectIndex ← topk draw j conf ((numTransferTokens.getD j []).getD i 0)
    some (indexPut row selectIndex x0)
  match rows with
  | some x => .ok x
  | none => .error (.runtimeError "selected index k out of range")

def generateSteps (draws : Nat → Draw V) (attention : Option (List (List Nat))) (promptIndex : List (List Bool))
    (blockEnd : Nat) (numTransferTokens : List (List Nat)) (i : Nat) (x : List (List Token)) :
    Nat → Except PyError (List (List Token))
  | 0 => .ok x
  | left + 1 => do
      let x ← generateStep torch model args (draws i) attention promptIndex blockEnd numTransferTokens i x
      generateSteps draws attention promptIndex blockEnd numTransferTokens (i + 1) x left

def generateBlocks (draws : Nat → Nat → Draw V) (attention : Option (List (List Nat))) (promptIndex : List (List Bool))
    (promptLen steps numBlock : Nat) (x : List (List Token)) : Nat → Except PyError (List (List Token))
  | 0 => .ok x
  | left + 1 => do
      let blockEnd := promptLen + (numBlock + 1) * args.blockLength
      let blockMaskIndex := x.map fun row =>
        (Rows.slice row (promptLen + numBlock * args.blockLength) blockEnd).map (· == args.maskId)
      match getNumTransferTokens blockMaskIndex steps with
      | none => .error (.runtimeError "ZeroDivisionError")
      | some numTransferTokens => do
          let x ← generateSteps torch model args (draws numBlock) attention promptIndex blockEnd numTransferTokens 0 x steps
          generateBlocks draws attention promptIndex promptLen steps (numBlock + 1) x left

def generate (full : Full) (draws : Nat → Nat → Draw V) (prompt : Prompt) (attention : Option (List (List Nat))) :
    Except PyError (List (List Token)) :=
  match full prompt.rows.length (prompt.width + args.genLength) with
  | .error error => .error error
  | .ok _ =>
      let x := prompt.rows.map fun row => row ++ List.replicate args.genLength args.maskId
      let attention := attention.map fun rows => rows.map fun row => row ++ List.replicate args.genLength 1
      if args.blockLength = 0 then .error .zeroDivisionError
      else if args.genLength % args.blockLength ≠ 0 then .error .assertionError
      else
        let numBlocks := args.genLength / args.blockLength
        if numBlocks = 0 then .error .zeroDivisionError
        else if args.steps % numBlocks ≠ 0 then .error .assertionError
        else generateBlocks torch model args draws attention (notMask args.maskId x) prompt.width (args.steps / numBlocks) 0 x
          numBlocks

end Generate

end Dlmserve
