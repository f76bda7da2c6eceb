import Dlmserve.Library.Collect
import Dlmserve.Library.EvenSplit
import Dlmserve.Library.Rows
import Dlmserve.Library.TopK
import Mathlib.Data.Rat.Defs
import Mathlib.Algebra.Order.Ring.Rat
import Mathlib.Order.WithBot

set_option autoImplicit false

namespace Dlmserve

abbrev Token := Nat

-- torch.topk ranks NaN above everything.
inductive Score where
  | negInf
  | prob (p : ℚ)
  | nan
deriving DecidableEq

def Score.rank : Score → WithBot (WithTop ℚ)
  | .negInf => ⊥
  | .prob p => ((p : WithTop ℚ) : WithBot (WithTop ℚ))
  | .nan => ((⊤ : WithTop ℚ) : WithBot (WithTop ℚ))

theorem score_rank_injective : Function.Injective Score.rank := by
  intro a b same
  cases a <;> cases b <;> simp_all [Score.rank]

instance : LinearOrder Score := LinearOrder.lift' Score.rank score_rank_injective

def Score.atLeast (threshold : ℚ) : Score → Bool
  | .prob p => decide (threshold ≤ p)
  | _ => false

structure SamplingParams where
  numDenoisingSteps : Nat := 128
  genLength : Nat := 128
  blockLength : Option Nat := none
  temperature : ℚ := 0
  seed : Int := 0
  useLocalLeap : Bool := false
  localLeapAnchorThreshold : ℚ := 9 / 10
  localLeapNeighborThreshold : ℚ := 3 / 4
  localLeapRadius : Nat := 4
deriving DecidableEq

-- A softmax entry is finite or NaN (none); castFloat is a Python float in the dtype
-- of the tensor that it is compared with.
structure Torch (V : Type) where
  argmax : V → Token
  softmax : V → Token → Option ℚ
  castFloat : ℚ → ℚ
  guide : ℚ → V → V → V
  setNegInf : V → Token → V

structure Draw (V : Type) where
  gumbel : Nat → Nat → ℚ → V → V
  rand : Nat → Nat → ℚ
  topk : Nat → List Score → Nat → List Nat

section Commit

variable {V : Type} (torch : Torch V) (draw : Draw V)

def addGumbelNoise (j c : Nat) (temperature : ℚ) (logits : V) : V :=
  if temperature = 0 then logits else draw.gumbel j c temperature logits

def gatherProb (logits : V) (t : Token) : Score :=
  match torch.softmax logits t with
  | some p => .prob p
  | none => .nan

def predictAndScore (logits : Nat → Nat → V) (temperature : ℚ) : (Nat → Nat → Token) × (Nat → Nat → Score) :=
  let x0 := fun j c =>
    if 0 < temperature then torch.argmax (addGumbelNoise draw j c temperature (logits j c))
    else torch.argmax (logits j c)
  (x0, fun j c => gatherProb torch (logits j c) (x0 j c))

inductive BlockEnd where
  | int (e : Int)
  | perRow (e : Nat → Int)

-- The first column of x[:, e:]: a negative e counts from the end.
def sliceStart (e : Int) (L : Nat) : Nat := (if e < 0 then e + L else e).toNat

def clipBlockEnd (blockEndAbs : Option BlockEnd) (L : Nat) (x0p : Nat → Nat → Score) : Nat → Nat → Score :=
  match blockEndAbs with
  | none => x0p
  | some (.int e) => if e < L then fun j c => if sliceStart e L ≤ c then .negInf else x0p j c else x0p
  | some (.perRow e) => fun j c => if e j ≤ c then .negInf else x0p j c

def whereMask (maskIndex : Nat → Bool) (x0 : Nat → Token) (row : List Token) : List Token :=
  row.mapIdx fun c t => if maskIndex c then x0 c else t

def confidence (maskIndex : Nat → Bool) (x0p : Nat → Score) (L : Nat) : List Score :=
  (List.range L).map fun c => if maskIndex c then x0p c else .negInf

def indexPut (row : List Token) (idx : List Nat) (src : List Token) : List Token :=
  row.mapIdx fun c t => if c ∈ idx then src.getD c t else t

def topk (j : Nat) (conf : List Score) (k : Nat) : Option (List Nat) :=
  if k ≤ conf.length then some (draw.topk j conf k) else none

def commitTopKByConfidence (x : List (List Token)) (logits : Nat → Nat → V) (maskIndex : Nat → Nat → Bool)
    (kPerRow : Nat → Nat) (blockEndAbs : Option BlockEnd) (temperature : ℚ) : Option (List (List Token)) :=
  let scored := predictAndScore torch draw logits temperature
  x.zipIdx.mapM fun (row, j) => do
    let L := row.length
    let x0p := clipBlockEnd blockEndAbs L scored.2
    let x0 := whereMask (maskIndex j) (scored.1 j) row
    let conf := confidence (maskIndex j) (x0p j) L
    if kPerRow j = 0 then some row
    else
      let idx ← topk draw j conf (kPerRow j)
      some (indexPut row idx x0)

def leapOffsets (radius : Nat) : List Int := (List.range (2 * radius + 1)).map fun (i : Nat) => (i : Int) - radius

def clampIndex (p : Int) (last : Nat) : Nat := (min (max p 0) last).toNat

def neighborPositions (strong : List Nat) (radius L : Nat) : List Nat :=
  ((strong.flatMap fun (a : Nat) => (leapOffsets radius).map fun (d : Int) =>
    clampIndex (a + d) (L - 1)).dedup).insertionSort (· ≤ ·)

def commitWithLocalLeap (x : List (List Token)) (logits : Nat → Nat → V) (maskIndex : Nat → Nat → Bool)
    (kPerRow : Nat → Nat) (blockEndAbs : Option BlockEnd) (anchorThreshold neighborThreshold : ℚ) (radius : Nat)
    (temperature : ℚ) : Option (List (List Token)) :=
  let scored := predictAndScore torch draw logits temperature
  x.zipIdx.mapM fun (row, j) => do
    let L := row.length
    let x0p := clipBlockEnd blockEndAbs L scored.2
    let x0 := whereMask (maskIndex j) (scored.1 j) row
    let conf := confidence (maskIndex j) (x0p j) L
    if kPerRow j = 0 then some row
    else
      let topkIdx ← topk draw j conf (kPerRow j)
      let newX := indexPut row topkIdx x0
      let strong := topkIdx.filter fun i => (conf.getD i .negInf).atLeast (torch.castFloat anchorThreshold)
      if strong = [] then some newX
      else
        let neighborPos := neighborPositions strong radius L
        let commitPos := neighborPos.filter fun q => (conf.getD q .negInf).atLeast (torch.castFloat neighborThreshold)
        if commitPos = [] then some newX else some (indexPut newX commitPos x0)

end Commit

def computeTransferSchedule (maskCount : List Nat) (steps : Nat) : Option (List (List Nat)) :=
  if steps = 0 then none
  else some (maskCount.map fun n =>
    let base := n / steps
    let remainder := n % steps
    (List.range steps).map fun i => base + if i < remainder then 1 else 0)

end Dlmserve
