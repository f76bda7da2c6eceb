import Dlmserve.Library.Rounding
import Dlmserve.Runs

set_option autoImplicit false

namespace Dlmserve

-- A device whose logits are written down: the token a position predicts and the
-- probability of that token, a float32.
abbrev Written := Token × ℚ

def writtenTorch : Torch Written where
  argmax v := v.1
  softmax v t := some (if t = v.1 then v.2 else 0)
  castFloat := Rounding.nearest 24
  guide _ v _ := v
  setNegInf v _ := v

-- The answer depends on how many attended tokens come before the column.
def writtenModel (answer : Nat → Written) : Model Written where
  forward _ attn _ j c :=
    match attn with
    | none => answer c
    | some rows => answer (((rows.getD j []).take c).count 1)
  takesPositionIds := true

def tiedDraw (tie : Nat → Nat → Prop) [DecidableRel tie] : Draw Written where
  gumbel _ _ _ v := v
  rand _ _ := 0
  topk _ row k := TopK.select (TopK.ranked tie fun i => row.getD i .negInf) row.length k

theorem tied_draw_sound (tie : Nat → Nat → Prop) [DecidableRel tie] (total : ∀ i j, tie i j ∨ tie j i)
    (trans : ∀ i j l, tie i j → tie j l → tie i l) : TopKSound (tiedDraw tie) :=
  fun _ row k fits => TopK.select_ranked tie (fun i => row.getD i .negInf) row.length k fits total trans

abbrev lowDraw : Draw Written := tiedDraw (· ≤ ·)

abbrev highDraw : Draw Written := tiedDraw (· ≥ ·)

theorem low_draw_ties_low : TopKTiesLow lowDraw :=
  fun _ row k fits => TopK.select_low (fun i => row.getD i .negInf) row.length k fits

theorem high_draw_sound : TopKSound highDraw :=
  tied_draw_sound (· ≥ ·) (fun i j => Nat.le_total j i) (fun _ _ _ first second => Nat.le_trans second first)

def outOfMemory : PyError := .runtimeError "CUDA out of memory."

def sizeTooLarge : PyError := .other "TypeError" "full(): argument 'size' must be tuple of ints"

-- A device with room for so many tokens; a size is an int64.
def smallFull (limit : Nat) : Full := fun rows columns =>
  if 2 ^ 63 ≤ columns then .error sizeTooLarge
  else if limit < rows * columns then .error outOfMemory
  else .ok ()

-- Three blocks of four positions at two steps each. The first block holds a
-- strong anchor, so that one step commits more than the schedule planned.
def onePrompt (t : Token) : Prompt := .single [t]

def blockParams (leap : Bool) : SamplingParams :=
  { numDenoisingSteps := 6, genLength := 12, blockLength := some 4, useLocalLeap := leap, localLeapRadius := 1 }

def anchorAnswer (p : Nat) : Written := (2, [0, 95 / 100, 8 / 10, 85 / 100].getD p (1 / 2))

def blockStart (leap : Bool) (t : Token) : DenoiseState := initialState (onePrompt t) (blockParams leap) 9 4 2

theorem block_start_made (leap : Bool) (t : Token) :
    initState .ample (onePrompt t) (blockParams leap) 9 = .ok (blockStart leap t) :=
  init_state_accepts (onePrompt t) (blockParams leap) 9 3 4 2 ⟨rfl, rfl, rfl, by decide, by decide, by decide⟩ rfl

section Solo

variable {V : Type} (torch : Torch V) (model : Model V) (mask pad : Token) (draw : Draw V)

def soloStep (s : DenoiseState) : Option DenoiseState :=
  (stepBatch torch model mask pad draw [s]).bind List.head?

def soloSteps (s : DenoiseState) : Nat → Option DenoiseState
  | 0 => some s
  | n + 1 => (soloSteps s n).bind (soloStep torch model mask pad draw)

theorem solo_step_batch (s s' : DenoiseState) (stepped : soloStep torch model mask pad draw s = some s') :
    BatchStep torch mask s ⟨model, pad, draw, [s], 0⟩ s' := by
  obtain ⟨states, made, first⟩ := Option.bind_eq_some_iff.mp stepped
  exact ⟨rfl, states, made, by rw [← first, List.head?_eq_getElem?]⟩

theorem solo_steps_run (s s' : DenoiseState) (n : Nat) (stepped : soloSteps torch model mask pad draw s n = some s') :
    ∃ trace, Transition.Run (BatchStep torch mask) s trace s' ∧ trace.length = n ∧
      ∀ entry ∈ trace, entry.2 = ⟨model, pad, draw, [entry.1], 0⟩ := by
  induction n generalizing s' with
  | zero =>
      obtain rfl := Option.some.inj stepped
      exact ⟨[], .nil, rfl, by simp⟩
  | succ n ih =>
      obtain ⟨middle, earlier, last⟩ := Option.bind_eq_some_iff.mp stepped
      obtain ⟨trace, run, length, calls⟩ := ih middle earlier
      refine ⟨_, .snoc trace middle s' _ run (solo_step_batch torch model mask pad draw middle s' last), ?_, ?_⟩
      · rw [List.length_append, length, List.length_singleton]
      · intro entry member
        rcases List.mem_append.mp member with before | here
        · exact calls entry before
        · rw [List.mem_singleton.mp here]

end Solo

end Dlmserve
