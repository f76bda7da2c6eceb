import Dlmserve.PlainRow
import Dlmserve.Progress

set_option autoImplicit false

namespace Dlmserve

section PlainStep

variable {V : Type} (torch : Torch V) (view : List Token → Nat → V) (mask : Token)

def plainStep (s : DenoiseState) : Option DenoiseState := do
  let row ← seqRow s
  let k ← scheduledK s
  writeBack mask s (plainRow torch view mask s.params row k s.blockEndAbs)

theorem plain_row_shared (a b : SamplingParams) (same : a.shared = b.shared) (row : List Token) (k blockEnd : Nat) :
    plainRow torch view mask a row k blockEnd = plainRow torch view mask b row k blockEnd := by
  obtain ⟨_, leap, anchor, neighbor, radius⟩ := SharedParams.mk.inj same
  rw [plainRow, plainRow, plainChosen, plainChosen, leap, anchor, neighbor, radius]

theorem scheduled_small (s : DenoiseState) (shaped : Shaped s) (k : Nat) (scheduled : scheduledK s = some k) :
    k ≤ s.blockLength := by
  obtain ⟨sch, first, entry⟩ := Option.bind_eq_some_iff.mp scheduled
  exact (shaped.schedule sch (List.mem_of_mem_head? first)).2 k (List.mem_of_getElem? entry)

theorem block_length_le_end (s : DenoiseState) : s.blockLength ≤ s.blockEndAbs := by
  rw [DenoiseState.blockEndAbs, Nat.add_mul, Nat.one_mul]
  omega

variable (model : Model V) (pad : Token) (draw : Draw V)

-- The company, the padding and the draws of a cold batch leave no trace in a
-- state: it moves as it would on its own.
theorem window_step_plain (isLocal : PaddingLocal model view) (proper : pad ≠ mask) (low : TopKTiesLow draw)
    (params0 : SamplingParams) (s s' : DenoiseState) (shaped : Shaped s) (cold : params0.temperature = 0)
    (agree : params0.shared = s.params.shared) (step : WindowStep torch model mask pad draw params0 s s') :
    plainStep torch view mask s = some s' := by
  obtain ⟨x, attn, positions, blockEnd, j, left, right, k, row, _, readRow, scheduled, read, attended, numbered, endAt, fits,
    written⟩ := step
  have small := (scheduled_small s shaped k scheduled).trans (block_length_le_end s)
  have same : ∀ c < row.length, model.forward x (some attn) positions j (left + c) = view row c := fun c inside =>
    isLocal.padded x attn positions j pad left right row c inside read attended numbered
  rw [padded_plain torch view mask pad params0 draw x _ blockEnd j left right k s.blockEndAbs row cold proper read endAt
    small fits low same, plain_row_shared torch view mask params0 s.params agree] at written
  rw [plainStep, readRow, scheduled]
  exact written

end PlainStep

end Dlmserve
