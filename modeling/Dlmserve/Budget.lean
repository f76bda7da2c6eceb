import Dlmserve.Shape

set_option autoImplicit false

namespace Dlmserve

variable {full : Full}

-- What the schedule of row j still plans from the given step on, against what
-- the active block of that row still holds.
def restOf (s : DenoiseState) (step j : Nat) : Nat := ((s.schedule.getD j []).drop step).sum

def openIn (mask : Token) (s : DenoiseState) (row : List Token) : Nat :=
  (Rows.holding mask row s.blockStartAbs s.blockEndAbs).card

def Affordable (mask : Token) (s : DenoiseState) (step : Nat) : Prop :=
  ∀ (j : Nat) (row : List Token), s.seq[j]? = some row → restOf s step j ≤ openIn mask s row

def Sufficient (mask : Token) (s : DenoiseState) (step : Nat) : Prop :=
  ∀ (j : Nat) (row : List Token), s.seq[j]? = some row → openIn mask s row ≤ restOf s step j

def FreshSchedule (mask : Token) (s : DenoiseState) : Prop :=
  s.schedule = (s.blockMaskCount mask).map fun n => EvenSplit.shares n s.stepsPerBlock

theorem fresh_schedule_get (mask : Token) (s : DenoiseState) (fresh : FreshSchedule mask s) (j : Nat) (row : List Token)
    (read : s.seq[j]? = some row) : s.schedule.getD j [] = EvenSplit.shares (openIn mask s row) s.stepsPerBlock := by
  rw [fresh, List.getD_eq_getElem?_getD, List.getElem?_map, DenoiseState.blockMaskCount, List.getElem?_map, read]
  simp only [Option.map_some, Option.getD_some]
  rw [Rows.slice_count, openIn]

theorem fresh_schedule_rest (mask : Token) (s : DenoiseState) (fresh : FreshSchedule mask s)
    (positive : 0 < s.stepsPerBlock) (j : Nat) (row : List Token) (read : s.seq[j]? = some row) :
    restOf s 0 j = openIn mask s row := by
  rw [restOf, fresh_schedule_get mask s fresh j row read, List.drop_zero, EvenSplit.shares_sum _ _ positive]

theorem fresh_affordable (mask : Token) (s : DenoiseState) (fresh : FreshSchedule mask s)
    (positive : 0 < s.stepsPerBlock) : Affordable mask s 0 :=
  fun j row read => le_of_eq (fresh_schedule_rest mask s fresh positive j row read)

theorem fresh_sufficient (mask : Token) (s : DenoiseState) (fresh : FreshSchedule mask s)
    (positive : 0 < s.stepsPerBlock) : Sufficient mask s 0 :=
  fun j row read => le_of_eq (fresh_schedule_rest mask s fresh positive j row read).symm

theorem rest_step (s : DenoiseState) (step j : Nat) :
    restOf s step j = plannedK s step j + restOf s (step + 1) j :=
  EvenSplit.drop_sum_step _ step

theorem planned_fits (mask : Token) (s : DenoiseState) (step : Nat) (affordable : Affordable mask s step) (j : Nat) (row : List Token)
    (read : s.seq[j]? = some row) : plannedK s step j ≤ row.length := by
  have planned := rest_step s step j
  have enough := affordable j row read
  have bound := Finset.card_le_card (Finset.filter_subset
    (fun c => s.blockStartAbs ≤ c ∧ c < s.blockEndAbs ∧ row[c]? = some mask) (Finset.range row.length))
  rw [Finset.card_range] at bound
  rw [openIn, Rows.holding] at enough
  omega

theorem initial_fresh (prompt : Prompt) (params : SamplingParams) (mask : Token) (s : DenoiseState)
    (made : initState full prompt params mask = .ok s) : FreshSchedule mask s ∧ 0 < s.stepsPerBlock := by
  obtain ⟨numBlocks, blockLength, stepsPerBlock, accepted, rfl⟩ := init_state_ok prompt params mask s made
  refine ⟨?_, accepted.stepsPos⟩
  simp [FreshSchedule, initialState, DenoiseState.blockMaskCount, DenoiseState.blockStartAbs,
    DenoiseState.blockEndAbs, List.map_map, Function.comp_def]

theorem opening_fresh (mask : Token) (s : DenoiseState) : FreshSchedule mask (opening mask s) := rfl

theorem enter_block_fresh (mask : Token) (block : Nat) (s s' : DenoiseState)
    (entered : enterBlock mask block s = some s') : FreshSchedule mask s' ∧ 0 < s'.stepsPerBlock := by
  obtain ⟨positive, rfl⟩ := enter_block_cases mask block s s' entered
  exact ⟨rfl, positive⟩

def BlockOrdered (mask : Token) (s : DenoiseState) : Prop :=
  ∀ row ∈ s.seq, ∀ c, s.blockEndAbs ≤ c → c < row.length → row[c]? = some mask

theorem initial_ordered (prompt : Prompt) (params : SamplingParams) (mask : Token) (s : DenoiseState)
    (made : initState full prompt params mask = .ok s) : BlockOrdered mask s := by
  obtain ⟨numBlocks, blockLength, stepsPerBlock, accepted, rfl⟩ := init_state_ok prompt params mask s made
  intro row member c late inRange
  obtain ⟨base, inside, rfl⟩ := List.mem_map.mp member
  have width := prompt.rect base inside
  have past : prompt.width ≤ c := le_trans (Nat.le_add_right _ _) late
  rw [List.length_append, List.length_replicate] at inRange
  rw [List.getElem?_append_right (by omega), List.getElem?_replicate_of_lt (by omega)]

theorem ordered_later (mask : Token) (s s' : DenoiseState) (ordered : BlockOrdered mask s) (seq : s'.seq = s.seq)
    (later : s.blockEndAbs ≤ s'.blockEndAbs) : BlockOrdered mask s' := by
  intro row member c late
  rw [seq] at member
  exact ordered row member c (later.trans late)

-- The count taken from the schedule finds enough masks before the block end, or
-- there is no position past it.
def WithinBlock (mask : Token) (s : DenoiseState) (step : Nat) : Prop :=
  ∀ (j : Nat) (row : List Token), s.seq[j]? = some row →
    plannedK s step j ≤ (Rows.holding mask row 0 s.blockEndAbs).card ∨ row.length ≤ s.blockEndAbs

theorem affordable_within (mask : Token) (s : DenoiseState) (step : Nat) (affordable : Affordable mask s step) :
    WithinBlock mask s step := by
  intro j row read
  refine Or.inl ?_
  have planned := rest_step s step j
  have enough := affordable j row read
  have bound := Finset.card_le_card
    (Rows.holding_mono mask row s.blockStartAbs s.blockEndAbs 0 s.blockEndAbs (Nat.zero_le _) (Nat.le_refl _))
  rw [openIn] at enough
  omega

section RowStep

variable {V : Type} {torch : Torch V} {model : Model V} {draw : Draw V} {mask pad : Token} {params0 : SamplingParams}
  {row row' : List Token} {k e : Nat}

theorem row_step_ordered (step : RowStep torch model draw mask pad params0 row row' k e) (sound : TopKSound draw)
    (within : k ≤ (Rows.holding mask row 0 e).card ∨ row.length ≤ e)
    (ordered : ∀ c, e ≤ c → c < row.length → row[c]? = some mask) (c : Nat) (late : e ≤ c) (inRange : c < row'.length) :
    row'[c]? = some mask := by
  rw [(row_step_absorbs step).1] at inRange
  rcases within with enough | short
  · exact row_step_in_block step sound enough c late (ordered c late inRange)
  · omega

end RowStep

end Dlmserve
