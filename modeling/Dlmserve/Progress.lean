import Dlmserve.BlockOrder
import Dlmserve.Scheduler

set_option autoImplicit false

namespace Dlmserve

variable {full : Full}

-- A block of n masks is used up after min(steps_per_block, n) steps.
def blockSteps (s : DenoiseState) : Nat := min s.stepsPerBlock s.blockLength

section Single

variable (mask : Token) (s : DenoiseState)

theorem single_mask_sum (row : List Token) (single : s.seq = [row]) :
    (s.blockMaskCount mask).sum = openIn mask s row := by
  rw [DenoiseState.blockMaskCount, single, List.map_singleton, List.sum_singleton, Rows.slice_count, openIn]

theorem block_steps_positive (shaped : Shaped s) : 0 < blockSteps s :=
  lt_min shaped.stepsPos shaped.blockPos

-- The invariant of a run of n steps on a single row: every block before the
-- active one is committed, and the rest of the schedule covers the active one.
structure Progress (n : Nat) : Prop where
  shaped : Shaped s
  single : ∃ row, s.seq = [row]
  behind : ∀ row ∈ s.seq, Rows.holding mask row 0 s.blockStartAbs = ∅
  spent : n ≤ s.blockIdx * blockSteps s + s.stepInBlock
  ended : s.done = true → s.blockIdx = s.genLength / s.blockLength ∧ s.stepInBlock = 0
  early : s.stepInBlock < blockSteps s
  planned : s.done = false → ∃ total, total ≤ s.blockLength ∧
    s.schedule.getD 0 [] = EvenSplit.shares total s.stepsPerBlock
  sufficient : s.done = false → Sufficient mask s s.stepInBlock

-- The same run without LocalLeap, where nothing is ever ahead of the schedule.
structure Exact (n : Nat) : Prop where
  plain : PlainRun mask s
  spent : n = s.blockIdx * blockSteps s + s.stepInBlock
  planned : s.done = false → s.schedule.getD 0 [] = EvenSplit.shares s.blockLength s.stepsPerBlock

end Single

theorem holding_start (mask : Token) (row : List Token) (a : Nat) (clean : ∀ c < a, row[c]? ≠ some mask) :
    Rows.holding mask row 0 a = ∅ := by
  apply Finset.eq_empty_of_forall_notMem
  intro c member
  obtain ⟨_, upper, read⟩ := (Rows.mem_holding _ _ _ _ _).mp member
  exact clean c upper read

section Initial

variable (mask : Token) (prompt : Prompt) (params : SamplingParams) (s : DenoiseState) (base : List Token)

theorem initial_row (single : prompt.rows = [base]) (made : initState full prompt params mask = .ok s) :
    s.seq = [base ++ List.replicate s.genLength mask] ∧ base.length = s.promptLen := by
  obtain ⟨numBlocks, blockLength, stepsPerBlock, accepted, rfl⟩ := init_state_ok prompt params mask s made
  refine ⟨by rw [initialState, single]; rfl, ?_⟩
  exact prompt.rect base (by rw [single]; exact List.mem_singleton_self base)

theorem initial_counters (made : initState full prompt params mask = .ok s) :
    s.blockIdx = 0 ∧ s.stepInBlock = 0 ∧ s.blockStartAbs = s.promptLen := by
  obtain ⟨_, _, _, _, rfl⟩ := init_state_ok prompt params mask s made
  refine ⟨rfl, rfl, ?_⟩
  rw [DenoiseState.blockStartAbs, initialState, Nat.zero_mul, Nat.add_zero]

theorem initial_running (made : initState full prompt params mask = .ok s) : s.done = false := by
  have shaped := initial_shaped prompt params mask s made
  have index := (initial_counters mask prompt params s made).1
  cases running : s.done with
  | false => rfl
  | true =>
      have bound := (done_iff s).mp running
      have positive := shaped.someBlock
      omega

theorem initial_progress (single : prompt.rows = [base]) (clean : mask ∉ base)
    (made : initState full prompt params mask = .ok s) : Progress mask s 0 := by
  have shaped := initial_shaped prompt params mask s made
  obtain ⟨row, width⟩ := initial_row mask prompt params s base single made
  obtain ⟨block, step, start⟩ := initial_counters mask prompt params s made
  obtain ⟨fresh, positive⟩ := initial_fresh prompt params mask s made
  refine ⟨shaped, ⟨_, row⟩, ?_, Nat.zero_le _, ?_, ?_, ?_, ?_⟩
  · intro other member
    rw [row, List.mem_singleton] at member
    rw [member, start, ← width]
    apply holding_start
    intro c inside read
    rw [List.getElem?_append_left inside] at read
    exact clean (List.mem_of_getElem? read)
  · rw [initial_running mask prompt params s made]
    intro impossible
    cases impossible
  · rw [step]
    exact block_steps_positive s shaped
  · intro _
    refine ⟨_, ?_, fresh_schedule_get mask s fresh 0 _ (by rw [row]; rfl)⟩
    rw [openIn, block_span]
    exact Rows.holding_card_le mask _ _ _
  · intro _
    rw [step]
    exact fresh_sufficient mask s fresh positive

end Initial

section Step

variable {V : Type} (torch : Torch V) (model : Model V) (mask pad : Token) (draw : Draw V) (params0 : SamplingParams)
  (n : Nat) (s s' : DenoiseState)

-- After the commit the block holds no more than the schedule still plans.
theorem committed_row_left (row row' : List Token) (single : s.seq = [row]) (sound : TopKSound draw)
    (proper : pad ≠ mask) (never : NeverPredictsMask torch model mask draw params0.temperature)
    (rowStep : RowStep torch model draw mask pad params0 row row' (plannedK s s.stepInBlock 0) s.blockEndAbs)
    (running : s.done = false) (progress : Progress mask s n) :
    Rows.holding mask row' 0 s.blockStartAbs = ∅ ∧
      (Rows.holding mask row' 0 s.blockEndAbs).card = openIn mask s row' ∧
      openIn mask s row' ≤ restOf s (s.stepInBlock + 1) 0 := by
  have behind := progress.behind row (by rw [single]; exact List.mem_singleton_self row)
  have behind' : Rows.holding mask row' 0 s.blockStartAbs = ∅ := by
    have inside := Rows.absorbs_holding mask row row' 0 s.blockStartAbs (row_step_absorbs rowStep)
    rw [behind] at inside
    exact Finset.subset_empty.mp inside
  have before := congrArg Finset.card (Rows.holding_split mask row s.blockStartAbs s.blockEndAbs behind)
  have after := congrArg Finset.card (Rows.holding_split mask row' s.blockStartAbs s.blockEndAbs behind')
  have covers := row_step_covers rowStep sound proper never
  have enough := progress.sufficient running 0 row (by rw [single]; rfl)
  have planned := rest_step s s.stepInBlock 0
  refine ⟨behind', after, ?_⟩
  rw [openIn] at enough ⊢
  omega

theorem rest_after_last (running : s.done = false) (progress : Progress mask s n)
    (last : blockSteps s ≤ s.stepInBlock + 1) (bounded : s.stepInBlock + 1 ≤ s.stepsPerBlock) :
    restOf s (s.stepInBlock + 1) 0 = 0 := by
  obtain ⟨total, small, schedule⟩ := progress.planned running
  rw [restOf, schedule]
  apply EvenSplit.shares_rest_zero total s.stepsPerBlock _ progress.shaped.stepsPos bounded
  rw [blockSteps] at last
  omega

theorem block_emptied (row' : List Token) (after : (committedRow mask s row').seq = [row'])
    (whole : (Rows.holding mask row' 0 s.blockEndAbs).card = openIn mask s row')
    (left : openIn mask s row' ≤ restOf s (s.stepInBlock + 1) 0) (bounded : s.stepInBlock + 1 ≤ s.stepsPerBlock)
    (running : s.done = false) (progress : Progress mask s n) (ended : blockOver mask (committedRow mask s row')) :
    Rows.holding mask row' 0 s.blockEndAbs = ∅ := by
  rw [← Finset.card_eq_zero, whole]
  rcases ended with late | gone
  · have full : blockSteps s ≤ s.stepInBlock + 1 := (Nat.min_le_left _ _).trans late
    rw [rest_after_last mask n s running progress full bounded] at left
    exact Nat.le_zero.mp left
  · exact (single_mask_sum mask (committedRow mask s row') row' after).symm.trans gone

theorem staying_progress (row' : List Token) (after : (committedRow mask s row').seq = [row'])
    (shaped : Shaped (staying (committedRow mask s row'))) (behind : Rows.holding mask row' 0 s.blockStartAbs = ∅)
    (left : openIn mask s row' ≤ restOf s (s.stepInBlock + 1) 0) (bounded : s.stepInBlock + 1 ≤ s.stepsPerBlock)
    (running : s.done = false) (progress : Progress mask s n) (stays : ¬ blockOver mask (committedRow mask s row')) :
    Progress mask (staying (committedRow mask s row')) (n + 1) := by
  refine ⟨shaped, ⟨row', after⟩, ?_, Nat.succ_le_succ progress.spent, ?_, ?_, progress.planned, ?_⟩
  · intro other member
    rw [staying, after, List.mem_singleton] at member
    rw [member]
    exact behind
  · intro done
    rw [show (staying (committedRow mask s row')).done = s.done from rfl, running] at done
    cases done
  · change s.stepInBlock + 1 < blockSteps s
    by_contra full
    rw [rest_after_last mask n s running progress (by omega) bounded] at left
    exact stays (Or.inr ((single_mask_sum mask (committedRow mask s row') row' after).trans (Nat.le_zero.mp left)))
  · intro _ j other read
    rw [staying, after] at read
    cases j with
    | zero =>
        obtain rfl : row' = other := by simpa using read
        exact left
    | succ j => simp at read

theorem finishing_progress (row' : List Token) (after : (committedRow mask s row').seq = [row'])
    (shaped : Shaped (passing (committedRow mask s row'))) (empty : Rows.holding mask row' 0 s.blockEndAbs = ∅)
    (spent : n + 1 ≤ (s.blockIdx + 1) * blockSteps s) (running : s.done = false)
    (last : (passing (committedRow mask s row')).done = true) :
    Progress mask (passing (committedRow mask s row')) (n + 1) := by
  refine ⟨shaped, ⟨row', after⟩, ?_, spent, ?_, block_steps_positive _ shaped, ?_, ?_⟩
  · intro other member
    rw [passing, after, List.mem_singleton] at member
    rw [member]
    exact empty
  · intro _
    refine ⟨?_, rfl⟩
    have bound := (done_iff _).mp last
    have less : ¬ s.genLength / s.blockLength ≤ s.blockIdx := by
      intro beyond
      rw [(done_iff s).mpr beyond] at running
      cases running
    change s.blockIdx + 1 = s.genLength / s.blockLength
    change s.genLength / s.blockLength ≤ s.blockIdx + 1 at bound
    omega
  · rw [last]
    intro impossible
    cases impossible
  · rw [last]
    intro impossible
    cases impossible

theorem opening_progress (row' : List Token) (after : (committedRow mask s row').seq = [row'])
    (shaped : Shaped (opening mask (committedRow mask s row'))) (empty : Rows.holding mask row' 0 s.blockEndAbs = ∅)
    (spent : n + 1 ≤ (s.blockIdx + 1) * blockSteps s) (positive : 0 < s.stepsPerBlock)
    (more : (passing (committedRow mask s row')).done = false) :
    Progress mask (opening mask (committedRow mask s row')) (n + 1) := by
  refine ⟨shaped, ⟨row', after⟩, ?_, spent, ?_, block_steps_positive _ shaped, ?_, ?_⟩
  · intro other member
    rw [opening, passing, after, List.mem_singleton] at member
    rw [member]
    exact empty
  · intro done
    rw [show (opening mask (committedRow mask s row')).done = (passing (committedRow mask s row')).done from rfl,
      more] at done
    cases done
  · intro _
    refine ⟨_, ?_, fresh_schedule_get mask _ (opening_fresh mask _) 0 row' (by rw [opening, passing, after]; rfl)⟩
    rw [openIn, block_span]
    exact Rows.holding_card_le mask _ _ _
  · intro _
    exact fresh_sufficient mask _ (opening_fresh mask _) positive

theorem progress_step (step : StateStep torch model mask pad draw params0 s s') (sound : TopKSound draw)
    (proper : pad ≠ mask) (never : NeverPredictsMask torch model mask draw params0.temperature)
    (running : s.done = false) (progress : Progress mask s n) : Progress mask s' (n + 1) := by
  have shaped := state_step_shaped torch model mask pad draw params0 s s' step progress.shaped
  obtain ⟨row, row', others, shape, rowStep, after, moved⟩ := state_step_cases torch model mask pad draw params0 s s' step
  obtain ⟨only, single⟩ := progress.single
  rw [single] at shape
  obtain ⟨rfl, rfl⟩ := List.cons.inj shape
  obtain ⟨behind, whole, left⟩ := committed_row_left torch model mask pad draw params0 n s only row' single sound proper
    never rowStep running progress
  have bounded : s.stepInBlock + 1 ≤ s.stepsPerBlock := by
    have bound := progress.shaped.stepBound
    omega
  have spent : n + 1 ≤ (s.blockIdx + 1) * blockSteps s := by
    have early := progress.early
    have before := progress.spent
    rw [Nat.add_mul, Nat.one_mul]
    omega
  have empty := block_emptied mask n s row' after whole left bounded running progress
  rcases advance_cases mask _ s' moved with ⟨stays, rfl⟩ | ⟨ended, last, rfl⟩ | ⟨ended, more, positive, rfl⟩
  · exact staying_progress mask n s row' after shaped behind left bounded running progress stays
  · exact finishing_progress mask n s row' after shaped (empty ended) spent running last
  · exact opening_progress mask n s row' after shaped (empty ended) spent positive more

-- Without LocalLeap the block ends with its schedule, neither earlier nor later.
theorem plain_block_full (row row' : List Token) (others : List (List Token)) (shape : s.seq = row :: others)
    (after : (committedRow mask s row').seq = row' :: others) (sound : TopKSound draw)
    (plain : params0.useLocalLeap = false)
    (rowStep : RowStep torch model draw mask pad params0 row row' (plannedK s s.stepInBlock 0) s.blockEndAbs)
    (running : s.done = false) (exact : Exact mask s n) (early : s.stepInBlock < blockSteps s)
    (ended : blockOver mask (committedRow mask s row')) : s.stepInBlock + 1 = blockSteps s := by
  by_contra short
  rcases ended with late | gone
  · have bound : blockSteps s ≤ s.stepsPerBlock := Nat.min_le_left _ _
    change s.stepsPerBlock ≤ s.stepInBlock + 1 at late
    omega
  · have affordable := committed_row_affordable torch model mask pad draw params0 s row row' others shape after rowStep
      sound plain (exact.plain.affordable running) 0 row' (by rw [after]; rfl)
    have counted : openIn mask (committedRow mask s row') row' ∈ (committedRow mask s row').blockMaskCount mask := by
      rw [DenoiseState.blockMaskCount, after, List.map_cons, Rows.slice_count]
      exact List.mem_cons_self
    have none : openIn mask (committedRow mask s row') row' = 0 := List.sum_eq_zero_iff_forall_eq_nat.mp gone _ counted
    have positive : 0 < restOf s (s.stepInBlock + 1) 0 := by
      rw [restOf, exact.planned running]
      apply EvenSplit.shares_rest_positive _ _ _ exact.plain.shaped.stepsPos
      rw [blockSteps] at early short
      omega
    change restOf s (s.stepInBlock + 1) 0 ≤ _ at affordable
    omega

theorem next_block_open (row : List Token) (read : row ∈ s.seq)
    (blocks : s.genLength = s.genLength / s.blockLength * s.blockLength)
    (width : row.length = s.promptLen + s.genLength) (ordered : BlockOrdered mask s)
    (more : (passing s).done = false) : openIn mask (passing s) row = s.blockLength := by
  have inside := block_inside (passing s) blocks more
  have span := block_span (passing s)
  have full : ∀ c, (passing s).blockStartAbs ≤ c → c < (passing s).blockEndAbs → row[c]? = some mask := by
    intro c late inBlock
    apply ordered row read c late
    rw [width]
    exact lt_of_lt_of_le inBlock inside
  rw [openIn, Rows.holding_full mask row _ _ full, span]
  exact Nat.add_sub_cancel_left _ _

theorem exact_step (step : StateStep torch model mask pad draw params0 s s') (sound : TopKSound draw)
    (plain : params0.useLocalLeap = false) (running : s.done = false) (exact : Exact mask s n)
    (early : s.stepInBlock < blockSteps s) : Exact mask s' (n + 1) := by
  have plainRun := plain_run_step torch model mask pad draw params0 s s' step sound plain exact.plain
  obtain ⟨row, row', others, shape, rowStep, after, moved⟩ := state_step_cases torch model mask pad draw params0 s s' step
  have full := plain_block_full torch model mask pad draw params0 n s row row' others shape after sound plain rowStep
    running exact early
  have passed (ended : blockOver mask (committedRow mask s row')) : n + 1 = (s.blockIdx + 1) * blockSteps s := by
    have spent := exact.spent
    have last := full ended
    rw [Nat.add_mul, Nat.one_mul]
    omega
  have ordered := committed_row_ordered torch model mask pad draw params0 s row row' others shape after rowStep sound
    (plain_run_within mask s exact.plain) exact.plain.ordered
  rcases advance_cases mask _ s' moved with ⟨stays, rfl⟩ | ⟨ended, last, rfl⟩ | ⟨ended, more, positive, rfl⟩
  · exact ⟨plainRun, congrArg Nat.succ exact.spent, exact.planned⟩
  · refine ⟨plainRun, passed ended, ?_⟩
    rw [last]
    intro impossible
    cases impossible
  · refine ⟨plainRun, passed ended, fun _ => ?_⟩
    have member : row' ∈ (committedRow mask s row').seq := by
      rw [after]
      exact List.mem_cons_self
    have fresh := next_block_open mask (committedRow mask s row') row' member exact.plain.shaped.blocks
      (plainRun.shaped.rows row' member) ordered more
    rw [fresh_schedule_get mask _ (opening_fresh mask _) 0 row' (by rw [opening, passing, after]; rfl)]
    exact congrArg (fun total => EvenSplit.shares total s.stepsPerBlock) fresh

end Step

theorem step_idx_increases {V : Type} (torch : Torch V) (model : Model V) (mask pad : Token) (draw : Draw V)
    (params0 : SamplingParams) (s s' : DenoiseState) (step : StateStep torch model mask pad draw params0 s s')
    (shaped : Shaped s) : stepIdx s < stepIdx s' := by
  obtain ⟨row, row', others, _, _, _, moved⟩ := state_step_cases torch model mask pad draw params0 s s' step
  have bound := shaped.stepBound
  have carried : stepIdx s < stepIdx (passing (committedRow mask s row')) := by
    change s.blockIdx * s.stepsPerBlock + s.stepInBlock < (s.blockIdx + 1) * s.stepsPerBlock + 0
    rw [Nat.add_mul, Nat.one_mul]
    omega
  rcases advance_cases mask _ s' moved with ⟨_, rfl⟩ | ⟨_, _, rfl⟩ | ⟨_, _, _, rfl⟩
  · exact Nat.lt_succ_self (stepIdx s)
  · exact carried
  · exact carried

end Dlmserve
