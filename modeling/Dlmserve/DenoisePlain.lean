import Dlmserve.PlainStep

set_option autoImplicit false

namespace Dlmserve

variable {full : Full}

section Denoise

variable {V : Type} (torch : Torch V) (view : List Token → Nat → V) (mask : Token) (model : Model V)
  (draws : Nat → Nat → Draw V) (params : SamplingParams) (attn : Option (List (List Nat)))

-- The state of an inner loop that is about to run the given step.
def atStep (step : Nat) (s : DenoiseState) : DenoiseState := { s with stepInBlock := step }

def closing (s : DenoiseState) : DenoiseState := if (passing s).done then passing s else opening mask s

structure OneRow (s : DenoiseState) (row : List Token) : Prop where
  seq : s.seq = [row]
  committed : s.committed = notMask mask [row]

def AttendsAll (width : Nat) : Prop := attn = none ∨ attn = some [List.replicate width 1]

theorem plain_step_shaped (s s' : DenoiseState) (stepped : plainStep torch view mask s = some s') (shaped : Shaped s) :
    Shaped s' := by
  obtain ⟨row, read, stepped⟩ := Option.bind_eq_some_iff.mp stepped
  obtain ⟨k, _, stepped⟩ := Option.bind_eq_some_iff.mp stepped
  rw [write_back_eq] at stepped
  apply advance_shaped mask _ s' _ stepped
  apply committed_row_shaped mask s _ shaped
  rw [plainRow, Rows.fill_length]
  exact shaped.rows row (List.mem_of_mem_head? read)

theorem bare_logits (isLocal : PaddingLocal model view) (row : List Token) (attends : AttendsAll attn row.length) (c : Nat)
    (inside : c < row.length) : model.forward [row] attn none 0 c = view row c := by
  rcases attends with rfl | rfl
  · exact isLocal.bare [row] 0 row c inside rfl
  · have wide (fill : Nat) (content : List Nat) : Rows.padded fill 0 0 content = content := by simp [Rows.padded]
    have logits := isLocal.padded [row] [List.replicate row.length 1] none 0 0 0 0 row c inside (by rw [wide]; rfl)
      (by rw [wide]; rfl) (by rintro rows ⟨⟩)
    rwa [Nat.zero_add] at logits

-- On a single row an inner step of denoise is the row's plain commit.
theorem denoise_step_plain (isLocal : PaddingLocal model view) (cold : params.temperature = 0) (s : DenoiseState)
    (row : List Token) (one : OneRow mask s row) (attends : AttendsAll attn row.length) (step : Nat)
    (low : TopKTiesLow (draws s.blockIdx step)) (fits : plannedK s step 0 ≤ row.length)
    (small : plannedK s step 0 ≤ s.blockEndAbs) :
    denoiseStep torch model mask draws params attn step s = some { s with
      seq := [plainRow torch view mask params row (plannedK s step 0) s.blockEndAbs]
      committed := notMask mask [plainRow torch view mask params row (plannedK s step 0) s.blockEndAbs]
      stepInBlock := step } := by
  have wide : Rows.padded (mask + 1) 0 0 row = row := by simp [Rows.padded]
  have unshifted (chosen : List Nat) : Rows.shifted 0 chosen = chosen := by simp [Rows.shifted]
  have plain := padded_plain torch view mask (mask + 1) params (draws s.blockIdx step) [row]
    (model.forward [row] attn none) (.int s.blockEndAbs) 0 0 0 (plannedK s step 0) s.blockEndAbs row cold
    (Nat.succ_ne_self mask) (by rw [wide]; rfl) (Nat.zero_add _).symm small (by rw [wide]; exact fits) low
    (fun c inside => by rw [Nat.zero_add]; exact bare_logits view model attn isLocal row attends c inside)
  simp only [wide, unshifted, Nat.zero_add] at plain
  have opened := mask_index_row mask [row] 0 row rfl
  have committed : commitRows torch mask params (draws s.blockIdx step) [row] (model.forward [row] attn none)
      (plannedK s step) (.int s.blockEndAbs) =
      some [plainRow torch view mask params row (plannedK s step 0) s.blockEndAbs] := by
    rw [commit_rows_eq, commitBy, ← plain, ← opened]
    simp [fits]
  rw [denoiseStep]
  dsimp only
  rw [one.seq]
  exact Option.bind_eq_some_iff.mpr ⟨_, committed, rfl⟩

-- A state between two inner steps of denoise, on its own row and parameters.
structure Midway (s : DenoiseState) (row : List Token) (step : Nat) : Prop where
  one : OneRow mask s row
  shaped : Shaped (atStep step s)
  params_eq : s.params = params
  running : s.done = false
  attends : AttendsAll attn row.length

theorem midway_scheduled (s : DenoiseState) (row : List Token) (step : Nat) (midway : Midway mask params attn s row step) :
    scheduledK (atStep step s) = some (plannedK s step 0) ∧ plannedK s step 0 ≤ s.blockLength ∧
      plannedK s step 0 ≤ row.length := by
  have shape : (atStep step s).seq = [row] := midway.one.seq
  obtain ⟨k, scheduled, small⟩ := scheduled_total (atStep step s) midway.shaped (by rw [shape]; exact List.cons_ne_nil _ _)
  have entry : plannedK s step 0 = k := scheduled_entry (atStep step s) k scheduled
  have width : row.length = s.promptLen + s.genLength := midway.shaped.rows row (by rw [shape]; exact List.mem_singleton_self row)
  have whole : s.genLength = s.genLength / s.blockLength * s.blockLength := midway.shaped.blocks
  have least := Nat.le_mul_of_pos_left s.blockLength midway.shaped.someBlock
  have small' : k ≤ s.blockLength := small
  change s.blockLength ≤ s.genLength / s.blockLength * s.blockLength at least
  rw [entry]
  exact ⟨scheduled, small', by omega⟩

theorem denoise_step_moves (isLocal : PaddingLocal model view) (cold : params.temperature = 0) (s : DenoiseState)
    (row : List Token) (step : Nat) (midway : Midway mask params attn s row step)
    (low : TopKTiesLow (draws s.blockIdx step)) :
    ∃ next row', denoiseStep torch model mask draws params attn step s = some next ∧ OneRow mask next row' ∧
      row'.length = row.length ∧ SameRequest s next ∧ next.blockIdx = s.blockIdx ∧ next.stepInBlock = step ∧
      plainStep torch view mask (atStep step s) = advance mask next := by
  obtain ⟨scheduled, small, fits⟩ := midway_scheduled mask params attn s row step midway
  have stepped := denoise_step_plain torch view mask model draws params attn isLocal cold s row midway.one midway.attends step
    low fits (small.trans (block_length_le_end s))
  refine ⟨_, _, stepped, ⟨rfl, rfl⟩, ?_, ⟨rfl, rfl, rfl, rfl, rfl⟩, rfl, rfl, ?_⟩
  · rw [plainRow, Rows.fill_length]
  · have read : seqRow (atStep step s) = some row := by
      change s.seq.head? = some row
      rw [midway.one.seq]
      rfl
    have same : (atStep step s).params = params := midway.params_eq
    rw [plainStep, read, scheduled]
    change advance mask (committedRow mask (atStep step s) (plainRow torch view mask (atStep step s).params row
      (plannedK s step 0) s.blockEndAbs)) = _
    rw [same, committedRow]
    congr 1
    simp only [atStep, midway.one.seq, midway.one.committed, notMask, List.map_cons, List.map_nil, List.set_cons_zero]

abbrev PlainPath (s t : DenoiseState) : Prop :=
  Relation.ReflTransGen (Transition.Advances (plainStep torch view mask) fun s => s.done = true) s t

-- After an inner step the plain path is at the next step of the block or, when the
-- block is over, at the state that closes it.
theorem denoise_step_next (isLocal : PaddingLocal model view) (cold : params.temperature = 0) (s : DenoiseState)
    (row : List Token) (step : Nat) (midway : Midway mask params attn s row step)
    (low : TopKTiesLow (draws s.blockIdx step)) :
    ∃ next row', denoiseStep torch model mask draws params attn step s = some next ∧ OneRow mask next row' ∧
      row'.length = row.length ∧ SameRequest s next ∧ next.blockIdx = s.blockIdx ∧
      (step + 1 = s.stepsPerBlock ∨ (next.blockMaskCount mask).sum = 0 →
        Shaped (closing mask next) ∧ PlainPath torch view mask (atStep step s) (closing mask next)) ∧
      (step + 1 < s.stepsPerBlock → (next.blockMaskCount mask).sum ≠ 0 →
        Midway mask params attn next row' (step + 1) ∧
          PlainPath torch view mask (atStep step s) (atStep (step + 1) next)) := by
  obtain ⟨next, row', stepped, one, width, same, block, counter, moved⟩ := denoise_step_moves torch view mask model draws params
    attn isLocal cold s row step midway low
  have running : ¬ (atStep step s).done = true := by
    change ¬ s.done = true
    rw [midway.running]
    exact Bool.false_ne_true
  have positive : 0 < next.stepsPerBlock := by
    rw [same.stepsPerBlock]
    exact midway.shaped.stepsPos
  rw [advance_eq mask next positive] at moved
  have over_iff : blockOver mask next ↔ s.stepsPerBlock ≤ step + 1 ∨ (next.blockMaskCount mask).sum = 0 := by
    rw [blockOver, counter, same.stepsPerBlock]
  refine ⟨next, row', stepped, one, width, same, block, ?_, ?_⟩
  · intro ended
    rw [if_pos (over_iff.mpr (ended.imp_left fun last => le_of_eq last.symm))] at moved
    exact ⟨plain_step_shaped torch view mask _ _ moved midway.shaped, .single ⟨running, moved⟩⟩
  · intro more remaining
    rw [if_neg fun ended => (over_iff.mp ended).elim (fun late => by omega) remaining] at moved
    have staysEq : staying next = atStep (step + 1) next := by rw [staying, counter, atStep]
    rw [staysEq] at moved
    refine ⟨⟨one, plain_step_shaped torch view mask _ _ moved midway.shaped, same.params.trans midway.params_eq, ?_, ?_⟩,
      .single ⟨running, moved⟩⟩
    · rw [DenoiseState.done, same.genLength, same.blockLength, block]
      exact midway.running
    · rw [width]
      exact midway.attends

theorem plain_path_same (s t : DenoiseState) (path : PlainPath torch view mask s t) : SameRequest s t := by
  induction path with
  | refl => exact same_request_refl s
  | tail _ last ih =>
      obtain ⟨row, _, stepped⟩ := Option.bind_eq_some_iff.mp last.2
      obtain ⟨k, _, written⟩ := Option.bind_eq_some_iff.mp stepped
      exact same_request_trans _ _ _ ih (write_back_keeps mask _ _ _ written).1

-- The inner loop walks the plain path up to the state that closes its block.
theorem denoise_steps_plain (isLocal : PaddingLocal model view) (cold : params.temperature = 0)
    (low : ∀ block step, TopKTiesLow (draws block step)) (left : Nat) (s : DenoiseState) (row : List Token) (step : Nat)
    (midway : Midway mask params attn s row step) (left_eq : step + (left + 1) = s.stepsPerBlock) :
    ∃ last row', denoiseSteps torch model mask draws params attn s step (left + 1) = some last ∧ OneRow mask last row' ∧
      row'.length = row.length ∧ SameRequest s last ∧ last.blockIdx = s.blockIdx ∧ Shaped (closing mask last) ∧
      PlainPath torch view mask (atStep step s) (closing mask last) := by
  induction left generalizing s row step with
  | zero =>
      obtain ⟨next, row', stepped, one, width, same, block, closes, _⟩ := denoise_step_next torch view mask model draws params attn
        isLocal cold s row step midway (low s.blockIdx step)
      obtain ⟨shaped, path⟩ := closes (Or.inl left_eq)
      refine ⟨next, row', ?_, one, width, same, block, shaped, path⟩
      rw [denoiseSteps, stepped]
      change (if (next.blockMaskCount mask).sum = 0 then some next else some next) = some next
      split <;> rfl
  | succ left ih =>
      obtain ⟨next, row', stepped, one, width, same, block, closes, goes⟩ := denoise_step_next torch view mask model draws params
        attn isLocal cold s row step midway (low s.blockIdx step)
      rw [denoiseSteps, stepped]
      change ∃ last row', (if (next.blockMaskCount mask).sum = 0 then some next
        else denoiseSteps torch model mask draws params attn next (step + 1) (left + 1)) = some last ∧ _
      by_cases empty : (next.blockMaskCount mask).sum = 0
      · obtain ⟨shaped, path⟩ := closes (Or.inr empty)
        exact ⟨next, row', if_pos empty, one, width, same, block, shaped, path⟩
      · obtain ⟨midway', path⟩ := goes (by omega) empty
        obtain ⟨last, row'', looped, one', width', same', block', shaped, rest⟩ := ih next row' (step + 1) midway'
          (by rw [same.stepsPerBlock]; omega)
        rw [if_neg empty]
        exact ⟨last, row'', looped, one', width'.trans width, same_request_trans _ _ _ same same', block'.trans block, shaped,
          path.trans rest⟩

theorem denoise_block_plain (isLocal : PaddingLocal model view) (cold : params.temperature = 0)
    (low : ∀ block step, TopKTiesLow (draws block step)) (left : Nat) (s : DenoiseState) (row : List Token) (block : Nat)
    (midway : Midway mask params attn (entering mask block s) row 0) :
    ∃ last row', denoiseBlocks torch model mask draws params attn s block (left + 1) =
        denoiseBlocks torch model mask draws params attn last (block + 1) left ∧ OneRow mask last row' ∧
      row'.length = row.length ∧ SameRequest s last ∧ last.blockIdx = block ∧ Shaped (closing mask last) ∧
      PlainPath torch view mask (atStep 0 (entering mask block s)) (closing mask last) := by
  have positive : 0 < s.stepsPerBlock := midway.shaped.stepsPos
  obtain ⟨n, count⟩ : ∃ n, (entering mask block s).stepsPerBlock = n + 1 := Nat.exists_eq_add_of_le' positive
  obtain ⟨last, row', looped, one, width, same, index, shaped, path⟩ := denoise_steps_plain torch view mask model draws params attn
    isLocal cold low n (entering mask block s) row 0 midway (by rw [count, Nat.zero_add])
  refine ⟨last, row', ?_, one, width, same_request_trans s (entering mask block s) last ⟨rfl, rfl, rfl, rfl, rfl⟩ same,
    index, shaped, path⟩
  rw [denoiseBlocks, enter_block_eq mask block s positive]
  change (denoiseSteps torch model mask draws params attn (entering mask block s) 0
    (entering mask block s).stepsPerBlock).bind _ = _
  rw [count, looped]
  rfl

theorem closing_last (s : DenoiseState) (last : s.blockIdx + 1 = s.genLength / s.blockLength) :
    (closing mask s).done = true ∧ (closing mask s).seq = s.seq := by
  have done : (passing s).done = true := (done_iff (passing s)).mpr (le_of_eq last.symm)
  rw [closing, if_pos done]
  exact ⟨done, rfl⟩

theorem closing_more (s : DenoiseState) (more : s.blockIdx + 1 < s.genLength / s.blockLength) :
    closing mask s = atStep 0 (entering mask (s.blockIdx + 1) s) ∧ (entering mask (s.blockIdx + 1) s).done = false := by
  have running : ¬ (passing s).done = true := fun done => Nat.not_lt.mpr ((done_iff (passing s)).mp done) more
  rw [closing, if_neg running]
  exact ⟨rfl, Bool.eq_false_iff.mpr running⟩

theorem denoise_blocks_plain (isLocal : PaddingLocal model view) (cold : params.temperature = 0)
    (low : ∀ block step, TopKTiesLow (draws block step)) (left : Nat) (s : DenoiseState) (row : List Token) (block : Nat)
    (midway : Midway mask params attn (entering mask block s) row 0)
    (left_eq : block + (left + 1) = s.genLength / s.blockLength) :
    ∃ final halt, denoiseBlocks torch model mask draws params attn s block (left + 1) = some final ∧
      PlainPath torch view mask (atStep 0 (entering mask block s)) halt ∧ halt.done = true ∧ halt.seq = final.seq ∧
      ∃ row', final.seq = [row'] := by
  induction left generalizing s row block with
  | zero =>
      obtain ⟨last, row', looped, one, width, same, index, shaped, path⟩ := denoise_block_plain torch view mask model draws params
        attn isLocal cold low 0 s row block midway
      obtain ⟨done, seq⟩ := closing_last mask last (by rw [index, same.genLength, same.blockLength]; exact left_eq)
      exact ⟨last, closing mask last, looped, path, done, seq, row', one.seq⟩
  | succ left ih =>
      obtain ⟨last, row', looped, one, width, same, index, shaped, path⟩ := denoise_block_plain torch view mask model draws params
        attn isLocal cold low (left + 1) s row block midway
      obtain ⟨reopened, running⟩ := closing_more mask last (by rw [index, same.genLength, same.blockLength]; omega)
      rw [index] at reopened running
      rw [reopened] at shaped path
      have next : Midway mask params attn (entering mask (block + 1) last) row' 0 :=
        ⟨⟨one.seq, one.committed⟩, shaped, same.params.trans midway.params_eq, running, by rw [width]; exact midway.attends⟩
      obtain ⟨final, halt, rest, onward, done, seq, single⟩ := ih last row' (block + 1) next
        (by rw [same.genLength, same.blockLength]; omega)
      exact ⟨final, halt, looped.trans rest, path.trans onward, done, seq, single⟩

-- The first block is entered already: its schedule is the one init_state computed.
theorem initial_entered (prompt : Prompt) (start : DenoiseState) (made : initState full prompt params mask = .ok start) :
    entering mask 0 start = start ∧ atStep 0 start = start := by
  obtain ⟨fresh, _⟩ := initial_fresh prompt params mask start made
  obtain ⟨block, step, _⟩ := initial_counters mask prompt params start made
  obtain ⟨seq, committed, promptLen, genLength, blockLength, stepsPerBlock, schedule, given, blockIdx, stepInBlock⟩ := start
  simp only at block step
  subst block step
  refine ⟨?_, rfl⟩
  rw [FreshSchedule] at fresh
  simp only at fresh
  rw [entering]
  simp only [DenoiseState.mk.injEq, true_and, and_true]
  exact fresh.symm

theorem initial_midway (prompt : Prompt) (base : List Token) (single : prompt.rows = [base]) (start : DenoiseState)
    (made : initState full prompt params mask = .ok start)
    (attends : AttendsAll attn (base ++ List.replicate params.genLength mask).length) :
    Midway mask params attn start (base ++ List.replicate params.genLength mask) 0 := by
  have shaped := initial_shaped prompt params mask start made
  have running := initial_running mask prompt params start made
  have entered := (initial_entered mask params prompt start made).2
  refine ⟨?_, by rw [entered]; exact shaped, ?_, running, attends⟩
  all_goals obtain ⟨numBlocks, blockLength, stepsPerBlock, accepted, rfl⟩ := init_state_ok prompt params mask start made
  · exact ⟨by rw [initialState, single]; rfl, by rw [initialState, single]; rfl⟩
  · rfl

theorem denoise_plain (isLocal : PaddingLocal model view) (cold : params.temperature = 0)
    (low : ∀ block step, TopKTiesLow (draws block step)) (prompt : Prompt) (base : List Token)
    (single : prompt.rows = [base]) (attention : Option (List (List Nat)))
    (attends : attention = none ∨ attention = some [List.replicate base.length 1]) (start : DenoiseState)
    (made : initState full prompt params mask = .ok start) :
    ∃ halt row, denoise torch model mask full draws prompt attention params = .ok [row] ∧ halt.seq = [row] ∧
      PlainPath torch view mask start halt ∧ halt.done = true := by
  have full : AttendsAll (fullAttentionMask params attention) (base ++ List.replicate params.genLength mask).length := by
    rcases attends with rfl | rfl
    · exact Or.inl rfl
    · exact Or.inr (by simp [fullAttentionMask, List.replicate_append_replicate])
  obtain ⟨entered, counted⟩ := initial_entered mask params prompt start made
  have midway := initial_midway mask params _ prompt base single start made full
  obtain ⟨left, blocks⟩ := Nat.exists_eq_add_of_le' (initial_shaped prompt params mask start made).someBlock
  have lengths : start.genLength = params.genLength := by
    obtain ⟨_, _, _, _, rfl⟩ := init_state_ok prompt params mask start made
    rfl
  obtain ⟨final, halt, looped, path, done, seq, row, single'⟩ := denoise_blocks_plain torch view mask model draws params
    (fullAttentionMask params attention) isLocal cold low left start _ 0 (by rw [entered]; exact midway)
    (by rw [blocks, Nat.zero_add])
  rw [entered, counted] at path
  refine ⟨halt, row, ?_, seq.trans single', path, done⟩
  rw [← single']
  apply denoise_looped torch model mask draws params prompt attention start final made
  rw [← lengths, blocks, looped]

end Denoise

end Dlmserve
