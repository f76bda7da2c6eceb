import Dlmserve.Runs

set_option autoImplicit false

namespace Dlmserve

variable {full : Full}

-- What init_state builds and every step keeps: whole blocks, rows of the full
-- width, a step index inside its schedule, and no entry above the block length.
structure Shaped (s : DenoiseState) : Prop where
  rows : ∀ row ∈ s.seq, row.length = s.promptLen + s.genLength
  blocks : s.genLength = s.genLength / s.blockLength * s.blockLength
  someBlock : 0 < s.genLength / s.blockLength
  blockPos : 0 < s.blockLength
  stepsPos : 0 < s.stepsPerBlock
  stepBound : s.stepInBlock < s.stepsPerBlock
  schedule : ∀ sch ∈ s.schedule, sch.length = s.stepsPerBlock ∧ ∀ k ∈ sch, k ≤ s.blockLength
  paired : s.schedule.length = s.seq.length

theorem shares_entries (total parts bound : Nat) (small : total ≤ bound) :
    (EvenSplit.shares total parts).length = parts ∧ ∀ k ∈ EvenSplit.shares total parts, k ≤ bound := by
  refine ⟨EvenSplit.shares_length total parts, ?_⟩
  intro k member
  obtain ⟨i, inRange, rfl⟩ := List.mem_map.mp member
  rw [List.mem_range] at inRange
  have division := Nat.div_add_mod total parts
  have base : total / parts ≤ parts * (total / parts) := Nat.le_mul_of_pos_left _ (by omega)
  rw [EvenSplit.share]
  split <;> omega

theorem slice_count_le (mask : Token) (row : List Token) (a n : Nat) : (Rows.slice row a (a + n)).count mask ≤ n := by
  rw [Rows.slice_count]
  exact Rows.holding_card_le mask row a n

theorem block_span (s : DenoiseState) : s.blockEndAbs = s.blockStartAbs + s.blockLength := by
  rw [DenoiseState.blockEndAbs, DenoiseState.blockStartAbs, Nat.add_mul, Nat.one_mul, Nat.add_assoc]

theorem block_mask_count_le (mask : Token) (s : DenoiseState) (n : Nat) (member : n ∈ s.blockMaskCount mask) :
    n ≤ s.blockLength := by
  obtain ⟨row, _, rfl⟩ := List.mem_map.mp member
  rw [block_span]
  exact slice_count_le mask row _ _

theorem initial_shaped (prompt : Prompt) (params : SamplingParams) (mask : Token) (s : DenoiseState)
    (made : initState full prompt params mask = .ok s) : Shaped s := by
  obtain ⟨numBlocks, blockLength, stepsPerBlock, accepted, rfl⟩ := init_state_ok prompt params mask s made
  have quotient : params.genLength / blockLength = numBlocks := by
    rw [accepted.blocks, Nat.mul_div_cancel _ accepted.lengthPos]
  refine ⟨?_, ?_, ?_, accepted.lengthPos, accepted.stepsPos, accepted.stepsPos, ?_, ?_⟩
  · intro row member
    obtain ⟨base, inside, rfl⟩ := List.mem_map.mp member
    simp [initialState, prompt.rect base inside]
  · simp only [initialState]
    rw [quotient]
    exact accepted.blocks
  · simp only [initialState]
    rw [quotient]
    exact accepted.blocksPos
  · intro sch member
    obtain ⟨row, _, rfl⟩ := List.mem_map.mp member
    exact shares_entries _ _ _ (slice_count_le mask row _ _)
  · simp [initialState]

theorem advance_shaped (mask : Token) (s s' : DenoiseState) (shaped : Shaped s) (moved : advance mask s = some s') :
    Shaped s' := by
  rcases advance_cases mask s s' moved with ⟨kept, rfl⟩ | ⟨_, _, rfl⟩ | ⟨_, _, _, rfl⟩
  · have inside : s.stepInBlock + 1 < s.stepsPerBlock := by
      by_contra beyond
      exact kept (Or.inl (by omega))
    exact ⟨shaped.rows, shaped.blocks, shaped.someBlock, shaped.blockPos, shaped.stepsPos, inside, shaped.schedule,
      shaped.paired⟩
  · exact ⟨shaped.rows, shaped.blocks, shaped.someBlock, shaped.blockPos, shaped.stepsPos, shaped.stepsPos,
      shaped.schedule, shaped.paired⟩
  · refine ⟨shaped.rows, shaped.blocks, shaped.someBlock, shaped.blockPos, shaped.stepsPos, shaped.stepsPos, ?_, ?_⟩
    · intro sch member
      obtain ⟨n, counted, rfl⟩ := List.mem_map.mp member
      exact shares_entries _ _ _ (block_mask_count_le mask (passing s) n counted)
    · simp [opening, DenoiseState.blockMaskCount, passing]

theorem committed_row_shaped (mask : Token) (s : DenoiseState) (row : List Token) (shaped : Shaped s)
    (width : row.length = s.promptLen + s.genLength) : Shaped (committedRow mask s row) := by
  refine ⟨?_, shaped.blocks, shaped.someBlock, shaped.blockPos, shaped.stepsPos, shaped.stepBound, shaped.schedule, ?_⟩
  · intro other member
    rcases List.mem_or_eq_of_mem_set member with old | same
    · exact shaped.rows other old
    · rw [same]
      exact width
  · rw [committedRow, List.length_set]
    exact shaped.paired

theorem scheduled_entry (s : DenoiseState) (k : Nat) (scheduled : scheduledK s = some k) :
    plannedK s s.stepInBlock 0 = k := by
  obtain ⟨sch, first, entry⟩ := Option.bind_eq_some_iff.mp scheduled
  have head : s.schedule.getD 0 [] = sch := by
    cases plan : s.schedule with
    | nil => simp [plan] at first
    | cons front others => simpa [plan] using first
  rw [plannedK, head, List.getD_eq_getElem?_getD, entry]
  rfl

section StateStep

variable {V : Type} (torch : Torch V) (model : Model V) (mask pad : Token) (draw : Draw V) (params0 : SamplingParams)

theorem state_step_cases (s s' : DenoiseState) (step : StateStep torch model mask pad draw params0 s s') :
    ∃ row row' others, s.seq = row :: others ∧
      RowStep torch model draw mask pad params0 row row' (plannedK s s.stepInBlock 0) s.blockEndAbs ∧
      (committedRow mask s row').seq = row' :: others ∧ advance mask (committedRow mask s row') = some s' := by
  obtain ⟨row, row', k, read, scheduled, rowStep, written⟩ := step
  cases shape : s.seq with
  | nil => simp [seqRow, shape] at read
  | cons first others =>
      obtain rfl : first = row := by simpa [seqRow, shape] using read
      rw [← scheduled_entry s k scheduled] at rowStep
      refine ⟨first, row', others, rfl, rowStep, ?_, written⟩
      rw [committedRow, shape, List.set_cons_zero]

theorem state_step_shaped (s s' : DenoiseState) (step : StateStep torch model mask pad draw params0 s s')
    (shaped : Shaped s) : Shaped s' := by
  obtain ⟨row, row', others, shape, rowStep, _, moved⟩ := state_step_cases torch model mask pad draw params0 s s' step
  apply advance_shaped mask _ s' _ moved
  apply committed_row_shaped mask s row' shaped
  rw [(row_step_absorbs rowStep).1]
  exact shaped.rows row (by simp [shape])

theorem state_step_keeps (s s' : DenoiseState) (step : StateStep torch model mask pad draw params0 s s') :
    SameRequest s s' := by
  obtain ⟨_, row', _, _, _, _, written⟩ := step
  exact (write_back_keeps mask s s' row' written).1

end StateStep

theorem done_iff (s : DenoiseState) : s.done = true ↔ s.genLength / s.blockLength ≤ s.blockIdx := by
  rw [DenoiseState.done, decide_eq_true_eq]

theorem done_past_end (s : DenoiseState) (shaped : Shaped s) (done : s.done = true) :
    s.promptLen + s.genLength ≤ s.blockStartAbs := by
  have bound := Nat.mul_le_mul_right s.blockLength ((done_iff s).mp done)
  rw [← shaped.blocks] at bound
  rw [DenoiseState.blockStartAbs]
  omega

theorem block_inside (s : DenoiseState) (blocks : s.genLength = s.genLength / s.blockLength * s.blockLength)
    (running : s.done = false) :
    s.blockEndAbs ≤ s.promptLen + s.genLength := by
  have less : s.blockIdx + 1 ≤ s.genLength / s.blockLength := by
    by_contra late
    have done := (done_iff s).mpr (by omega)
    rw [running] at done
    cases done
  have bound := Nat.mul_le_mul_right s.blockLength less
  rw [← blocks] at bound
  rw [DenoiseState.blockEndAbs]
  omega

section Progress

theorem le_foldl_max (items : List Nat) (start a : Nat) (present : a = start ∨ a ∈ items) :
    a ≤ items.foldl max start := by
  induction items generalizing start a with
  | nil =>
      rcases present with same | member
      · exact le_of_eq same
      · cases member
  | cons head tail ih =>
      have carried : max start head ≤ (head :: tail).foldl max start := ih (max start head) _ (Or.inl rfl)
      rcases present with same | member
      · exact same ▸ (Nat.le_max_left start head).trans carried
      · rcases List.mem_cons.mp member with same | later
        · exact same ▸ (Nat.le_max_right start head).trans carried
        · exact ih (max start head) a (Or.inr later)

theorem prompt_len_le_max (states : List DenoiseState) (s : DenoiseState) (member : s ∈ states) :
    s.promptLen ≤ maxPromptLen states :=
  le_foldl_max _ _ _ (Or.inr (List.mem_map.mpr ⟨s, member, rfl⟩))

theorem row_fits (states : List DenoiseState) (s : DenoiseState) (member : s ∈ states) :
    rowOffset states s + (s.promptLen + s.genLength) ≤ maxTotal states := by
  have wide : maxPromptLen states + s.genLength ≤ maxTotal states :=
    le_foldl_max _ _ _ (Or.inr (List.mem_map.mpr ⟨s, member, rfl⟩))
  have narrow := prompt_len_le_max states s member
  rw [rowOffset]
  omega

theorem pad_states_total (states : List DenoiseState) (fill : Nat) (content : List Token → List Nat)
    (same : ∀ row, (content row).length = row.length)
    (rows : ∀ s ∈ states, ∃ row, seqRow s = some row ∧ row.length = s.promptLen + s.genLength) :
    ∃ wide, padStates states fill content = some wide := by
  apply Collect.map_m_total
  intro s member
  obtain ⟨row, read, width⟩ := rows s member
  refine ⟨_, Option.bind_eq_some_iff.mpr ⟨row, read, if_pos ?_⟩⟩
  rw [same, width]
  exact row_fits states s member

theorem scheduled_total (s : DenoiseState) (shaped : Shaped s) (nonempty : s.seq ≠ []) :
    ∃ k, scheduledK s = some k ∧ k ≤ s.blockLength := by
  obtain ⟨sch, schs, plan⟩ : ∃ sch schs, s.schedule = sch :: schs := by
    cases empty : s.schedule with
    | nil =>
        have lengths := shaped.paired
        rw [empty] at lengths
        exact absurd (List.eq_nil_of_length_eq_zero lengths.symm) nonempty
    | cons sch schs => exact ⟨sch, schs, rfl⟩
  obtain ⟨length, small⟩ := shaped.schedule sch (by simp [plan])
  have bound : s.stepInBlock < sch.length := by
    rw [length]
    exact shaped.stepBound
  exact ⟨sch[s.stepInBlock], by simp [scheduledK, plan, bound], small _ (List.getElem_mem bound)⟩

variable {V : Type} (torch : Torch V) (model : Model V) (mask pad : Token) (draw : Draw V)

theorem batch_fits (states : List DenoiseState) (shaped : ∀ s ∈ states, Shaped s) (nonempty : ∀ s ∈ states, s.seq ≠ [])
    (rows : ∀ s ∈ states, ∃ row, seqRow s = some row ∧ row.length = s.promptLen + s.genLength)
    (batchSeq : List (List Token)) (padded : padStates states pad id = some batchSeq) (ks : List Nat)
    (scheduled : states.mapM scheduledK = some ks) (j : Nat) (wide : List Token) (readWide : batchSeq[j]? = some wide) :
    ks.getD j 0 ≤ wide.length := by
  have bound := Rows.get_lt _ _ _ readWide
  rw [Collect.map_m_length _ _ _ padded] at bound
  have member := List.getElem_mem bound
  obtain ⟨k, readK, scheduledS⟩ := Collect.map_m_get _ _ _ scheduled j _ (List.getElem?_eq_getElem bound)
  obtain ⟨wide', readWide', widened⟩ := Collect.map_m_get _ _ _ padded j _ (List.getElem?_eq_getElem bound)
  obtain rfl := Option.some.inj (readWide.symm.trans readWide')
  obtain ⟨row, readRow, widened⟩ := Option.bind_eq_some_iff.mp widened
  obtain ⟨_, rfl⟩ := pad_row_some _ _ _ _ _ widened
  obtain ⟨k', same, small⟩ := scheduled_total _ (shaped _ member) (nonempty _ member)
  obtain rfl := Option.some.inj (scheduledS.symm.trans same)
  obtain ⟨row', readRow', width⟩ := rows _ member
  obtain rfl := Option.some.inj (readRow.symm.trans readRow')
  have block := (shaped _ member).blocks
  have least := Nat.le_mul_of_pos_left states[j].blockLength (shaped _ member).someBlock
  rw [List.getD_eq_getElem?_getD, readK, Rows.padded_length, id_eq]
  simp only [Option.getD_some]
  omega

theorem write_back_total (states : List DenoiseState) (shaped : ∀ s ∈ states, Shaped s)
    (rows : ∀ s ∈ states, ∃ row, seqRow s = some row ∧ row.length = s.promptLen + s.genLength) (y : List (List Token)) :
    ∃ states', (states.zip y).mapM (fun entry => do
      let newRow ← unpadRow states entry.1 entry.2
      writeBack mask entry.1 newRow) = some states' := by
  apply Collect.map_m_total
  rintro ⟨s, row⟩ member
  have inside := (List.of_mem_zip member).1
  obtain ⟨old, read, _⟩ := rows s inside
  have cut : unpadRow states s row = some (Rows.slice row (rowOffset states s) (rowOffset states s + old.length)) := by
    rw [unpadRow, read]
    rfl
  exact ⟨_, Option.bind_eq_some_iff.mpr ⟨_, cut, advance_eq mask _ (shaped s inside).stepsPos⟩⟩

-- A batch of well-shaped states never raises: every index is in range and no
-- row is asked for more positions than it has.
theorem step_batch_total (states : List DenoiseState) (shaped : ∀ s ∈ states, Shaped s)
    (nonempty : ∀ s ∈ states, s.seq ≠ []) : ∃ states', stepBatch torch model mask pad draw states = some states' := by
  cases states with
  | nil => exact ⟨[], rfl⟩
  | cons leader rest =>
      have rows : ∀ s ∈ leader :: rest, ∃ row, seqRow s = some row ∧ row.length = s.promptLen + s.genLength := by
        intro s member
        cases shape : s.seq with
        | nil => exact absurd shape (nonempty s member)
        | cons row others => exact ⟨row, by simp [seqRow, shape], (shaped s member).rows row (by simp [shape])⟩
      obtain ⟨batchSeq, padded⟩ := pad_states_total (leader :: rest) pad id (fun _ => rfl) rows
      obtain ⟨attn, attended⟩ := pad_states_total (leader :: rest) 0 (fun row => List.replicate row.length 1)
        (fun row => List.length_replicate) rows
      obtain ⟨positions, numbered⟩ := pad_states_total (leader :: rest) 0 (fun row => List.range row.length)
        (fun row => List.length_range) rows
      obtain ⟨ks, scheduled⟩ := Collect.map_m_total scheduledK (leader :: rest)
        (fun s member => (scheduled_total s (shaped s member) (nonempty s member)).imp fun _ => And.left)
      have forward : ∃ logits, forwardLogits model (leader :: rest) batchSeq = some logits := by
        rw [forwardLogits, attended, numbered]
        exact ⟨_, rfl⟩
      obtain ⟨logits, forward⟩ := forward
      obtain ⟨y, committed⟩ := commit_by_total torch draw batchSeq logits (maskIndex mask batchSeq) (fun j => ks.getD j 0)
        (some (.perRow fun j => ((leader :: rest).map fun s => rowOffset (leader :: rest) s + s.blockEndAbs).getD j 0))
        leader.params.temperature (ruleChosen torch draw leader.params)
        (batch_fits pad (leader :: rest) shaped nonempty rows batchSeq padded ks scheduled)
      have batched : batchRows torch model mask pad draw (leader :: rest) leader.params = some y := by
        rw [batchRows, padded, scheduled]
        simp only [Option.bind_eq_bind, Option.bind_some]
        rw [forward, Option.bind_some, commit_rows_eq]
        exact committed
      obtain ⟨states', done⟩ := write_back_total mask (leader :: rest) shaped rows y
      exact ⟨states', Option.bind_eq_some_iff.mpr ⟨y, batched, done⟩⟩

end Progress

end Dlmserve
