import Dlmserve.Budget
import Dlmserve.Device

set_option autoImplicit false

namespace Dlmserve

variable {full : Full}

theorem advance_later (mask : Token) (s s' : DenoiseState) (moved : advance mask s = some s') :
    s'.seq = s.seq ∧ s.blockEndAbs ≤ s'.blockEndAbs := by
  have farther : s.blockEndAbs ≤ (passing s).blockEndAbs := by
    simp only [DenoiseState.blockEndAbs, passing]
    exact Nat.add_le_add_left (Nat.mul_le_mul_right _ (Nat.le_succ _)) _
  rcases advance_cases mask s s' moved with ⟨_, rfl⟩ | ⟨_, _, rfl⟩ | ⟨_, _, _, rfl⟩
  · exact ⟨rfl, Nat.le_refl _⟩
  · exact ⟨rfl, farther⟩
  · exact ⟨rfl, farther⟩

theorem done_within (mask : Token) (s : DenoiseState) (step : Nat) (shaped : Shaped s) (done : s.done = true) :
    WithinBlock mask s step := by
  intro j row read
  refine Or.inr ?_
  rw [shaped.rows row (List.mem_of_getElem? read), block_span]
  have past := done_past_end s shaped done
  omega

section StateStep

variable {V : Type} (torch : Torch V) (model : Model V) (mask pad : Token) (draw : Draw V) (params0 : SamplingParams)

theorem committed_row_ordered (s : DenoiseState) (row row' : List Token) (others : List (List Token))
    (shape : s.seq = row :: others) (after : (committedRow mask s row').seq = row' :: others)
    (rowStep : RowStep torch model draw mask pad params0 row row' (plannedK s s.stepInBlock 0) s.blockEndAbs)
    (sound : TopKSound draw) (within : WithinBlock mask s s.stepInBlock) (ordered : BlockOrdered mask s) :
    BlockOrdered mask (committedRow mask s row') := by
  intro old member c late inRange
  rw [after] at member
  rcases List.mem_cons.mp member with rfl | other
  · have enough := within 0 row (by rw [shape]; rfl)
    exact row_step_ordered rowStep sound enough (ordered row (by rw [shape]; exact List.mem_cons_self)) c late inRange
  · exact ordered old (by rw [shape]; exact List.mem_cons_of_mem row other) c late inRange

theorem state_step_ordered (s s' : DenoiseState) (step : StateStep torch model mask pad draw params0 s s')
    (sound : TopKSound draw) (within : WithinBlock mask s s.stepInBlock) (ordered : BlockOrdered mask s) :
    BlockOrdered mask s' := by
  obtain ⟨row, row', others, shape, rowStep, after, moved⟩ := state_step_cases torch model mask pad draw params0 s s' step
  obtain ⟨seq, later⟩ := advance_later mask _ s' moved
  exact ordered_later mask _ s'
    (committed_row_ordered torch model mask pad draw params0 s row row' others shape after rowStep sound within ordered)
    seq later

-- Without LocalLeap a row takes no more than its count, so the rest of the
-- schedule stays covered by what the block still holds.
theorem committed_row_affordable (s : DenoiseState) (row row' : List Token) (others : List (List Token))
    (shape : s.seq = row :: others) (after : (committedRow mask s row').seq = row' :: others)
    (rowStep : RowStep torch model draw mask pad params0 row row' (plannedK s s.stepInBlock 0) s.blockEndAbs)
    (sound : TopKSound draw) (plain : params0.useLocalLeap = false) (affordable : Affordable mask s s.stepInBlock) :
    Affordable mask (committedRow mask s row') (s.stepInBlock + 1) := by
  intro j old read
  change restOf s (s.stepInBlock + 1) j ≤ openIn mask s old
  rw [after] at read
  have planned := rest_step s s.stepInBlock j
  cases j with
  | zero =>
      obtain rfl : row' = old := by simpa using read
      have enough := affordable 0 row (by rw [shape]; rfl)
      have size := row_step_size rowStep sound plain s.blockStartAbs s.blockEndAbs
      rw [openIn] at enough ⊢
      omega
  | succ j =>
      have enough := affordable (j + 1) old (by rw [shape]; exact read)
      omega

theorem state_step_affordable (s s' : DenoiseState) (step : StateStep torch model mask pad draw params0 s s')
    (sound : TopKSound draw) (plain : params0.useLocalLeap = false)
    (affordable : Affordable mask s s.stepInBlock) (running : s'.done = false) : Affordable mask s' s'.stepInBlock := by
  obtain ⟨row, row', others, shape, rowStep, after, moved⟩ := state_step_cases torch model mask pad draw params0 s s' step
  rcases advance_cases mask _ s' moved with ⟨_, rfl⟩ | ⟨_, last, rfl⟩ | ⟨_, _, positive, rfl⟩
  · exact committed_row_affordable torch model mask pad draw params0 s row row' others shape after rowStep sound plain
      affordable
  · rw [last] at running
    cases running
  · exact fresh_affordable mask _ (opening_fresh mask _) positive

theorem state_step_done (s s' : DenoiseState) (step : StateStep torch model mask pad draw params0 s s')
    (done : s.done = true) : s'.done = true := by
  obtain ⟨row, row', others, _, _, _, moved⟩ := state_step_cases torch model mask pad draw params0 s s' step
  have passed : (passing (committedRow mask s row')).done = true := by
    have bound := (done_iff s).mp done
    rw [done_iff]
    exact bound.trans (Nat.le_succ s.blockIdx)
  rcases advance_cases mask _ s' moved with ⟨_, rfl⟩ | ⟨_, last, rfl⟩ | ⟨_, more, _, rfl⟩
  · exact done
  · exact last
  · rw [passed] at more
    cases more

end StateStep

structure PlainRun (mask : Token) (s : DenoiseState) : Prop where
  ordered : BlockOrdered mask s
  shaped : Shaped s
  affordable : s.done = false → Affordable mask s s.stepInBlock

theorem initial_plain_run (prompt : Prompt) (params : SamplingParams) (mask : Token) (s : DenoiseState)
    (made : initState full prompt params mask = .ok s) : PlainRun mask s := by
  obtain ⟨fresh, positive⟩ := initial_fresh prompt params mask s made
  have index : s.stepInBlock = 0 := by
    obtain ⟨_, _, _, _, rfl⟩ := init_state_ok prompt params mask s made
    rfl
  refine ⟨initial_ordered prompt params mask s made, initial_shaped prompt params mask s made, fun _ => ?_⟩
  rw [index]
  exact fresh_affordable mask s fresh positive

theorem plain_run_within (mask : Token) (s : DenoiseState) (plain : PlainRun mask s) :
    WithinBlock mask s s.stepInBlock := by
  cases running : s.done with
  | true => exact done_within mask s _ plain.shaped running
  | false => exact affordable_within mask s _ (plain.affordable running)

theorem plain_run_step {V : Type} (torch : Torch V) (model : Model V) (mask pad : Token) (draw : Draw V)
    (params0 : SamplingParams) (s s' : DenoiseState) (step : StateStep torch model mask pad draw params0 s s')
    (sound : TopKSound draw) (plain : params0.useLocalLeap = false) (invariant : PlainRun mask s) : PlainRun mask s' := by
  refine ⟨state_step_ordered torch model mask pad draw params0 s s' step sound (plain_run_within mask s invariant)
      invariant.ordered, state_step_shaped torch model mask pad draw params0 s s' step invariant.shaped, ?_⟩
  cases running : s.done with
  | true =>
      rw [state_step_done torch model mask pad draw params0 s s' step running]
      intro impossible
      cases impossible
  | false =>
      exact state_step_affordable torch model mask pad draw params0 s s' step sound plain (invariant.affordable running)

section Denoise

variable {V : Type} (torch : Torch V) (model : Model V) (mask : Token) (draws : Nat → Nat → Draw V)
  (params : SamplingParams) (attn : Option (List (List Nat)))

theorem denoise_step_source (step : Nat) (s s' : DenoiseState)
    (stepped : denoiseStep torch model mask draws params attn step s = some s') (j : Nat) (row' : List Token)
    (read : s'.seq[j]? = some row') :
    ∃ row, s.seq[j]? = some row ∧ RowStep torch model (draws s.blockIdx step) mask mask params row row'
      (plannedK s step j) s.blockEndAbs := by
  have rows := denoise_step_row torch model mask draws params attn step s s' stepped j
  obtain ⟨seq, committed, rfl⟩ := denoise_step_cases torch model mask draws params attn step s s' stepped
  have bound := Rows.get_lt _ _ _ read
  rw [commit_by_length torch _ _ _ _ _ _ _ _ _ committed] at bound
  obtain ⟨row'', read', rowStep⟩ := rows _ (List.getElem?_eq_getElem bound) mask
  obtain rfl := Option.some.inj (read.symm.trans read')
  exact ⟨_, List.getElem?_eq_getElem bound, rowStep⟩

theorem denoise_step_ordered (step : Nat) (s s' : DenoiseState)
    (stepped : denoiseStep torch model mask draws params attn step s = some s')
    (sound : ∀ block step, TopKSound (draws block step)) (within : WithinBlock mask s step)
    (ordered : BlockOrdered mask s) : BlockOrdered mask s' := by
  intro row' member c late inRange
  obtain ⟨j, read⟩ := List.getElem?_of_mem member
  obtain ⟨row, readRow, rowStep⟩ := denoise_step_source torch model mask draws params attn step s s' stepped j row' read
  obtain ⟨same, block⟩ := denoise_step_keeps torch model mask draws params attn step s s' stepped
  have lateBefore : s.blockEndAbs ≤ c := by
    rw [DenoiseState.blockEndAbs, block, same.promptLen, same.blockLength] at late
    exact late
  exact row_step_ordered rowStep (sound _ _) (within j row readRow)
    (ordered row (List.mem_of_getElem? readRow)) c lateBefore inRange

theorem denoise_step_affordable (step : Nat) (s s' : DenoiseState)
    (stepped : denoiseStep torch model mask draws params attn step s = some s')
    (sound : ∀ block step, TopKSound (draws block step)) (plain : params.useLocalLeap = false)
    (affordable : Affordable mask s step) : Affordable mask s' (step + 1) := by
  intro j row' read
  obtain ⟨row, readRow, rowStep⟩ := denoise_step_source torch model mask draws params attn step s s' stepped j row' read
  obtain ⟨_, _, rfl⟩ := denoise_step_cases torch model mask draws params attn step s s' stepped
  have size := row_step_size rowStep (sound _ _) plain s.blockStartAbs s.blockEndAbs
  have planned := rest_step s step j
  have enough := affordable j row readRow
  change restOf s (step + 1) j ≤ openIn mask s row'
  rw [openIn] at enough ⊢
  omega

theorem enter_block_ordered (block : Nat) (s s' : DenoiseState) (entered : enterBlock mask block s = some s')
    (later : s.blockIdx ≤ block) (ordered : BlockOrdered mask s) : BlockOrdered mask s' := by
  obtain ⟨_, rfl⟩ := enter_block_cases mask block s s' entered
  refine ordered_later mask s _ ordered rfl ?_
  exact Nat.add_le_add_left (Nat.mul_le_mul_right _ (Nat.add_le_add_right later 1)) _

theorem denoise_start_ordered (prompt : Prompt) (start : DenoiseState) (p : DenoisePoint)
    (made : initState full prompt params mask = .ok start) (first : DenoiseStart mask start p) :
    BlockOrdered mask p.state ∧ Affordable mask p.state p.step := by
  obtain ⟨_, entered, index⟩ := first
  have zero : start.blockIdx = 0 := by
    obtain ⟨_, _, _, _, rfl⟩ := init_state_ok prompt params mask start made
    rfl
  obtain ⟨fresh, positive⟩ := enter_block_fresh mask 0 start p.state entered
  refine ⟨enter_block_ordered mask 0 start p.state entered (le_of_eq zero) (initial_ordered prompt params mask start made), ?_⟩
  rw [index]
  exact fresh_affordable mask p.state fresh positive

theorem denoise_move_ordered (p q : DenoisePoint) (s : DenoiseState)
    (move : DenoiseMove torch model mask draws params attn p s q)
    (sound : ∀ block step, TopKSound (draws block step)) (within : WithinBlock mask p.state p.step)
    (ordered : BlockOrdered mask p.state) : BlockOrdered mask q.state := by
  cases move with
  | stay stepped =>
      exact denoise_step_ordered torch model mask draws params attn p.step p.state s stepped sound within ordered
  | pass entered stepped _ _ opened =>
      have after := denoise_step_ordered torch model mask draws params attn p.step p.state s stepped sound within ordered
      exact enter_block_ordered mask _ s entered opened (Nat.le_succ _) after

theorem denoise_move_affordable (p q : DenoisePoint) (s : DenoiseState)
    (move : DenoiseMove torch model mask draws params attn p s q)
    (sound : ∀ block step, TopKSound (draws block step)) (plain : params.useLocalLeap = false)
    (affordable : Affordable mask p.state p.step) : Affordable mask q.state q.step := by
  cases move with
  | stay stepped =>
      exact denoise_step_affordable torch model mask draws params attn p.step p.state s stepped sound plain affordable
  | pass entered stepped _ _ opened =>
      obtain ⟨fresh, positive⟩ := enter_block_fresh mask _ s entered opened
      exact fresh_affordable mask entered fresh positive

end Denoise

-- Later blocks stay masked as long as every step finds, before its block end, as
-- many masks as its schedule asks for; runs without LocalLeap always do.
theorem block_order {V : Type} (torch : Torch V) (mask : Token) (prompt : Prompt) (params : SamplingParams)
    (start : DenoiseState) (made : initState full prompt params mask = .ok start) :
    (∀ (s : DenoiseState) (trace : List (DenoiseState × BatchCall V)),
      Transition.Run (BatchStep torch mask) start trace s →
      (∀ entry ∈ trace, TopKSound entry.2.draw) →
      ((∀ entry ∈ trace, entry.2.params0.useLocalLeap = false) ∨
        ∀ entry ∈ trace, WithinBlock mask entry.1 entry.1.stepInBlock) →
      BlockOrdered mask s) ∧
    (∀ (model : Model V) (draws : Nat → Nat → Draw V) (attn : Option (List (List Nat)))
      (trace : List (DenoisePoint × DenoiseState)) (p : DenoisePoint),
      DenoiseReach torch model mask draws params attn start trace p →
      (∀ block step, TopKSound (draws block step)) →
      (params.useLocalLeap = false ∨ ∀ entry ∈ trace, WithinBlock mask entry.1.state entry.1.step) →
      BlockOrdered mask p.state ∧
        ∀ s', denoiseStep torch model mask draws params attn p.step p.state = some s' →
          (params.useLocalLeap = false ∨ WithinBlock mask p.state p.step) → BlockOrdered mask s') := by
  constructor
  · rintro s trace run sound (plain | within)
    · have invariant := Transition.run_permitted (PlainRun mask)
        (fun _ call => TopKSound call.draw ∧ call.params0.useLocalLeap = false) start s trace run
        (initial_plain_run prompt params mask start made)
        (fun entry member => ⟨sound entry member, plain entry member⟩)
        (fun s call s' holds allowed step => plain_run_step torch call.model mask call.pad call.draw call.params0 s s'
          (batch_step_state torch mask s s' call step) allowed.1 allowed.2 holds)
      exact invariant.ordered
    · exact Transition.run_permitted (BlockOrdered mask)
        (fun s call => TopKSound call.draw ∧ WithinBlock mask s s.stepInBlock) start s trace run
        (initial_ordered prompt params mask start made)
        (fun entry member => ⟨sound entry member, within entry member⟩)
        (fun s call s' holds allowed step => state_step_ordered torch call.model mask call.pad call.draw call.params0 s s'
          (batch_step_state torch mask s s' call step) allowed.1 allowed.2 holds)
  · intro model draws attn trace p reach sound allowed
    obtain ⟨first, started, run⟩ := reach
    obtain ⟨ordered, affordable⟩ := denoise_start_ordered mask params prompt start first made started
    by_cases plain : params.useLocalLeap = false
    · have invariant := Transition.run_invariant
        (fun p => BlockOrdered mask p.state ∧ Affordable mask p.state p.step) first p trace run ⟨ordered, affordable⟩
        (fun p s q holds move => ⟨denoise_move_ordered torch model mask draws params attn p q s move sound
            (affordable_within mask p.state p.step holds.2) holds.1,
          denoise_move_affordable torch model mask draws params attn p q s move sound plain holds.2⟩)
      refine ⟨invariant.1, fun s' stepped _ => ?_⟩
      exact denoise_step_ordered torch model mask draws params attn p.step p.state s' stepped sound
        (affordable_within mask p.state p.step invariant.2) invariant.1
    · have invariant := Transition.run_permitted (fun p => BlockOrdered mask p.state)
        (fun p _ => WithinBlock mask p.state p.step) first p trace run ordered (allowed.resolve_left plain)
        (fun p s q holds enough move => denoise_move_ordered torch model mask draws params attn p q s move sound enough holds)
      refine ⟨invariant, fun s' stepped within => ?_⟩
      exact denoise_step_ordered torch model mask draws params attn p.step p.state s' stepped sound
        (within.resolve_left plain) invariant

theorem block_order_leap : ∃ s call,
    Transition.Run (BatchStep writtenTorch 9) (blockStart true 1) [(blockStart true 1, call)] s ∧
      s.seq = [[1, 2, 2, 2, 9, 9, 9, 9, 9, 9, 9, 9, 9]] ∧ BlockOrdered 9 s := by
  have reached : (soloStep writtenTorch (writtenModel anchorAnswer) 9 0 highDraw (blockStart true 1)).map (·.seq) =
      some [[1, 2, 2, 2, 9, 9, 9, 9, 9, 9, 9, 9, 9]] := by
    decide +kernel
  obtain ⟨s, stepped, seq⟩ := Option.map_eq_some_iff.mp reached
  obtain ⟨fresh, positive⟩ := initial_fresh (onePrompt 1) (blockParams true) 9 (blockStart true 1) (block_start_made true 1)
  have within : WithinBlock 9 (blockStart true 1) (blockStart true 1).stepInBlock :=
    affordable_within 9 (blockStart true 1) 0 (fresh_affordable 9 (blockStart true 1) fresh positive)
  have run := Transition.Run.snoc [] (blockStart true 1) s _ .nil (solo_step_batch _ _ _ _ _ (blockStart true 1) s stepped)
  refine ⟨s, _, run, seq, ?_⟩
  apply (block_order writtenTorch 9 (onePrompt 1) (blockParams true) (blockStart true 1) (block_start_made true 1)).1 s _ run
  · intro entry member
    rw [List.nil_append, List.mem_singleton] at member
    rw [member]
    exact high_draw_sound
  · refine Or.inr fun entry member => ?_
    rw [List.nil_append, List.mem_singleton] at member
    rw [member]
    exact within

-- The second step still asks for two positions where the anchor has left one; the
-- other falls to a tie among excluded positions, here the last of the third block.
theorem block_order_leak : ∃ (s : DenoiseState) (trace : List (DenoiseState × BatchCall Written)),
    initState .ample (onePrompt 1) (blockParams true) 9 = .ok (blockStart true 1) ∧
      Transition.Run (BatchStep writtenTorch 9) (blockStart true 1) trace s ∧ (∀ entry ∈ trace, TopKSound entry.2.draw) ∧
      s.seq = [[1, 2, 2, 2, 2, 9, 9, 9, 9, 9, 9, 9, 2]] ∧ s.blockEndAbs = 9 ∧ ¬ BlockOrdered 9 s := by
  have reached : (soloSteps writtenTorch (writtenModel anchorAnswer) 9 0 highDraw (blockStart true 1) 2).map
      (fun s => (s.seq, s.blockEndAbs)) = some ([[1, 2, 2, 2, 2, 9, 9, 9, 9, 9, 9, 9, 2]], 9) := by
    decide +kernel
  obtain ⟨s, stepped, shape⟩ := Option.map_eq_some_iff.mp reached
  obtain ⟨seq, blockEnd⟩ := Prod.mk.inj shape
  obtain ⟨trace, run, _, calls⟩ := solo_steps_run _ _ _ _ _ (blockStart true 1) s 2 stepped
  refine ⟨s, trace, block_start_made true 1, run, ?_, seq, blockEnd, ?_⟩
  · intro entry member
    rw [calls entry member]
    exact high_draw_sound
  · intro ordered
    have masked := ordered [1, 2, 2, 2, 2, 9, 9, 9, 9, 9, 9, 9, 2] (by rw [seq]; exact List.mem_cons_self) 12
      (by rw [blockEnd]; decide) (by decide)
    exact absurd masked (by decide)

end Dlmserve
