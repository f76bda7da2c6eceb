import Dlmserve.Progress

set_option autoImplicit false

namespace Dlmserve

-- What is assumed of the device, the padding and the model in every call.
structure FairCall {V : Type} (torch : Torch V) (mask : Token) (call : BatchCall V) : Prop where
  sound : TopKSound call.draw
  proper : call.pad ≠ mask
  never : NeverPredictsMask torch call.model mask call.draw call.params0.temperature

structure FairRun {V : Type} (torch : Torch V) (mask : Token) (params : SamplingParams) (start : DenoiseState)
    (trace : List (DenoiseState × BatchCall V)) (s : DenoiseState) : Prop where
  made : ∃ full prompt base, prompt.rows = [base] ∧ mask ∉ base ∧ initState full prompt params mask = .ok start
  run : Transition.Run (BatchStep torch mask) start trace s
  fair : ∀ entry ∈ trace, entry.1.done = false ∧ FairCall torch mask entry.2

def stepBudget (s : DenoiseState) : Nat := s.genLength / s.blockLength * blockSteps s

section FairRun

variable {V : Type} (torch : Torch V) (mask : Token) (params : SamplingParams) (start s : DenoiseState)
  (trace : List (DenoiseState × BatchCall V))

theorem fair_run_progress (fairRun : FairRun torch mask params start trace s) :
    Progress mask s trace.length ∧ SameRequest start s := by
  obtain ⟨⟨full, prompt, base, single, clean, made⟩, run, fair⟩ := fairRun
  apply Transition.run_counted (fun n s => Progress mask s n ∧ SameRequest start s)
    (fun s call => s.done = false ∧ FairCall torch mask call) start s trace run _ fair
  · rintro n s call s' ⟨progress, same⟩ ⟨running, sound, proper, never⟩ step
    have stateStep := batch_step_state torch mask s s' call step
    exact ⟨progress_step torch call.model mask call.pad call.draw call.params0 n s s' stateStep sound proper never
        running progress,
      same_request_trans start s s' same (state_step_keeps torch call.model mask call.pad call.draw call.params0 s s' stateStep)⟩
  · exact ⟨initial_progress mask prompt params start base single clean made, same_request_refl start⟩

theorem fair_run_exact (fairRun : FairRun torch mask params start trace s)
    (plain : ∀ entry ∈ trace, entry.2.params0.useLocalLeap = false) : Exact mask s trace.length := by
  obtain ⟨⟨full, prompt, base, single, clean, made⟩, run, fair⟩ := fairRun
  have both := Transition.run_counted (fun n s => Exact mask s n ∧ Progress mask s n)
    (fun s call => (s.done = false ∧ FairCall torch mask call) ∧ call.params0.useLocalLeap = false) start s trace run
    ?_ (fun entry member => ⟨fair entry member, plain entry member⟩) ?_
  · exact both.1
  · refine ⟨⟨initial_plain_run prompt params mask start made, ?_, fun _ => ?_⟩,
      initial_progress mask prompt params start base single clean made⟩
    · obtain ⟨block, step, _⟩ := initial_counters mask prompt params start made
      rw [block, step, Nat.zero_mul]
    · obtain ⟨fresh, _⟩ := initial_fresh prompt params mask start made
      have shaped := initial_shaped prompt params mask start made
      obtain ⟨row, width⟩ := initial_row mask prompt params start base single made
      obtain ⟨_, _, first⟩ := initial_counters mask prompt params start made
      have inside := block_inside start shaped.blocks (initial_running mask prompt params start made)
      have span := block_span start
      rw [fresh_schedule_get mask start fresh 0 _ (by rw [row]; rfl), openIn, Rows.holding_full, span,
        Nat.add_sub_cancel_left]
      intro c late inBlock
      rw [first] at late
      rw [List.getElem?_append_right (by omega), List.getElem?_replicate_of_lt (by omega)]
  · rintro n s call s' ⟨exact, progress⟩ ⟨⟨running, sound, proper, never⟩, off⟩ step
    have stateStep := batch_step_state torch mask s s' call step
    exact ⟨exact_step torch call.model mask call.pad call.draw call.params0 n s s' stateStep sound off running exact
        progress.early,
      progress_step torch call.model mask call.pad call.draw call.params0 n s s' stateStep sound proper never running
        progress⟩

theorem same_budget (same : SameRequest start s) : stepBudget s = stepBudget start := by
  rw [stepBudget, blockSteps, same.genLength, same.blockLength, same.stepsPerBlock]
  rfl

theorem progress_bound (n : Nat) (progress : Progress mask s n) : n ≤ stepBudget s := by
  have spent := progress.spent
  have early := progress.early
  cases running : s.done with
  | true =>
      obtain ⟨block, step⟩ := progress.ended running
      rw [block, step] at spent
      exact spent
  | false =>
      have less : s.blockIdx + 1 ≤ s.genLength / s.blockLength := by
        by_contra late
        rw [(done_iff s).mpr (by omega)] at running
        cases running
      have bound := Nat.mul_le_mul_right (blockSteps s) less
      rw [Nat.add_mul, Nat.one_mul] at bound
      rw [stepBudget]
      omega

theorem exact_done (n : Nat) (exact : Exact mask s n) (progress : Progress mask s n) :
    s.done = true ↔ n = stepBudget s := by
  have spent := exact.spent
  have early := progress.early
  constructor
  · intro done
    obtain ⟨block, step⟩ := progress.ended done
    rw [block, step] at spent
    exact spent
  · intro full
    rw [done_iff]
    by_contra less
    have bound := Nat.mul_le_mul_right (blockSteps s) (Nat.succ_le_of_lt (Nat.lt_of_not_le less))
    rw [Nat.succ_mul] at bound
    rw [stepBudget] at full
    omega

theorem progress_committed (n : Nat) (progress : Progress mask s n) (done : s.done = true) :
    ∀ row ∈ s.seq, mask ∉ row := by
  intro row member holds
  obtain ⟨c, read⟩ := List.getElem?_of_mem holds
  have bound := Rows.get_lt row c mask read
  have past := done_past_end s progress.shaped done
  rw [progress.shaped.rows row member] at bound
  have inside : c ∈ Rows.holding mask row 0 s.blockStartAbs :=
    (Rows.mem_holding _ _ _ _ _).mpr ⟨Nat.zero_le c, by omega, read⟩
  rw [progress.behind row member] at inside
  cases inside

end FairRun

def FairReached {V : Type} (torch : Torch V) (mask : Token) (s : DenoiseState) : Prop :=
  ∃ params start trace, FairRun torch mask params start trace s

theorem reached_batch_total {V : Type} (torch : Torch V) (model : Model V) (mask pad : Token) (draw : Draw V)
    (states : List DenoiseState) (reached : ∀ s ∈ states, FairReached torch mask s) :
    ∃ states', stepBatch torch model mask pad draw states = some states' := by
  have progress : ∀ s ∈ states, ∃ n, Progress mask s n := by
    intro s member
    obtain ⟨params, start, trace, fairRun⟩ := reached s member
    exact ⟨_, (fair_run_progress torch mask params start s trace fairRun).1⟩
  apply step_batch_total torch model mask pad draw states
  · intro s member
    exact (progress s member).choose_spec.shaped
  · intro s member
    obtain ⟨row, single⟩ := (progress s member).choose_spec.single
    rw [single]
    exact List.cons_ne_nil _ _

-- A way of choosing, for a state, a fair batch of reached states that holds it.
def FairPolicy {V : Type} (torch : Torch V) (mask : Token) (next : DenoiseState → BatchCall V) : Prop :=
  ∀ s, FairReached torch mask s → s.done = false →
    FairCall torch mask (next s) ∧ (next s).states[(next s).index]? = some s ∧
      ∀ t ∈ (next s).states, FairReached torch mask t

theorem fair_run_reaches {V : Type} (torch : Torch V) (mask : Token) (params : SamplingParams) (start : DenoiseState)
    (next : DenoiseState → BatchCall V) (policy : FairPolicy torch mask next) (left : Nat) (s : DenoiseState)
    (trace : List (DenoiseState × BatchCall V)) (fairRun : FairRun torch mask params start trace s)
    (follows : ∀ entry ∈ trace, entry.2 = next entry.1) (fuel : stepBudget start ≤ trace.length + left) :
    ∃ trace' s', FairRun torch mask params start trace' s' ∧ (∀ entry ∈ trace', entry.2 = next entry.1) ∧
      s'.done = true := by
  induction left generalizing s trace with
  | zero =>
      obtain ⟨progress, same⟩ := fair_run_progress torch mask params start s trace fairRun
      refine ⟨trace, s, fairRun, follows, ?_⟩
      by_contra running
      have spent := progress.spent
      have early := progress.early
      have less : s.blockIdx + 1 ≤ s.genLength / s.blockLength := by
        by_contra late
        exact running ((done_iff s).mpr (by omega))
      have bound := Nat.mul_le_mul_right (blockSteps s) less
      rw [Nat.add_mul, Nat.one_mul] at bound
      rw [← same_budget start s same, stepBudget] at fuel
      omega
  | succ left ih =>
      cases running : s.done with
      | true => exact ⟨trace, s, fairRun, follows, running⟩
      | false =>
          obtain ⟨fair, member, others⟩ := policy s ⟨params, start, trace, fairRun⟩ running
          obtain ⟨states', made⟩ := reached_batch_total torch (next s).model mask (next s).pad (next s).draw
            (next s).states others
          have bound : (next s).index < states'.length := by
            rw [step_batch_length torch _ mask _ _ _ states' made]
            exact Rows.get_lt _ _ _ member
          have step : BatchStep torch mask s (next s) states'[(next s).index] :=
            ⟨member, states', made, List.getElem?_eq_getElem bound⟩
          apply ih states'[(next s).index] (trace ++ [(s, next s)])
          · refine ⟨fairRun.made, .snoc trace s _ (next s) fairRun.run step, ?_⟩
            intro entry inside
            rcases List.mem_append.mp inside with before | here
            · exact fairRun.fair entry before
            · rw [List.mem_singleton.mp here]
              exact ⟨running, fair⟩
          · intro entry inside
            rcases List.mem_append.mp inside with before | here
            · exact follows entry before
            · rw [List.mem_singleton.mp here]
          · rw [List.length_append, List.length_singleton]
            omega

-- A single-row state commits its whole canvas within its step budget, exactly on
-- it without LocalLeap, and no batch of such states can fail on an index.
theorem full_commitment {V : Type} (torch : Torch V) (mask : Token) :
    (∀ (params : SamplingParams) (start s : DenoiseState) (trace : List (DenoiseState × BatchCall V)),
      FairRun torch mask params start trace s →
      trace.length ≤ stepBudget start ∧
        ((∀ entry ∈ trace, entry.2.params0.useLocalLeap = false) → (s.done = true ↔ trace.length = stepBudget start)) ∧
        (s.done = false → s.stepInBlock < s.stepsPerBlock ∧
          ∃ k, scheduledK s = some k ∧ ∀ row ∈ s.seq, k ≤ row.length) ∧
        (∀ call s', BatchStep torch mask s call s' → stepIdx s < stepIdx s') ∧
        (s.done = true → ∀ row ∈ s.seq, mask ∉ row)) ∧
    (∀ (model : Model V) (pad : Token) (draw : Draw V) (states : List DenoiseState),
      (∀ s ∈ states, FairReached torch mask s) →
      ∃ states', stepBatch torch model mask pad draw states = some states') ∧
    ∀ (params : SamplingParams) (start : DenoiseState) (next : DenoiseState → BatchCall V),
      FairRun torch mask params start [] start → FairPolicy torch mask next →
      ∃ trace s, FairRun torch mask params start trace s ∧ (∀ entry ∈ trace, entry.2 = next entry.1) ∧
        s.done = true := by
  refine ⟨?_, fun model => reached_batch_total torch model mask, ?_⟩
  · intro params start s trace fairRun
    obtain ⟨progress, same⟩ := fair_run_progress torch mask params start s trace fairRun
    have budget := same_budget start s same
    refine ⟨?_, ?_, ?_, ?_, progress_committed mask s trace.length progress⟩
    · rw [← budget]
      exact progress_bound mask s trace.length progress
    · intro plain
      rw [← budget]
      exact exact_done mask s trace.length (fair_run_exact torch mask params start s trace fairRun plain) progress
    · intro _
      obtain ⟨row, single⟩ := progress.single
      obtain ⟨k, scheduled, small⟩ := scheduled_total s progress.shaped (by rw [single]; exact List.cons_ne_nil _ _)
      refine ⟨progress.shaped.stepBound, k, scheduled, fun row member => ?_⟩
      have blocks := progress.shaped.blocks
      have least := Nat.le_mul_of_pos_left s.blockLength progress.shaped.someBlock
      rw [progress.shaped.rows row member]
      omega
    · intro call s' step
      exact step_idx_increases torch call.model mask call.pad call.draw call.params0 s s'
        (batch_step_state torch mask s s' call step) progress.shaped
  · intro params start next first policy
    exact fair_run_reaches torch mask params start next policy (stepBudget start) start [] first (by simp) (by simp)

theorem written_never_mask (answer : Nat → Written) (mask : Token) (proper : ∀ p, (answer p).1 ≠ mask) (draw : Draw Written) :
    NeverPredictsMask writtenTorch (writtenModel answer) mask draw 0 := by
  intro x attn positions j c
  cases attn with
  | none => exact proper c
  | some rows => exact proper (((rows.getD j []).take c).count 1)

theorem block_start_fair (leap : Bool) (t : Token) (proper : t ≠ 9) :
    FairRun writtenTorch 9 (blockParams leap) (blockStart leap t) [] (blockStart leap t) :=
  ⟨⟨.ample, onePrompt t, [t], rfl, by simpa using proper.symm, block_start_made leap t⟩, .nil, by simp⟩

theorem full_commitment_three_blocks :
    (∃ trace s, FairRun writtenTorch 9 (blockParams true) (blockStart true 1) trace s ∧ s.done = true ∧
      trace.length ≤ 6 ∧ ∀ row ∈ s.seq, 9 ∉ row) ∧
    ∃ trace s, FairRun writtenTorch 9 (blockParams false) (blockStart false 1) trace s ∧ s.done = true ∧
      trace.length = 6 ∧ ∀ row ∈ s.seq, 9 ∉ row := by
  have policy (leap : Bool) : FairPolicy writtenTorch 9
      fun s => ⟨writtenModel anchorAnswer, 0, highDraw, [blockStart leap 1, s], 1⟩ := by
    intro s reached _
    have pad : (0 : Token) ≠ 9 := by decide
    have predicted : (2 : Token) ≠ 9 := by decide
    refine ⟨⟨high_draw_sound, pad, written_never_mask anchorAnswer 9 (fun _ => predicted) highDraw⟩, rfl, ?_⟩
    intro t member
    rcases List.mem_cons.mp member with rfl | other
    · exact ⟨_, _, _, block_start_fair leap 1 (by decide)⟩
    · rw [List.mem_singleton.mp other]
      exact reached
  have total := (full_commitment writtenTorch 9).2.2
  have bounds := (full_commitment writtenTorch 9).1
  constructor
  · obtain ⟨trace, s, fairRun, _, done⟩ :=
      total (blockParams true) (blockStart true 1) _ (block_start_fair true 1 (by decide)) (policy true)
    obtain ⟨length, _, _, _, committed⟩ := bounds _ _ _ _ fairRun
    exact ⟨trace, s, fairRun, done, length, committed done⟩
  · obtain ⟨trace, s, fairRun, follows, done⟩ :=
      total (blockParams false) (blockStart false 1) _ (block_start_fair false 1 (by decide)) (policy false)
    obtain ⟨_, exactly, _, _, committed⟩ := bounds _ _ _ _ fairRun
    have plain : ∀ entry ∈ trace, entry.2.params0.useLocalLeap = false := by
      intro entry member
      rw [follows entry member]
      rfl
    exact ⟨trace, s, fairRun, done, (exactly plain).mp done, committed done⟩

end Dlmserve
