import Dlmserve.Absorb
import Dlmserve.DenoisePlain
import Dlmserve.EngineDevice

set_option autoImplicit false

namespace Dlmserve

variable {full : Full}

def PromptKept (prompt : Prompt) (s : DenoiseState) : Prop := s.seq.map (fun row => row.take s.promptLen) = prompt.rows

-- The prompt is a frame of every run that starts from it: no call of step_batch
-- and no step of denoise writes into it, and the output reports it unchanged.
structure PromptFrame (mask : Token) (prompt : Prompt) (params : SamplingParams) (start : DenoiseState) : Prop where
  batched : ∀ (V : Type) (torch : Torch V) (trace : List (DenoiseState × BatchCall V)) (s : DenoiseState),
    Transition.Run (BatchStep torch mask) start trace s → PromptKept prompt s
  reported : ∀ (V : Type) (torch : Torch V) (trace : List (DenoiseState × BatchCall V)) (s : DenoiseState)
    (tokenizer : Tokenizer) (output : GenerationOutput) (promptIds : List Token),
    Transition.Run (BatchStep torch mask) start trace s → tokenizer.makeOutput s = some output →
    prompt.rows = [promptIds] → output.promptIds = promptIds
  looped : ∀ (V : Type) (torch : Torch V) (model : Model V) (draws : Nat → Nat → Draw V) (attn : Option (List (List Nat)))
    (trace : List (DenoisePoint × DenoiseState)) (p : DenoisePoint),
    DenoiseReach torch model mask draws params attn start trace p →
    PromptKept prompt p.state ∧
      ∀ s', denoiseStep torch model mask draws params attn p.step p.state = some s' → PromptKept prompt s'

section Front

variable (mask : Token) (prompt : Prompt)

-- The invariant behind the frame: the prompt is in place, and the committed map
-- is read off the sequence.
structure Front (s : DenoiseState) : Prop where
  committed : s.committed = notMask mask s.seq
  kept : PromptKept prompt s

theorem step_absorbs_front (clean : ∀ row ∈ prompt.rows, mask ∉ row) (s s' : DenoiseState) (front : Front mask prompt s)
    (absorbs : StepAbsorbs mask s s') (same : SameRequest s s') : Front mask prompt s' := by
  refine ⟨absorbs.committed, ?_⟩
  rw [PromptKept, same.promptLen, ← front.kept]
  apply List.ext_getElem?
  intro j
  rw [List.getElem?_map, List.getElem?_map]
  have lengths : s'.seq[j]?.map List.length = s.seq[j]?.map List.length := by
    rw [← List.getElem?_map, ← List.getElem?_map, absorbs.lengths]
  cases read : s.seq[j]? with
  | none =>
      rw [read, Option.map_none, Option.map_eq_none_iff] at lengths
      rw [lengths]
  | some row =>
      rw [read, Option.map_some] at lengths
      obtain ⟨row', read', length⟩ := Option.map_eq_some_iff.mp lengths
      rw [read', Option.map_some, Option.map_some]
      congr 1
      apply List.ext_getElem?
      intro c
      by_cases inside : c < s.promptLen
      · rw [List.getElem?_take_of_lt inside, List.getElem?_take_of_lt inside]
        cases present : row[c]? with
        | none =>
            rw [List.getElem?_eq_none_iff] at present ⊢
            rwa [length]
        | some t =>
            -- The token stands in the prompt, so it is not the mask and counts as committed.
            have inPrompt : row.take s.promptLen ∈ prompt.rows := by
              rw [← front.kept]
              exact List.mem_map.mpr ⟨row, List.mem_of_getElem? read, rfl⟩
            have proper : t ≠ mask := by
              rintro rfl
              apply clean _ inPrompt
              exact List.mem_of_getElem? ((List.getElem?_take_of_lt inside).trans present)
            have value : cell s.seq j c = some t := by
              rw [cell, read]
              exact present
            have set : cell s.committed j c = some true := by
              rw [front.committed, cell_not_mask, value]
              simpa using proper
            have stays := (absorbs.kept j c set).2
            rw [value, cell, read'] at stays
            exact stays
      · rw [List.getElem?_take, if_neg inside, List.getElem?_take, if_neg inside]

variable (params : SamplingParams) (start : DenoiseState)

theorem initial_front (made : initState full prompt params mask = .ok start) : Front mask prompt start := by
  refine ⟨initial_committed prompt params mask start made, ?_⟩
  obtain ⟨_, _, _, _, rfl⟩ := init_state_ok prompt params mask start made
  rw [PromptKept, initialState, List.map_map]
  have whole : ∀ row ∈ prompt.rows,
      ((fun row => row.take prompt.width) ∘ fun row => row ++ List.replicate params.genLength mask) row = row := by
    intro row member
    rw [Function.comp_apply, ← prompt.rect row member, List.take_left]
  exact (List.map_congr_left whole).trans (List.map_id' _)

theorem batch_run_front {V : Type} (torch : Torch V) (clean : ∀ row ∈ prompt.rows, mask ∉ row)
    (made : initState full prompt params mask = .ok start) (trace : List (DenoiseState × BatchCall V)) (s : DenoiseState)
    (run : Transition.Run (BatchStep torch mask) start trace s) : Front mask prompt s := by
  apply Transition.run_invariant (Front mask prompt) start s trace run (initial_front mask prompt params start made)
  intro s call s' front step
  have moved := batch_step_state torch mask s s' call step
  exact step_absorbs_front mask prompt clean s s' front
    (state_step_absorbs torch call.model mask call.pad call.draw call.params0 s s' moved front.committed)
    (state_step_keeps torch call.model mask call.pad call.draw call.params0 s s' moved)

section Denoise

variable {V : Type} (torch : Torch V) (model : Model V) (draws : Nat → Nat → Draw V) (attn : Option (List (List Nat)))

theorem denoise_step_front (clean : ∀ row ∈ prompt.rows, mask ∉ row) (step : Nat) (s s' : DenoiseState)
    (front : Front mask prompt s) (stepped : denoiseStep torch model mask draws params attn step s = some s') :
    Front mask prompt s' :=
  step_absorbs_front mask prompt clean s s' front
    (denoise_step_absorbs torch model mask draws params attn step s s' front.committed stepped)
    (denoise_step_keeps torch model mask draws params attn step s s' stepped).1

theorem entering_front (block : Nat) (s : DenoiseState) (front : Front mask prompt s) :
    Front mask prompt (entering mask block s) := ⟨front.committed, front.kept⟩

theorem denoise_reach_front (clean : ∀ row ∈ prompt.rows, mask ∉ row) (made : initState full prompt params mask = .ok start)
    (trace : List (DenoisePoint × DenoiseState)) (p : DenoisePoint)
    (reach : DenoiseReach torch model mask draws params attn start trace p) : Front mask prompt p.state := by
  obtain ⟨first, ⟨_, entered, _⟩, run⟩ := reach
  apply Transition.run_invariant (fun p => Front mask prompt p.state) first p trace run
  · rw [(enter_block_cases mask 0 start first.state entered).2]
    exact entering_front mask prompt 0 start (initial_front mask prompt params start made)
  · intro p s q front move
    cases move with
    | stay stepped => exact denoise_step_front mask prompt params torch model draws attn clean _ _ _ front stepped
    | pass entered stepped _ _ opened =>
        rw [(enter_block_cases mask _ s entered opened).2]
        exact entering_front mask prompt _ s
          (denoise_step_front mask prompt params torch model draws attn clean _ _ _ front stepped)

end Denoise

theorem make_output_prompt (tokenizer : Tokenizer) (s : DenoiseState) (output : GenerationOutput) (promptIds : List Token)
    (single : prompt.rows = [promptIds]) (kept : PromptKept prompt s) (made : tokenizer.makeOutput s = some output) :
    output.promptIds = promptIds := by
  obtain ⟨_, _, made⟩ := Option.bind_eq_some_iff.mp made
  obtain ⟨_, _, made⟩ := Option.bind_eq_some_iff.mp made
  obtain ⟨row, first, made⟩ := Option.bind_eq_some_iff.mp made
  obtain ⟨_, _, made⟩ := Option.bind_eq_some_iff.mp made
  rw [PromptKept, single] at kept
  have head := congrArg List.head? kept
  rw [List.head?_map, first] at head
  rw [← Option.some.inj made]
  exact Option.some.inj head

theorem prompt_frame_clean (clean : ∀ row ∈ prompt.rows, mask ∉ row) (made : initState full prompt params mask = .ok start) :
    PromptFrame mask prompt params start := by
  constructor
  · intro V torch trace s run
    exact (batch_run_front mask prompt params start torch clean made trace s run).kept
  · intro V torch trace s tokenizer output promptIds run decoded single
    exact make_output_prompt prompt tokenizer s output promptIds single
      (batch_run_front mask prompt params start torch clean made trace s run).kept decoded
  · intro V torch model draws attn trace p reach
    have front := denoise_reach_front mask prompt params start torch model draws attn clean made trace p reach
    exact ⟨front.kept, fun s' stepped =>
      (denoise_step_front mask prompt params torch model draws attn clean p.step p.state s' front stepped).kept⟩

end Front

def sureModel (mask : Token) (j c : Nat) : Model Written where
  forward _ _ _ i d := (mask + 1, if i = j ∧ d = c then 1 else 1 / 2)
  takesPositionIds := false

theorem written_predict (logits : Nat → Nat → Written) (temperature : ℚ) (j c : Nat) :
    (predictAndScore writtenTorch lowDraw logits temperature).1 j c = (logits j c).1 := by
  dsimp only [predictAndScore, addGumbelNoise, writtenTorch, lowDraw, tiedDraw]
  rw [ite_self, ite_self]

theorem written_score (logits : Nat → Nat → Written) (temperature : ℚ) (j c : Nat) :
    (predictAndScore writtenTorch lowDraw logits temperature).2 j c = .prob (logits j c).2 := by
  have scored : (predictAndScore writtenTorch lowDraw logits temperature).2 j c =
      gatherProb writtenTorch (logits j c) ((predictAndScore writtenTorch lowDraw logits temperature).1 j c) := rfl
  rw [scored, written_predict, gatherProb]
  simp [writtenTorch]

theorem prob_lt (p q : ℚ) (less : p < q) : Score.prob p < Score.prob q := by
  change Score.rank (.prob p) < Score.rank (.prob q)
  rw [Score.rank, Score.rank]
  exact WithBot.coe_lt_coe.mpr (WithTop.coe_lt_coe.mpr less)

section Rewritten

variable (mask : Token) (prompt : Prompt) (params : SamplingParams) (start : DenoiseState)

theorem sure_chosen (x : List (List Token)) (j c k e : Nat) (row : List Token) (read : x[j]? = some row)
    (masked : row[c]? = some mask) (early : c < e) (positive : 0 < k) (fits : k ≤ row.length) :
    c ∈ ruleChosen writtenTorch lowDraw params j (rowConfidence writtenTorch lowDraw ((sureModel mask j c).forward x none none)
      params.temperature (maskIndex mask x) (some (.int e)) j row.length) k := by
  apply top_chosen_rule
  generalize confEq : rowConfidence writtenTorch lowDraw ((sureModel mask j c).forward x none none)
    params.temperature (maskIndex mask x) (some (.int e)) j row.length = conf
  have length : conf.length = row.length := by rw [← confEq, row_confidence_length]
  have value (d : Nat) (inRange : d < row.length) := row_confidence_get writtenTorch lowDraw
    ((sureModel mask j c).forward x none none) params.temperature (maskIndex mask x) (.int e) j row.length d inRange
  simp only [confEq, written_score, block_end_at_int] at value
  have bound := Rows.get_lt row c mask masked
  have sure : conf.getD c .negInf = .prob 1 := by
    rw [value c bound, if_pos]
    · simp [sureModel]
    · rw [mem_eligible, mask_index_row mask x j row read, Rows.is_mask_iff]
      exact ⟨bound, masked, early⟩
  apply TopK.peak_chosen (fun d => conf.getD d .negInf) conf.length k _
    (top_chosen_is_top_k lowDraw j conf k (ties_low_sound lowDraw low_draw_ties_low) (by rw [length]; exact fits)) positive c
    (by rw [length]; exact bound)
  intro d inRange other
  rw [sure, value d (by rw [← length]; exact inRange)]
  split
  · apply prob_lt
    simp only [sureModel, other, and_false, if_false]
    norm_num
  · exact neg_inf_lt _ (by simp)

theorem initial_row_read (made : initState full prompt params mask = .ok start) (j : Nat) (row : List Token)
    (read : prompt.rows[j]? = some row) :
    start.seq[j]? = some (row ++ List.replicate start.genLength mask) ∧ row.length = start.promptLen ∧
      0 < start.genLength := by
  have width := prompt.rect row (List.mem_of_getElem? read)
  obtain ⟨numBlocks, blockLength, stepsPerBlock, accepted, rfl⟩ := init_state_ok prompt params mask start made
  refine ⟨?_, width, ?_⟩
  · rw [initialState, List.getElem?_map, read]
    rfl
  · change 0 < params.genLength
    rw [accepted.blocks]
    exact Nat.mul_pos accepted.blocksPos accepted.lengthPos

theorem initial_planned_positive (made : initState full prompt params mask = .ok start) (j : Nat) (row : List Token)
    (read : prompt.rows[j]? = some row) : 0 < plannedK start 0 j := by
  obtain ⟨fresh, positive⟩ := initial_fresh prompt params mask start made
  obtain ⟨full, width, canvas⟩ := initial_row_read mask prompt params start made j row read
  obtain ⟨block, _, first⟩ := initial_counters mask prompt params start made
  have lengthPos := (initial_shaped prompt params mask start made).blockPos
  have opened : 0 < openIn mask start (row ++ List.replicate start.genLength mask) := by
    apply Finset.card_pos.mpr
    refine ⟨start.promptLen, (Rows.mem_holding _ _ _ _ _).mpr ⟨le_of_eq first, ?_, ?_⟩⟩
    · rw [block_span, first]
      omega
    · rw [List.getElem?_append_right (le_of_eq width), List.getElem?_replicate_of_lt (by omega)]
  rw [plannedK, fresh_schedule_get mask start fresh j _ full, List.getD_eq_getElem?_getD, EvenSplit.shares,
    List.getElem?_map, List.getElem?_range positive]
  exact EvenSplit.share_first_positive _ _ opened

theorem sure_step_rewrites (made : initState full prompt params mask = .ok start) (j c : Nat) (row : List Token)
    (read : prompt.rows[j]? = some row) (masked : row[c]? = some mask) :
    ∃ s', denoiseStep writtenTorch (sureModel mask j c) mask (fun _ _ => lowDraw) params none 0 start = some s' ∧
      ¬ PromptKept prompt s' := by
  obtain ⟨fresh, positive⟩ := initial_fresh prompt params mask start made
  obtain ⟨full, width, _⟩ := initial_row_read mask prompt params start made j row read
  have bound := Rows.get_lt row c mask masked
  have fits := planned_fits mask start 0 (fresh_affordable mask start fresh positive)
  obtain ⟨y, committed⟩ := commit_by_total writtenTorch lowDraw start.seq ((sureModel mask j c).forward start.seq none none)
    (maskIndex mask start.seq) (plannedK start 0) (some (.int start.blockEndAbs)) params.temperature
    (ruleChosen writtenTorch lowDraw params) fits
  refine ⟨{ start with seq := y, committed := notMask mask y, stepInBlock := 0 }, ?_, ?_⟩
  · rw [denoiseStep]
    dsimp only
    rw [commit_rows_eq]
    exact Option.bind_eq_some_iff.mpr ⟨y, committed, rfl⟩
  · intro kept
    have filled := (commit_by_get _ _ _ _ _ _ _ _ _ _ committed j _ full).2
    have inPrompt : (row ++ List.replicate start.genLength mask)[c]? = some mask := by
      rw [List.getElem?_append_left bound, masked]
    have early : c < start.blockEndAbs := by
      rw [DenoiseState.blockEndAbs]
      omega
    have chosen := sure_chosen mask params start.seq j c (plannedK start 0 j) start.blockEndAbs _ full inPrompt early
      (initial_planned_positive mask prompt params start made j row read) (fits j _ full)
    have rewritten := congrArg (fun rows : List (List Token) => rows[j]?) kept
    simp only [List.getElem?_map, read] at rewritten
    rw [filled, Option.map_some] at rewritten
    have cell := congrArg (fun row : List Token => row[c]?) (Option.some.inj rewritten)
    simp only [masked] at cell
    rw [List.getElem?_take_of_lt (by omega), Rows.fill_get, inPrompt, Option.map_some, if_pos] at cell
    · rw [written_predict] at cell
      exact Nat.succ_ne_self mask (Option.some.inj cell)
    · refine ⟨chosen, ?_⟩
      rw [mask_index_row mask start.seq j _ full, Rows.is_mask_iff]
      exact inPrompt

-- The prompt is safe from every run exactly when it holds no mask token.
theorem prompt_frame_iff (made : initState full prompt params mask = .ok start) :
    PromptFrame mask prompt params start ↔ ∀ row ∈ prompt.rows, mask ∉ row := by
  constructor
  · intro frame row member inside
    obtain ⟨j, read⟩ := List.getElem?_of_mem member
    obtain ⟨c, masked⟩ := List.getElem?_of_mem inside
    obtain ⟨s', stepped, rewritten⟩ := sure_step_rewrites mask prompt params start made j c row read masked
    obtain ⟨entered, atStart⟩ := initial_entered mask params prompt start made
    have reach : DenoiseReach writtenTorch (sureModel mask j c) mask (fun _ _ => lowDraw) params none start []
        ⟨start, 0⟩ := by
      refine ⟨⟨start, 0⟩, ⟨(initial_shaped prompt params mask start made).someBlock, ?_, rfl⟩, .nil⟩
      rw [enter_block_eq mask 0 start (initial_shaped prompt params mask start made).stepsPos, entered]
    exact rewritten ((frame.looped Written writtenTorch (sureModel mask j c) (fun _ _ => lowDraw) none [] ⟨start, 0⟩
      reach).2 s' stepped)
  · intro clean
    exact prompt_frame_clean mask prompt params start clean made

end Rewritten

theorem prompt_frame_unmasked :
    PromptFrame 9 (.single [1, 2]) tokenParams (initialState (.single [1, 2]) tokenParams 9 1 1) := by
  have made : initState .ample (.single [1, 2]) tokenParams 9 = .ok (initialState (.single [1, 2]) tokenParams 9 1 1) :=
    init_state_accepts (.single [1, 2]) tokenParams 9 1 1 1 ⟨rfl, rfl, rfl, by decide, by decide, by decide⟩ rfl
  exact (prompt_frame_iff 9 (.single [1, 2]) tokenParams _ made).mpr (by decide)

def secondSure (p : Nat) : Written := (2, if p = 1 then 1 else 1 / 2)

-- The one commit of the request goes to the mask in its prompt: the prompt comes
-- back changed and the answer is a mask.
theorem prompt_mask_rewritten : ∃ start s trace,
    initState .ample (.single [1, 9]) tokenParams 9 = .ok start ∧ Transition.Run (BatchStep writtenTorch 9) start trace s ∧
      s.done = true ∧ s.seq = [[1, 2, 9]] ∧ writtenTokenizer.makeOutput s = some ⟨[1, 2], [9], "decoded"⟩ ∧
      ¬ PromptFrame 9 (.single [1, 9]) tokenParams start := by
  have made : initState .ample (.single [1, 9]) tokenParams 9 = .ok (initialState (.single [1, 9]) tokenParams 9 1 1) :=
    init_state_accepts (.single [1, 9]) tokenParams 9 1 1 1 ⟨rfl, rfl, rfl, by decide, by decide, by decide⟩ rfl
  obtain ⟨s, stepped, done, seq, answered⟩ : ∃ s, soloSteps writtenTorch (writtenModel secondSure) 9 0 lowDraw
      (initialState (.single [1, 9]) tokenParams 9 1 1) 1 = some s ∧ s.done = true ∧ s.seq = [[1, 2, 9]] ∧
        writtenTokenizer.makeOutput s = some ⟨[1, 2], [9], "decoded"⟩ := by
    refine ⟨_, rfl, ?_, ?_, ?_⟩ <;> decide +kernel
  obtain ⟨trace, run, _⟩ := solo_steps_run writtenTorch (writtenModel secondSure) 9 0 lowDraw _ s 1 stepped
  refine ⟨_, s, trace, made, run, done, seq, answered, ?_⟩
  intro frame
  have same := frame.reported Written writtenTorch trace s writtenTokenizer _ [1, 9] run answered rfl
  exact absurd same (by decide)

end Dlmserve
