import Dlmserve.Advance
import Dlmserve.Library.Transition

set_option autoImplicit false

namespace Dlmserve

variable {full : Full}

-- The in-place view of step_batch: a batch refers to state objects in a store.
def writeStates (store : Nat → DenoiseState) : List Nat → List DenoiseState → Nat → DenoiseState
  | ref :: refs, s :: states => writeStates (Function.update store ref s) refs states
  | _, _ => store

def stepStore {V : Type} (torch : Torch V) (model : Model V) (mask pad : Token) (draw : Draw V)
    (store : Nat → DenoiseState) (batch : List Nat) : Option (Nat → DenoiseState) := do
  let states ← stepBatch torch model mask pad draw (batch.map store)
  some (writeStates store batch states)

theorem write_states_other (store : Nat → DenoiseState) (refs : List Nat) (states : List DenoiseState) (ref : Nat)
    (absent : ref ∉ refs) : writeStates store refs states ref = store ref := by
  induction refs generalizing store states with
  | nil => cases states <;> rfl
  | cons head tail ih =>
      cases states with
      | nil => rfl
      | cons s states =>
          rw [writeStates, ih _ _ (fun member => absent (List.mem_cons_of_mem head member)),
            Function.update_of_ne (fun same => absent (by simp [same]))]

theorem write_states_get (store : Nat → DenoiseState) (refs : List Nat) (states : List DenoiseState) (i ref : Nat)
    (s : DenoiseState) (distinct : refs.Nodup) (readRef : refs[i]? = some ref) (readState : states[i]? = some s) :
    writeStates store refs states ref = s := by
  induction refs generalizing store states i with
  | nil => simp at readRef
  | cons head tail ih =>
      cases states with
      | nil => simp at readState
      | cons first states =>
          obtain ⟨fresh, distinct⟩ := List.nodup_cons.mp distinct
          rw [writeStates]
          cases i with
          | zero =>
              obtain rfl : head = ref := by simpa using readRef
              obtain rfl : first = s := by simpa using readState
              rw [write_states_other _ _ _ _ fresh, Function.update_self]
          | succ i => exact ih _ states i distinct (by simpa using readRef) (by simpa using readState)

structure StoreCall (V : Type) where
  model : Model V
  pad : Token
  draw : Draw V
  batch : List Nat

structure StoreStep {V : Type} (torch : Torch V) (mask : Token) (store : Nat → DenoiseState) (call : StoreCall V)
    (store' : Nat → DenoiseState) : Prop where
  distinct : call.batch.Nodup
  stepped : stepStore torch call.model mask call.pad call.draw store call.batch = some store'

def InitialStore (mask : Token) (store : Nat → DenoiseState) : Prop :=
  ∀ ref, ∃ full prompt params, initState full prompt params mask = .ok (store ref)

-- One state's view of a run: each call is a batch that holds it somewhere, with
-- arbitrary company, an arbitrary model and an arbitrary choice among ties.
structure BatchCall (V : Type) where
  model : Model V
  pad : Token
  draw : Draw V
  states : List DenoiseState
  index : Nat

def BatchCall.params0 {V : Type} (call : BatchCall V) : SamplingParams :=
  (call.states.head?.map (·.params)).getD {}

structure BatchStep {V : Type} (torch : Torch V) (mask : Token) (s : DenoiseState) (call : BatchCall V)
    (s' : DenoiseState) : Prop where
  member : call.states[call.index]? = some s
  stepped : ∃ states', stepBatch torch call.model mask call.pad call.draw call.states = some states' ∧
    states'[call.index]? = some s'

theorem batch_step_state {V : Type} (torch : Torch V) (mask : Token) (s s' : DenoiseState) (call : BatchCall V)
    (step : BatchStep torch mask s call s') :
    StateStep torch call.model mask call.pad call.draw call.params0 s s' := by
  obtain ⟨member, states', made, read⟩ := step
  cases shape : call.states with
  | nil => simp [shape] at member
  | cons leader rest =>
      rw [shape] at member made
      obtain ⟨t, readT, stepped⟩ := step_batch_state torch call.model mask call.pad call.draw leader rest states' made
        call.index s member
      obtain rfl := Option.some.inj (readT.symm.trans read)
      simpa [BatchCall.params0, shape] using stepped

theorem store_step_other {V : Type} (torch : Torch V) (mask : Token) (store store' : Nat → DenoiseState)
    (call : StoreCall V) (step : StoreStep torch mask store call store') (ref : Nat) (absent : ref ∉ call.batch) :
    store' ref = store ref := by
  obtain ⟨states, _, same⟩ := Option.bind_eq_some_iff.mp step.stepped
  rw [← Option.some.inj same, write_states_other _ _ _ _ absent]

theorem store_step_member {V : Type} (torch : Torch V) (mask : Token) (store store' : Nat → DenoiseState)
    (call : StoreCall V) (step : StoreStep torch mask store call store') (ref : Nat) (member : ref ∈ call.batch) :
    ∃ index, BatchStep torch mask (store ref) ⟨call.model, call.pad, call.draw, call.batch.map store, index⟩ (store' ref) := by
  obtain ⟨states, made, same⟩ := Option.bind_eq_some_iff.mp step.stepped
  obtain ⟨index, read⟩ := List.getElem?_of_mem member
  have readState : (call.batch.map store)[index]? = some (store ref) := by rw [List.getElem?_map, read]; rfl
  have bound : index < states.length := by
    rw [step_batch_length torch call.model mask call.pad call.draw _ states made]
    exact Rows.get_lt _ _ _ readState
  refine ⟨index, readState, states, made, ?_⟩
  rw [← Option.some.inj same, write_states_get store call.batch states index ref _ step.distinct read
    (List.getElem?_eq_getElem bound)]
  exact List.getElem?_eq_getElem bound

def plannedK (s : DenoiseState) (step j : Nat) : Nat := (s.schedule.getD j []).getD step 0

section DenoiseRun

variable {V : Type} (torch : Torch V) (model : Model V) (mask : Token) (draws : Nat → Nat → Draw V)
  (params : SamplingParams) (attn : Option (List (List Nat)))

-- The points denoise passes through, each before an inner step of some block:
-- the inner loop goes on while a mask of the block is left and steps remain.
structure DenoisePoint where
  state : DenoiseState
  step : Nat

def DenoiseStart (start : DenoiseState) (p : DenoisePoint) : Prop :=
  0 < start.genLength / start.blockLength ∧ enterBlock mask 0 start = some p.state ∧ p.step = 0

inductive DenoiseMove : DenoisePoint → DenoiseState → DenoisePoint → Prop where
  | stay (p : DenoisePoint) (s' : DenoiseState)
      (stepped : denoiseStep torch model mask draws params attn p.step p.state = some s')
      (more : p.step + 1 < s'.stepsPerBlock) (remaining : (s'.blockMaskCount mask).sum ≠ 0) :
      DenoiseMove p s' ⟨s', p.step + 1⟩
  | pass (p : DenoisePoint) (s' entered : DenoiseState)
      (stepped : denoiseStep torch model mask draws params attn p.step p.state = some s')
      (ended : (s'.blockMaskCount mask).sum = 0 ∨ p.step + 1 = s'.stepsPerBlock)
      (more : s'.blockIdx + 1 < s'.genLength / s'.blockLength)
      (opened : enterBlock mask (s'.blockIdx + 1) s' = some entered) : DenoiseMove p s' ⟨entered, 0⟩

def DenoiseReach (start : DenoiseState) (trace : List (DenoisePoint × DenoiseState)) (p : DenoisePoint) : Prop :=
  ∃ first, DenoiseStart mask start first ∧
    Transition.Run (DenoiseMove torch model mask draws params attn) first trace p

def entering (block : Nat) (s : DenoiseState) : DenoiseState :=
  let s := { s with blockIdx := block }
  { s with schedule := (s.blockMaskCount mask).map fun n => EvenSplit.shares n s.stepsPerBlock }

theorem enter_block_eq (block : Nat) (s : DenoiseState) (positive : 0 < s.stepsPerBlock) :
    enterBlock mask block s = some (entering mask block s) := by
  rw [enterBlock]
  dsimp only
  rw [compute_transfer_schedule_eq _ _ positive]
  rfl

theorem enter_block_cases (block : Nat) (s s' : DenoiseState) (entered : enterBlock mask block s = some s') :
    0 < s.stepsPerBlock ∧ s' = entering mask block s := by
  rw [enterBlock] at entered
  obtain ⟨schedule, computed, same⟩ := Option.bind_eq_some_iff.mp entered
  obtain ⟨positive, rfl⟩ := compute_transfer_schedule_some _ _ _ computed
  exact ⟨positive, (Option.some.inj same).symm⟩

theorem denoise_step_cases (step : Nat) (s s' : DenoiseState)
    (stepped : denoiseStep torch model mask draws params attn step s = some s') :
    ∃ seq, commitBy torch (draws s.blockIdx step) s.seq (model.forward s.seq attn none) (maskIndex mask s.seq)
        (plannedK s step) (some (.int s.blockEndAbs)) params.temperature
        (ruleChosen torch (draws s.blockIdx step) params) = some seq ∧
      s' = { s with seq := seq, committed := notMask mask seq, stepInBlock := step } := by
  rw [denoiseStep] at stepped
  obtain ⟨seq, committed, same⟩ := Option.bind_eq_some_iff.mp stepped
  rw [commit_rows_eq] at committed
  exact ⟨seq, committed, (Option.some.inj same).symm⟩

theorem denoise_step_row (step : Nat) (s s' : DenoiseState)
    (stepped : denoiseStep torch model mask draws params attn step s = some s') (j : Nat) (row : List Token)
    (read : s.seq[j]? = some row) (pad : Token) :
    ∃ row', s'.seq[j]? = some row' ∧ RowStep torch model (draws s.blockIdx step) mask pad params row row'
      (plannedK s step j) s.blockEndAbs := by
  obtain ⟨seq, committed, rfl⟩ := denoise_step_cases torch model mask draws params attn step s s' stepped
  obtain ⟨fits, newRead⟩ := commit_by_get torch _ _ _ _ _ _ _ _ _ committed j row read
  rw [mask_index_row mask s.seq j row read] at newRead
  have bare : Rows.padded pad 0 0 row = row := by simp [Rows.padded]
  refine ⟨_, newRead, _, _, rfl, ?_, fun never c => never _ _ _ j c⟩
  intro sound
  have commit := rule_chosen_commit torch (draws s.blockIdx step) mask pad params s.seq (model.forward s.seq attn none)
    (.int s.blockEndAbs) j 0 0 (plannedK s step j) s.blockEndAbs row sound (by rw [bare]; exact read) (Nat.zero_add _).symm
    (by rw [bare]; exact fits)
  have unshifted : ∀ chosen, Rows.shifted 0 chosen = chosen := by
    intro chosen
    simp [Rows.shifted]
  rwa [bare, unshifted] at commit

theorem denoise_step_keeps (step : Nat) (s s' : DenoiseState)
    (stepped : denoiseStep torch model mask draws params attn step s = some s') :
    SameRequest s s' ∧ s'.blockIdx = s.blockIdx := by
  obtain ⟨_, _, rfl⟩ := denoise_step_cases torch model mask draws params attn step s s' stepped
  exact ⟨⟨rfl, rfl, rfl, rfl, rfl⟩, rfl⟩

theorem denoise_steps_run (left : Nat) (p : DenoisePoint) (last : DenoiseState)
    (left_eq : p.step + (left + 1) = p.state.stepsPerBlock)
    (looped : denoiseSteps torch model mask draws params attn p.state p.step (left + 1) = some last) :
    ∃ trace q, Transition.Run (DenoiseMove torch model mask draws params attn) p trace q ∧
      denoiseStep torch model mask draws params attn q.step q.state = some last ∧
      ((last.blockMaskCount mask).sum = 0 ∨ q.step + 1 = last.stepsPerBlock) ∧ last.blockIdx = p.state.blockIdx ∧
      SameRequest p.state last := by
  induction left generalizing p with
  | zero =>
      rw [denoiseSteps] at looped
      obtain ⟨next, stepped, looped⟩ := Option.bind_eq_some_iff.mp looped
      obtain rfl : next = last := by
        split at looped
        · exact Option.some.inj looped
        · exact Option.some.inj looped
      obtain ⟨same, block⟩ := denoise_step_keeps torch model mask draws params attn p.step p.state next stepped
      exact ⟨[], p, .nil, stepped, Or.inr (by rw [same.stepsPerBlock, ← left_eq]), block, same⟩
  | succ left ih =>
      rw [denoiseSteps] at looped
      obtain ⟨next, stepped, looped⟩ := Option.bind_eq_some_iff.mp looped
      obtain ⟨same, block⟩ := denoise_step_keeps torch model mask draws params attn p.step p.state next stepped
      by_cases ended : (next.blockMaskCount mask).sum = 0
      · rw [if_pos ended] at looped
        obtain rfl := Option.some.inj looped
        exact ⟨[], p, .nil, stepped, Or.inl ended, block, same⟩
      · rw [if_neg ended] at looped
        have move : DenoiseMove torch model mask draws params attn p next ⟨next, p.step + 1⟩ :=
          .stay p next stepped (by rw [same.stepsPerBlock]; omega) ended
        obtain ⟨trace, q, run, final, ended, blockEq, keeps⟩ :=
          ih ⟨next, p.step + 1⟩ (by simp only [same.stepsPerBlock]; omega) looped
        exact ⟨[(p, next)] ++ trace, q, Transition.run_append p _ q _ trace (.snoc [] p _ next .nil move) run, final,
          ended, blockEq.trans block, same_request_trans _ _ _ same keeps⟩

theorem denoise_blocks_run (left : Nat) (s final : DenoiseState) (block : Nat)
    (left_eq : block + (left + 1) = s.genLength / s.blockLength)
    (looped : denoiseBlocks torch model mask draws params attn s block (left + 1) = some final) :
    ∃ entered trace q, enterBlock mask block s = some entered ∧
      Transition.Run (DenoiseMove torch model mask draws params attn) ⟨entered, 0⟩ trace q ∧
      denoiseStep torch model mask draws params attn q.step q.state = some final := by
  induction left generalizing s block with
  | zero =>
      rw [denoiseBlocks] at looped
      obtain ⟨entered, opened, looped⟩ := Option.bind_eq_some_iff.mp looped
      obtain ⟨next, steps, looped⟩ := Option.bind_eq_some_iff.mp looped
      obtain rfl : next = final := Option.some.inj looped
      obtain ⟨positive, shape⟩ := enter_block_cases mask block s entered opened
      obtain ⟨left, count⟩ : ∃ left, entered.stepsPerBlock = left + 1 :=
        Nat.exists_eq_succ_of_ne_zero (by rw [shape]; exact Nat.ne_of_gt positive)
      rw [count] at steps
      obtain ⟨trace, q, run, last, _⟩ := denoise_steps_run torch model mask draws params attn left ⟨entered, 0⟩ next
        (by simp only [count]; omega) steps
      exact ⟨entered, trace, q, opened, run, last⟩
  | succ left ih =>
      rw [denoiseBlocks] at looped
      obtain ⟨entered, opened, looped⟩ := Option.bind_eq_some_iff.mp looped
      obtain ⟨next, steps, looped⟩ := Option.bind_eq_some_iff.mp looped
      obtain ⟨positive, shape⟩ := enter_block_cases mask block s entered opened
      obtain ⟨left', count⟩ : ∃ left, entered.stepsPerBlock = left + 1 :=
        Nat.exists_eq_succ_of_ne_zero (by rw [shape]; exact Nat.ne_of_gt positive)
      rw [count] at steps
      obtain ⟨trace, q, run, last, ended, blockEq, same⟩ := denoise_steps_run torch model mask draws params attn left'
        ⟨entered, 0⟩ next (by simp only [count]; omega) steps
      have index : next.blockIdx = block := by
        rw [blockEq, shape]
        rfl
      have blocks : next.genLength / next.blockLength = s.genLength / s.blockLength := by
        rw [same.genLength, same.blockLength, shape]
        rfl
      obtain ⟨after, trace', q', opened', run', last'⟩ := ih next (block + 1) (by omega) looped
      have move : DenoiseMove torch model mask draws params attn q next ⟨after, 0⟩ :=
        .pass q next after last ended (by omega) (by rw [index]; exact opened')
      exact ⟨entered, trace ++ [(q, next)] ++ trace', q', opened,
        Transition.run_append _ _ _ _ _ (.snoc trace q _ next run move) run', last'⟩

theorem denoise_looped (prompt : Prompt) (attention : Option (List (List Nat))) (start final : DenoiseState)
    (made : initState full prompt params mask = .ok start)
    (looped : denoiseBlocks torch model mask draws params (fullAttentionMask params attention) start 0
      (params.genLength / start.blockLength) = some final) :
    denoise torch model mask full draws prompt attention params = .ok final.seq := by
  rw [denoise, made]
  dsimp only [bind, Except.bind]
  rw [looped]

theorem denoise_returns (prompt : Prompt) (attention : Option (List (List Nat))) (out : List (List Token))
    (returned : denoise torch model mask full draws prompt attention params = .ok out) :
    ∃ start trace p final, initState full prompt params mask = .ok start ∧
      DenoiseReach torch model mask draws params (fullAttentionMask params attention) start trace p ∧
      denoiseStep torch model mask draws params (fullAttentionMask params attention) p.step p.state = some final ∧
      out = final.seq := by
  rw [denoise] at returned
  cases made : initState full prompt params mask with
  | error e => rw [made] at returned; cases returned
  | ok start =>
      rw [made] at returned
      dsimp only [bind, Except.bind] at returned
      split at returned
      · rename_i final looped
        obtain ⟨numBlocks, blockLength, stepsPerBlock, accepted, shape⟩ := init_state_ok prompt params mask start made
        have lengths : start.genLength = params.genLength := by rw [shape]; rfl
        have positive : 0 < params.genLength / start.blockLength := by
          rw [shape]
          simp only [initialState]
          rw [accepted.blocks, Nat.mul_div_cancel _ accepted.lengthPos]
          exact accepted.blocksPos
        obtain ⟨left, count⟩ := Nat.exists_eq_succ_of_ne_zero (Nat.ne_of_gt positive)
        rw [count] at looped
        obtain ⟨entered, trace, q, opened, run, last⟩ := denoise_blocks_run torch model mask draws params
          (fullAttentionMask params attention) left start final 0 (by rw [lengths]; omega) looped
        exact ⟨start, trace, q, final, rfl, ⟨⟨entered, 0⟩, ⟨by rw [lengths]; exact positive, opened, rfl⟩, run⟩, last,
          (Except.ok.inj returned).symm⟩
      · cases returned

end DenoiseRun

end Dlmserve
