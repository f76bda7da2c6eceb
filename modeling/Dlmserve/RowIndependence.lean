import Dlmserve.Device
import Dlmserve.PlainStep

set_option autoImplicit false

namespace Dlmserve

-- A single-row state with a history of its own: calls of step_batch in any
-- company, on any model, under any choice among ties.
def History {V : Type} (torch : Torch V) (mask : Token) (s : DenoiseState) : Prop :=
  ∃ full promptIds params start trace, initState full (.single promptIds) params mask = .ok start ∧
    Transition.Run (BatchStep torch mask) start trace s

structure ShapedRow (s : DenoiseState) : Prop where
  shaped : Shaped s
  single : ∃ row, s.seq = [row]

theorem shaped_row_nonempty (s : DenoiseState) (one : ShapedRow s) : s.seq ≠ [] := by
  obtain ⟨row, single⟩ := one.single
  rw [single]
  exact List.cons_ne_nil row []

section History

variable {V : Type} (torch : Torch V) (mask : Token)

theorem batch_step_shaped_row (s s' : DenoiseState) (call : BatchCall V) (step : BatchStep torch mask s call s')
    (one : ShapedRow s) : ShapedRow s' := by
  have moved := batch_step_state torch mask s s' call step
  refine ⟨state_step_shaped torch call.model mask call.pad call.draw call.params0 s s' moved one.shaped, ?_⟩
  obtain ⟨row, row', _, _, _, _, written⟩ := moved
  obtain ⟨old, single⟩ := one.single
  exact ⟨row', by rw [(write_back_keeps mask s s' row' written).2.1, single, List.set_cons_zero]⟩

theorem history_shaped_row (s : DenoiseState) (history : History torch mask s) : ShapedRow s := by
  obtain ⟨full, promptIds, params, start, trace, made, run⟩ := history
  apply Transition.run_invariant ShapedRow start s trace run
  · obtain ⟨row, _⟩ := initial_row mask (.single promptIds) params start promptIds rfl made
    exact ⟨initial_shaped _ _ _ _ made, _, row⟩
  · intro s call s' one step
    exact batch_step_shaped_row torch mask s s' call step one

variable (model : Model V) (view : List Token → Nat → V) (pad : Token)

theorem step_batch_plain (isLocal : PaddingLocal model view) (proper : pad ≠ mask) (draw : Draw V)
    (low : TopKTiesLow draw) (common : SharedParams) (cold : common.temperature = 0) (states : List DenoiseState)
    (rows : ∀ s ∈ states, ShapedRow s) (agree : ∀ s ∈ states, s.params.shared = common) :
    ∃ states', stepBatch torch model mask pad draw states = some states' ∧
      ∀ (i : Nat) (s : DenoiseState), states[i]? = some s →
        ∃ s', states'[i]? = some s' ∧ plainStep torch view mask s = some s' := by
  obtain ⟨states', made⟩ := step_batch_total torch model mask pad draw states (fun s member => (rows s member).shaped)
    (fun s member => shaped_row_nonempty s (rows s member))
  refine ⟨states', made, ?_⟩
  intro i s read
  have member := List.mem_of_getElem? read
  cases states with
  | nil => cases member
  | cons leader rest =>
      obtain ⟨s', read', step⟩ := step_batch_window torch model mask pad draw leader rest states' made i s read
      have leads := agree leader List.mem_cons_self
      refine ⟨s', read', ?_⟩
      apply window_step_plain torch view mask model pad draw isLocal proper low leader.params s s' (rows s member).shaped
      · change leader.params.shared.temperature = 0
        rw [leads, cold]
      · exact leads.trans (agree s member).symm
      · exact step

theorem step_store_plain (isLocal : PaddingLocal model view) (proper : pad ≠ mask) (draw : Draw V)
    (low : TopKTiesLow draw) (common : SharedParams) (cold : common.temperature = 0) (store : Nat → DenoiseState)
    (batch : List Nat) (distinct : batch.Nodup) (rows : ∀ ref ∈ batch, ShapedRow (store ref))
    (agree : ∀ ref ∈ batch, (store ref).params.shared = common) :
    ∃ after, stepStore torch model mask pad draw store batch = some after ∧
      (∀ ref ∈ batch, plainStep torch view mask (store ref) = some (after ref)) ∧
      ∀ ref, ref ∉ batch → after ref = store ref := by
  obtain ⟨states', made, plain⟩ := step_batch_plain torch mask model view pad isLocal proper draw low common cold
    (batch.map store) (List.forall_mem_map.mpr rows) (List.forall_mem_map.mpr agree)
  refine ⟨writeStates store batch states', Option.bind_eq_some_iff.mpr ⟨states', made, rfl⟩, ?_, ?_⟩
  · intro ref member
    obtain ⟨i, read⟩ := List.getElem?_of_mem member
    obtain ⟨s', read', moved⟩ := plain i (store ref) (by rw [List.getElem?_map, read]; rfl)
    rw [write_states_get store batch states' i ref s' distinct read read']
    exact moved
  · intro ref absent
    exact write_states_other store batch states' ref absent

-- Stepping a cold batch leaves each of its states as stepping that state alone
-- would, and no other state is touched. The lengths and positions of the states
-- may differ in any way.
theorem row_independence (isLocal : PaddingLocal model view) (proper : pad ≠ mask) (draw : Draw V)
    (low : TopKTiesLow draw) (common : SharedParams) (cold : common.temperature = 0) (store : Nat → DenoiseState)
    (batch : List Nat) (distinct : batch.Nodup) (histories : ∀ ref ∈ batch, History torch mask (store ref))
    (agree : ∀ ref ∈ batch, (store ref).params.shared = common) :
    ∃ after, stepStore torch model mask pad draw store batch = some after ∧
      (∀ ref ∈ batch, ∀ drawAlone : Draw V, TopKTiesLow drawAlone →
        ∃ alone, stepStore torch model mask pad drawAlone store [ref] = some alone ∧ after ref = alone ref) ∧
      ∀ ref, ref ∉ batch → after ref = store ref := by
  have rows := fun ref member => history_shaped_row torch mask (store ref) (histories ref member)
  obtain ⟨after, made, plain, others⟩ := step_store_plain torch mask model view pad isLocal proper draw low common cold
    store batch distinct rows agree
  refine ⟨after, made, ?_, others⟩
  intro ref member drawAlone lowAlone
  obtain ⟨alone, madeAlone, plainAlone, _⟩ := step_store_plain torch mask model view pad isLocal proper drawAlone lowAlone
    common cold store [ref] (List.nodup_singleton ref)
    (fun other single => by rw [List.mem_singleton.mp single]; exact rows ref member)
    (fun other single => by rw [List.mem_singleton.mp single]; exact agree ref member)
  refine ⟨alone, madeAlone, Option.some.inj ?_⟩
  rw [← plain ref member, ← plainAlone ref (List.mem_singleton_self ref)]

end History

theorem written_local (answer : Nat → Written) : PaddingLocal (writtenModel answer) fun _ c => answer c := by
  refine ⟨?_, fun _ _ _ _ _ _ => rfl⟩
  intro x attn positions j pad left right row c inside _ attended _
  have ones : ((Rows.padded 0 left right (List.replicate row.length 1)).take (left + c)).count 1 = c := by
    have short : min c row.length = c := Nat.min_eq_left (Nat.le_of_lt inside)
    have early : c - row.length = 0 := by omega
    simp [Rows.padded, List.take_append, List.take_replicate, List.count_replicate, short, early]
  change answer (((attn.getD j []).take (left + c)).count 1) = answer c
  rw [List.getD_eq_getElem?_getD, attended, Option.getD_some, ones]

def steppedOnce : DenoiseState :=
  (soloStep writtenTorch (writtenModel anchorAnswer) 9 0 lowDraw (blockStart true 1)).getD (blockStart true 1)

def twoPositions (ref : Nat) : DenoiseState :=
  if ref = 0 then steppedOnce else initialState (.single [3, 4]) (blockParams true) 9 4 2

theorem two_positions_history (ref : Nat) : History writtenTorch 9 (twoPositions ref) := by
  by_cases first : ref = 0
  · have stepped : soloSteps writtenTorch (writtenModel anchorAnswer) 9 0 lowDraw (blockStart true 1) 1 =
        some steppedOnce := by decide +kernel
    obtain ⟨trace, run, _⟩ := solo_steps_run writtenTorch (writtenModel anchorAnswer) 9 0 lowDraw _ _ 1 stepped
    rw [twoPositions, if_pos first]
    exact ⟨.ample, [1], blockParams true, _, trace, block_start_made true 1, run⟩
  · rw [twoPositions, if_neg first]
    exact ⟨.ample, [3, 4], blockParams true, _, [], init_state_accepts (.single [3, 4]) (blockParams true) 9 3 4 2
      ⟨rfl, rfl, rfl, by decide, by decide, by decide⟩ rfl, .nil⟩

theorem row_independence_two_positions :
    (twoPositions 0).stepInBlock ≠ (twoPositions 1).stepInBlock ∧
      ∃ after, stepStore writtenTorch (writtenModel anchorAnswer) 9 0 lowDraw twoPositions [0, 1] = some after ∧
        ∃ alone, stepStore writtenTorch (writtenModel anchorAnswer) 9 0 lowDraw twoPositions [1] = some alone ∧
          after 1 = alone 1 := by
  refine ⟨by decide +kernel, ?_⟩
  obtain ⟨after, made, each, _⟩ := row_independence writtenTorch 9 (writtenModel anchorAnswer)
    (fun _ c => anchorAnswer c) 0 (written_local anchorAnswer) (by decide) lowDraw low_draw_ties_low
    (blockParams true).shared rfl twoPositions [0, 1] (by decide) (fun ref _ => two_positions_history ref)
    (by decide +kernel)
  exact ⟨after, made, each 1 (by decide) lowDraw low_draw_ties_low⟩

end Dlmserve
