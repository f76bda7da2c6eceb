import Dlmserve.Device

set_option autoImplicit false

namespace Dlmserve

variable {full : Full}

def cell {α : Type} (x : List (List α)) (j c : Nat) : Option α := x[j]?.bind fun row => row[c]?

-- The absorb contract of one step: the committed map is exactly the positions
-- off the mask, no row changes length, and a committed token is there to stay.
structure StepAbsorbs (mask : Token) (s s' : DenoiseState) : Prop where
  committed : s'.committed = notMask mask s'.seq
  lengths : s'.seq.map List.length = s.seq.map List.length
  kept : ∀ j c, cell s.committed j c = some true →
    cell s'.committed j c = some true ∧ cell s'.seq j c = cell s.seq j c

theorem cell_not_mask (mask : Token) (seq : List (List Token)) (j c : Nat) :
    cell (notMask mask seq) j c = (cell seq j c).map (· != mask) := by
  rw [cell, cell, notMask, List.getElem?_map]
  cases seq[j]? <;> simp

theorem step_absorbs_rows (mask : Token) (s s' : DenoiseState) (before : s.committed = notMask mask s.seq)
    (after : s'.committed = notMask mask s'.seq) (rows : s'.seq.length = s.seq.length)
    (absorbs : ∀ (j : Nat) (row : List Token), s.seq[j]? = some row →
      ∃ row', s'.seq[j]? = some row' ∧ Rows.Absorbs mask row row') : StepAbsorbs mask s s' := by
  refine ⟨after, ?_, ?_⟩
  · apply List.ext_getElem?
    intro j
    rw [List.getElem?_map, List.getElem?_map]
    cases read : s.seq[j]? with
    | none =>
        have beyond : s'.seq[j]? = none := by
          rw [List.getElem?_eq_none_iff, rows]
          exact List.getElem?_eq_none_iff.mp read
        rw [beyond]
    | some row =>
        obtain ⟨row', read', same⟩ := absorbs j row read
        rw [read', Option.map_some, Option.map_some, same.1]
  · intro j c committed
    rw [before, cell_not_mask] at committed
    obtain ⟨t, present, kept⟩ := Option.map_eq_some_iff.mp committed
    obtain ⟨row, read, value⟩ := Option.bind_eq_some_iff.mp present
    obtain ⟨row', read', same⟩ := absorbs j row read
    have stays : cell s'.seq j c = some t := by
      rw [cell, read']
      exact same.2 c t value (by simpa using kept)
    rw [after, cell_not_mask, stays, present]
    exact ⟨by simpa using kept, rfl⟩

theorem initial_committed (prompt : Prompt) (params : SamplingParams) (mask : Token) (s : DenoiseState)
    (made : initState full prompt params mask = .ok s) : s.committed = notMask mask s.seq := by
  obtain ⟨_, _, _, _, rfl⟩ := init_state_ok prompt params mask s made
  rfl

theorem state_step_absorbs {V : Type} (torch : Torch V) (model : Model V) (mask pad : Token) (draw : Draw V)
    (params0 : SamplingParams) (s s' : DenoiseState) (step : StateStep torch model mask pad draw params0 s s')
    (before : s.committed = notMask mask s.seq) : StepAbsorbs mask s s' := by
  obtain ⟨row, row', k, read, _, rowStep, written⟩ := step
  obtain ⟨_, seq, committed⟩ := write_back_keeps mask s s' row' written
  obtain ⟨rest, shape⟩ : ∃ rest, s.seq = row :: rest := by
    cases full : s.seq with
    | nil => simp [seqRow, full] at read
    | cons first rest =>
        obtain rfl : first = row := by simpa [seqRow, full] using read
        exact ⟨rest, rfl⟩
  rw [shape, List.set_cons_zero] at seq
  apply step_absorbs_rows mask s s' before
  · rw [committed, before, seq, shape]
    rfl
  · rw [seq, shape, List.length_cons, List.length_cons]
  · intro j old found
    rw [shape] at found
    rw [seq]
    cases j with
    | zero =>
        obtain rfl : row = old := by simpa using found
        exact ⟨row', rfl, row_step_absorbs rowStep⟩
    | succ j => exact ⟨old, found, Rows.absorbs_refl mask old⟩

section Denoise

variable {V : Type} (torch : Torch V) (model : Model V) (mask : Token) (draws : Nat → Nat → Draw V)
  (params : SamplingParams) (attn : Option (List (List Nat)))

theorem denoise_step_absorbs (step : Nat) (s s' : DenoiseState) (before : s.committed = notMask mask s.seq)
    (stepped : denoiseStep torch model mask draws params attn step s = some s') : StepAbsorbs mask s s' := by
  have rows := denoise_step_row torch model mask draws params attn step s s' stepped
  obtain ⟨seq, committed, rfl⟩ := denoise_step_cases torch model mask draws params attn step s s' stepped
  apply step_absorbs_rows mask s _ before
  · rfl
  · exact commit_by_length torch _ _ _ _ _ _ _ _ _ committed
  · intro j row read
    obtain ⟨row', read', rowStep⟩ := rows j row read mask
    exact ⟨row', read', row_step_absorbs rowStep⟩

theorem denoise_move_committed (p q : DenoisePoint) (s : DenoiseState)
    (move : DenoiseMove torch model mask draws params attn p s q) (before : p.state.committed = notMask mask p.state.seq) :
    q.state.committed = notMask mask q.state.seq := by
  cases move with
  | stay stepped => exact (denoise_step_absorbs torch model mask draws params attn p.step p.state s before stepped).committed
  | pass entered stepped _ _ opened =>
      obtain ⟨_, rfl⟩ := enter_block_cases mask _ s entered opened
      exact (denoise_step_absorbs torch model mask draws params attn p.step p.state s before stepped).committed

theorem denoise_reach_committed (start : DenoiseState) (before : start.committed = notMask mask start.seq)
    (trace : List (DenoisePoint × DenoiseState)) (p : DenoisePoint)
    (reach : DenoiseReach torch model mask draws params attn start trace p) :
    p.state.committed = notMask mask p.state.seq := by
  obtain ⟨first, ⟨_, entered, _⟩, run⟩ := reach
  apply Transition.run_invariant (fun p => p.state.committed = notMask mask p.state.seq) first p trace run
  · obtain ⟨_, shape⟩ := enter_block_cases mask 0 start first.state entered
    rw [shape]
    exact before
  · exact fun p s q holds move => denoise_move_committed torch model mask draws params attn p q s move holds

end Denoise

theorem store_committed {V : Type} (torch : Torch V) (mask : Token) (store : Nat → DenoiseState)
    (reach : Transition.Reachable (InitialStore mask) (StoreStep torch mask) store) (ref : Nat) :
    (store ref).committed = notMask mask (store ref).seq := by
  apply Transition.reachable_invariant _ (fun store => ∀ ref, (store ref).committed = notMask mask (store ref).seq)
    store reach
  · intro store initial ref
    obtain ⟨full, prompt, params, made⟩ := initial ref
    exact initial_committed prompt params mask _ made
  · intro store call store' holds step ref
    by_cases member : ref ∈ call.batch
    · obtain ⟨index, stepped⟩ := store_step_member torch mask store store' call step ref member
      have state := batch_step_state torch mask _ _ _ stepped
      exact (state_step_absorbs torch _ mask _ _ _ _ _ state (holds ref)).committed
    · rw [store_step_other torch mask store store' call step ref member]
      exact holds ref

theorem absorb_invariant {V : Type} (torch : Torch V) (mask : Token) :
    (∀ (store store' : Nat → DenoiseState) (call : StoreCall V),
      Transition.Reachable (InitialStore mask) (StoreStep torch mask) store →
      StoreStep torch mask store call store' →
      (∀ ref ∈ call.batch, StepAbsorbs mask (store ref) (store' ref)) ∧
        ∀ ref, ref ∉ call.batch → store' ref = store ref) ∧
    (∀ (model : Model V) (full : Full) (draws : Nat → Nat → Draw V) (prompt : Prompt) (params : SamplingParams)
      (attn : Option (List (List Nat))) (start s' : DenoiseState) (trace : List (DenoisePoint × DenoiseState))
      (p : DenoisePoint), initState full prompt params mask = .ok start →
      DenoiseReach torch model mask draws params attn start trace p →
      denoiseStep torch model mask draws params attn p.step p.state = some s' → StepAbsorbs mask p.state s') := by
  constructor
  · intro store store' call reach step
    refine ⟨?_, store_step_other torch mask store store' call step⟩
    intro ref member
    obtain ⟨index, stepped⟩ := store_step_member torch mask store store' call step ref member
    have state := batch_step_state torch mask _ _ _ stepped
    exact state_step_absorbs torch _ mask _ _ _ _ _ state (store_committed torch mask store reach ref)
  · intro model full draws prompt params attn start s' trace p made reach stepped
    have before := denoise_reach_committed torch model mask draws params attn start
      (initial_committed prompt params mask start made) trace p reach
    exact denoise_step_absorbs torch model mask draws params attn p.step p.state s' before stepped

theorem absorb_invariant_leap :
    (∃ store', stepStore writtenTorch (writtenModel anchorAnswer) 9 0 highDraw (blockStart true) [1, 2] = some store' ∧
      StepAbsorbs 9 (blockStart true 1) (store' 1) ∧ StepAbsorbs 9 (blockStart true 2) (store' 2) ∧ store' 3 = blockStart true 3) ∧
    ∃ s', denoiseStep writtenTorch (writtenModel anchorAnswer) 9 (fun _ _ => highDraw) (blockParams true) none 0 (blockStart true 1) =
      some s' ∧ StepAbsorbs 9 (blockStart true 1) s' := by
  constructor
  · obtain ⟨store', stepped⟩ := Option.isSome_iff_exists.mp (by decide +kernel :
      (stepStore writtenTorch (writtenModel anchorAnswer) 9 0 highDraw (blockStart true) [1, 2]).isSome = true)
    obtain ⟨inside, outside⟩ := (absorb_invariant writtenTorch 9).1 (blockStart true) store'
      ⟨writtenModel anchorAnswer, 0, highDraw, [1, 2]⟩
      ⟨blockStart true, [], fun ref => ⟨.ample, onePrompt ref, blockParams true, block_start_made true ref⟩, .nil⟩
      ⟨by decide, stepped⟩
    exact ⟨store', stepped, inside 1 (by decide), inside 2 (by decide), outside 3 (by decide)⟩
  · obtain ⟨s', stepped⟩ := Option.isSome_iff_exists.mp (by decide +kernel :
      (denoiseStep writtenTorch (writtenModel anchorAnswer) 9 (fun _ _ => highDraw) (blockParams true) none 0
        (blockStart true 1)).isSome = true)
    refine ⟨s', stepped, ?_⟩
    exact (absorb_invariant writtenTorch 9).2 (writtenModel anchorAnswer) .ample (fun _ _ => highDraw) (onePrompt 1)
      (blockParams true) none (blockStart true 1) s' [] ⟨blockStart true 1, 0⟩ (block_start_made true 1)
      ⟨⟨blockStart true 1, 0⟩, ⟨by decide, rfl, rfl⟩, .nil⟩ stepped

end Dlmserve
