import Dlmserve.Progress
import Dlmserve.Tracked

set_option autoImplicit false

namespace Dlmserve

variable {full : Full}

-- Decoding a non-empty list of rows does not raise and gives a text for the first.
def Decodes (tokenizer : Tokenizer) : Prop :=
  ∀ ids, ids ≠ [] → ∃ text texts, tokenizer.batchDecode ids = some (text :: texts)

theorem make_output_some (tokenizer : Tokenizer) (decodes : Decodes tokenizer) (s : DenoiseState) (nonempty : s.seq ≠ []) :
    tokenizer.makeOutput s ≠ none := by
  cases shape : s.seq with
  | nil => exact absurd shape nonempty
  | cons row others =>
      obtain ⟨text, texts, decoded⟩ := decodes ((row :: others).map fun row => row.drop s.promptLen) (by simp)
      simp only [List.map_cons] at decoded
      simp [Tokenizer.makeOutput, shape, decoded]

namespace Engine

variable {V : Type} (torch : Torch V) (loaded : LoadedModel V) (now : ℚ)

-- The batch that the next round of the loop runs, and what its step gives.
def batch (e : Engine) : List Nat :=
  if e.loop = .running ∧ ¬ (e.shutdown = true ∧ e.scheduler.hasWork = false) then (e.scheduler.schedule now).2 else []

def stepped (fails : Bool) (draw : Draw V) (e : Engine) : Option (List DenoiseState) :=
  if fails then none
  else stepBatch torch loaded.model loaded.maskId loaded.padTokenId draw
    ((e.batch now).map fun ref => (e.scheduler.objects ref).state)

end Engine

def Unfinished (s : DenoiseState) : Prop := Shaped s ∧ s.seq ≠ [] ∧ s.done = false

def Answered (tokenizer : Tokenizer) (req : Request) : Prop :=
  ∀ value, req.future = some (.result value) →
    req.state.done = true ∧ value ≠ none ∧ value = tokenizer.makeOutput req.state

-- The engine's invariant: queued requests are unfinished, and a request that left
-- has been answered from its final state.
structure EngineInvariant (tokenizer : Tokenizer) (e : Engine) (now : ℚ) : Prop where
  queues : Queues e.scheduler now
  alive : e.loop ≠ .crashed
  running : ∀ ref ∈ e.scheduler.active ++ e.scheduler.pending, Unfinished (e.scheduler.objects ref).state
  futures : ∀ ref < e.scheduler.fresh, (e.scheduler.objects ref).future ≠ none
  left : ∀ ref < e.scheduler.fresh, ref ∉ e.scheduler.active ++ e.scheduler.pending → e.scheduler.awaited ref = false
  answered : ∀ ref < e.scheduler.fresh, Answered tokenizer (e.scheduler.objects ref)

theorem EngineInvariant.tracked {tokenizer : Tokenizer} {e : Engine} {now : ℚ} (invariant : EngineInvariant tokenizer e now) :
    Tracked e.scheduler now := ⟨invariant.queues, invariant.futures, invariant.left⟩

section Round

variable {V : Type} (torch : Torch V) (loaded : LoadedModel V) (e : Engine) (now time : ℚ) (fails : Bool) (draw : Draw V)

-- One state's share of the round, under the parameters of a member of its batch.
def Moves (s s' : DenoiseState) : Prop :=
  ∃ leader ∈ e.batch time, WindowStep torch loaded.model loaded.maskId loaded.padTokenId draw
    (e.scheduler.objects leader).state.params s s'

theorem moves_state (s s' : DenoiseState) (moved : Moves torch loaded e time draw s s') :
    ∃ params0, StateStep torch loaded.model loaded.maskId loaded.padTokenId draw params0 s s' := by
  obtain ⟨leader, _, step⟩ := moved
  exact ⟨_, window_step_state torch loaded.model loaded.maskId loaded.padTokenId draw _ s s' step⟩

theorem stepped_state (states : List DenoiseState) (made : e.stepped torch loaded time fails draw = some states)
    (ref : Nat) (member : ref ∈ e.batch time) (distinct : (e.batch time).Nodup) (s : Scheduler)
    (objects : s.objects = e.scheduler.objects) :
    ∃ state', Moves torch loaded e time draw (e.scheduler.objects ref).state state' ∧
      states[(e.batch time).idxOf ref]? = some state' ∧
      (s.setStates (e.batch time) states).objects ref = { e.scheduler.objects ref with state := state' } := by
  have read : (e.batch time)[(e.batch time).idxOf ref]? = some ref := List.getElem?_idxOf member
  generalize (e.batch time).idxOf ref = i at read ⊢
  have readState : ((e.batch time).map fun ref => (e.scheduler.objects ref).state)[i]? =
      some (e.scheduler.objects ref).state := by
    rw [List.getElem?_map, read]
    rfl
  rw [Engine.stepped] at made
  split at made
  · cases made
  · cases shape : (e.batch time).map fun ref => (e.scheduler.objects ref).state with
    | nil => rw [shape] at readState; simp at readState
    | cons leader rest =>
        rw [shape] at made readState
        obtain ⟨state', readNew, step⟩ := step_batch_window torch loaded.model loaded.maskId loaded.padTokenId draw leader
          rest states made i _ readState
        obtain ⟨first, inside, same⟩ := List.mem_map.mp (shape ▸ List.mem_cons_self :
          leader ∈ (e.batch time).map fun ref => (e.scheduler.objects ref).state)
        refine ⟨state', ⟨first, inside, by rw [same]; exact step⟩, readNew, ?_⟩
        rw [set_states_get s (e.batch time) states distinct i ref state' read readNew, objects]

def settle (tokenizer : Tokenizer) (s : Scheduler) (batch : List Nat) : Scheduler :=
  retire s (batch.filter fun ref => (s.objects ref).state.done) (Request.finished tokenizer)

-- The three things a round can do.
inductive Round : Engine → Prop where
  | quiet (loop : LoopStatus) (s : Scheduler) (none_run : e.batch time = [])
      (kept : s = e.scheduler ∨ s = e.scheduler.promotePending)
      (stays : loop = e.loop ∨ (loop = .returned ∧ e.scheduler.hasWork = false)) :
      Round { e with scheduler := s, loop := loop }
  | failed (key : GroupKey) (good : GoodBatch e.scheduler.promotePending (e.batch time) key)
      (chosen : ∃ reqs, Scheduler.Chosen time e.scheduler.promotePending (e.batch time) key reqs)
      (none_made : e.stepped torch loaded time fails draw = none) (busy : e.loop = .running) :
      Round { e with scheduler := retire e.scheduler.promotePending (e.batch time) Request.failed, loop := .running }
  | stepped (key : GroupKey) (states : List DenoiseState)
      (good : GoodBatch e.scheduler.promotePending (e.batch time) key)
      (chosen : ∃ reqs, Scheduler.Chosen time e.scheduler.promotePending (e.batch time) key reqs)
      (made : e.stepped torch loaded time fails draw = some states) (busy : e.loop = .running) :
      Round { e with
        scheduler := settle loaded.tokenizer (e.scheduler.promotePending.setStates (e.batch time) states) (e.batch time)
        loop := .running }

theorem promote_objects (s : Scheduler) : s.promotePending.objects = s.objects := by rw [Scheduler.promote_eq]

theorem state_step_seq (model : Model V) (mask pad : Token) (params0 : SamplingParams) (s s' : DenoiseState)
    (step : StateStep torch model mask pad draw params0 s s') : s'.seq ≠ [] := by
  obtain ⟨row, row', others, _, _, after, moved⟩ := state_step_cases torch model mask pad draw params0 s s' step
  rcases advance_cases mask _ s' moved with ⟨_, rfl⟩ | ⟨_, _, rfl⟩ | ⟨_, _, _, rfl⟩ <;>
    simp [staying, passing, opening, after]

-- The same with a batch that may be left half completed, where an output raises.
inductive Iteration : Engine → Prop where
  | quiet (loop : LoopStatus) (s : Scheduler) (none_run : e.batch time = [])
      (kept : s = e.scheduler ∨ s = e.scheduler.promotePending)
      (stays : loop = e.loop ∨ (loop = .returned ∧ e.shutdown = true ∧ e.scheduler.hasWork = false)) :
      Iteration { e with scheduler := s, loop := loop }
  | failed (key : GroupKey) (good : GoodBatch e.scheduler.promotePending (e.batch time) key)
      (chosen : ∃ reqs, Scheduler.Chosen time e.scheduler.promotePending (e.batch time) key reqs)
      (none_made : e.stepped torch loaded time fails draw = none) (busy : e.loop = .running) :
      Iteration { e with scheduler := retire e.scheduler.promotePending (e.batch time) Request.failed, loop := .running }
  | stepped (key : GroupKey) (states : List DenoiseState)
      (good : GoodBatch e.scheduler.promotePending (e.batch time) key)
      (chosen : ∃ reqs, Scheduler.Chosen time e.scheduler.promotePending (e.batch time) key reqs)
      (made : e.stepped torch loaded time fails draw = some states) (busy : e.loop = .running)
      (s : Scheduler) (raised : Bool)
      (completed : Scheduler.finishBatch loaded.tokenizer (e.scheduler.promotePending.setStates (e.batch time) states)
        (e.batch time) = (s, raised)) :
      Iteration { e with scheduler := s, loop := if raised then .crashed else .running }

theorem batch_alive (later : now ≤ time) (queues : Queues e.scheduler now) (key : GroupKey)
    (good : GoodBatch e.scheduler.promotePending (e.batch time) key) :
    (e.batch time).Nodup ∧ ∀ ref ∈ e.batch time, ref < e.scheduler.promotePending.fresh := by
  have pool := promote_valid e.scheduler now time later queues
  exact ⟨(active_nodup _ time pool).sublist good.fifo, fun ref member =>
    pool.alive ref (List.mem_append_left _ (good.fifo.subset member))⟩

theorem iterate_iteration (later : now ≤ time) (queues : Queues e.scheduler now) :
    Iteration torch loaded e time fails draw (e.iterate torch loaded time fails draw) := by
  rw [Engine.iterate]
  cases status : e.loop with
  | returned => exact .quiet e.loop e.scheduler (by rw [Engine.batch, if_neg]; simp [status]) (Or.inl rfl) (Or.inl rfl)
  | crashed => exact .quiet e.loop e.scheduler (by rw [Engine.batch, if_neg]; simp [status]) (Or.inl rfl) (Or.inl rfl)
  | running =>
      dsimp only
      by_cases stop : e.shutdown = true ∧ e.scheduler.hasWork = false
      · rw [if_pos stop]
        exact .quiet .returned e.scheduler (by rw [Engine.batch, if_neg]; exact fun both => both.2 stop) (Or.inl rfl)
          (Or.inr ⟨rfl, stop⟩)
      · have batchEq : e.batch time = (e.scheduler.schedule time).2 := by
          rw [Engine.batch, if_pos ⟨status, stop⟩]
        rw [if_neg stop]
        rcases schedule_cases e.scheduler now time later queues with
          ⟨_, made⟩ | ⟨batch, key, reqs, _, made, chosen, good⟩
        · rw [made] at batchEq ⊢
          exact .quiet .running e.scheduler.promotePending batchEq (Or.inr rfl) (Or.inl status.symm)
        · rw [made] at batchEq ⊢
          dsimp only at batchEq ⊢
          rw [if_neg good.nonempty]
          have stepEq : e.stepped torch loaded time fails draw = if fails = true then none
              else stepBatch torch loaded.model loaded.maskId loaded.padTokenId draw
                (batch.map fun ref => (e.scheduler.promotePending.objects ref).state) := by
            rw [Engine.stepped, batchEq, promote_objects]
          rw [← stepEq]
          rw [← batchEq] at good chosen ⊢
          obtain ⟨distinct, bound⟩ := batch_alive e now time later queues key good
          cases outcome : e.stepped torch loaded time fails draw with
          | none =>
              dsimp only
              rw [fail_batch_eq _ time (promote_valid e.scheduler now time later queues) (e.batch time) distinct bound]
              exact .failed key good ⟨reqs, chosen⟩ outcome status
          | some states => exact .stepped key states good ⟨reqs, chosen⟩ outcome status _ _ rfl

def OutputRaises : Prop :=
  ∃ states ref state, e.stepped torch loaded time fails draw = some states ∧ ref ∈ e.batch time ∧
    states[(e.batch time).idxOf ref]? = some state ∧ state.done = true ∧ loaded.tokenizer.makeOutput state = none

theorem iteration_round (later : now ≤ time) (queues : Queues e.scheduler now) (after : Engine)
    (outputs : ¬ OutputRaises torch loaded e time fails draw) (iteration : Iteration torch loaded e time fails draw after) :
    Round torch loaded e time fails draw after := by
  cases iteration with
  | quiet loop s none_run kept stays => exact .quiet loop s none_run kept (stays.imp_right fun both => ⟨both.1, both.2.2⟩)
  | failed key good chosen none_made busy => exact .failed key good chosen none_made busy
  | stepped key states good chosen made busy s raised completed =>
      obtain ⟨distinct, bound⟩ := batch_alive e now time later queues key good
      have same := set_states_queues e.scheduler.promotePending (e.batch time) states
      have valid := same_queues_valid _ _ time time same (le_refl time) (promote_valid e.scheduler now time later queues)
      rw [finish_batch_eq loaded.tokenizer _ time valid (e.batch time) distinct
        (fun ref member => by rw [same.fresh]; exact bound ref member)] at completed
      · obtain ⟨rfl, rfl⟩ := Prod.mk.inj completed
        exact .stepped key states good chosen made busy
      · intro ref member done
        obtain ⟨state', _, read, object⟩ := stepped_state torch loaded e time fails draw states made ref member
          distinct e.scheduler.promotePending (promote_objects _)
        rw [object] at done ⊢
        exact fun raises => outputs ⟨states, ref, state', made, member, read, done, raises⟩

theorem decoded_outputs (decodes : Decodes loaded.tokenizer) : ¬ OutputRaises torch loaded e time fails draw := by
  rintro ⟨states, ref, state, made, member, read, _, raises⟩
  rw [Engine.stepped] at made
  split at made
  · cases made
  · cases shape : (e.batch time).map fun ref => (e.scheduler.objects ref).state with
    | nil => exact absurd (List.map_eq_nil_iff.mp shape) (List.ne_nil_of_mem member)
    | cons leader rest =>
        rw [shape] at made
        have bound := Rows.get_lt states _ state read
        have length := step_batch_length torch loaded.model loaded.maskId loaded.padTokenId draw _ states made
        obtain ⟨state', same, step⟩ := step_batch_state torch loaded.model loaded.maskId loaded.padTokenId draw leader rest
          states made _ _ (List.getElem?_eq_getElem (length ▸ bound))
        obtain rfl := Option.some.inj (read.symm.trans same)
        exact make_output_some loaded.tokenizer decodes state
          (state_step_seq torch draw loaded.model loaded.maskId loaded.padTokenId _ _ state step) raises

theorem iterate_round (decodes : Decodes loaded.tokenizer) (later : now ≤ time)
    (invariant : EngineInvariant loaded.tokenizer e now) :
    Round torch loaded e time fails draw (e.iterate torch loaded time fails draw) :=
  iteration_round torch loaded e now time fails draw later invariant.queues _
    (decoded_outputs torch loaded e time fails draw decodes)
    (iterate_iteration torch loaded e now time fails draw later invariant.queues)

theorem settle_other (tokenizer : Tokenizer) (s : Scheduler) (batch : List Nat) (states : List DenoiseState) (ref : Nat)
    (absent : ref ∉ batch) : (settle tokenizer (s.setStates batch states) batch).objects ref = s.objects ref := by
  rw [settle, retire]
  dsimp only
  rw [if_neg fun member => absent (List.mem_of_mem_filter member), set_states_other s batch states ref absent]

theorem settle_member (tokenizer : Tokenizer) (s : Scheduler) (batch : List Nat) (states : List DenoiseState) (ref : Nat)
    (member : ref ∈ batch) (req : Request) (object : (s.setStates batch states).objects ref = req) :
    (settle tokenizer (s.setStates batch states) batch).objects ref =
      if req.state.done = true then req.finished tokenizer else req := by
  rw [settle, retire]
  dsimp only
  rw [object]
  by_cases done : req.state.done = true
  · rw [if_pos done, if_pos (List.mem_filter.mpr ⟨member, by rw [object]; exact done⟩)]
  · rw [if_neg done, if_neg]
    intro inside
    have finished := (List.mem_filter.mp inside).2
    rw [object] at finished
    exact done finished

end Round

section Preserved

variable {V : Type} (torch : Torch V) (loaded : LoadedModel V) (e : Engine) (now time : ℚ)

theorem same_members_invariant (tokenizer : Tokenizer) (s : Scheduler) (loop : LoopStatus) (shutdown : Bool)
    (invariant : EngineInvariant tokenizer e now) (queues : Queues s time)
    (order : s.active ++ s.pending = e.scheduler.active ++ e.scheduler.pending) (fresh : s.fresh = e.scheduler.fresh)
    (objects : s.objects = e.scheduler.objects) (alive : loop ≠ .crashed) :
    EngineInvariant tokenizer { scheduler := s, shutdown := shutdown, loop := loop } time := by
  refine ⟨queues, alive, ?_, ?_, ?_, ?_⟩ <;> dsimp only
  · rw [order, objects]
    exact invariant.running
  · rw [fresh, objects]
    exact invariant.futures
  · intro ref inside
    rw [order, awaited_eq, objects]
    rw [fresh] at inside
    exact invariant.left ref inside
  · rw [fresh, objects]
    exact invariant.answered

theorem waited_invariant (tokenizer : Tokenizer) (later : now ≤ time) (invariant : EngineInvariant tokenizer e now)
    (loop : LoopStatus) (shutdown : Bool) (alive : loop ≠ .crashed) :
    EngineInvariant tokenizer { e with shutdown := shutdown, loop := loop } time :=
  same_members_invariant e now time tokenizer e.scheduler loop shutdown invariant
    (waited_tracked e.scheduler now time later invariant.tracked).queues rfl rfl rfl alive

theorem initial_engine_invariant (tokenizer : Tokenizer) (maxBatch maxWaiting : Nat)
    (r : EngineRun) (initial : InitialEngine maxBatch maxWaiting r) : EngineInvariant tokenizer r.engine r.now := by
  obtain ⟨unused, now, rfl⟩ := initial
  have tracked := initial_tracked now maxBatch maxWaiting unused
  refine ⟨tracked.queues, by simp, ?_, tracked.futures, tracked.left, ?_⟩ <;> simp [Scheduler.init]

theorem enqueued_invariant (later : now ≤ time) (invariant : EngineInvariant loaded.tokenizer e now)
    (room : e.scheduler.pending.length < e.scheduler.maxWaiting) (state : DenoiseState) (params : SamplingParams)
    (unfinished : Unfinished state) :
    EngineInvariant loaded.tokenizer { e with scheduler := enqueued e.scheduler time state params (some .pending) } time := by
  have new := enqueued_new e.scheduler time state params (some .pending)
  have old := enqueued_old e.scheduler time state params (some .pending)
  have tracked := enqueued_tracked e.scheduler now time later invariant.tracked room state params
  refine ⟨tracked.queues, invariant.alive, ?_, tracked.futures, tracked.left, ?_⟩
  · intro ref inside
    dsimp only
    change ref ∈ e.scheduler.active ++ (e.scheduler.pending ++ [e.scheduler.fresh]) at inside
    rw [← List.append_assoc, List.mem_append, List.mem_singleton] at inside
    rcases inside with before | rfl
    · rw [old ref (Nat.ne_of_lt (invariant.queues.alive ref before))]
      exact invariant.running ref before
    · rw [new]
      exact unfinished
  · intro ref inside
    dsimp only
    by_cases same : ref = e.scheduler.fresh
    · rw [same, new]
      intro value impossible
      cases impossible
    · rw [old ref same]
      exact invariant.answered ref (Nat.lt_of_le_of_ne (Nat.le_of_lt_succ inside) same)

theorem submit_invariant (later : now ≤ time) (invariant : EngineInvariant loaded.tokenizer e now)
    (promptIds : List Token) (params : SamplingParams) :
    EngineInvariant loaded.tokenizer (e.submit loaded time full promptIds params) time := by
  have unchanged := waited_invariant e now time loaded.tokenizer later invariant e.loop e.shutdown invariant.alive
  rw [Engine.submit]
  split
  · exact unchanged
  · rename_i state made
    by_cases full : e.scheduler.maxWaiting ≤ e.scheduler.pending.length
    · rw [admit_full _ _ _ _ _ full]
      exact unchanged
    · have room : e.scheduler.pending.length < e.scheduler.maxWaiting := by omega
      rw [admit_room _ _ _ _ _ room]
      obtain ⟨row, _⟩ := initial_row loaded.maskId _ params state promptIds rfl made
      exact enqueued_invariant loaded e now time later invariant room state params
        ⟨initial_shaped _ params loaded.maskId state made, by rw [row]; exact List.cons_ne_nil _ _,
          initial_running loaded.maskId _ params state made⟩

end Preserved

end Dlmserve
