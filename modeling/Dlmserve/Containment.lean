import Dlmserve.EngineDevice

set_option autoImplicit false

namespace Dlmserve

section Reach

variable {V : Type} (torch : Torch V) (loaded : LoadedModel V) (e : Engine) (now time : ℚ) (fails : Bool) (draw : Draw V)

theorem iteration_tracked (later : now ≤ time) (tracked : Tracked e.scheduler now) (after : Engine)
    (iteration : Iteration torch loaded e time fails draw after) : Tracked after.scheduler time := by
  have pool := promote_tracked e.scheduler now time later tracked
  cases iteration with
  | quiet loop s none_run kept stays =>
      rcases kept with rfl | rfl
      · exact waited_tracked e.scheduler now time later tracked
      · exact pool
  | failed key good chosen none_made busy =>
      apply retire_tracked _ time (e.batch time) Request.failed pool (fun req => (failed_keeps req).1)
        (fun req => (failed_keeps req).2) (fun ref member => good.fifo.subset member)
      intro ref member
      exact failed_closes _ (pool.futures ref ((batch_alive e now time later tracked.queues key good).2 ref member))
  | stepped key states good chosen made busy s raised completed =>
      have same := set_states_queues e.scheduler.promotePending (e.batch time) states
      have moved := set_states_tracked _ time pool (e.batch time) states
      have finished := finish_batch_tracked _ time loaded.tokenizer moved (e.batch time)
        (batch_alive e now time later tracked.queues key good).1 fun ref member => by
          rw [same.active]
          exact good.fifo.subset member
      rwa [completed] at finished

theorem iterate_tracked (later : now ≤ time) (tracked : Tracked e.scheduler now) :
    Tracked (e.iterate torch loaded time fails draw).scheduler time :=
  iteration_tracked torch loaded e now time fails draw later tracked _
    (iterate_iteration torch loaded e now time fails draw later tracked.queues)

theorem act_tracked (r r' : EngineRun) (a : ℚ × EngineAction V) (tracked : Tracked r.engine.scheduler r.now)
    (step : EngineStep torch loaded r a r') : Tracked r'.engine.scheduler r'.now := by
  obtain ⟨later, rfl⟩ := step
  obtain ⟨time, action⟩ := a
  cases action with
  | submit full promptIds params => exact submit_tracked r.now time loaded r.engine later tracked promptIds params
  | iterate fails draw => exact iterate_tracked torch loaded r.engine r.now time fails draw later tracked
  | cancel ref => exact cancel_tracked r.engine.scheduler r.now time later tracked ref
  | shutdown => exact waited_tracked r.engine.scheduler r.now time later tracked

theorem reachable_tracked (maxBatch maxWaiting : Nat) (r : EngineRun)
    (reach : Transition.Reachable (InitialEngine maxBatch maxWaiting) (EngineStep torch loaded) r) :
    Tracked r.engine.scheduler r.now := by
  apply Transition.reachable_invariant _ (fun r => Tracked r.engine.scheduler r.now) r reach
  · rintro r ⟨unused, now, rfl⟩
    exact initial_tracked now maxBatch maxWaiting unused
  · exact fun r a r' tracked step => act_tracked torch loaded r r' a tracked step

end Reach

section Contained

variable {V : Type} (torch : Torch V) (loaded : LoadedModel V) (e : Engine) (now time : ℚ) (fails : Bool) (draw : Draw V)

def SteppedTo (ref : Nat) (state : DenoiseState) : Prop :=
  ∃ states, e.stepped torch loaded time fails draw = some states ∧ states[(e.batch time).idxOf ref]? = some state

def Resolved (after : Engine) (ref : Nat) : Prop :=
  ref ∉ after.scheduler.active ∧ ∃ future, (after.scheduler.objects ref).future = some future ∧ future.done = true

-- A failure in the round stays in the round: the loop goes on, what failed is
-- resolved, what finished is answered and the rest is not touched.
structure Contained (after : Engine) : Prop where
  goesOn : after.loop = .running
  failedStep : e.stepped torch loaded time fails draw = none → ∀ ref ∈ e.batch time, Resolved after ref
  failedOutput : ∀ ref ∈ e.batch time, ∀ state, SteppedTo torch loaded e time fails draw ref state → state.done = true →
    loaded.tokenizer.makeOutput state = none → Resolved after ref
  finished : ∀ ref ∈ e.batch time, ∀ state output, SteppedTo torch loaded e time fails draw ref state → state.done = true →
    loaded.tokenizer.makeOutput state = some output → Resolved after ref ∧
      (e.scheduler.awaited ref = true → (after.scheduler.objects ref).future = some (.result (some output)))
  others : ∀ ref, ref ∉ e.batch time → after.scheduler.objects ref = e.scheduler.objects ref
  places : after.scheduler.pending = e.scheduler.promotePending.pending ∧
    after.scheduler.active.filter (· ∉ e.batch time) = e.scheduler.promotePending.active.filter (· ∉ e.batch time)

theorem retire_places (s : Scheduler) (leaving batch : List Nat) (change : Request → Request)
    (inside : ∀ ref ∈ leaving, ref ∈ batch) :
    (retire s leaving change).pending = s.pending ∧
      (retire s leaving change).active.filter (· ∉ batch) = s.active.filter (· ∉ batch) := by
  refine ⟨rfl, ?_⟩
  rw [retire, List.filter_filter]
  apply List.filter_congr
  intro ref _
  by_cases member : ref ∈ batch
  · simp [member]
  · have staying : ref ∉ leaving := fun leaves => member (inside ref leaves)
    simp [member, staying]

theorem stepped_to_unique (ref : Nat) (states : List DenoiseState) (state : DenoiseState)
    (made : e.stepped torch loaded time fails draw = some states) (moved : SteppedTo torch loaded e time fails draw ref state) :
    states[(e.batch time).idxOf ref]? = some state := by
  obtain ⟨states', made', read⟩ := moved
  rwa [Option.some.inj (made.symm.trans made')]

theorem failed_contained (later : now ≤ time) (tracked : Tracked e.scheduler now) (key : GroupKey)
    (good : GoodBatch e.scheduler.promotePending (e.batch time) key)
    (none_made : e.stepped torch loaded time fails draw = none) :
    Contained torch loaded e time fails draw
      { e with scheduler := retire e.scheduler.promotePending (e.batch time) Request.failed, loop := .running } := by
  have pool := promote_tracked e.scheduler now time later tracked
  have unstepped (ref : Nat) (state : DenoiseState) : ¬ SteppedTo torch loaded e time fails draw ref state := by
    rintro ⟨states, made, _⟩
    rw [none_made] at made
    cases made
  refine ⟨rfl, ?_, fun ref _ state moved => absurd moved (unstepped ref state),
    fun ref _ state _ moved => absurd moved (unstepped ref state),
    ?_, retire_places _ _ _ _ fun _ member => member⟩
  · intro _ ref member
    have alive := (batch_alive e now time later tracked.queues key good).2 ref member
    obtain ⟨settled, some_future⟩ := failed_closes _ (pool.futures ref alive)
    refine ⟨fun active => of_decide_eq_true (List.mem_filter.mp active).2 member, ?_⟩
    dsimp only
    rw [retire_leaving _ _ _ ref member]
    exact settled_done _ some_future settled
  · intro ref absent
    dsimp only
    rw [retire_staying _ _ _ ref absent, promote_objects]

theorem stepped_contained (later : now ≤ time) (tracked : Tracked e.scheduler now) (key : GroupKey)
    (good : GoodBatch e.scheduler.promotePending (e.batch time) key) (states : List DenoiseState)
    (made : e.stepped torch loaded time fails draw = some states)
    (outputs : ¬ OutputRaises torch loaded e time fails draw) :
    Contained torch loaded e time fails draw { e with
      scheduler := settle loaded.tokenizer (e.scheduler.promotePending.setStates (e.batch time) states) (e.batch time)
      loop := .running } := by
  have pool := promote_tracked e.scheduler now time later tracked
  have same := set_states_queues e.scheduler.promotePending (e.batch time) states
  obtain ⟨distinct, alive⟩ := batch_alive e now time later tracked.queues key good
  refine ⟨rfl, ?_, ?_, ?_, ?_, ?_⟩
  · intro none_made
    rw [made] at none_made
    cases none_made
  · intro ref member state moved done raises
    exact absurd ⟨states, ref, state, made, member, stepped_to_unique torch loaded e time fails draw ref states state made moved,
      done, raises⟩ outputs
  · intro ref member state output moved done answered
    have read := stepped_to_unique torch loaded e time fails draw ref states state made moved
    obtain ⟨state', _, read', object⟩ := stepped_state torch loaded e time fails draw states made ref member distinct
      e.scheduler.promotePending (promote_objects _)
    obtain rfl := Option.some.inj (read.symm.trans read')
    have after := settle_member loaded.tokenizer e.scheduler.promotePending (e.batch time) states ref member _ object
    rw [if_pos done] at after
    have held := pool.futures ref (alive ref member)
    rw [promote_objects] at held
    obtain ⟨settled, some_future⟩ := finished_closes loaded.tokenizer { e.scheduler.objects ref with state := state } held
    refine ⟨⟨?_, ?_⟩, ?_⟩
    · intro active
      have leaves : ref ∈ (e.batch time).filter fun ref =>
          ((e.scheduler.promotePending.setStates (e.batch time) states).objects ref).state.done :=
        List.mem_filter.mpr ⟨member, by rw [object]; exact done⟩
      exact of_decide_eq_true (List.mem_filter.mp active).2 leaves
    · rw [after]
      exact settled_done _ some_future settled
    · intro awaited
      rw [after]
      rw [finished_future, answered]
      exact if_pos awaited
  · intro ref absent
    dsimp only
    rw [settle_other loaded.tokenizer _ _ states ref absent, promote_objects]
  · have places := retire_places (e.scheduler.promotePending.setStates (e.batch time) states)
      ((e.batch time).filter fun ref => ((e.scheduler.promotePending.setStates (e.batch time) states).objects ref).state.done)
      (e.batch time) (Request.finished loaded.tokenizer) fun ref member => List.mem_of_mem_filter member
    rw [same.pending, same.active] at places
    exact places

theorem round_contained (later : now ≤ time) (tracked : Tracked e.scheduler now) (after : Engine)
    (busy : e.batch time ≠ []) (outputs : ¬ OutputRaises torch loaded e time fails draw)
    (round : Round torch loaded e time fails draw after) : Contained torch loaded e time fails draw after := by
  cases round with
  | quiet loop s none_run kept stays => exact absurd none_run busy
  | failed key good chosen none_made _ => exact failed_contained torch loaded e now time fails draw later tracked key good none_made
  | stepped key states good chosen made _ =>
      exact stepped_contained torch loaded e now time fails draw later tracked key good states made outputs

theorem output_raises_crashes (later : now ≤ time) (queues : Queues e.scheduler now)
    (raises : OutputRaises torch loaded e time fails draw) :
    (e.iterate torch loaded time fails draw).loop = .crashed := by
  obtain ⟨states, ref, state, made, member, read, done, raised⟩ := raises
  have iteration := iterate_iteration torch loaded e now time fails draw later queues
  generalize e.iterate torch loaded time fails draw = after at iteration ⊢
  cases iteration with
  | quiet loop s none_run kept stays => exact absurd none_run (List.ne_nil_of_mem member)
  | failed key good chosen none_made busy =>
      rw [none_made] at made
      cases made
  | stepped key states' good chosen made' busy s broken completed =>
      obtain rfl := Option.some.inj (made.symm.trans made')
      obtain ⟨distinct, alive⟩ := batch_alive e now time later queues key good
      obtain ⟨state', _, read', object⟩ := stepped_state torch loaded e time fails draw states made ref member distinct
        e.scheduler.promotePending (promote_objects _)
      obtain rfl := Option.some.inj (read.symm.trans read')
      have same := set_states_queues e.scheduler.promotePending (e.batch time) states
      have valid := same_queues_valid _ _ time time same (le_refl time) (promote_valid e.scheduler now time later queues)
      obtain ⟨leaving, stops, result, finishes⟩ := finish_batch_retire loaded.tokenizer _ time valid (e.batch time) distinct
        (fun other inside => by rw [same.fresh]; exact alive other inside)
      obtain ⟨-, rfl⟩ := Prod.mk.inj (completed.symm.trans result)
      exact if_pos (finishes.raises.mpr ⟨ref, member, by rw [object]; exact done, by rw [object]; exact raised⟩)

end Contained

-- A round of the loop contains its failures exactly when no output of a request it
-- finishes raises: a failed forward step is always contained.
theorem failure_contained_iff {V : Type} (torch : Torch V) (loaded : LoadedModel V) (maxBatch maxWaiting : Nat)
    (r : EngineRun) (reach : Transition.Reachable (InitialEngine maxBatch maxWaiting) (EngineStep torch loaded) r)
    (time : ℚ) (later : r.now ≤ time) (fails : Bool) (draw : Draw V) (busy : r.engine.batch time ≠ []) :
    Contained torch loaded r.engine time fails draw (r.engine.iterate torch loaded time fails draw) ↔
      ¬ OutputRaises torch loaded r.engine time fails draw := by
  have tracked := reachable_tracked torch loaded maxBatch maxWaiting r reach
  constructor
  · intro contained raises
    have crashed := output_raises_crashes torch loaded r.engine r.now time fails draw later tracked.queues raises
    rw [contained.goesOn] at crashed
    cases crashed
  · intro outputs
    exact round_contained torch loaded r.engine r.now time fails draw later tracked _ busy outputs
      (iteration_round torch loaded r.engine r.now time fails draw later tracked.queues _ outputs
        (iterate_iteration torch loaded r.engine r.now time fails draw later tracked.queues))

def twoWaiting (loaded : LoadedModel Written) : EngineRun :=
  actsFrom writtenTorch loaded (idleEngine 2 2) [.submit .ample [1] tokenParams, .submit .ample [3, 4] tokenParams]

theorem failed_step_contained :
    Contained writtenTorch (writtenLoaded sameAnswer) (twoWaiting (writtenLoaded sameAnswer)).engine 2 true lowDraw
      ((twoWaiting (writtenLoaded sameAnswer)).engine.iterate writtenTorch (writtenLoaded sameAnswer) 2 true lowDraw) := by
  apply (failure_contained_iff writtenTorch (writtenLoaded sameAnswer) 2 2 (twoWaiting (writtenLoaded sameAnswer))
    (acts_reachable _ _ 2 2 _) 2 (by decide +kernel) true lowDraw (by decide +kernel)).mpr
  rintro ⟨states, _, _, made, _⟩
  cases made

-- A tokenizer that raises on the answer to the shorter prompt.
def fussyLoaded : LoadedModel Written where
  model := writtenModel fun p => (p + 1, 1 / 2)
  maskId := 9
  tokenizer :=
    { padTokenId := some 0
      eosTokenId := none
      batchDecode := fun rows => if rows = [[2]] then none else some (rows.map fun _ => "decoded") }

def fussyStates : List DenoiseState :=
  ((twoWaiting fussyLoaded).engine.stepped writtenTorch fussyLoaded 2 false lowDraw).getD []

-- Both requests finish in one round. The first output raises, the loop dies, and
-- neither request ever hears of it.
theorem output_failure_uncontained :
    (twoWaiting fussyLoaded).engine.batch 2 = [0, 1] ∧
      OutputRaises writtenTorch fussyLoaded (twoWaiting fussyLoaded).engine 2 false lowDraw ∧
      ((twoWaiting fussyLoaded).engine.iterate writtenTorch fussyLoaded 2 false lowDraw).loop = .crashed ∧
      (∀ ref ∈ [0, 1], (((twoWaiting fussyLoaded).engine.iterate writtenTorch fussyLoaded 2 false lowDraw).scheduler.objects
        ref).future = some .pending) ∧
      ¬ Contained writtenTorch fussyLoaded (twoWaiting fussyLoaded).engine 2 false lowDraw
        ((twoWaiting fussyLoaded).engine.iterate writtenTorch fussyLoaded 2 false lowDraw) := by
  have crashed : ((twoWaiting fussyLoaded).engine.iterate writtenTorch fussyLoaded 2 false lowDraw).loop = .crashed := by
    decide +kernel
  refine ⟨by decide +kernel, ?_, crashed, by decide +kernel, ?_⟩
  · refine ⟨fussyStates, 0, fussyStates.getD 0 (blockStart false 1), ?_, ?_, ?_, ?_, ?_⟩ <;> decide +kernel
  · intro contained
    rw [contained.goesOn] at crashed
    cases crashed

end Dlmserve
