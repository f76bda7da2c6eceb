import Dlmserve.EngineReach

set_option autoImplicit false

namespace Dlmserve

variable {full : Full}

section Frame

def Paced (req : Request) : Prop :=
  req.params.numDenoisingSteps = req.state.genLength / req.state.blockLength * req.state.stepsPerBlock

-- What every action keeps of the requests admitted before it.
structure Follows (s s' : Scheduler) : Prop where
  maxBatch : s'.maxBatch = s.maxBatch
  fresh : s.fresh ≤ s'.fresh
  admittedMs : ∀ ref < s.fresh, (s'.objects ref).admittedMs = (s.objects ref).admittedMs
  params : ∀ ref < s.fresh, (s'.objects ref).params = (s.objects ref).params
  same : ∀ ref < s.fresh, SameRequest (s.objects ref).state (s'.objects ref).state
  index : ∀ ref < s.fresh, (s.objects ref).stepIdx ≤ (s'.objects ref).stepIdx
  queued : ∀ ref < s.fresh, ref ∈ s'.active ++ s'.pending → ref ∈ s.active ++ s.pending
  opened : ∀ ref, s.fresh ≤ ref → ref < s'.fresh → Paced (s'.objects ref)

theorem follows_refl (s : Scheduler) : Follows s s :=
  ⟨rfl, le_refl _, fun _ _ => rfl, fun _ _ => rfl, fun _ _ => same_request_refl _, fun _ _ => le_refl _,
    fun _ _ => id, fun ref old new => absurd (Nat.lt_of_lt_of_le new old) (Nat.lt_irrefl ref)⟩

theorem initial_paced (prompt : Prompt) (params : SamplingParams) (mask : Token) (state : DenoiseState)
    (made : initState full prompt params mask = .ok state) :
    params.numDenoisingSteps = state.genLength / state.blockLength * state.stepsPerBlock := by
  obtain ⟨numBlocks, blockLength, stepsPerBlock, accepted, rfl⟩ := init_state_ok prompt params mask state made
  simp only [initialState]
  rw [accepted.blocks, Nat.mul_div_cancel _ accepted.lengthPos]
  exact accepted.steps

variable {V : Type} (torch : Torch V) (loaded : LoadedModel V) (e : Engine) (now time : ℚ) (fails : Bool) (draw : Draw V)

theorem submit_follows (promptIds : List Token) (params : SamplingParams) :
    Follows e.scheduler (e.submit loaded time full promptIds params).scheduler := by
  rw [Engine.submit]
  split
  · exact follows_refl e.scheduler
  · rename_i state made
    by_cases full : e.scheduler.maxWaiting ≤ e.scheduler.pending.length
    · rw [admit_full _ _ _ _ _ full]
      exact follows_refl e.scheduler
    · rw [admit_room _ _ _ _ _ (by omega)]
      have old (ref : Nat) (alive : ref < e.scheduler.fresh) :=
        enqueued_old e.scheduler time state params (some .pending) ref (Nat.ne_of_lt alive)
      refine ⟨rfl, Nat.le_succ _, fun ref alive => by rw [old ref alive], fun ref alive => by rw [old ref alive],
        fun ref alive => by rw [old ref alive]; exact same_request_refl _, fun ref alive => by rw [old ref alive], ?_, ?_⟩
      · intro ref alive member
        change ref ∈ e.scheduler.active ++ (e.scheduler.pending ++ [e.scheduler.fresh]) at member
        rw [← List.append_assoc, List.mem_append, List.mem_singleton] at member
        rcases member with before | new
        · exact before
        · omega
      · intro ref old_bound new_bound
        change ref < e.scheduler.fresh + 1 at new_bound
        obtain rfl : ref = e.scheduler.fresh := by omega
        dsimp only
        rw [enqueued_new]
        exact initial_paced _ params loaded.maskId state made

theorem settle_queued (later : now ≤ time) (invariant : EngineInvariant loaded.tokenizer e now)
    (inside : ∀ ref ∈ e.batch time, ref ∈ e.scheduler.promotePending.active) (states : List DenoiseState) (ref : Nat) :
    ref ∈ (settle loaded.tokenizer (e.scheduler.promotePending.setStates (e.batch time) states) (e.batch time)).active ++
      (settle loaded.tokenizer (e.scheduler.promotePending.setStates (e.batch time) states) (e.batch time)).pending ↔
      ref ∈ e.scheduler.active ++ e.scheduler.pending ∧ (ref ∈ e.batch time →
        ((settle loaded.tokenizer (e.scheduler.promotePending.setStates (e.batch time) states)
          (e.batch time)).objects ref).state.done = false) := by
  have same := set_states_queues e.scheduler.promotePending (e.batch time) states
  have valid := same_queues_valid _ _ time time same (le_refl time) (promote_valid e.scheduler now time later invariant.queues)
  have members := retire_members (e.scheduler.promotePending.setStates (e.batch time) states) time
    ((e.batch time).filter fun r =>
      ((e.scheduler.promotePending.setStates (e.batch time) states).objects r).state.done)
    (Request.finished loaded.tokenizer) valid (fun r run => by
      rw [same.active]
      exact inside r (List.mem_of_mem_filter run)) ref
  rw [same.active, same.pending, Scheduler.promote_order] at members
  refine members.trans (and_congr_right fun _ => ?_)
  rw [List.mem_filter, not_and]
  apply forall_congr'
  intro run
  have state : ((settle loaded.tokenizer (e.scheduler.promotePending.setStates (e.batch time) states)
      (e.batch time)).objects ref).state =
      ((e.scheduler.promotePending.setStates (e.batch time) states).objects ref).state := by
    rw [settle_member loaded.tokenizer _ (e.batch time) states ref run _ rfl]
    split
    · exact finished_state loaded.tokenizer _
    · rfl
  rw [state, Bool.not_eq_true]

theorem iterate_queued (later : now ≤ time) (decodes : Decodes loaded.tokenizer)
    (invariant : EngineInvariant loaded.tokenizer e now) :
    (e.iterate torch loaded time fails draw).scheduler.maxBatch = e.scheduler.maxBatch ∧
      (e.iterate torch loaded time fails draw).scheduler.maxWaiting = e.scheduler.maxWaiting ∧
      (e.iterate torch loaded time fails draw).scheduler.fresh = e.scheduler.fresh ∧
      ∀ ref, ref ∈ (e.iterate torch loaded time fails draw).scheduler.active ++
        (e.iterate torch loaded time fails draw).scheduler.pending ↔
        ref ∈ e.scheduler.active ++ e.scheduler.pending ∧
          (ref ∈ e.batch time → e.stepped torch loaded time fails draw ≠ none ∧
            ((e.iterate torch loaded time fails draw).scheduler.objects ref).state.done = false) := by
  have pool := promote_valid e.scheduler now time later invariant.queues
  have order := Scheduler.promote_order e.scheduler
  have promoted : e.scheduler.promotePending.maxBatch = e.scheduler.maxBatch ∧
      e.scheduler.promotePending.maxWaiting = e.scheduler.maxWaiting ∧
      e.scheduler.promotePending.fresh = e.scheduler.fresh := by
    rw [Scheduler.promote_eq]
    exact ⟨rfl, rfl, rfl⟩
  obtain ⟨batches, waits, fresh⟩ := promoted
  have round := iterate_round torch loaded e now time fails draw decodes later invariant
  generalize e.iterate torch loaded time fails draw = after at round ⊢
  cases round with
  | quiet loop s none_run kept stays =>
      have silent (ref : Nat) : ref ∉ e.batch time := by
        rw [none_run]
        exact List.not_mem_nil
      rcases kept with rfl | rfl
      · exact ⟨rfl, rfl, rfl, fun ref => ⟨fun member => ⟨member, fun run => absurd run (silent ref)⟩, And.left⟩⟩
      · refine ⟨batches, waits, fresh, fun ref => ?_⟩
        dsimp only
        rw [order]
        exact ⟨fun member => ⟨member, fun run => absurd run (silent ref)⟩, And.left⟩
  | failed key good chosen none_made busy =>
      refine ⟨batches, waits, fresh, fun ref => ?_⟩
      dsimp only
      rw [retire_members _ time (e.batch time) Request.failed pool (fun r run => good.fifo.subset run) ref, order]
      exact and_congr_right fun _ => ⟨fun kept run => absurd run kept, fun kept run => (kept run).1 none_made⟩
  | stepped key states good chosen made busy =>
      have same := set_states_queues e.scheduler.promotePending (e.batch time) states
      refine ⟨same.maxBatch.trans batches, same.maxWaiting.trans waits, same.fresh.trans fresh, fun ref => ?_⟩
      refine (settle_queued loaded e now time later invariant (fun r run => good.fifo.subset run) states ref).trans ?_
      rw [made]
      exact and_congr_right fun _ => forall_congr' fun _ => (and_iff_right (Option.some_ne_none _)).symm

theorem batch_queued (later : now ≤ time) (invariant : EngineInvariant loaded.tokenizer e now) (ref : Nat)
    (member : ref ∈ e.batch time) : ref ∈ e.scheduler.active ++ e.scheduler.pending := by
  rw [Engine.batch] at member
  split at member
  · have running := schedule_member e.scheduler now time later invariant.queues ref member
    rw [← Scheduler.promote_order]
    exact List.mem_append_left _ running
  · cases member

theorem request_moved (ref : Nat) (later : now ≤ time) (decodes : Decodes loaded.tokenizer)
    (invariant : EngineInvariant loaded.tokenizer e now) :
    ((e.iterate torch loaded time fails draw).scheduler.objects ref).admittedMs = (e.scheduler.objects ref).admittedMs ∧
      ((e.iterate torch loaded time fails draw).scheduler.objects ref).params = (e.scheduler.objects ref).params ∧
      SameRequest (e.scheduler.objects ref).state
        ((e.iterate torch loaded time fails draw).scheduler.objects ref).state ∧
      (e.scheduler.objects ref).stepIdx ≤
        ((e.iterate torch loaded time fails draw).scheduler.objects ref).stepIdx ∧
      (ref ∈ e.batch time → e.stepped torch loaded time fails draw ≠ none → (e.scheduler.objects ref).stepIdx <
        ((e.iterate torch loaded time fails draw).scheduler.objects ref).stepIdx) := by
  rcases iterate_object torch loaded e now time fails draw later decodes invariant ref with
    ⟨absent, object⟩ | ⟨member, none_made, object⟩ | ⟨states, state', member, made, read, moved, object⟩
  · rw [object]
    exact ⟨rfl, rfl, same_request_refl _, le_refl _, fun member => absurd member absent⟩
  · obtain ⟨_, age, state, params⟩ := resolved_keeps (e.scheduler.objects ref) (.exception Scheduler.stepFailed)
    rw [object, Request.failed, Request.stepIdx, Request.stepIdx, age, state, params]
    exact ⟨rfl, rfl, same_request_refl _, le_refl _, fun _ made => absurd none_made made⟩
  · have shaped := (invariant.running ref (batch_queued loaded e now time later invariant ref member)).1
    obtain ⟨params0, step⟩ := moves_state torch loaded e time draw _ state' moved
    have same := state_step_keeps torch loaded.model loaded.maskId loaded.padTokenId draw params0 _ state' step
    have further := step_idx_increases torch loaded.model loaded.maskId loaded.padTokenId draw params0 _ state' step shaped
    have kept : ((e.iterate torch loaded time fails draw).scheduler.objects ref).admittedMs =
        (e.scheduler.objects ref).admittedMs ∧
        ((e.iterate torch loaded time fails draw).scheduler.objects ref).params = (e.scheduler.objects ref).params ∧
        ((e.iterate torch loaded time fails draw).scheduler.objects ref).state = state' := by
      rw [object]
      split
      · obtain ⟨_, age, state, params⟩ := resolved_keeps
          { e.scheduler.objects ref with state := state', result := loaded.tokenizer.makeOutput state' }
          (.result (loaded.tokenizer.makeOutput state'))
        exact ⟨age, params, state⟩
      · exact ⟨rfl, rfl, rfl⟩
    obtain ⟨age, params, state⟩ := kept
    rw [age, params, Request.stepIdx, Request.stepIdx, state]
    exact ⟨rfl, rfl, same, Nat.le_of_lt further, fun _ _ => further⟩

theorem act_follows (action : EngineAction V) (later : now ≤ time) (decodes : Decodes loaded.tokenizer)
    (invariant : EngineInvariant loaded.tokenizer e now) :
    Follows e.scheduler (e.act torch loaded time action).scheduler := by
  cases action with
  | submit full promptIds params => exact submit_follows loaded e time promptIds params
  | shutdown => exact follows_refl e.scheduler
  | cancel ref =>
      have same := cancel_queues e.scheduler ref
      have kept (other : Nat) := cancel_keeps e.scheduler ref other
      refine ⟨same.maxBatch, le_of_eq same.fresh.symm, fun other _ => same.admittedMs other, fun other _ => (kept other).1, ?_,
        ?_, ?_, ?_⟩
      · intro other _
        change SameRequest _ ((e.scheduler.cancel ref).objects other).state
        rw [(kept other).2]
        exact same_request_refl _
      · intro other _
        change _ ≤ stepIdx ((e.scheduler.cancel ref).objects other).state
        rw [(kept other).2]
        exact le_refl _
      · intro other _ member
        change other ∈ (e.scheduler.cancel ref).active ++ (e.scheduler.cancel ref).pending at member
        rwa [same.active, same.pending] at member
      · intro other old new
        exact absurd (Nat.lt_of_lt_of_eq new same.fresh) (Nat.not_lt.mpr old)
  | iterate fails draw =>
      obtain ⟨batches, _, fresh, queued⟩ := iterate_queued torch loaded e now time fails draw later decodes invariant
      have moved (ref : Nat) := request_moved torch loaded e now time fails draw ref later decodes invariant
      exact ⟨batches, le_of_eq fresh.symm, fun ref _ => (moved ref).1, fun ref _ => (moved ref).2.1,
        fun ref _ => (moved ref).2.2.1, fun ref _ => (moved ref).2.2.2.1, fun ref _ member => ((queued ref).mp member).1,
        fun ref old new => absurd (Nat.lt_of_lt_of_eq new fresh) (Nat.not_lt.mpr old)⟩

end Frame

end Dlmserve
