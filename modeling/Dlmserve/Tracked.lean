import Dlmserve.EngineSpec

set_option autoImplicit false

namespace Dlmserve

variable {full : Full}

-- What the scheduler keeps even where the loop dies half way through a batch:
-- every request has a future, and those that left have had theirs resolved.
structure Tracked (s : Scheduler) (now : ℚ) : Prop where
  queues : Queues s now
  futures : ∀ ref < s.fresh, (s.objects ref).future ≠ none
  left : ∀ ref < s.fresh, ref ∉ s.active ++ s.pending → s.awaited ref = false

section Retired

variable (s : Scheduler) (time : ℚ) (leaving : List Nat) (change : Request → Request)

theorem retire_leaving (ref : Nat) (member : ref ∈ leaving) :
    (retire s leaving change).objects ref = change (s.objects ref) := if_pos member

theorem retire_staying (ref : Nat) (absent : ref ∉ leaving) :
    (retire s leaving change).objects ref = s.objects ref := if_neg absent

theorem retire_members (queues : Queues s time) (inside : ∀ ref ∈ leaving, ref ∈ s.active) (ref : Nat) :
    ref ∈ (retire s leaving change).active ++ (retire s leaving change).pending ↔
      ref ∈ s.active ++ s.pending ∧ ref ∉ leaving := by
  simp only [retire, List.mem_append, List.mem_filter, decide_not, Bool.not_eq_eq_eq_not, Bool.not_true,
    decide_eq_false_iff_not]
  constructor
  · rintro (⟨running, kept⟩ | waiting)
    · exact ⟨Or.inl running, kept⟩
    · refine ⟨Or.inr waiting, fun member => ?_⟩
      exact Nat.lt_irrefl ref ((List.pairwise_append.mp queues.order).2.2 ref (inside ref member) ref waiting)
  · rintro ⟨running | waiting, kept⟩
    · exact Or.inl ⟨running, kept⟩
    · exact Or.inr waiting

theorem retire_tracked (tracked : Tracked s time) (ids : ∀ req, (change req).reqId = req.reqId)
    (ages : ∀ req, (change req).admittedMs = req.admittedMs) (inside : ∀ ref ∈ leaving, ref ∈ s.active)
    (closes : ∀ ref ∈ leaving, (change (s.objects ref)).awaited = false ∧ (change (s.objects ref)).future ≠ none) :
    Tracked (retire s leaving change) time := by
  refine ⟨retire_valid s change time leaving tracked.queues ids ages, ?_, ?_⟩
  · intro ref alive
    by_cases member : ref ∈ leaving
    · rw [retire_leaving s leaving change ref member]
      exact (closes ref member).2
    · rw [retire_staying s leaving change ref member]
      exact tracked.futures ref alive
  · intro ref alive absent
    rw [awaited_eq]
    rw [retire_members s time leaving change tracked.queues inside ref, not_and] at absent
    by_cases member : ref ∈ leaving
    · rw [retire_leaving s leaving change ref member]
      exact (closes ref member).1
    · rw [retire_staying s leaving change ref member]
      exact tracked.left ref alive fun present => absent present member

end Retired

section Futures

theorem awaited_pending (req : Request) : req.awaited = true ↔ req.future = some .pending := by
  rw [Request.awaited]
  cases req.future with
  | none => simp
  | some future => cases future <;> simp [Future.done]

theorem resolved_future (req : Request) (future : Future) :
    (req.resolved future).future = if req.awaited then some future else req.future := by
  rw [Request.resolved]
  split <;> rfl

theorem failed_future (req : Request) :
    req.failed.future = if req.awaited then some (.exception Scheduler.stepFailed) else req.future :=
  resolved_future req _

theorem finished_future (tokenizer : Tokenizer) (req : Request) : (req.finished tokenizer).future =
    if req.awaited then some (.result (tokenizer.makeOutput req.state)) else req.future :=
  resolved_future { req with result := tokenizer.makeOutput req.state } _

theorem failed_state (req : Request) : req.failed.state = req.state := (resolved_keeps req _).2.2.1

theorem finished_state (tokenizer : Tokenizer) (req : Request) : (req.finished tokenizer).state = req.state :=
  (resolved_keeps { req with result := tokenizer.makeOutput req.state } _).2.2.1

theorem resolved_closes (req : Request) (future : Future) (some_future : req.future ≠ none) (settles : future.done = true) :
    (req.resolved future).awaited = false ∧ (req.resolved future).future ≠ none := by
  rw [Request.resolved]
  split
  · refine ⟨?_, Option.some_ne_none future⟩
    change (!future.done) = false
    rw [settles]
    rfl
  · rename_i settled
    exact ⟨by simpa using settled, some_future⟩

theorem failed_closes (req : Request) (some_future : req.future ≠ none) :
    req.failed.awaited = false ∧ req.failed.future ≠ none := resolved_closes req _ some_future rfl

theorem finished_closes (tokenizer : Tokenizer) (req : Request) (some_future : req.future ≠ none) :
    (req.finished tokenizer).awaited = false ∧ (req.finished tokenizer).future ≠ none :=
  resolved_closes { req with result := tokenizer.makeOutput req.state } _ some_future rfl

theorem settled_done (req : Request) (some_future : req.future ≠ none) (settled : req.awaited = false) :
    ∃ future, req.future = some future ∧ future.done = true := by
  obtain ⟨future, held⟩ := Option.ne_none_iff_exists'.mp some_future
  rw [Request.awaited, held] at settled
  exact ⟨future, held, by simpa using settled⟩

end Futures

section Operations

variable (s : Scheduler) (now time : ℚ)

theorem initial_tracked (maxBatch maxWaiting : Nat) (unused : Request) :
    Tracked (Scheduler.init maxBatch maxWaiting unused) now := by
  refine ⟨⟨?_, ?_, ?_, ?_, ?_, ?_, ?_, ?_⟩, ?_, ?_⟩ <;> simp [Scheduler.init]

theorem same_queues_tracked (s' : Scheduler) (same : SameQueues s s') (later : now ≤ time) (tracked : Tracked s now)
    (kept : ∀ ref, (s'.objects ref).future = (s.objects ref).future ∨
      ((s'.objects ref).awaited = false ∧ (s'.objects ref).future ≠ none)) : Tracked s' time := by
  refine ⟨same_queues_valid s s' now time same later tracked.queues, ?_, ?_⟩
  · intro ref alive
    rw [same.fresh] at alive
    rcases kept ref with future | ⟨_, held⟩
    · rw [future]
      exact tracked.futures ref alive
    · exact held
  · intro ref alive absent
    rw [same.fresh] at alive
    rw [same.active, same.pending] at absent
    rcases kept ref with future | ⟨settled, _⟩
    · rw [awaited_eq, Request.awaited, future]
      exact tracked.left ref alive absent
    · exact settled

theorem waited_tracked (later : now ≤ time) (tracked : Tracked s now) : Tracked s time :=
  same_queues_tracked s now time s (same_queues_refl s) later tracked fun _ => Or.inl rfl

theorem promote_tracked (later : now ≤ time) (tracked : Tracked s now) : Tracked s.promotePending time := by
  refine ⟨promote_valid s now time later tracked.queues, ?_, ?_⟩
  · intro ref alive
    rw [Scheduler.promote_eq] at alive ⊢
    exact tracked.futures ref alive
  · intro ref alive absent
    rw [Scheduler.promote_order] at absent
    rw [Scheduler.promote_eq] at alive ⊢
    exact tracked.left ref alive absent

theorem set_states_future (refs : List Nat) (states : List DenoiseState) (ref : Nat) :
    ((s.setStates refs states).objects ref).future = (s.objects ref).future := by
  induction refs generalizing s states with
  | nil => rfl
  | cons head refs ih =>
      cases states with
      | nil => rfl
      | cons state states =>
          rw [Scheduler.setStates, ih, Scheduler.set_state_object]
          split
          · rename_i same
            rw [same]
          · rfl

theorem set_states_tracked (tracked : Tracked s now) (refs : List Nat) (states : List DenoiseState) :
    Tracked (s.setStates refs states) now :=
  same_queues_tracked s now now _ (set_states_queues s refs states) (le_refl now) tracked fun ref =>
    Or.inl (set_states_future s refs states ref)

theorem finish_batch_tracked (tokenizer : Tokenizer) (tracked : Tracked s now) (batch : List Nat) (distinct : batch.Nodup)
    (inside : ∀ ref ∈ batch, ref ∈ s.active) : Tracked (s.finishBatch tokenizer batch).1 now := by
  have alive (ref : Nat) (member : ref ∈ batch) := tracked.queues.alive ref (List.mem_append_left _ (inside ref member))
  obtain ⟨leaving, raised, result, finishes⟩ := finish_batch_retire tokenizer s now tracked.queues batch distinct alive
  rw [result]
  apply retire_tracked s now leaving (Request.finished tokenizer) tracked (fun req => (finished_keeps tokenizer req).1)
    (fun req => (finished_keeps tokenizer req).2) (fun ref member => inside ref (finishes.inside ref member))
  intro ref member
  exact finished_closes tokenizer _ (tracked.futures ref (alive ref (finishes.inside ref member)))

theorem cancel_objects (ref : Nat) : (s.cancel ref).objects =
    fun r => if r = ref then (s.objects r).resolved .cancelled else s.objects r := by
  rw [Scheduler.cancel]
  split
  · rename_i awaited
    exact set_future_eq s ref .cancelled awaited
  · rename_i settled
    funext r
    split
    · rename_i same
      rw [same, resolved_settled _ _ (by simpa [awaited_eq] using settled)]
    · rfl

theorem cancel_queues (ref : Nat) : SameQueues s (s.cancel ref) := by
  rw [Scheduler.cancel]
  split
  · exact Scheduler.set_future_queues s ref .cancelled
  · exact same_queues_refl s

theorem cancel_tracked (later : now ≤ time) (tracked : Tracked s now) (ref : Nat) : Tracked (s.cancel ref) time := by
  apply same_queues_tracked s now time (s.cancel ref) (cancel_queues s ref) later tracked
  intro other
  rw [cancel_objects]
  dsimp only
  split
  · rw [Request.resolved]
    split
    · exact Or.inr ⟨rfl, Option.some_ne_none _⟩
    · exact Or.inl rfl
  · exact Or.inl rfl

theorem enqueued_tracked (later : now ≤ time) (tracked : Tracked s now) (room : s.pending.length < s.maxWaiting)
    (state : DenoiseState) (params : SamplingParams) : Tracked (enqueued s time state params (some .pending)) time := by
  have new := enqueued_new s time state params (some .pending)
  have old := enqueued_old s time state params (some .pending)
  refine ⟨enqueued_valid s time state params (some .pending) now later room tracked.queues, ?_, ?_⟩
  · intro ref alive
    by_cases same : ref = s.fresh
    · rw [same, new]
      exact Option.some_ne_none _
    · rw [old ref same]
      exact tracked.futures ref (Nat.lt_of_le_of_ne (Nat.le_of_lt_succ alive) same)
  · intro ref alive absent
    by_cases same : ref = s.fresh
    · apply absurd _ absent
      change ref ∈ s.active ++ (s.pending ++ [s.fresh])
      rw [same, ← List.append_assoc]
      exact List.mem_append_right _ (List.mem_singleton_self _)
    · rw [awaited_eq, old ref same]
      apply tracked.left ref (Nat.lt_of_le_of_ne (Nat.le_of_lt_succ alive) same)
      intro present
      apply absent
      change ref ∈ s.active ++ (s.pending ++ [s.fresh])
      rw [← List.append_assoc]
      exact List.mem_append_left _ present

theorem submit_tracked {V : Type} (loaded : LoadedModel V) (e : Engine) (later : now ≤ time)
    (tracked : Tracked e.scheduler now) (promptIds : List Token) (params : SamplingParams) :
    Tracked (e.submit loaded time full promptIds params).scheduler time := by
  have unchanged := waited_tracked e.scheduler now time later tracked
  rw [Engine.submit]
  split
  · exact unchanged
  · rename_i state _
    by_cases full : e.scheduler.maxWaiting ≤ e.scheduler.pending.length
    · rw [admit_full _ _ _ _ _ full]
      exact unchanged
    · have room : e.scheduler.pending.length < e.scheduler.maxWaiting := by omega
      rw [admit_room _ _ _ _ _ room]
      exact enqueued_tracked e.scheduler now time later tracked room state params

end Operations

end Dlmserve
