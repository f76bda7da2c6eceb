import Dlmserve.Engine
import Dlmserve.SchedulerInvariant
import Dlmserve.Runs

set_option autoImplicit false

namespace Dlmserve

def retire (s : Scheduler) (leaving : List Nat) (change : Request → Request) : Scheduler :=
  { s with
    active := s.active.filter (· ∉ leaving)
    objects := fun ref => if ref ∈ leaving then change (s.objects ref) else s.objects ref }

def Request.awaited (req : Request) : Bool :=
  match req.future with
  | some future => !future.done
  | none => false

def Request.resolved (req : Request) (future : Future) : Request :=
  if req.awaited then { req with future := some future } else req

def Request.failed (req : Request) : Request := req.resolved (.exception Scheduler.stepFailed)

def Request.finished (tokenizer : Tokenizer) (req : Request) : Request :=
  { req with result := tokenizer.makeOutput req.state }.resolved (.result (tokenizer.makeOutput req.state))

section Retire

variable (s : Scheduler) (change : Request → Request)

theorem retire_nil : retire s [] change = s := by
  rw [retire]
  simp

theorem retire_append (first second : List Nat) (disjoint : ∀ ref ∈ first, ref ∉ second) :
    retire (retire s first change) second change = retire s (first ++ second) change := by
  simp only [retire, List.filter_filter, Scheduler.mk.injEq, true_and, and_true]
  refine ⟨?_, ?_⟩
  · apply List.filter_congr
    intro ref _
    by_cases early : ref ∈ first <;> by_cases late : ref ∈ second <;> simp [early, late]
  · funext ref
    by_cases early : ref ∈ first
    · simp [early, disjoint ref early]
    · by_cases late : ref ∈ second <;> simp [early, late]

theorem retire_valid (now : ℚ) (leaving : List Nat) (queues : Queues s now)
    (ids : ∀ req, (change req).reqId = req.reqId) (ages : ∀ req, (change req).admittedMs = req.admittedMs) :
    Queues (retire s leaving change) now := by
  have kept : ((s.active.filter (· ∉ leaving)) ++ s.pending).Sublist (s.active ++ s.pending) :=
    List.Sublist.append List.filter_sublist (List.Sublist.refl _)
  have same_id (ref : Nat) : ((retire s leaving change).objects ref).reqId = (s.objects ref).reqId := by
    rw [retire]
    dsimp only
    split
    · exact ids _
    · rfl
  have same_age (ref : Nat) : ((retire s leaving change).objects ref).admittedMs = (s.objects ref).admittedMs := by
    rw [retire]
    dsimp only
    split
    · exact ages _
    · rfl
  refine ⟨queues.pendingBound, (List.length_filter_le _ _).trans queues.activeBound, queues.order.sublist kept,
    fun other member => queues.alive other (kept.subset member), queues.counted, ?_, ?_, ?_⟩
  · intro ref inside
    rw [same_id]
    exact queues.ids ref inside
  · intro ref inside
    rw [same_age]
    exact queues.clock ref inside
  · intro a b ordered inside
    rw [same_age, same_age]
    exact queues.aged a b ordered inside

end Retire

section Failed

variable (s : Scheduler) (now : ℚ)

theorem awaited_eq (ref : Nat) : s.awaited ref = (s.objects ref).awaited := rfl

theorem resolved_keeps (req : Request) (future : Future) :
    (req.resolved future).reqId = req.reqId ∧ (req.resolved future).admittedMs = req.admittedMs ∧
      (req.resolved future).state = req.state ∧ (req.resolved future).params = req.params := by
  rw [Request.resolved]
  split <;> exact ⟨rfl, rfl, rfl, rfl⟩

theorem set_future_eq (ref : Nat) (future : Future) (awaited : s.awaited ref = true) :
    (s.setFuture ref future).objects = fun r => if r = ref then (s.objects r).resolved future else s.objects r := by
  funext r
  rw [Scheduler.set_future_object]
  split
  · rename_i same
    rw [same, Request.resolved, ← awaited_eq, if_pos awaited]
  · rfl

theorem resolve_objects (ref : Nat) : (s.resolve ref).objects =
    fun r => if r = ref then (s.objects r).resolved (.result (s.objects r).result) else s.objects r := by
  rw [Scheduler.resolve]
  split
  · rename_i awaited
    rw [set_future_eq s ref _ awaited]
    funext r
    split
    · rename_i same
      rw [same]
    · rfl
  · rename_i settled
    funext r
    split
    · rename_i same
      rw [same, Request.resolved, ← awaited_eq, if_neg settled]
    · rfl

theorem complete_retire (queues : Queues s now) (ref : Nat) (alive : ref < s.fresh) :
    s.complete ref = .ok (retire s [ref] fun req => req.resolved (.result req.result)) := by
  rw [complete_valid_eq s now queues ref alive]
  have same := Scheduler.resolve_queues { s with active := s.active.filter (· ≠ ref) } ref
  have objects := resolve_objects { s with active := s.active.filter (· ≠ ref) } ref
  congr 1
  cases shape : Scheduler.resolve { s with active := s.active.filter (· ≠ ref) } ref
  rw [shape] at same objects
  obtain ⟨maxBatch, maxWaiting, pending, active, nextId, fresh, _, _⟩ := same
  simp only at maxBatch maxWaiting pending active nextId fresh objects
  simp only [retire, maxBatch, maxWaiting, pending, active, nextId, fresh, objects, List.mem_singleton, ne_eq]

theorem retire_touched (ref : Nat) (touched : Request) (change total : Request → Request)
    (same : change touched = total (s.objects ref)) :
    retire { s with objects := Function.update s.objects ref touched } [ref] change = retire s [ref] total := by
  simp only [retire, Scheduler.mk.injEq, true_and, and_true, List.mem_singleton]
  funext r
  by_cases equal : r = ref
  · subst equal
    rw [if_pos rfl, if_pos rfl, Function.update_self, same]
  · rw [if_neg equal, if_neg equal, Function.update_of_ne equal]

theorem retire_congr (leaving : List Nat) (change total : Request → Request)
    (same : ∀ ref ∈ leaving, change (s.objects ref) = total (s.objects ref)) :
    retire s leaving change = retire s leaving total := by
  simp only [retire, Scheduler.mk.injEq, true_and, and_true]
  funext r
  split
  · rename_i member
    exact same r member
  · rfl

theorem touched_valid (queues : Queues s now) (ref : Nat) (touched : Request)
    (id : touched.reqId = (s.objects ref).reqId) (age : touched.admittedMs = (s.objects ref).admittedMs) :
    Queues { s with objects := Function.update s.objects ref touched } now := by
  apply same_queues_valid s _ now now _ (le_refl now) queues
  refine ⟨rfl, rfl, rfl, rfl, rfl, rfl, ?_, ?_⟩
  all_goals
    intro other
    dsimp only
    rw [Function.update_apply]
    split
    · rename_i same
      rw [same]
      assumption
    · rfl

theorem resolved_settled (req : Request) (future : Future) (settled : req.awaited = false) : req.resolved future = req := by
  rw [Request.resolved, settled]
  rfl

theorem fail_request_eq (queues : Queues s now) (ref : Nat) (alive : ref < s.fresh) :
    s.failRequest ref = retire s [ref] Request.failed := by
  rw [Scheduler.failRequest]
  by_cases awaited : s.awaited ref = true
  · have valid := touched_valid s now queues ref
      { s.objects ref with future := some (.exception Scheduler.stepFailed) } rfl rfl
    rw [if_pos awaited, Scheduler.setFuture]
    dsimp only
    rw [complete_retire _ now valid ref alive]
    apply retire_touched
    rw [resolved_settled _ _ rfl, Request.failed, Request.resolved, ← awaited_eq, if_pos awaited]
  · have settled : (s.objects ref).awaited = false := by simpa [awaited_eq] using awaited
    rw [if_neg awaited, complete_retire s now queues ref alive]
    apply retire_congr
    intro r member
    rw [List.mem_singleton.mp member, Request.failed, resolved_settled _ _ settled, resolved_settled _ _ settled]

theorem failed_keeps (req : Request) : req.failed.reqId = req.reqId ∧ req.failed.admittedMs = req.admittedMs :=
  ⟨(resolved_keeps req _).1, (resolved_keeps req _).2.1⟩

theorem fail_batch_eq (queues : Queues s now) (batch : List Nat) (distinct : batch.Nodup)
    (alive : ∀ ref ∈ batch, ref < s.fresh) : batch.foldl Scheduler.failRequest s = retire s batch Request.failed := by
  induction batch generalizing s with
  | nil => exact (retire_nil s Request.failed).symm
  | cons ref batch ih =>
      obtain ⟨absent, distinct⟩ := List.nodup_cons.mp distinct
      have first := fail_request_eq s now queues ref (alive ref List.mem_cons_self)
      have valid := retire_valid s Request.failed now [ref] queues (fun req => (failed_keeps req).1)
        (fun req => (failed_keeps req).2)
      rw [List.foldl_cons, first, ih _ valid distinct (fun other member => alive other (List.mem_cons_of_mem ref member)),
        retire_append, List.singleton_append]
      intro other member
      rw [List.mem_singleton.mp member]
      exact absent

end Failed

section Finished

variable (tokenizer : Tokenizer) (s : Scheduler) (now : ℚ)

theorem finished_keeps (req : Request) :
    (req.finished tokenizer).reqId = req.reqId ∧ (req.finished tokenizer).admittedMs = req.admittedMs := by
  obtain ⟨id, age, _⟩ := resolved_keeps { req with result := tokenizer.makeOutput req.state }
    (.result (tokenizer.makeOutput req.state))
  exact ⟨id, age⟩

theorem finish_request_eq (queues : Queues s now) (ref : Nat) (alive : ref < s.fresh) (output : GenerationOutput)
    (made : tokenizer.makeOutput (s.objects ref).state = some output) :
    (s.setResult ref output).complete ref = .ok (retire s [ref] (Request.finished tokenizer)) := by
  have valid := touched_valid s now queues ref { s.objects ref with result := some output } rfl rfl
  rw [Scheduler.setResult, complete_retire _ now valid ref alive]
  congr 1
  apply retire_touched
  rw [Request.finished, made]

-- How far the loop over a stepped batch gets: the requests that leave are done and
-- have their outputs, all of them unless the output of one raises.
structure Finishes (batch leaving : List Nat) (raised : Bool) : Prop where
  inside : ∀ ref ∈ leaving, ref ∈ batch
  made : ∀ ref ∈ leaving, tokenizer.makeOutput (s.objects ref).state ≠ none
  every : raised = false → leaving = batch.filter fun ref => (s.objects ref).state.done
  raises : raised = true ↔
    ∃ ref ∈ batch, (s.objects ref).state.done = true ∧ tokenizer.makeOutput (s.objects ref).state = none

theorem finishes_skip (ref : Nat) (batch leaving : List Nat) (raised : Bool)
    (open_state : (s.objects ref).state.done = false) (rest : Finishes tokenizer s batch leaving raised) :
    Finishes tokenizer s (ref :: batch) leaving raised := by
  refine ⟨fun other member => List.mem_cons_of_mem ref (rest.inside other member), rest.made, ?_, ?_⟩
  · intro clean
    rw [rest.every clean, List.filter_cons, open_state, if_neg Bool.false_ne_true]
  · rw [rest.raises]
    simp [open_state]

theorem finishes_leave (ref : Nat) (batch leaving : List Nat) (raised : Bool) (absent : ref ∉ batch)
    (done : (s.objects ref).state.done = true) (made : tokenizer.makeOutput (s.objects ref).state ≠ none)
    (rest : Finishes tokenizer (retire s [ref] (Request.finished tokenizer)) batch leaving raised) :
    Finishes tokenizer s (ref :: batch) (ref :: leaving) raised := by
  have untouched (other : Nat) (member : other ∈ batch) :
      (retire s [ref] (Request.finished tokenizer)).objects other = s.objects other :=
    if_neg fun same => absent (by rwa [List.mem_singleton.mp same] at member)
  refine ⟨?_, ?_, ?_, ?_⟩
  · intro other member
    rcases List.mem_cons.mp member with rfl | later
    · exact List.mem_cons_self
    · exact List.mem_cons_of_mem ref (rest.inside other later)
  · intro other member
    rcases List.mem_cons.mp member with rfl | later
    · exact made
    · have output := rest.made other later
      rwa [untouched other (rest.inside other later)] at output
  · intro clean
    rw [rest.every clean, List.filter_cons, if_pos done]
    congr 1
    apply List.filter_congr
    intro other member
    rw [untouched other member]
  · rw [rest.raises]
    constructor
    · rintro ⟨other, member, failing⟩
      rw [untouched other member] at failing
      exact ⟨other, List.mem_cons_of_mem ref member, failing⟩
    · rintro ⟨other, member, finished, none_made⟩
      rcases List.mem_cons.mp member with rfl | later
      · exact absurd none_made made
      · refine ⟨other, later, ?_⟩
        rw [untouched other later]
        exact ⟨finished, none_made⟩

theorem finish_batch_retire (queues : Queues s now) (batch : List Nat) (distinct : batch.Nodup)
    (alive : ∀ ref ∈ batch, ref < s.fresh) :
    ∃ leaving raised, s.finishBatch tokenizer batch = (retire s leaving (Request.finished tokenizer), raised) ∧
      Finishes tokenizer s batch leaving raised := by
  induction batch generalizing s with
  | nil =>
      refine ⟨[], false, ?_, ?_⟩
      · rw [Scheduler.finishBatch, retire_nil]
      · exact ⟨fun _ member => member, by simp, fun _ => rfl, by simp⟩
  | cons ref batch ih =>
      obtain ⟨absent, distinct⟩ := List.nodup_cons.mp distinct
      have later (other : Nat) (member : other ∈ batch) := alive other (List.mem_cons_of_mem ref member)
      rw [Scheduler.finishBatch]
      cases done : (s.objects ref).state.done with
      | false =>
          obtain ⟨leaving, raised, result, rest⟩ := ih s queues distinct later
          exact ⟨leaving, raised, result, finishes_skip tokenizer s ref batch leaving raised done rest⟩
      | true =>
          rw [if_pos rfl]
          cases made : tokenizer.makeOutput (s.objects ref).state with
          | none =>
              refine ⟨[], true, ?_, by simp, by simp, by simp, ?_⟩
              · dsimp only
                rw [retire_nil]
              · exact iff_of_true rfl ⟨ref, List.mem_cons_self, done, made⟩
          | some output =>
              have valid := retire_valid s (Request.finished tokenizer) now [ref] queues
                (fun req => (finished_keeps tokenizer req).1) (fun req => (finished_keeps tokenizer req).2)
              obtain ⟨leaving, raised, result, rest⟩ := ih (retire s [ref] (Request.finished tokenizer)) valid distinct later
              dsimp only
              rw [finish_request_eq tokenizer s now queues ref (alive ref List.mem_cons_self) output made]
              dsimp only
              rw [result, retire_append]
              · refine ⟨ref :: leaving, raised, rfl, finishes_leave tokenizer s ref batch leaving raised absent done ?_ rest⟩
                rw [made]
                exact Option.some_ne_none output
              · intro other member inside
                rw [List.mem_singleton.mp member] at inside
                exact absent (rest.inside ref inside)

theorem finish_batch_eq (queues : Queues s now) (batch : List Nat) (distinct : batch.Nodup)
    (alive : ∀ ref ∈ batch, ref < s.fresh)
    (outputs : ∀ ref ∈ batch, (s.objects ref).state.done = true → tokenizer.makeOutput (s.objects ref).state ≠ none) :
    s.finishBatch tokenizer batch =
      (retire s (batch.filter fun ref => (s.objects ref).state.done) (Request.finished tokenizer), false) := by
  obtain ⟨leaving, raised, result, finishes⟩ := finish_batch_retire tokenizer s now queues batch distinct alive
  have clean : raised = false := by
    rw [← Bool.not_eq_true, finishes.raises]
    rintro ⟨ref, member, done, none_made⟩
    exact outputs ref member done none_made
  rw [result, clean, finishes.every clean]

end Finished

section States

variable (s : Scheduler)

theorem set_states_queues (refs : List Nat) (states : List DenoiseState) : SameQueues s (s.setStates refs states) := by
  induction refs generalizing s states with
  | nil => exact same_queues_refl s
  | cons ref refs ih =>
      cases states with
      | nil => exact same_queues_refl s
      | cons state states =>
          have first := Scheduler.set_state_queues s ref state
          have rest := ih (s.setState ref state) states
          exact ⟨rest.maxBatch.trans first.maxBatch, rest.maxWaiting.trans first.maxWaiting,
            rest.pending.trans first.pending, rest.active.trans first.active, rest.nextId.trans first.nextId,
            rest.fresh.trans first.fresh, fun r => (rest.reqId r).trans (first.reqId r),
            fun r => (rest.admittedMs r).trans (first.admittedMs r)⟩

theorem set_states_other (refs : List Nat) (states : List DenoiseState) (ref : Nat) (absent : ref ∉ refs) :
    (s.setStates refs states).objects ref = s.objects ref := by
  induction refs generalizing s states with
  | nil => rfl
  | cons head refs ih =>
      cases states with
      | nil => rfl
      | cons state states =>
          rw [List.mem_cons, not_or] at absent
          rw [Scheduler.setStates, ih _ _ absent.2, Scheduler.set_state_object, if_neg absent.1]

theorem set_states_get (refs : List Nat) (states : List DenoiseState) (distinct : refs.Nodup) (i ref : Nat)
    (state : DenoiseState) (readRef : refs[i]? = some ref) (readState : states[i]? = some state) :
    (s.setStates refs states).objects ref = { s.objects ref with state := state } := by
  induction refs generalizing s states i with
  | nil => simp at readRef
  | cons head refs ih =>
      cases states with
      | nil => simp at readState
      | cons first states =>
          obtain ⟨absent, distinct⟩ := List.nodup_cons.mp distinct
          rw [Scheduler.setStates]
          cases i with
          | zero =>
              obtain rfl : head = ref := by simpa using readRef
              obtain rfl : first = state := by simpa using readState
              rw [set_states_other _ _ _ _ absent, Scheduler.set_state_object, if_pos rfl]
          | succ i =>
              have member : ref ∈ refs := List.mem_of_getElem? (by simpa using readRef)
              rw [ih (s.setState head first) states distinct i (by simpa using readRef) (by simpa using readState),
                Scheduler.set_state_object, if_neg fun same : ref = head => absent (same ▸ member)]

end States

end Dlmserve
