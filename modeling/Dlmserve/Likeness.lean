import Dlmserve.Reparam
import Dlmserve.EngineSpec

set_option autoImplicit false

namespace Dlmserve

def DenoiseState.unseeded (s : DenoiseState) : DenoiseState := s.reparam (SamplingParams.reseed 0)

-- Requests that the engine cannot tell apart: only the seeds differ, and the futures
-- where somebody may have cancelled one of them.
structure AlikeRequest (loose : Prop) (req req' : Request) : Prop where
  reqId : req'.reqId = req.reqId
  admittedMs : req'.admittedMs = req.admittedMs
  result : req'.result = req.result
  state : req'.state.unseeded = req.state.unseeded
  future : ¬ loose → req'.future = req.future

structure AlikeScheduler (loose : Nat → Prop) (s s' : Scheduler) : Prop where
  maxBatch : s'.maxBatch = s.maxBatch
  maxWaiting : s'.maxWaiting = s.maxWaiting
  pending : s'.pending = s.pending
  active : s'.active = s.active
  nextId : s'.nextId = s.nextId
  fresh : s'.fresh = s.fresh
  objects : ∀ ref, AlikeRequest (loose ref) (s.objects ref) (s'.objects ref)

structure AlikeEngine (loose : Nat → Prop) (e e' : Engine) : Prop where
  scheduler : AlikeScheduler loose e.scheduler e'.scheduler
  shutdown : e'.shutdown = e.shutdown
  loop : e'.loop = e.loop

section States

variable (state state' : DenoiseState)

theorem unseeded_done (same : state'.unseeded = state.unseeded) : state'.done = state.done := by
  have both : state'.unseeded.done = state.unseeded.done := by rw [same]
  exact both

theorem unseeded_output (tokenizer : Tokenizer) (same : state'.unseeded = state.unseeded) :
    tokenizer.makeOutput state' = tokenizer.makeOutput state := by
  have both : tokenizer.makeOutput state'.unseeded = tokenizer.makeOutput state.unseeded := by rw [same]
  exact both

theorem unseeded_key (req req' : Request) (same : req'.state.unseeded = req.state.unseeded) :
    req'.groupKey = req.groupKey := by
  have both : ({ req' with state := req'.state.unseeded } : Request).groupKey =
      ({ req with state := req.state.unseeded } : Request).groupKey := by
    rw [Request.groupKey, Request.groupKey, Request.stepIdx, Request.stepIdx, Request.blockLengthBucket,
      Request.blockLengthBucket]
    dsimp only
    rw [same]
  exact both

theorem step_batch_unseeded {V : Type} (torch : Torch V) (model : Model V) (mask pad : Token) (draw : Draw V)
    (states states' : List DenoiseState) (same : states'.map (·.unseeded) = states.map (·.unseeded)) :
    (stepBatch torch model mask pad draw states').map (List.map (·.unseeded)) =
      (stepBatch torch model mask pad draw states).map (List.map (·.unseeded)) := by
  have erased (states : List DenoiseState) := step_batch_reparam torch model mask pad draw (SamplingParams.reseed 0) states
    fun _ => rfl
  exact (erased states').symm.trans ((congrArg (stepBatch torch model mask pad draw) same).trans (erased states))

end States

section Scheduler

variable (loose : Nat → Prop) (s s' : Scheduler) (alike : AlikeScheduler loose s s')

theorem alike_refl : AlikeScheduler loose s s :=
  ⟨rfl, rfl, rfl, rfl, rfl, rfl, fun _ => ⟨rfl, rfl, rfl, rfl, fun _ => rfl⟩⟩

theorem alike_update (alike : AlikeScheduler loose s s') (ref : Nat) (req req' : Request)
    (requests : AlikeRequest (loose ref) req req') :
    AlikeScheduler loose { s with objects := Function.update s.objects ref req }
      { s' with objects := Function.update s'.objects ref req' } := by
  refine ⟨alike.maxBatch, alike.maxWaiting, alike.pending, alike.active, alike.nextId, alike.fresh, ?_⟩
  intro other
  by_cases same : other = ref
  · subst same
    dsimp only
    rw [Function.update_self, Function.update_self]
    exact requests
  · dsimp only
    rw [Function.update_of_ne same, Function.update_of_ne same]
    exact alike.objects other

theorem alike_promote (alike : AlikeScheduler loose s s') :
    AlikeScheduler loose s.promotePending s'.promotePending := by
  rw [Scheduler.promotePending, Scheduler.promotePending, alike.pending, alike.active, alike.maxBatch]
  exact ⟨rfl, alike.maxWaiting, rfl, rfl, alike.nextId, alike.fresh, alike.objects⟩

theorem alike_wait (alike : AlikeScheduler loose s s') (now : ℚ) (reqs : List Nat) :
    s'.oldestWait now reqs = s.oldestWait now reqs := by
  cases reqs with
  | nil => rfl
  | cons ref reqs =>
      rw [Scheduler.oldestWait, Scheduler.oldestWait]
      simp only [Scheduler.wait, (alike.objects _).admittedMs]

theorem alike_schedule (alike : AlikeScheduler loose s s') (now : ℚ) :
    AlikeScheduler loose (s.schedule now).1 (s'.schedule now).1 ∧ (s'.schedule now).2 = (s.schedule now).2 := by
  have promoted := alike_promote loose s s' alike
  have scores : s'.promotePending.score now = s.promotePending.score now := by
    funext reqs
    rw [Scheduler.score, Scheduler.score, alike_wait loose _ _ promoted]
  have keys : (fun ref => (s'.promotePending.objects ref).groupKey) = fun ref => (s.promotePending.objects ref).groupKey := by
    funext ref
    exact unseeded_key _ _ (promoted.objects ref).state
  have groups : s'.promotePending.groups = s.promotePending.groups := by
    rw [Scheduler.groups, Scheduler.groups, keys, promoted.active]
  rw [Scheduler.schedule, Scheduler.schedule]
  rw [promoted.active, scores, groups, promoted.maxBatch]
  split
  · exact ⟨promoted, rfl⟩
  · split
    · exact ⟨promoted, rfl⟩
    · exact ⟨promoted, rfl⟩

theorem alike_work (alike : AlikeScheduler loose s s') : s'.hasWork = s.hasWork := by
  rw [Scheduler.hasWork, Scheduler.hasWork, alike.pending, alike.active]

theorem alike_future (loose : Prop) (req req' : Request) (requests : AlikeRequest loose req req')
    (future future' : Option Future) (same : ¬ loose → future' = future) :
    AlikeRequest loose { req with future := future } { req' with future := future' } :=
  ⟨requests.reqId, requests.admittedMs, requests.result, requests.state, same⟩

-- A future is settled where it is awaited, and the engine only learns of it there.
def Scheduler.settled (s : Scheduler) (ref : Nat) (future : Future) : Scheduler :=
  if s.awaited ref then s.setFuture ref future else s

theorem settled_update (s : Scheduler) (ref : Nat) (future : Future) (next : Option Future)
    (after : next = if s.awaited ref then some future else (s.objects ref).future) : s.settled ref future =
    { s with objects := Function.update s.objects ref { s.objects ref with future := next } } := by
  subst after
  rw [Scheduler.settled]
  split
  · rfl
  · rw [Function.update_eq_self]

theorem alike_settled (alike : AlikeScheduler loose s s') (ref : Nat) (future future' : Future)
    (same : ¬ loose ref → future' = future) :
    AlikeScheduler loose (s.settled ref future) (s'.settled ref future') := by
  have requests := alike.objects ref
  rw [settled_update s ref future _ rfl, settled_update s' ref future' _ rfl]
  apply alike_update loose s s' alike
  apply alike_future _ _ _ requests
  intro tied
  have awaited : s'.awaited ref = s.awaited ref := by rw [Scheduler.awaited, Scheduler.awaited, requests.future tied]
  rw [awaited, same tied, requests.future tied]

theorem alike_cancel (alike : AlikeScheduler loose s s') (ref : Nat) (free : loose ref) :
    AlikeScheduler loose (s.cancel ref) s' ∧ AlikeScheduler loose s (s'.cancel ref) := by
  have requests := alike.objects ref
  have cancelled (t : Scheduler) : t.cancel ref = t.settled ref .cancelled := rfl
  have unchanged (t : Scheduler) : { t with objects := Function.update t.objects ref (t.objects ref) } = t := by
    rw [Function.update_eq_self]
  constructor
  · rw [cancelled, settled_update s ref .cancelled _ rfl, ← unchanged s']
    exact alike_update loose s s' alike ref _ _ (alike_future _ _ _ requests _ _ fun tied => absurd free tied)
  · rw [cancelled, settled_update s' ref .cancelled _ rfl, ← unchanged s]
    exact alike_update loose s s' alike ref _ _ (alike_future _ _ _ requests _ _ fun tied => absurd free tied)

theorem alike_remove (alike : AlikeScheduler loose s s') (target : Nat) (refs : List Nat) :
    s'.listRemove target refs = s.listRemove target refs := by
  induction refs with
  | nil => rfl
  | cons ref rest ih =>
      rw [Scheduler.listRemove, Scheduler.listRemove, ih, Scheduler.requestEq, Scheduler.requestEq,
        (alike.objects ref).reqId, (alike.objects target).reqId]

-- Two outcomes of complete that are alike: both go through, or both raise the same.
inductive AlikeOutcome : Except PyError Scheduler → Except PyError Scheduler → Prop where
  | ok (s s' : Scheduler) (alike : AlikeScheduler loose s s') : AlikeOutcome (.ok s) (.ok s')
  | error (error : PyError) : AlikeOutcome (.error error) (.error error)

theorem alike_complete (alike : AlikeScheduler loose s s') (ref : Nat) :
    AlikeOutcome loose (s.complete ref) (s'.complete ref) := by
  have resolved (t t' : Scheduler) (alike : AlikeScheduler loose t t') :
      AlikeScheduler loose (t.resolve ref) (t'.resolve ref) := by
    refine alike_settled loose t t' alike ref (.result (t.objects ref).result) (.result (t'.objects ref).result) fun _ => ?_
    rw [(alike.objects ref).result]
  rw [Scheduler.complete, Scheduler.complete, alike.active, alike_remove loose s s' alike]
  cases s.listRemove ref s.active with
  | ok active =>
      exact .ok _ _ (resolved _ _ ⟨alike.maxBatch, alike.maxWaiting, alike.pending, rfl, alike.nextId, alike.fresh,
        alike.objects⟩)
  | error error =>
      cases error with
      | valueError message => exact .ok _ _ (resolved s s' alike)
      | zeroDivisionError | runtimeError | assertionError | notImplementedError | unboundLocalError | attributeError | other =>
          exact .error _

theorem alike_fail (alike : AlikeScheduler loose s s') (ref : Nat) :
    AlikeScheduler loose (s.failRequest ref) (s'.failRequest ref) := by
  have failed := alike_settled loose s s' alike ref (.exception Scheduler.stepFailed) (.exception Scheduler.stepFailed)
    fun _ => rfl
  have outcome := alike_complete loose _ _ failed ref
  rw [Scheduler.failRequest, Scheduler.failRequest]
  rw [Scheduler.settled, Scheduler.settled] at outcome failed
  generalize Scheduler.complete (if s.awaited ref then _ else s) ref = first at outcome
  generalize Scheduler.complete (if s'.awaited ref then _ else s') ref = second at outcome
  cases outcome with
  | ok t t' after => exact after
  | error error => exact failed

theorem alike_fail_all (alike : AlikeScheduler loose s s') (batch : List Nat) :
    AlikeScheduler loose (batch.foldl Scheduler.failRequest s) (batch.foldl Scheduler.failRequest s') := by
  induction batch generalizing s s' with
  | nil => exact alike
  | cons ref batch ih => exact ih _ _ (alike_fail loose s s' alike ref)

theorem alike_finish (tokenizer : Tokenizer) (alike : AlikeScheduler loose s s') (batch : List Nat) :
    AlikeScheduler loose (s.finishBatch tokenizer batch).1 (s'.finishBatch tokenizer batch).1 ∧
      (s'.finishBatch tokenizer batch).2 = (s.finishBatch tokenizer batch).2 := by
  induction batch generalizing s s' with
  | nil => exact ⟨alike, rfl⟩
  | cons ref batch ih =>
      have requests := alike.objects ref
      rw [Scheduler.finishBatch, Scheduler.finishBatch, unseeded_done _ _ requests.state,
        unseeded_output _ _ tokenizer requests.state]
      split
      · cases tokenizer.makeOutput (s.objects ref).state with
        | none => exact ⟨alike, rfl⟩
        | some output =>
            have answered : AlikeScheduler loose (s.setResult ref output) (s'.setResult ref output) :=
              alike_update loose s s' alike ref _ _
                ⟨requests.reqId, requests.admittedMs, rfl, requests.state, requests.future⟩
            have outcome := alike_complete loose _ _ answered ref
            dsimp only
            generalize (s.setResult ref output).complete ref = first at outcome
            generalize (s'.setResult ref output).complete ref = second at outcome
            cases outcome with
            | ok t t' after => exact ih t t' after
            | error error => exact ⟨answered, rfl⟩
      · exact ih s s' alike

theorem alike_states (alike : AlikeScheduler loose s s') (refs : List Nat) (states states' : List DenoiseState)
    (same : states'.map (·.unseeded) = states.map (·.unseeded)) :
    AlikeScheduler loose (s.setStates refs states) (s'.setStates refs states') := by
  induction refs generalizing s s' states states' with
  | nil => exact alike
  | cons ref refs ih =>
      cases states with
      | nil =>
          obtain rfl := List.map_eq_nil_iff.mp same
          exact alike
      | cons state states =>
          cases states' with
          | nil => cases same
          | cons state' states' =>
              obtain ⟨head, tail⟩ := List.cons.inj same
              have requests := alike.objects ref
              exact ih _ _ (alike_update loose s s' alike ref { s.objects ref with state := state }
                { s'.objects ref with state := state' }
                ⟨requests.reqId, requests.admittedMs, requests.result, head, requests.future⟩) states states' tail

end Scheduler

end Dlmserve
