import Dlmserve.EngineDevice
import Dlmserve.Likeness

set_option autoImplicit false

namespace Dlmserve

variable {full : Full}

section Engine

variable {V : Type} (torch : Torch V) (loaded : LoadedModel V) (loose : Nat → Prop) (e e' : Engine)

theorem alike_stepped (s s' : Scheduler) (alike : AlikeScheduler loose s s') (batch : List Nat) (fails : Bool)
    (draw : Draw V) :
    (if fails then none else stepBatch torch loaded.model loaded.maskId loaded.padTokenId draw
      (batch.map fun ref => (s'.objects ref).state)).map (List.map (·.unseeded)) =
    (if fails then none else stepBatch torch loaded.model loaded.maskId loaded.padTokenId draw
      (batch.map fun ref => (s.objects ref).state)).map (List.map (·.unseeded)) := by
  split
  · rfl
  · apply step_batch_unseeded
    rw [List.map_map, List.map_map]
    exact List.map_congr_left fun ref _ => (alike.objects ref).state

theorem alike_iterate (alike : AlikeEngine loose e e') (time : ℚ) (fails : Bool) (draw : Draw V) :
    AlikeEngine loose (e.iterate torch loaded time fails draw) (e'.iterate torch loaded time fails draw) := by
  obtain ⟨scheduled, batch⟩ := alike_schedule loose _ _ alike.scheduler time
  have moved := alike_stepped torch loaded loose _ _ scheduled (e.scheduler.schedule time).2 fails draw
  rw [Engine.iterate, Engine.iterate, alike.loop]
  cases e.loop with
  | returned | crashed => exact ⟨alike.scheduler, alike.shutdown, alike.loop⟩
  | running =>
      rw [alike.shutdown, alike_work loose _ _ alike.scheduler]
      dsimp only
      rw [batch]
      split
      · exact ⟨alike.scheduler, rfl, rfl⟩
      · split
        · exact ⟨scheduled, rfl, rfl⟩
        · generalize (if fails = true then none else stepBatch torch loaded.model loaded.maskId loaded.padTokenId draw
            ((e.scheduler.schedule time).2.map fun ref => ((e.scheduler.schedule time).1.objects ref).state)) = first at moved ⊢
          generalize (if fails = true then none else stepBatch torch loaded.model loaded.maskId loaded.padTokenId draw
            ((e.scheduler.schedule time).2.map fun ref => ((e'.scheduler.schedule time).1.objects ref).state)) = second at moved ⊢
          cases first with
          | none =>
              obtain rfl := Option.map_eq_none_iff.mp moved
              exact ⟨alike_fail_all loose _ _ scheduled _, rfl, rfl⟩
          | some states =>
              obtain ⟨states', rfl, same⟩ := Option.map_eq_some_iff.mp moved
              obtain ⟨finished, raised⟩ := alike_finish loose _ _ loaded.tokenizer
                (alike_states loose _ _ scheduled (e.scheduler.schedule time).2 states states' same) (e.scheduler.schedule time).2
              dsimp only
              rw [raised]
              exact ⟨finished, rfl, rfl⟩

theorem alike_admitted (alike : AlikeEngine loose e e') (time : ℚ) (state state' : DenoiseState)
    (same : state'.unseeded = state.unseeded) (params params' : SamplingParams) (future : Option Future) :
    AlikeScheduler loose (e.scheduler.admitRequest time state params future).1
      (e'.scheduler.admitRequest time state' params' future).1 := by
  have schedulers := alike.scheduler
  rw [Scheduler.admitRequest, Scheduler.admitRequest, schedulers.maxWaiting, schedulers.pending, schedulers.nextId,
    schedulers.fresh]
  split
  · exact schedulers
  · have updated := alike_update loose _ _ schedulers e.scheduler.fresh
      { reqId := e.scheduler.nextId, state := state, params := params, admittedMs := time, future := future }
      { reqId := e.scheduler.nextId, state := state', params := params', admittedMs := time, future := future }
      ⟨rfl, rfl, rfl, same, fun _ => rfl⟩
    exact ⟨schedulers.maxBatch, rfl, rfl, schedulers.active, rfl, rfl, updated.objects⟩

theorem alike_submit (alike : AlikeEngine loose e e') (time : ℚ) (promptIds : List Token) (params : SamplingParams)
    (seed : Int) :
    AlikeEngine loose (e.submit loaded time full promptIds params) (e'.submit loaded time full promptIds (params.reseed seed)) := by
  rw [Engine.submit, Engine.submit]
  cases made : initState full (.single promptIds) params loaded.maskId with
  | error error =>
      obtain ⟨error', raised⟩ := init_state_reseed_error seed loaded.maskId (.single promptIds) params error made
      rw [raised]
      exact alike
  | ok state =>
      rw [init_state_reseed seed loaded.maskId (.single promptIds) params state made]
      exact ⟨alike_admitted loose e e' alike time state (state.reparam (SamplingParams.reseed seed)) rfl params _ _,
        alike.shutdown, alike.loop⟩

end Engine

section Runs

variable {V : Type} (torch : Torch V) (loaded : LoadedModel V) (loose : Nat → Prop)

-- Actions at the same time that ask the same of the engine, if under another seed.
inductive SameAsked : ℚ × EngineAction V → ℚ × EngineAction V → Prop where
  | submit (time : ℚ) (full : Full) (promptIds : List Token) (params : SamplingParams) (seed : Int) :
      SameAsked (time, .submit full promptIds params) (time, .submit full promptIds (params.reseed seed))
  | iterate (time : ℚ) (fails : Bool) (draw : Draw V) : SameAsked (time, .iterate fails draw) (time, .iterate fails draw)
  | cancel (time : ℚ) (ref : Nat) : SameAsked (time, .cancel ref) (time, .cancel ref)
  | shutdown (time : ℚ) : SameAsked (time, .shutdown) (time, .shutdown)

inductive GivesUp : ℚ × EngineAction V → Prop where
  | cancel (time : ℚ) (ref : Nat) (free : loose ref) : GivesUp (time, .cancel ref)

theorem alike_same_asked (e e' : Engine) (alike : AlikeEngine loose e e') (a b : ℚ × EngineAction V)
    (same : SameAsked a b) : AlikeEngine loose (e.act torch loaded a.1 a.2) (e'.act torch loaded b.1 b.2) := by
  cases same with
  | submit time full promptIds params seed => exact alike_submit loaded loose e e' alike time promptIds params seed
  | iterate time fails draw => exact alike_iterate torch loaded loose e e' alike time fails draw
  | cancel time ref =>
      exact ⟨alike_settled loose _ _ alike.scheduler ref .cancelled .cancelled fun _ => rfl, alike.shutdown, alike.loop⟩
  | shutdown time => exact ⟨alike.scheduler, rfl, alike.loop⟩

end Runs

-- The engine works as if nobody ever gave up: runs from one state that are asked the same,
-- under whatever seeds, and differ in the cancellations of loose requests only, have the
-- same queues, the same states up to their seeds, and the same futures for all others.
theorem work_isolated {V : Type} (torch : Torch V) (loaded : LoadedModel V) (loose : Nat → Prop) (start r r' : EngineRun)
    (trace trace' : List (EngineRun × (ℚ × EngineAction V))) (run : Transition.Run (EngineStep torch loaded) start trace r)
    (run' : Transition.Run (EngineStep torch loaded) start trace' r')
    (aligned : Transition.Aligned SameAsked (GivesUp loose) (trace.map Prod.snd) (trace'.map Prod.snd)) :
    AlikeEngine loose r.engine r'.engine := by
  apply Transition.run_aligned (fun _ => True) (fun r r' : EngineRun => AlikeEngine loose r.engine r'.engine) SameAsked
    (GivesUp loose) start start ⟨alike_refl loose _, rfl, rfl⟩ _ _ aligned _ _ _ (fun _ _ _ => trivial) (fun _ _ _ => trivial)
    trace trace' r r' run run' rfl rfl
  · rintro s s' a b t t' _ _ alike same ⟨_, rfl⟩ ⟨_, rfl⟩
    exact alike_same_asked torch loaded loose s.engine s'.engine alike a b same
  · rintro s s' a t _ _ alike quiet ⟨_, rfl⟩
    cases quiet with
    | cancel time ref free => exact ⟨(alike_cancel loose _ _ alike.scheduler ref free).1, alike.shutdown, alike.loop⟩
  · rintro s s' b t' _ _ alike quiet ⟨_, rfl⟩
    cases quiet with
    | cancel time ref free => exact ⟨(alike_cancel loose _ _ alike.scheduler ref free).2, alike.shutdown, alike.loop⟩

def EngineRun.actAt (r : EngineRun) (time : ℚ) (action : EngineAction Written) : EngineRun :=
  ⟨r.engine.act writtenTorch (writtenLoaded sameAnswer) time action, time⟩

theorem act_at_step (r : EngineRun) (time : ℚ) (action : EngineAction Written) (later : r.now ≤ time) :
    EngineStep writtenTorch (writtenLoaded sameAnswer) r (time, action) (r.actAt time action) := ⟨later, rfl⟩

def waitingEngine : EngineRun := (idleEngine 2 2).actAt 1 (.submit .ample [1] tokenParams)

theorem work_isolated_cancelled :
    AlikeEngine (· = 0)
      (((waitingEngine.actAt 2 (.submit .ample [3, 4] tokenParams)).actAt 3 (.cancel 0)).actAt 4 (.iterate false lowDraw)).engine
      ((waitingEngine.actAt 2 (.submit .ample [3, 4] (tokenParams.reseed 7))).actAt 4 (.iterate false lowDraw)).engine := by
  have run := Transition.Run.snoc _ _ _ _ (.snoc _ _ _ _ (.snoc [] _ _ _ .nil
    (act_at_step waitingEngine 2 (.submit .ample [3, 4] tokenParams) (by decide))) (act_at_step _ 3 (.cancel 0) (by decide)))
    (act_at_step _ 4 (.iterate false lowDraw) (by decide))
  have run' := Transition.Run.snoc _ _ _ _ (.snoc [] _ _ _ .nil
    (act_at_step waitingEngine 2 (.submit .ample [3, 4] (tokenParams.reseed 7)) (by decide)))
    (act_at_step _ 4 (.iterate false lowDraw) (by decide))
  apply work_isolated writtenTorch (writtenLoaded sameAnswer) (· = 0) waitingEngine _ _ _ _ run run'
  exact .both _ _ _ _ (.left _ _ _ (.both [] [] _ _ .nil (.submit 2 .ample [3, 4] tokenParams 7)) (.cancel 3 0 rfl))
    (.iterate 4 false lowDraw)

end Dlmserve
