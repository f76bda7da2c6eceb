import Dlmserve.DenoisePlain
import Dlmserve.EngineDevice
import Dlmserve.EngineFollows
import Dlmserve.RowIndependence

set_option autoImplicit false

namespace Dlmserve

section OnPath

variable {V : Type} (torch : Torch V) (loaded : LoadedModel V) (view : List Token → Nat → V)

-- All requests admitted so far agree in what a batch takes from its first state.
def Agree (common : SharedParams) (s : Scheduler) : Prop :=
  ∀ ref < s.fresh, (s.objects ref).state.params.shared = common

structure OnPath (start : DenoiseState) (ref : Nat) (r : EngineRun) : Prop where
  invariant : EngineInvariant loaded.tokenizer r.engine r.now
  alive : ref < r.engine.scheduler.fresh
  path : PlainPath torch view loaded.maskId start (r.engine.scheduler.objects ref).state

def LowTies (a : ℚ × EngineAction V) : Prop := ∀ fails draw, a.2 = .iterate fails draw → TopKTiesLow draw

theorem follows_agree (common : SharedParams) (s s' : Scheduler) (follows : Follows s s') (agree : Agree common s') :
    Agree common s := by
  intro ref alive
  rw [← (follows.same ref alive).params]
  exact agree ref (Nat.lt_of_lt_of_le alive follows.fresh)

-- A round takes a state along its plain path, whatever else its batch holds.
theorem moves_plain (isLocal : PaddingLocal loaded.model view) (proper : loaded.padTokenId ≠ loaded.maskId) (e : Engine)
    (now time : ℚ) (draw : Draw V) (later : now ≤ time) (low : TopKTiesLow draw)
    (invariant : EngineInvariant loaded.tokenizer e now) (common : SharedParams) (cold : common.temperature = 0)
    (agree : Agree common e.scheduler) (ref : Nat) (member : ref ∈ e.batch time) (state' : DenoiseState)
    (moved : Moves torch loaded e time draw (e.scheduler.objects ref).state state') :
    PlainPath torch view loaded.maskId (e.scheduler.objects ref).state state' := by
  obtain ⟨leader, inside, step⟩ := moved
  have queued := batch_queued loaded e now time later invariant ref member
  obtain ⟨shaped, _, running⟩ := invariant.running ref queued
  have leads := agree leader (invariant.queues.alive leader (batch_queued loaded e now time later invariant leader inside))
  have mine := agree ref (invariant.queues.alive ref queued)
  have temperature : (e.scheduler.objects leader).state.params.temperature = 0 := by
    rw [← cold, ← leads]
    rfl
  refine .single ⟨Bool.eq_false_iff.mp running, ?_⟩
  exact window_step_plain torch view loaded.maskId loaded.model loaded.padTokenId draw isLocal proper low _ _ state' shaped
    temperature (leads.trans mine.symm) step

theorem on_path_step (decodes : Decodes loaded.tokenizer) (isLocal : PaddingLocal loaded.model view)
    (proper : loaded.padTokenId ≠ loaded.maskId) (common : SharedParams) (cold : common.temperature = 0)
    (start : DenoiseState) (ref : Nat) (r r' : EngineRun) (a : ℚ × EngineAction V) (low : LowTies a)
    (agree : Agree common r.engine.scheduler) (on : OnPath torch loaded view start ref r)
    (step : EngineStep torch loaded r a r') : OnPath torch loaded view start ref r' := by
  have after := act_invariant torch loaded decodes r r' a on.invariant step
  obtain ⟨later, rfl⟩ := step
  obtain ⟨time, action⟩ := a
  have follows := act_follows torch loaded r.engine r.now time action later decodes on.invariant
  refine ⟨after, Nat.lt_of_lt_of_le on.alive follows.fresh, ?_⟩
  have stays (same : ((r.engine.act torch loaded time action).scheduler.objects ref).state =
      (r.engine.scheduler.objects ref).state) : PlainPath torch view loaded.maskId start
        ((r.engine.act torch loaded time action).scheduler.objects ref).state := by
    rw [same]
    exact on.path
  cases action with
  | submit full promptIds params =>
      exact stays (congrArg Request.state (submit_object loaded r.engine time promptIds params ref on.alive))
  | shutdown => exact stays rfl
  | cancel other => exact stays (cancel_keeps r.engine.scheduler other ref).2
  | iterate fails draw =>
      rcases iterate_object torch loaded r.engine r.now time fails draw later decodes on.invariant ref with
        ⟨_, object⟩ | ⟨_, _, object⟩ | ⟨states, state', member, _, _, moved, object⟩
      · exact stays (congrArg Request.state object)
      · exact stays ((congrArg Request.state object).trans (resolved_keeps _ _).2.2.1)
      · have state : ((r.engine.act torch loaded time (.iterate fails draw)).scheduler.objects ref).state = state' := by
          refine (congrArg Request.state object).trans ?_
          split
          · exact finished_state loaded.tokenizer _
          · rfl
        dsimp only
        rw [state]
        exact on.path.trans (moves_plain torch loaded view isLocal proper r.engine r.now time draw later (low fails draw rfl)
          on.invariant common cold agree ref member state' moved)

theorem run_on_path (decodes : Decodes loaded.tokenizer) (isLocal : PaddingLocal loaded.model view)
    (proper : loaded.padTokenId ≠ loaded.maskId) (common : SharedParams) (cold : common.temperature = 0)
    (start : DenoiseState) (ref : Nat) (r r' : EngineRun) (trace : List (EngineRun × ℚ × EngineAction V))
    (run : Transition.Run (EngineStep torch loaded) r trace r') (low : ∀ entry ∈ trace, LowTies entry.2)
    (on : OnPath torch loaded view start ref r) (agree : Agree common r'.engine.scheduler) :
    OnPath torch loaded view start ref r' := by
  -- What the requests admitted in the end agree in, they agreed in all along.
  refine (Transition.run_permitted (fun r => EngineInvariant loaded.tokenizer r.engine r.now ∧
    (Agree common r.engine.scheduler → OnPath torch loaded view start ref r)) (fun _ a => LowTies a) r r' trace run
    ⟨on.invariant, fun _ => on⟩ low ?_).2 agree
  intro s a t before permitted step
  have follows : Follows s.engine.scheduler t.engine.scheduler := by
    obtain ⟨later, rfl⟩ := step
    exact act_follows torch loaded s.engine s.now a.1 a.2 later decodes before.1
  refine ⟨act_invariant torch loaded decodes s t a before.1 step, fun agree => ?_⟩
  have earlier := follows_agree common _ _ follows agree
  exact on_path_step torch loaded view decodes isLocal proper common cold start ref s t a permitted earlier
    (before.2 earlier) step

end OnPath

theorem make_output_row (tokenizer : Tokenizer) (s : DenoiseState) (row : List Token) (output : GenerationOutput)
    (single : s.seq = [row]) (made : tokenizer.makeOutput s = some output) : output.outputIds = row.drop s.promptLen := by
  rw [Tokenizer.makeOutput, single] at made
  obtain ⟨texts, _, made⟩ := Option.bind_eq_some_iff.mp made
  obtain ⟨text, _, made⟩ := Option.bind_eq_some_iff.mp made
  exact (congrArg GenerationOutput.outputIds (Option.some.inj made)).symm

-- A batched engine is transparent: the answer to a request is what denoise makes of
-- its prompt alone.
theorem batching_transparency {V : Type} (torch : Torch V) (loaded : LoadedModel V) (view : List Token → Nat → V)
    (decodes : Decodes loaded.tokenizer) (isLocal : PaddingLocal loaded.model view)
    (proper : loaded.padTokenId ≠ loaded.maskId) (maxBatch maxWaiting : Nat) (before admitted r : EngineRun)
    (reach : Transition.Reachable (InitialEngine maxBatch maxWaiting) (EngineStep torch loaded) before) (time : ℚ)
    (full : Full) (promptIds : List Token) (params : SamplingParams)
    (submitted : EngineStep torch loaded before (time, .submit full promptIds params) admitted)
    (accepted : admitted.engine.scheduler.fresh = before.engine.scheduler.fresh + 1)
    (trace : List (EngineRun × ℚ × EngineAction V)) (run : Transition.Run (EngineStep torch loaded) admitted trace r)
    (cold : params.temperature = 0) (agree : Agree params.shared r.engine.scheduler)
    (low : ∀ entry ∈ trace, LowTies entry.2) (output : GenerationOutput)
    (resolved : (r.engine.scheduler.objects before.engine.scheduler.fresh).future = some (.result (some output)))
    (draws : Nat → Nat → Draw V) (lowDraws : ∀ block step, TopKTiesLow (draws block step))
    (attention : Option (List (List Nat)))
    (attends : attention = none ∨ attention = some [List.replicate promptIds.length 1]) :
    ∃ row, denoise torch loaded.model loaded.maskId full draws (.single promptIds) attention params =
        .ok [row] ∧ output.outputIds = row.drop promptIds.length := by
  have invariant := reachable_engine_invariant torch loaded decodes maxBatch maxWaiting admitted
    (Transition.reachable_step _ before admitted _ reach submitted)
  obtain ⟨_, rfl⟩ := submitted
  obtain ⟨start, made, first⟩ := submit_admits loaded before.engine time promptIds params accepted
  have on : OnPath torch loaded view start before.engine.scheduler.fresh
      ⟨before.engine.act torch loaded time (.submit full promptIds params), time⟩ := by
    refine ⟨invariant, by rw [accepted]; exact Nat.lt_succ_self _, ?_⟩
    change PlainPath torch view loaded.maskId start
      ((before.engine.submit loaded time full promptIds params).scheduler.objects before.engine.scheduler.fresh).state
    rw [first]
  have final := run_on_path torch loaded view decodes isLocal proper params.shared cold start _ _ r trace run low on agree
  obtain ⟨done, _, answer⟩ := final.invariant.answered _ final.alive (some output) resolved
  obtain ⟨halt, row, returned, single, path, halted⟩ := denoise_plain torch view loaded.maskId loaded.model draws params isLocal
    cold lowDraws (.single promptIds) promptIds rfl attention attends start made
  have same : (r.engine.scheduler.objects before.engine.scheduler.fresh).state = halt :=
    Transition.halted_unique _ _ start _ halt final.path path done halted
  have length : halt.promptLen = promptIds.length := by
    rw [(plain_path_same torch view loaded.maskId start halt path).promptLen]
    exact (initial_row loaded.maskId _ params start promptIds rfl made).2.symm
  rw [same] at answer
  exact ⟨row, returned, by rw [make_output_row loaded.tokenizer halt row output single answer.symm, length]⟩

def oneAdmitted : EngineRun :=
  actsFrom writtenTorch (writtenLoaded sameAnswer) (idleEngine 2 2) [.submit .ample [1] tokenParams]

theorem batching_transparency_two_lengths : ∃ r : EngineRun,
    (r.engine.scheduler.objects 0).future = some (.result (some ⟨[1], [2], "decoded"⟩)) ∧
      (r.engine.scheduler.objects 1).future = some (.result (some ⟨[3, 4], [2], "decoded"⟩)) ∧
      ∃ row, denoise writtenTorch (writtenModel sameAnswer) 9 .ample (fun _ _ => lowDraw) ⟨[[1]], 1, by simp⟩ none tokenParams =
        .ok [row] ∧ [2] = row.drop 1 := by
  obtain ⟨trace, run, each⟩ := acts_from_run writtenTorch (writtenLoaded sameAnswer) oneAdmitted
    [.submit .ample [3, 4] tokenParams, .iterate false lowDraw]
  have low : ∀ entry ∈ trace, LowTies entry.2 := by
    intro entry member fails draw started
    have given := each entry member
    rw [started, List.mem_cons, List.mem_singleton] at given
    rcases given with impossible | same
    · cases impossible
    · obtain ⟨_, rfl⟩ := EngineAction.iterate.inj same
      exact low_draw_ties_low
  refine ⟨actsFrom writtenTorch (writtenLoaded sameAnswer) oneAdmitted
    [.submit .ample [3, 4] tokenParams, .iterate false lowDraw], by decide +kernel, by decide +kernel, ?_⟩
  exact batching_transparency writtenTorch (writtenLoaded sameAnswer) (fun _ c => sameAnswer c) written_decodes
    (written_local sameAnswer) (by decide) 2 2 (idleEngine 2 2) oneAdmitted _ (acts_reachable _ _ 2 2 [])
    ((idleEngine 2 2).now + 1) .ample [1] tokenParams ⟨by decide +kernel, rfl⟩ (by decide +kernel) trace run rfl
    (by unfold Agree; decide +kernel) low ⟨[1], [2], "decoded"⟩
    (by decide +kernel) (fun _ _ => lowDraw) (fun _ _ => low_draw_ties_low) none (Or.inl rfl)

end Dlmserve
