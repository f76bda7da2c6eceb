import Dlmserve.OwnAnswers
import Dlmserve.Reuse
import Dlmserve.Transparency

set_option autoImplicit false

namespace Dlmserve

section Generate

variable {V : Type} (torch : Torch V) (front : Frontend) (loaded : LoadedModel V) (view : List Token → Nat → V)
  (params : SamplingParams) (prerendered : Bool) (around : Surroundings V)

def StartsAt (prompt : String) (start : DenoiseState) : Prop :=
  ∃ encoded, front.encodePrompt prerendered prompt = .ok encoded ∧
    initState .ample (.single encoded.1) params loaded.maskId = .ok start

theorem prepares_starts (full : Full) (prompt : String) (start : DenoiseState)
    (prepares : Prepares front full loaded.maskId params prerendered prompt start) :
    StartsAt front loaded params prerendered prompt start := by
  obtain ⟨encoded, encodes, _, made⟩ := prepares
  exact ⟨encoded, encodes, init_state_ample _ params loaded.maskId start made⟩

theorem admit_all_states (tick : Nat) (e : Engine) (prompts : List String)
    (accepted : AllPrepared front loaded params prerendered around tick prompts)
    (room : e.scheduler.pending.length + prompts.length ≤ e.scheduler.maxWaiting) (i : Nat) (prompt : String)
    (read : prompts[i]? = some prompt) :
    StartsAt front loaded params prerendered prompt
      ((Engine.admitAll front loaded params prerendered around tick e prompts).1.scheduler.objects
        (e.scheduler.fresh + i)).state := by
  induction prompts generalizing tick e i with
  | nil => simp at read
  | cons here prompts ih =>
      rw [List.length_cons] at room
      obtain ⟨⟨state, prepares⟩, others⟩ := (all_prepared_cons front loaded params prerendered around tick here prompts).mp
        accepted
      have longer : (e.enqueue params (around.clock tick) state).scheduler.pending.length = e.scheduler.pending.length + 1 :=
        List.length_append
      have fits : (e.enqueue params (around.clock tick) state).scheduler.pending.length + prompts.length ≤
          (e.enqueue params (around.clock tick) state).scheduler.maxWaiting := by
        rw [longer]
        exact (by omega : e.scheduler.pending.length + 1 + prompts.length ≤ e.scheduler.maxWaiting)
      rw [admit_all_room_cons front loaded params prerendered around tick e here prompts state prepares (by omega)]
      cases i with
      | zero =>
          obtain rfl : here = prompt := by simpa using read
          obtain ⟨_, admitted⟩ := admit_all_room front loaded params prerendered around (tick + 1)
            (e.enqueue params (around.clock tick) state) prompts others fits
          rw [Nat.add_zero e.scheduler.fresh, admitted.objects _ (Nat.lt_succ_self _), Engine.enqueue]
          dsimp only
          rw [enqueued_new]
          exact prepares_starts front loaded params prerendered _ here state prepares
      | succ i =>
          have rest := ih (tick + 1) (e.enqueue params (around.clock tick) state) others fits i (by simpa using read)
          rw [Nat.add_comm i 1, ← Nat.add_assoc]
          exact rest

theorem admitted_states (e : Engine) (prompts : List String) (empty : e.queue = [])
    (fits : Fits front loaded params prerendered around prompts e) (i : Nat) (prompt : String)
    (read : prompts[i]? = some prompt) :
    StartsAt front loaded params prerendered prompt
      ((Engine.admitted front loaded params prerendered around prompts e).scheduler.objects (e.scheduler.fresh + i)).state := by
  have room : ({ e with loop := .running } : Engine).scheduler.pending.length + prompts.length ≤ e.scheduler.maxWaiting := by
    simpa [(List.append_eq_nil_iff.mp empty).2] using fits.2
  exact admit_all_states front loaded params prerendered around 0 { e with loop := .running } prompts fits.1 room i prompt read

-- Every request of a call is on the plain path of its own prompt.
def OwnPaths (prompts : List String) (first : Nat) (s : Scheduler) : Prop :=
  ∀ i prompt, prompts[i]? = some prompt → ∃ start, StartsAt front loaded params prerendered prompt start ∧
    PlainPath torch view loaded.maskId start (s.objects (first + i)).state

variable (prompts : List String) (first tick : Nat) (e : Engine) (now : ℚ)

theorem own_params (s : Scheduler) (paths : OwnPaths torch front loaded view params prerendered prompts first s) (ref : Nat)
    (known : ref ∈ List.range' first prompts.length) : (s.objects ref).state.params = params := by
  obtain ⟨i, inside, rfl⟩ := List.mem_range'.mp known
  obtain ⟨start, ⟨encoded, _, made⟩, path⟩ := paths i prompts[i] (List.getElem?_eq_getElem inside)
  obtain ⟨_, _, _, _, rfl⟩ := init_state_ok _ params loaded.maskId start made
  rw [Nat.one_mul]
  exact (plain_path_same torch view loaded.maskId _ _ path).params

-- The batch of a round holds requests of the call only, so its step is a plain one.
theorem own_paths_round (decodes : Decodes loaded.tokenizer) (isLocal : PaddingLocal loaded.model view)
    (proper : loaded.padTokenId ≠ loaded.maskId) (cold : params.temperature = 0) (low : TopKTiesLow (around.draw tick))
    (serving : Serving loaded (List.range' first prompts.length) e now) (later : now ≤ around.clock tick)
    (paths : OwnPaths torch front loaded view params prerendered prompts first e.scheduler) :
    OwnPaths torch front loaded view params prerendered prompts first (e.round torch loaded around tick).scheduler := by
  have engine := serving.paced.engine
  have queued (ref : Nat) (member : ref ∈ e.batch (around.clock tick)) :=
    batch_queued loaded e now _ later engine ref member
  have own (ref : Nat) (member : ref ∈ e.batch (around.clock tick)) : (e.scheduler.objects ref).state.params = params :=
    own_params torch front loaded view params prerendered prompts first e.scheduler paths ref (serving.known ref (queued ref member))
  intro i prompt read
  obtain ⟨start, made, path⟩ := paths i prompt read
  refine ⟨start, made, ?_⟩
  rcases iterate_object torch loaded e now _ (around.fails tick) (around.draw tick) later decodes engine (first + i) with
    ⟨_, object⟩ | ⟨_, _, object⟩ | ⟨states, state', member, _, _, ⟨leader, inside, step⟩, object⟩
  · rw [Engine.round, object]
    exact path
  · rw [Engine.round, object, Request.failed, (resolved_keeps _ _).2.2.1]
    exact path
  · have state : ((e.round torch loaded around tick).scheduler.objects (first + i)).state = state' := by
      rw [Engine.round, object]
      split
      · exact finished_state loaded.tokenizer _
      · rfl
    obtain ⟨shaped, _, running⟩ := engine.running (first + i) (queued _ member)
    rw [state]
    rw [own leader inside] at step
    refine path.tail ⟨Bool.eq_false_iff.mp running, ?_⟩
    exact window_step_plain torch view loaded.maskId loaded.model loaded.padTokenId (around.draw tick) isLocal proper low params
      _ state' shaped cold (congrArg SamplingParams.shared (own _ member).symm) step

def PlainResult (prompt : String) (value : Option GenerationOutput) : Prop :=
  ∃ start halt, StartsAt front loaded params prerendered prompt start ∧
    PlainPath torch view loaded.maskId start halt ∧ halt.done = true ∧ value ≠ none ∧
    value = loaded.tokenizer.makeOutput halt

theorem gathered_cases (s : Scheduler) (refs : List Nat) (outcome : Outcome) (gathered : s.gathered refs = some outcome) :
    (∃ ref ∈ refs, ∃ message, s.messageOf ref = some message ∧ outcome = .raised (.runtimeError message)) ∨
      ∃ results, refs.mapM s.resultOf = some results ∧ outcome = .returned results := by
  rw [Scheduler.gathered] at gathered
  split at gathered
  · rename_i message found
    obtain ⟨ref, known, failed⟩ := List.exists_of_findSome?_eq_some found
    exact Or.inl ⟨ref, known, message, failed, (Option.some.inj gathered).symm⟩
  · obtain ⟨results, collected, same⟩ := Option.map_eq_some_iff.mp gathered
    exact Or.inr ⟨results, collected, same.symm⟩

theorem gathered_own_results (serving : Serving loaded (List.range' first prompts.length) e now)
    (paths : OwnPaths torch front loaded view params prerendered prompts first e.scheduler)
    (alive : ∀ ref ∈ List.range' first prompts.length, ref < e.scheduler.fresh)
    (results : List (Option GenerationOutput))
    (collected : (List.range' first prompts.length).mapM e.scheduler.resultOf = some results) :
    List.Forall₂ (PlainResult torch front loaded view params prerendered) prompts results := by
  have length := Collect.map_m_length _ _ _ collected
  rw [List.length_range'] at length
  refine List.forall₂_iff_get.mpr ⟨length.symm, fun i left right => ?_⟩
  have here : (List.range' first prompts.length)[i]? = some (first + i) := by simp [left]
  obtain ⟨value, read, result⟩ := Collect.map_m_get _ _ _ collected i (first + i) here
  obtain ⟨start, made, path⟩ := paths i prompts[i] (List.getElem?_eq_getElem left)
  have future : (e.scheduler.objects (first + i)).future = some (.result value) := by
    rw [Scheduler.resultOf] at result
    split at result
    · rename_i held
      rw [held]
      exact congrArg (fun v => some (Future.result v)) (Option.some.inj result)
    · cases result
  obtain ⟨done, some_made, answer⟩ := serving.paced.engine.answered (first + i)
    (alive _ (List.mem_of_getElem? here)) value future
  rw [List.getElem?_eq_getElem right] at read
  obtain rfl := Option.some.inj read
  exact ⟨start, _, made, path, done, some_made, answer⟩

theorem unfailed_messages (decodes : Decodes loaded.tokenizer) (refs : List Nat) (serving : Serving loaded refs e now)
    (later : now ≤ around.clock tick) (unfailed : Unfailed refs e) (ref : Nat) (known : ref ∈ refs) (message : String)
    (failed : (e.round torch loaded around tick).scheduler.messageOf ref = some message) :
    message = Scheduler.stepFailed ∧ around.fails tick = true := by
  have engine := serving.paced.engine
  have silent (future : Option Future) (other : ∀ text, future ≠ some (.exception text))
      (held : ((e.round torch loaded around tick).scheduler.objects ref).future = future) : False := by
    rw [Scheduler.messageOf, held] at failed
    split at failed
    · exact other _ rfl
    · cases failed
  by_cases queued : ref ∈ e.queue
  · rcases round_answers torch loaded e now _ _ (around.draw tick) later decodes engine ref queued
      (serving.awaited ref queued) with ⟨_, waits⟩ | ⟨_, _, fails, held⟩ | ⟨_, _, value, held⟩
    · exact (silent _ (by simp) waits).elim
    · rw [Scheduler.messageOf, Engine.round, held] at failed
      exact ⟨(Option.some.inj failed).symm, fails⟩
    · exact (silent _ (by simp) held).elim
  · rcases unfailed ref known with present | ⟨value, held⟩
    · exact absurd present queued
    · have object := (round_unqueued torch loaded e now _ (around.fails tick) (around.draw tick) later decodes engine ref
        queued).2
      exact (silent _ (by simp) ((congrArg Request.future object).trans held)).elim

theorem await_own_results (decodes : Decodes loaded.tokenizer) (isLocal : PaddingLocal loaded.model view)
    (proper : loaded.padTokenId ≠ loaded.maskId) (cold : params.temperature = 0) (monotone : Monotone around.clock)
    (low : ∀ tick, TopKTiesLow (around.draw tick)) (fuel : Nat)
    (serving : Serving loaded (List.range' first prompts.length) e now) (later : now ≤ around.clock tick)
    (unfailed : Unfailed (List.range' first prompts.length) e)
    (alive : ∀ ref ∈ List.range' first prompts.length, ref < e.scheduler.fresh)
    (paths : OwnPaths torch front loaded view params prerendered prompts first e.scheduler) (e' : Engine) (outcome : Outcome)
    (ended : e.awaitGather torch loaded around (List.range' first prompts.length) tick fuel = some (e', outcome)) :
    (outcome = .raised (.runtimeError Scheduler.stepFailed) ∧ ∃ tick, around.fails tick = true) ∨
      ∃ results, outcome = .returned results ∧
        List.Forall₂ (PlainResult torch front loaded view params prerendered) prompts results := by
  induction fuel generalizing tick e now with
  | zero => cases ended
  | succ fuel ih =>
      have after := serving_round torch loaded around _ tick e now decodes serving later
      have still := own_paths_round torch front loaded view params prerendered around prompts first tick e now decodes isLocal
        proper cold (low tick) serving later paths
      have fresh := (iterate_queued torch loaded e now _ (around.fails tick) (around.draw tick) later decodes
        serving.paced.engine).2.2.1
      have kept : ∀ ref ∈ List.range' first prompts.length, ref < (e.round torch loaded around tick).scheduler.fresh :=
        fun ref known => Nat.lt_of_lt_of_eq (alive ref known) fresh.symm
      rw [Engine.awaitGather] at ended
      cases gathered : (e.round torch loaded around tick).scheduler.gathered (List.range' first prompts.length) with
      | none =>
          rw [gathered] at ended
          have goes := (await_goes_on torch loaded around _ tick e now decodes serving later unfailed gathered).1
          exact ih (tick + 1) _ (around.clock tick) after (monotone (Nat.le_succ tick)) goes kept still ended
      | some result =>
          rw [gathered] at ended
          obtain ⟨-, rfl⟩ := Prod.mk.inj (Option.some.inj ended)
          rcases gathered_cases _ _ result gathered with ⟨ref, known, message, failed, rfl⟩ | ⟨results, collected, rfl⟩
          · obtain ⟨rfl, fails⟩ := unfailed_messages torch loaded around tick e now decodes _ serving later unfailed ref known
              message failed
            exact Or.inl ⟨rfl, tick, fails⟩
          · exact Or.inr ⟨results, rfl, gathered_own_results torch front loaded view params prerendered prompts first _ _ after
              still kept results collected⟩

theorem plain_result_alone (isLocal : PaddingLocal loaded.model view) (cold : params.temperature = 0) (prompt : String)
    (value : Option GenerationOutput) (result : PlainResult torch front loaded view params prerendered prompt value) :
    ∃ encoded, front.encodePrompt prerendered prompt = .ok encoded ∧
      ∀ draws : Nat → Nat → Draw V, (∀ block step, TopKTiesLow (draws block step)) → ∃ row output,
        denoise torch loaded.model loaded.maskId .ample draws (.single encoded.1) none params = .ok [row] ∧
          value = some output ∧ RowOutput loaded.tokenizer row encoded.1.length output := by
  obtain ⟨start, final, ⟨encoded, encodes, made⟩, path, done, some_made, answer⟩ := result
  refine ⟨encoded, encodes, fun draws lowDraws => ?_⟩
  obtain ⟨halt, row, returned, single, onward, halted⟩ := denoise_plain torch view loaded.maskId loaded.model draws params isLocal
    cold lowDraws (.single encoded.1) encoded.1 rfl none (Or.inl rfl) start made
  obtain rfl : final = halt := Transition.halted_unique _ _ start _ halt path onward done halted
  obtain ⟨output, rfl⟩ := Option.ne_none_iff_exists'.mp some_made
  refine ⟨row, output, returned, rfl, ?_⟩
  have length : final.promptLen = encoded.1.length := by
    rw [(plain_path_same torch view loaded.maskId start final path).promptLen]
    exact (initial_row loaded.maskId _ params start encoded.1 rfl made).2.symm
  rw [← length]
  exact make_output_row_output loaded.tokenizer final row output single answer.symm

end Generate

-- Engine.generate is denoise, prompt by prompt: a call on an idle engine, whatever was asked
-- of it before, ends, and unless a step fails it returns one output for each prompt, in order,
-- with the tokens that denoise makes of that prompt alone.
theorem generate_each_alone {V : Type} (torch : Torch V) (front : Frontend) (loaded : LoadedModel V)
    (view : List Token → Nat → V) (decodes : Decodes loaded.tokenizer) (isLocal : PaddingLocal loaded.model view)
    (proper : loaded.padTokenId ≠ loaded.maskId) (maxBatch maxWaiting : Nat) (r : EngineRun)
    (reach : Transition.Reachable (InitialEngine maxBatch maxWaiting) (CallStep torch front loaded) r)
    (idle : r.engine.scheduler.pending = [] ∧ r.engine.scheduler.active = []) (steps : 1 ≤ r.engine.scheduler.maxBatch)
    (params : SamplingParams) (cold : params.temperature = 0) (prerendered : Bool) (prompts : List String)
    (around : Surroundings V) (accepted : AllPrepared front loaded params prerendered around 0 prompts)
    (room : prompts.length ≤ r.engine.scheduler.maxWaiting) (monotone : Monotone around.clock)
    (later : r.now ≤ around.clock 0) (low : ∀ tick, TopKTiesLow (around.draw tick)) :
    (∃ fuel final, r.engine.generate torch front loaded params prerendered around prompts fuel = some final) ∧
      ∀ fuel e' outcome,
        r.engine.generate torch front loaded params prerendered around prompts fuel = some (e', outcome) →
        (outcome = .raised (.runtimeError Scheduler.stepFailed) ∧ ∃ tick, around.fails tick = true) ∨
          ∃ results, outcome = .returned results ∧ List.Forall₂ (fun prompt value =>
            ∃ encoded, front.encodePrompt prerendered prompt = .ok encoded ∧
              ∀ draws : Nat → Nat → Draw V, (∀ block step, TopKTiesLow (draws block step)) → ∃ row output,
                denoise torch loaded.model loaded.maskId .ample draws (.single encoded.1) none params = .ok [row] ∧
                  value = some output ∧ RowOutput loaded.tokenizer row encoded.1.length output) prompts results := by
  have invariant := reachable_calls torch front loaded decodes maxBatch maxWaiting r reach
  have empty : r.engine.queue = [] := List.append_eq_nil_iff.mpr ⟨idle.2, idle.1⟩
  have fits : Fits front loaded params prerendered around prompts r.engine := ⟨accepted, room⟩
  refine ⟨generate_returns torch front loaded params prerendered around prompts r.engine r.now decodes monotone invariant later
    empty steps, fun fuel e' outcome ended => ?_⟩
  have alone := plain_result_alone torch front loaded view params prerendered isLocal cold
  obtain ⟨serving, unfailed⟩ :=
    admitted_serving front loaded params prerendered around prompts r.engine r.now monotone invariant later empty fits
  rw [generate_awaits torch front loaded params prerendered around prompts r.engine empty fits] at ended
  split at ended
  · rename_i none_given
    subst none_given
    rw [finish_alive _ _ serving.paced.engine.alive] at ended
    obtain ⟨-, rfl⟩ := Prod.mk.inj (Option.some.inj ended)
    exact Or.inr ⟨[], rfl, .nil⟩
  · obtain ⟨⟨last, result⟩, awaited, done⟩ := Option.map_eq_some_iff.mp ended
    have paced := await_paced torch loaded around decodes monotone _ fuel _ _ _ serving.paced (le_refl _) last result awaited
    have final : last.finish result = (e', outcome) := done
    rw [finish_alive last result paced.engine.alive] at final
    obtain ⟨-, rfl⟩ := Prod.mk.inj final
    have paths : OwnPaths torch front loaded view params prerendered prompts r.engine.scheduler.fresh
        (Engine.admitted front loaded params prerendered around prompts r.engine).scheduler := fun i prompt read =>
      ⟨_, admitted_states front loaded params prerendered around r.engine prompts empty fits i prompt read, .refl⟩
    have queue := (generate_room front loaded params prerendered around prompts r.engine empty fits).2.2
    have alive : ∀ ref ∈ List.range' r.engine.scheduler.fresh prompts.length,
        ref < (Engine.admitted front loaded params prerendered around prompts r.engine).scheduler.fresh :=
      fun ref known => serving.paced.engine.queues.alive ref (by rwa [← queue] at known)
    rcases await_own_results torch front loaded view params prerendered around prompts _ _ _ _ decodes isLocal proper cold
      monotone low fuel serving (le_refl _) unfailed alive paths last result awaited with failed | ⟨results, returned, each⟩
    · exact Or.inl failed
    · exact Or.inr ⟨results, returned, each.imp alone⟩

theorem token_params_prepared (ticks : List Nat) (tick : Nat) (prompts : List String) :
    AllPrepared writtenFrontend (writtenLoaded sameAnswer) tokenParams true (failingAt ticks) tick prompts := by
  intro i prompt _
  exact ⟨_, ([prompt.length], some [1]), rfl, by decide,
    init_state_accepts _ tokenParams _ 1 1 1 ⟨rfl, rfl, rfl, by decide, by decide, by decide⟩ rfl⟩

theorem generate_each_alone_two : ∃ e' row,
    (idleEngine 2 2).engine.generate writtenTorch writtenFrontend (writtenLoaded sameAnswer) tokenParams true (failingAt [])
      ["a", "bcd"] 9 =
      some (e', .returned [some ⟨[1], [2], "decoded"⟩, some ⟨[3], [2], "decoded"⟩]) ∧
    denoise writtenTorch (writtenModel sameAnswer) 9 .ample (fun _ _ => lowDraw) (.single [3]) none tokenParams = .ok [row] ∧
    [2] = row.drop 1 := by
  have runs : ((idleEngine 2 2).engine.generate writtenTorch writtenFrontend (writtenLoaded sameAnswer) tokenParams true
      (failingAt []) ["a", "bcd"] 9).map Prod.snd =
        some (.returned [some ⟨[1], [2], "decoded"⟩, some ⟨[3], [2], "decoded"⟩]) := by decide +kernel
  obtain ⟨⟨e', outcome⟩, ended, rfl⟩ := Option.map_eq_some_iff.mp runs
  have each := (generate_each_alone writtenTorch writtenFrontend (writtenLoaded sameAnswer) (fun _ c => sameAnswer c)
    written_decodes (written_local sameAnswer) (by decide) 2 2 (idleEngine 2 2) ⟨_, [], idle_engine_initial 2 2, .nil⟩
    ⟨rfl, rfl⟩ (by decide) tokenParams rfl true ["a", "bcd"] (failingAt []) (token_params_prepared [] 0 _) (by decide)
    (fun _ _ less => Nat.cast_le.mpr less) (le_refl _) fun _ => low_draw_ties_low).2 9 e' _ ended
  obtain ⟨failed, _⟩ | ⟨results, returned, each⟩ := each
  · cases failed
  · obtain rfl := Outcome.returned.inj returned
    cases each with
    | cons _ rest =>
        cases rest with
        | cons second _ =>
            obtain ⟨encoded, encodes, second⟩ := second
            obtain rfl := Except.ok.inj encodes
            obtain ⟨row, output, alone, same, shape⟩ := second (fun _ _ => lowDraw) fun _ _ => low_draw_ties_low
            obtain rfl := Option.some.inj same
            exact ⟨e', row, ended, alone, shape.outputIds⟩

end Dlmserve
