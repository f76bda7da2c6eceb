import Dlmserve.EngineFollows
import Dlmserve.ServerInvariant

set_option autoImplicit false

namespace Dlmserve

structure Poses {V : Type} (app : App V) (body : ChatCompletionRequest) (promptIds : List Token)
    (attn : Option (List Nat)) (params : SamplingParams) : Prop where
  valid : body.validate = .ok ()
  hosted : body.model = app.modelId
  encoded : ∃ rendered, app.applyChatTemplate body.messages = .ok rendered ∧ app.encode rendered = .ok (promptIds, attn)
  params : ∃ drawn, params = body.samplingParams drawn

def Handler.content (handler : Handler) (output : GenerationOutput) : Content :=
  if handler.body.stream then .eventStream (streamResponse handler.reqId handler.body.model output)
  else .json (completionResponse handler.reqId handler.body.model output)

section Origins

variable {V : Type} (torch : Torch V) (app : App V) (path : DenoiseState → DenoiseState → Prop) (fine : Draw V → Prop)

-- Where the output of a handler comes from: it is the result of the request that the
-- handler awaits, whose state came along the path from the handler's own prompt to its
-- end, or the handler awaits a worker thread that has run its own call.
inductive Answer (scheduler : Scheduler) (handler : Handler) (output : GenerationOutput) : Prop where
  | batched (ref : Nat) (promptIds : List Token) (attn : Option (List Nat)) (params : SamplingParams) (start : DenoiseState)
      (awaits : handler.awaits = some (.gather ref)) (shared : handler.body.forceSingleBatch = false)
      (poses : Poses app handler.body promptIds attn params)
      (made : initState .ample (.single promptIds) params app.loaded.maskId = .ok start)
      (taken : path start (scheduler.objects ref).state) (done : (scheduler.objects ref).state.done = true)
      (result : (scheduler.objects ref).future = some (.result (some output)))
      (decoded : app.loaded.tokenizer.makeOutput (scheduler.objects ref).state = some output)
  | single (call : SingleCall) (full : Full) (draws : Nat → Nat → Draw V)
      (awaits : handler.awaits = some (.toThread call (.finished (.ok output))))
      (alone : handler.body.forceSingleBatch = true) (poses : Poses app handler.body call.promptIds call.attn call.params)
      (drawn : ∀ block step, fine (draws block step)) (ran : call.run torch app full draws = .ok output)

structure Origin (scheduler : Scheduler) (handler : Handler) : Prop where
  batched : ∀ ref, handler.awaits = some (.gather ref) → handler.body.forceSingleBatch = false ∧
    ∃ promptIds attn params start, Poses app handler.body promptIds attn params ∧
      initState .ample (.single promptIds) params app.loaded.maskId = .ok start ∧ path start (scheduler.objects ref).state
  single : ∀ call job, handler.awaits = some (.toThread call job) → handler.body.forceSingleBatch = true ∧
    Poses app handler.body call.promptIds call.attn call.params ∧ ∀ output, job = .finished (.ok output) →
      ∃ (full : Full) (draws : Nat → Nat → Draw V), (∀ block step, fine (draws block step)) ∧
        call.run torch app full draws = .ok output
  answered : ∀ content, handler.ending = some (.response content) →
    ∃ output, Answer torch app path fine scheduler handler output ∧ content = handler.content output

def Draws : ServerAction V → Prop
  | .iterate _ draw => fine draw
  | .work _ _ draws _ => ∀ block step, fine (draws block step)
  | _ => True

section Handlers

variable (scheduler : Scheduler) (metrics : Metrics) (handler : Handler) (output : GenerationOutput)

theorem respond_ending :
    (handler.respond metrics (some output)).2.ending = some (.response (handler.content output)) := rfl

theorem resumption_body (booked : Metrics × Handler) (resumption : Resumption handler metrics scheduler booked) :
    booked.2.body = handler.body ∧ booked.2.reqId = handler.reqId := by
  cases resumption with
  | answered ref value awaits kept future => cases value <;> exact ⟨rfl, rfl⟩
  | failed ref message awaits kept future => exact ⟨rfl, rfl⟩
  | shutDown | threadCancelled | computed | threadRaised => exact ⟨rfl, rfl⟩

-- An answer stays one while the handler keeps its body and await, and the scheduler the
-- request's state and future.
theorem answer_keeps (answer : Answer torch app path fine scheduler handler output) (scheduler' : Scheduler)
    (other : Handler) (body : other.body = handler.body) (awaits : other.awaits = handler.awaits)
    (kept : ∀ ref, handler.awaits = some (.gather ref) → (scheduler.objects ref).state.done = true →
      (scheduler.objects ref).future = some (.result (some output)) →
      (scheduler'.objects ref).state = (scheduler.objects ref).state ∧
        (scheduler'.objects ref).future = (scheduler.objects ref).future) :
    Answer torch app path fine scheduler' other output := by
  cases answer with
  | batched ref promptIds attn params start waits shared poses made taken done result decoded =>
      obtain ⟨state, future⟩ := kept ref waits done result
      rw [← state] at taken done decoded
      exact .batched ref promptIds attn params start (awaits.trans waits) (body ▸ shared) (body ▸ poses) made taken done
        (future.trans result) decoded
  | single call full draws waits alone poses drawn ran =>
      exact .single call full draws (awaits.trans waits) (body ▸ alone) (body ▸ poses) drawn ran

theorem same_body_content (other : Handler) (body : other.body = handler.body) (reqId : other.reqId = handler.reqId) :
    other.content output = handler.content output := by
  rw [Handler.content, Handler.content, body, reqId]

theorem resumption_response (booked : Metrics × Handler) (resumption : Resumption handler metrics scheduler booked)
    (content : Content) (ended : booked.2.ending = some (.response content)) :
    (∃ ref output, handler.awaits = some (.gather ref) ∧
      (scheduler.objects ref).future = some (.result (some output)) ∧ content = handler.content output) ∨
    ∃ call output, handler.awaits = some (.toThread call (.finished (.ok output))) ∧ content = handler.content output := by
  cases resumption with
  | shutDown ref awaits stopped => cases ended
  | answered ref value awaits kept future =>
      cases value with
      | none => cases ended
      | some output =>
          rw [respond_ending] at ended
          exact Or.inl ⟨ref, output, awaits, future, (Ending.response.inj (Option.some.inj ended)).symm⟩
  | failed ref message awaits kept future => cases ended
  | threadCancelled call job awaits stopped => cases ended
  | computed call output awaits kept =>
      rw [respond_ending] at ended
      exact Or.inr ⟨call, output, awaits, (Ending.response.inj (Option.some.inj ended)).symm⟩
  | threadRaised call error awaits kept => cases ended

end Handlers

-- The engine's call of step_batch, as one request of its batch sees it.
def Engine.batchCall (loaded : LoadedModel V) (time : ℚ) (draw : Draw V) (ref : Nat) (e : Engine) : BatchCall V where
  model := loaded.model
  pad := loaded.padTokenId
  draw := draw
  states := (e.batch time).map fun ref => (e.scheduler.objects ref).state
  index := (e.batch time).idxOf ref

theorem stepped_batch_step (e : Engine) (time : ℚ) (fails : Bool) (draw : Draw V) (states : List DenoiseState)
    (made : e.stepped torch app.loaded time fails draw = some states) (ref : Nat) (member : ref ∈ e.batch time)
    (state' : DenoiseState) (read : states[(e.batch time).idxOf ref]? = some state') :
    BatchStep torch app.loaded.maskId (e.scheduler.objects ref).state (e.batchCall app.loaded time draw ref) state' := by
  refine ⟨?_, states, ?_, read⟩
  · rw [Engine.batchCall, List.getElem?_map, List.getElem?_idxOf member]
    rfl
  · rw [Engine.stepped] at made
    split at made
    · cases made
    · exact made

-- A path that every request starts on and that no round of the engine leaves, under
-- what its requests are agreed on.
structure Carried (agreed : Scheduler → Prop) : Prop where
  start : ∀ promptIds params start, initState .ample (.single promptIds) params app.loaded.maskId = .ok start → path start start
  step : ∀ (e : Engine) (now time : ℚ) (draw : Draw V) (ref : Nat) (start state' : DenoiseState),
    EngineInvariant app.loaded.tokenizer e now → now ≤ time → fine draw → agreed e.scheduler → ref ∈ e.batch time →
    path start (e.scheduler.objects ref).state →
    BatchStep torch app.loaded.maskId (e.scheduler.objects ref).state (e.batchCall app.loaded time draw ref) state' →
    Moves torch app.loaded e time draw (e.scheduler.objects ref).state state' → path start state'
  before : ∀ s s', Follows s s' → agreed s' → agreed s

section Steps

variable (agreed : Scheduler → Prop) (now time : ℚ) (s s' : Server) (action : ServerAction V)

theorem engine_move_path (carried : Carried torch app path fine agreed) (decodes : Decodes app.loaded.tokenizer)
    (later : now ≤ time) (invariant : EngineInvariant app.loaded.tokenizer s.engine now)
    (agree : agreed s.engine.scheduler) (drawn : Draws fine action) (after : Engine)
    (move : EngineMove torch app time s action after) (ref : Nat) (alive : ref < s.engine.scheduler.fresh)
    (start : DenoiseState) (taken : path start (s.engine.scheduler.objects ref).state) :
    path start (after.scheduler.objects ref).state := by
  cases move with
  | same => exact taken
  | admitted full rendered params state served prepares room =>
      dsimp only
      rw [enqueued_old _ _ _ _ _ ref (Nat.ne_of_lt alive)]
      exact taken
  | cancelled other =>
      dsimp only
      rw [(cancel_keeps s.engine.scheduler other ref).2]
      exact taken
  | shutdown => exact taken
  | iterated fails draw round =>
      subst round
      rcases iterate_object torch app.loaded s.engine now time fails draw later decodes invariant ref with
        ⟨_, object⟩ | ⟨_, _, object⟩ | ⟨states, state', member, made, read, moved, object⟩
      · rw [object]
        exact taken
      · rw [object, failed_state]
        exact taken
      · have further := carried.step s.engine now time draw ref start state' invariant later drawn agree member taken
          (stepped_batch_step torch app s.engine time fails draw states made ref member state' read) moved
        rw [object]
        split
        · rw [finished_state]
          exact further
        · exact further

-- A request that is done with its result is left alone.
theorem engine_move_settled (decodes : Decodes app.loaded.tokenizer) (later : now ≤ time)
    (invariant : EngineInvariant app.loaded.tokenizer s.engine now) (after : Engine)
    (move : EngineMove torch app time s action after) (ref : Nat) (alive : ref < s.engine.scheduler.fresh)
    (done : (s.engine.scheduler.objects ref).state.done = true) (value : Option GenerationOutput)
    (result : (s.engine.scheduler.objects ref).future = some (.result value)) :
    (after.scheduler.objects ref).state = (s.engine.scheduler.objects ref).state ∧
      (after.scheduler.objects ref).future = (s.engine.scheduler.objects ref).future := by
  have future : (after.scheduler.objects ref).future = (s.engine.scheduler.objects ref).future := by
    have moves := (engine_move_futures torch app now time s action later invariant.queues after move).2.1 ref alive
    rw [result] at moves ⊢
    exact future_move_done _ _ _ moves rfl
  refine ⟨?_, future⟩
  cases move with
  | same | shutdown => rfl
  | admitted full rendered params state served prepares room =>
      dsimp only
      rw [enqueued_old _ _ _ _ _ ref (Nat.ne_of_lt alive)]
  | cancelled other => exact (cancel_keeps s.engine.scheduler other ref).2
  | iterated fails draw round =>
      have idle : ref ∉ s.engine.batch time := fun member =>
        Bool.false_ne_true ((invariant.running ref (batch_queued app.loaded s.engine now time later invariant ref
          member)).2.2.symm.trans done)
      rcases iterate_object torch app.loaded s.engine now time fails draw later decodes invariant ref with
        ⟨_, object⟩ | ⟨member, _⟩ | ⟨_, _, member, _⟩
      · rw [object]
      · exact absurd member idle
      · exact absurd member idle

theorem job_finished (h : Nat) (handler : Handler) (call : SingleCall) (job : Job)
    (change : Handler → SingleCall → Job → Job) (acts : JobAction torch app action h change) (drawn : Draws fine action)
    (output : GenerationOutput) (finished : change handler call job = .finished (.ok output)) :
    job = .finished (.ok output) ∨
      ∃ (full : Full) (draws : Nat → Nat → Draw V), (∀ block step, fine (draws block step)) ∧
        call.run torch app full draws = .ok output := by
  cases acts with
  | start =>
      cases job with
      | queued => cases finished
      | running | finished | dropped => exact Or.inl finished
  | drop =>
      cases job with
      | queued =>
          rw [Server.dropJob] at finished
          split at finished <;> cases finished
      | running | finished | dropped => exact Or.inl finished
  | work _ failure draws full =>
      cases job with
      | queued | finished | dropped => exact Or.inl finished
      | running =>
          cases failure with
          | some error => cases (show Job.finished (.error error) = _ from finished)
          | none =>
              have ran : Job.finished (call.run torch app full draws) = _ := finished
              exact Or.inr ⟨full, draws, drawn, Job.finished.inj ran⟩

theorem job_kept (h : Nat) (handler : Handler) (call : SingleCall) (result : Except PyError GenerationOutput)
    (change : Handler → SingleCall → Job → Job) (acts : JobAction torch app action h change) :
    change handler call (.finished result) = .finished result := by
  cases acts with
  | start | drop | work => rfl

-- What a handler of the old server had its origin in, it has it in after the step.
theorem handler_move_origin (invariant : EngineInvariant app.loaded.tokenizer s.engine now) (scheduler : Scheduler)
    (bound : ∀ handler ∈ s.handlers, ∀ ref, handler.awaits = some (.gather ref) → ref < s.engine.scheduler.fresh)
    (onward : ∀ ref < s.engine.scheduler.fresh, ∀ start, path start (s.engine.scheduler.objects ref).state →
      path start (scheduler.objects ref).state)
    (kept : ∀ ref < s.engine.scheduler.fresh, (s.engine.scheduler.objects ref).state.done = true →
      ∀ value, (s.engine.scheduler.objects ref).future = some (.result value) →
      (scheduler.objects ref).state = (s.engine.scheduler.objects ref).state ∧
        (scheduler.objects ref).future = (s.engine.scheduler.objects ref).future)
    (drawn : Draws fine action) (h : Nat) (handler handler' : Handler) (read : s.handlers[h]? = some handler)
    (origin : Origin torch app path fine s.engine.scheduler handler)
    (move : HandlerMove torch app s action h handler handler') : Origin torch app path fine scheduler handler' := by
  have known (ref : Nat) (awaits : handler.awaits = some (.gather ref)) : ref < s.engine.scheduler.fresh :=
    bound handler (List.mem_of_getElem? read) ref awaits
  have batched (ref : Nat) (awaits : handler.awaits = some (.gather ref)) : handler.body.forceSingleBatch = false ∧
      ∃ promptIds attn params start, Poses app handler.body promptIds attn params ∧
        initState .ample (.single promptIds) params app.loaded.maskId = .ok start ∧ path start (scheduler.objects ref).state := by
    obtain ⟨shared, promptIds, attn, params, start, poses, made, taken⟩ := origin.batched ref awaits
    exact ⟨shared, promptIds, attn, params, start, poses, made, onward ref (known ref awaits) start taken⟩
  have stays (other : Handler) (output : GenerationOutput) (body : other.body = handler.body)
      (awaits : other.awaits = handler.awaits)
      (answer : Answer torch app path fine s.engine.scheduler handler output) :
      Answer torch app path fine scheduler other output :=
    answer_keeps torch app path fine _ handler output answer scheduler other body awaits
      fun ref waits done result => kept ref (known ref waits) done _ result
  cases move with
  | same =>
      refine ⟨batched, origin.single, fun content ended => ?_⟩
      obtain ⟨output, answer, shape⟩ := origin.answered content ended
      exact ⟨output, stays handler output rfl rfl answer, shape⟩
  | cancelled unfinished =>
      refine ⟨batched, origin.single, ?_⟩
      intro content ended
      cases unfinished.symm.trans ended
  | jobChanged call job change acts awaits =>
      obtain ⟨alone, poses, before⟩ := origin.single call job awaits
      refine ⟨?_, ?_, ?_⟩
      · intro ref impossible
        cases impossible
      · rintro call' job' ⟨⟩
        refine ⟨alone, poses, fun output finished => ?_⟩
        rcases job_finished torch app fine action h handler call job change acts drawn output finished with old | ran
        · exact before output old
        · exact ran
      · intro content ended
        obtain ⟨output, answer, shape⟩ := origin.answered content ended
        refine ⟨output, stays { handler with awaits := some (.toThread call (change handler call job)) } output rfl ?_ answer,
          shape⟩
        cases answer with
        | batched ref _ _ _ _ waits => cases awaits.symm.trans waits
        | single call' full draws waits =>
            obtain ⟨rfl, rfl⟩ := Await.toThread.inj (Option.some.inj (awaits.symm.trans waits))
            dsimp only
            rw [awaits, job_kept torch app action h handler call _ change acts]
  | woken booked wakes unfinished resumption =>
      obtain ⟨body, reqId⟩ := resumption_body _ _ handler booked resumption
      obtain ⟨awaits, _, _⟩ := resumption_keeps handler _ _ booked resumption
      refine ⟨?_, ?_, ?_⟩
      · intro ref waits
        rw [body]
        exact batched ref (awaits.symm.trans waits)
      · intro call job waits
        rw [body]
        exact origin.single call job (awaits.symm.trans waits)
      · intro content ended
        rcases resumption_response _ _ handler booked resumption content ended with
          ⟨ref, output, waits, future, shape⟩ | ⟨call, output, waits, shape⟩
        · obtain ⟨shared, promptIds, attn, params, start, poses, made, taken⟩ := origin.batched ref waits
          obtain ⟨done, _, decoded⟩ := invariant.answered ref (known ref waits) _ future
          refine ⟨output, ?_, shape.trans (same_body_content handler output booked.2 body reqId).symm⟩
          exact stays booked.2 output body awaits
            (.batched ref promptIds attn params start waits shared poses made taken done future decoded.symm)
        · obtain ⟨alone, poses, ran⟩ := origin.single call _ waits
          obtain ⟨full, draws, fair, computed⟩ := ran output rfl
          refine ⟨output, ?_, shape.trans (same_body_content handler output booked.2 body reqId).symm⟩
          exact stays booked.2 output body awaits (.single call full draws waits alone poses fair computed)

theorem silent_origin (scheduler : Scheduler) (handler : Handler) (noAwait : handler.awaits = none)
    (noResponse : ∀ content, handler.ending ≠ some (.response content)) : Origin torch app path fine scheduler handler := by
  refine ⟨?_, ?_, fun content ended => absurd ended (noResponse content)⟩
  · intro ref awaits
    cases noAwait.symm.trans awaits
  · intro call job awaits
    cases noAwait.symm.trans awaits

theorem raised_origin (scheduler : Scheduler) (handler : Handler) (noAwait : handler.awaits = none) (error : PyError) :
    Origin torch app path fine scheduler (handler.ends (.raised error)) := by
  apply silent_origin torch app path fine scheduler (handler.ends (.raised error)) noAwait
  intro content ended
  cases ended

theorem start_single_origin (scheduler : Scheduler) (handler : Handler) (noAwait : handler.awaits = none)
    (unfinished : handler.ending = none) (alone : handler.body.forceSingleBatch = true) (rendered : String) (drawn : Int)
    (valid : handler.body.validate = .ok ()) (hosted : handler.body.model = app.modelId)
    (renders : app.applyChatTemplate handler.body.messages = .ok rendered) :
    Origin torch app path fine scheduler (handler.startSingle app rendered (handler.body.samplingParams drawn)) := by
  rw [Handler.startSingle]
  cases encodes : app.encode rendered with
  | error error => exact raised_origin torch app path fine scheduler handler noAwait error
  | ok encoded =>
      cases seeds : app.manualSeed (handler.body.samplingParams drawn).seed with
      | error error => exact raised_origin torch app path fine scheduler handler noAwait error
      | ok _ =>
          refine ⟨?_, ?_, ?_⟩
          · intro ref awaits
            cases awaits
          · rintro call job ⟨⟩
            refine ⟨alone, ⟨valid, hosted, ⟨rendered, renders, encodes⟩, drawn, rfl⟩, ?_⟩
            intro output finished
            cases finished
          · intro content ended
            cases unfinished.symm.trans ended

-- A handler that has just arrived awaits the request it admitted, or its own call.
theorem arrival_origin (carried : Carried torch app path fine agreed) (reqId : String) (body : ChatCompletionRequest)
    (drawn : Int) (full : Full) (engine : Engine) (booked : Metrics × Handler) (valid : body.validate = .ok ())
    (arrival : Arrival app time s reqId body drawn full engine booked) :
    Origin torch app path fine engine.scheduler booked.2 := by
  cases arrival with
  | shuttingDown | notFound =>
      apply silent_origin torch app path fine _ _ rfl
      intro content ended
      cases ended
  | template served hosted error raised => exact raised_origin torch app path fine _ _ rfl error
  | refused served hosted rendered renders batched error refuses =>
      apply silent_origin torch app path fine _ _ (engine_error_keeps _ _ error).1
      intro content ended
      rw [Handler.engineError] at ended
      split at ended <;> cases ended
  | admitted served hosted rendered renders batched state prepares room =>
      obtain ⟨encoded, encodes, seeds, made⟩ := prepares
      refine ⟨?_, ?_, ?_⟩
      · rintro ref ⟨⟩
        refine ⟨batched, encoded.1, encoded.2, _, state, ⟨valid, hosted, ⟨rendered, renders, encodes⟩, drawn, rfl⟩,
          init_state_ample _ _ _ _ made, ?_⟩
        rw [enqueued_new]
        exact carried.start _ _ state (init_state_ample _ _ _ _ made)
      · intro call job awaits
        cases awaits
      · intro content ended
        cases ended
  | single served hosted rendered renders alone =>
      exact start_single_origin torch app path fine _
        (recordRequestAdmitted s.metrics { reqId := reqId, body := body }).2 rfl rfl alone rendered drawn valid hosted renders

def AllOrigins (s : Server) : Prop := ∀ handler ∈ s.handlers, Origin torch app path fine s.engine.scheduler handler

theorem move_origins (carried : Carried torch app path fine agreed) (decodes : Decodes app.loaded.tokenizer)
    (later : now ≤ time) (invariant : EngineInvariant app.loaded.tokenizer s.engine now) (server : ServerInvariant s)
    (agree : agreed s.engine.scheduler) (drawn : Draws fine action) (origins : AllOrigins torch app path fine s)
    (move : ServerMove torch app time s action s') : AllOrigins torch app path fine s' := by
  intro handler member
  obtain ⟨h, read⟩ := List.mem_iff_getElem?.mp member
  rcases move_member torch app time s s' action move h handler read with
    ⟨old, found, step⟩ | ⟨_, reqId, body, seed, full, engine, booked, _, valid, rfl, arrival, rfl⟩
  · apply handler_move_origin torch app path fine now s action invariant s'.engine.scheduler server.gathers _ _ drawn h old
      handler found (origins old (List.mem_of_getElem? found)) step
    · intro ref alive start taken
      exact engine_move_path torch app path fine agreed now time s action carried decodes later invariant agree drawn _
        (move_engine torch app time s s' action move) ref alive start taken
    · intro ref alive done value result
      exact engine_move_settled torch app now time s action decodes later invariant _
        (move_engine torch app time s s' action move) ref alive done value result
  · exact arrival_origin torch app path fine agreed time s carried reqId body seed full engine booked valid arrival

theorem move_follows (decodes : Decodes app.loaded.tokenizer) (later : now ≤ time)
    (invariant : EngineInvariant app.loaded.tokenizer s.engine now) (move : ServerMove torch app time s action s') :
    Follows s.engine.scheduler s'.engine.scheduler := by
  rcases engine_move_act torch app time s action _ (move_engine torch app time s s' action move) with same | ⟨a, acted⟩
  · rw [same]
    exact follows_refl _
  · rw [acted]
    exact act_follows torch app.loaded s.engine now time a later decodes invariant

end Steps

theorem reachable_server_engine (decodes : Decodes app.loaded.tokenizer) (maxBatch maxWaiting : Nat) (r : ServerRun)
    (reach : Transition.Reachable (InitialServer maxBatch maxWaiting) (ServerStep torch app) r) :
    ∃ now, now ≤ r.now ∧ EngineInvariant app.loaded.tokenizer r.server.engine now := by
  obtain ⟨now, earlier, reached⟩ := server_engine_reachable torch app maxBatch maxWaiting r reach
  exact ⟨now, earlier, reachable_engine_invariant torch app.loaded decodes maxBatch maxWaiting _ reached⟩

-- Whatever the requests agree on in the end, they agreed on all along, so that every
-- handler of the run has its origin.
theorem run_origins (agreed : Scheduler → Prop) (carried : Carried torch app path fine agreed)
    (decodes : Decodes app.loaded.tokenizer) (maxBatch maxWaiting : Nat) (start r : ServerRun)
    (initial : InitialServer maxBatch maxWaiting start) (trace : List (ServerRun × (ℚ × ServerAction V)))
    (run : Transition.Run (ServerStep torch app) start trace r) (drawn : ∀ entry ∈ trace, Draws fine entry.2.2)
    (agree : agreed r.server.engine.scheduler) : AllOrigins torch app path fine r.server := by
  refine (Transition.run_permitted (fun t : ServerRun =>
    Transition.Reachable (InitialServer maxBatch maxWaiting) (ServerStep torch app) t ∧
      (agreed t.server.engine.scheduler → AllOrigins torch app path fine t.server))
    (fun _ a => Draws fine a.2) start r trace run ⟨⟨start, [], initial, .nil⟩, fun _ => ?_⟩ drawn ?_).2 agree
  · obtain ⟨unused, now, rfl⟩ := initial
    exact fun handler member => absurd member List.not_mem_nil
  · rintro s a t ⟨reach, before⟩ permitted step
    refine ⟨Transition.reachable_step _ s t a reach step, fun agree => ?_⟩
    obtain ⟨now, earlier, invariant⟩ := reachable_server_engine torch app decodes maxBatch maxWaiting s reach
    have server := reachable_server_invariant torch app maxBatch maxWaiting s reach
    obtain ⟨later, rfl⟩ := step
    have move := act_move torch app a.1 s.server a.2
    have follows := move_follows torch app now a.1 s.server _ a.2 decodes (earlier.trans later) invariant move
    have agreedBefore := carried.before _ _ follows agree
    exact move_origins torch app path fine agreed now a.1 s.server _ a.2 carried decodes (earlier.trans later) invariant
      server agreedBefore permitted (before agreedBefore) move

end Origins

end Dlmserve
