import Dlmserve.ServerSpec

set_option autoImplicit false

namespace Dlmserve

section Resumption

-- How a handler goes on at its await, by what it awaited.
inductive Resumption (handler : Handler) (metrics : Metrics) (scheduler : Scheduler) : Metrics × Handler → Prop where
  | shutDown (ref : Nat) (awaits : handler.awaits = some (.gather ref))
      (stopped : handler.cancelled = true ∨ (scheduler.objects ref).future = some .cancelled) :
      Resumption handler metrics scheduler (handler.shutDown metrics)
  | answered (ref : Nat) (value : Option GenerationOutput) (awaits : handler.awaits = some (.gather ref))
      (kept : handler.cancelled = false) (future : (scheduler.objects ref).future = some (.result value)) :
      Resumption handler metrics scheduler (handler.respond metrics value)
  | failed (ref : Nat) (message : String) (awaits : handler.awaits = some (.gather ref))
      (kept : handler.cancelled = false) (future : (scheduler.objects ref).future = some (.exception message)) :
      Resumption handler metrics scheduler (handler.engineError metrics (.runtimeError message))
  | threadCancelled (call : SingleCall) (job : Job) (awaits : handler.awaits = some (.toThread call job))
      (stopped : handler.cancelled = true) : Resumption handler metrics scheduler (metrics, handler.ends .cancelled)
  | computed (call : SingleCall) (output : GenerationOutput)
      (awaits : handler.awaits = some (.toThread call (.finished (.ok output)))) (kept : handler.cancelled = false) :
      Resumption handler metrics scheduler (handler.respond metrics (some output))
  | threadRaised (call : SingleCall) (error : PyError)
      (awaits : handler.awaits = some (.toThread call (.finished (.error error)))) (kept : handler.cancelled = false) :
      Resumption handler metrics scheduler (metrics, handler.ends (.raised error))

variable (handler : Handler) (metrics : Metrics) (scheduler : Scheduler) (booked : Metrics × Handler)

theorem resume_cases (resumes : handler.resume metrics scheduler = some booked) :
    handler.ending = none ∧ Resumption handler metrics scheduler booked := by
  rw [Handler.resume] at resumes
  cases unfinished : handler.ending with
  | some ending => simp [unfinished] at resumes
  | none =>
      refine ⟨rfl, ?_⟩
      cases awaits : handler.awaits with
      | none => simp [unfinished, awaits] at resumes
      | some await =>
          cases await with
          | gather ref =>
              cases stopped : handler.cancelled with
              | true =>
                  obtain rfl : handler.shutDown metrics = booked := by simpa [unfinished, awaits, stopped] using resumes
                  exact .shutDown ref awaits (Or.inl stopped)
              | false =>
                  cases future : (scheduler.objects ref).future with
                  | none => simp [unfinished, awaits, stopped, future] at resumes
                  | some future' =>
                      cases future' with
                      | pending => simp [unfinished, awaits, stopped, future] at resumes
                      | result value =>
                          obtain rfl : handler.respond metrics value = booked := by
                            simpa [unfinished, awaits, stopped, future] using resumes
                          exact .answered ref value awaits stopped future
                      | exception message =>
                          obtain rfl : handler.engineError metrics (.runtimeError message) = booked := by
                            simpa [unfinished, awaits, stopped, future] using resumes
                          exact .failed ref message awaits stopped future
                      | cancelled =>
                          obtain rfl : handler.shutDown metrics = booked := by
                            simpa [unfinished, awaits, stopped, future] using resumes
                          exact .shutDown ref awaits (Or.inr future)
          | toThread call job =>
              cases stopped : handler.cancelled with
              | true =>
                  obtain rfl : (metrics, handler.ends .cancelled) = booked := by
                    simpa [unfinished, awaits, stopped] using resumes
                  exact .threadCancelled call job awaits stopped
              | false =>
                  cases job with
                  | queued => simp [unfinished, awaits, stopped] at resumes
                  | running => simp [unfinished, awaits, stopped] at resumes
                  | dropped => simp [unfinished, awaits, stopped] at resumes
                  | finished result =>
                      cases result with
                      | ok output =>
                          obtain rfl : handler.respond metrics (some output) = booked := by
                            simpa [unfinished, awaits, stopped] using resumes
                          exact .computed call output awaits stopped
                      | error error =>
                          obtain rfl : (metrics, handler.ends (.raised error)) = booked := by
                            simpa [unfinished, awaits, stopped] using resumes
                          exact .threadRaised call error awaits stopped

theorem respond_keeps (value : Option GenerationOutput) :
    (handler.respond metrics value).2.awaits = handler.awaits ∧
      (handler.respond metrics value).2.cancelled = handler.cancelled ∧
      (handler.respond metrics value).2.ending ≠ none := by
  cases value with
  | none => exact ⟨rfl, rfl, Option.some_ne_none _⟩
  | some output => exact ⟨rfl, rfl, Option.some_ne_none _⟩

theorem engine_error_keeps (error : PyError) :
    (handler.engineError metrics error).2.awaits = handler.awaits ∧
      (handler.engineError metrics error).2.cancelled = handler.cancelled ∧
      (handler.engineError metrics error).2.ending ≠ none := by
  rw [Handler.engineError]
  split <;> exact ⟨rfl, rfl, Option.some_ne_none _⟩

theorem resumption_keeps (resumption : Resumption handler metrics scheduler booked) :
    booked.2.awaits = handler.awaits ∧ booked.2.cancelled = handler.cancelled ∧ booked.2.ending ≠ none := by
  cases resumption with
  | shutDown ref awaits stopped => exact ⟨rfl, rfl, Option.some_ne_none _⟩
  | answered ref value awaits kept future => exact respond_keeps handler metrics value
  | failed ref message awaits kept future => exact engine_error_keeps handler metrics _
  | threadCancelled call job awaits stopped => exact ⟨rfl, rfl, Option.some_ne_none _⟩
  | computed call output awaits kept => exact respond_keeps handler metrics (some output)
  | threadRaised call error awaits kept => exact ⟨rfl, rfl, Option.some_ne_none _⟩

end Resumption

section Handlers

variable {V : Type} (torch : Torch V) (app : App V) (time : ℚ) (s s' : Server) (action : ServerAction V)

inductive HandlerMove (h : Nat) (handler : Handler) : Handler → Prop where
  | same : HandlerMove h handler handler
  | woken (booked : Metrics × Handler) (wakes : action = .wake h) (unfinished : handler.ending = none)
      (resumption : Resumption handler s.metrics s.engine.scheduler booked) : HandlerMove h handler booked.2
  | cancelled (unfinished : handler.ending = none) : HandlerMove h handler { handler with cancelled := true }
  | jobChanged (call : SingleCall) (job : Job) (change : Handler → SingleCall → Job → Job)
      (acts : JobAction torch app action h change) (awaits : handler.awaits = some (.toThread call job)) :
      HandlerMove h handler { handler with awaits := some (.toThread call (change handler call job)) }

theorem set_handler_move (h h' : Nat) (handler old new : Handler) (read : s.handlers[h]? = some handler)
    (replaced : s.handlers[h']? = some old) (move : h' = h → HandlerMove torch app s action h old new) :
    ∃ handler', (s.handlers.set h' new)[h]? = some handler' ∧ HandlerMove torch app s action h handler handler' := by
  rw [List.getElem?_set]
  by_cases same : h' = h
  · subst same
    obtain rfl : handler = old := Option.some.inj (read.symm.trans replaced)
    rw [if_pos rfl, if_pos (List.getElem?_eq_some_iff.mp read).1]
    exact ⟨new, rfl, move rfl⟩
  · rw [if_neg same]
    exact ⟨handler, read, .same⟩

theorem move_handler (move : ServerMove torch app time s action s') (h : Nat) (handler : Handler)
    (read : s.handlers[h]? = some handler) :
    ∃ handler', s'.handlers[h]? = some handler' ∧ HandlerMove torch app s action h handler handler' := by
  cases move with
  | still => exact ⟨handler, read, .same⟩
  | arrived reqId body drawn full engine booked valid arrival =>
      have inside := (List.getElem?_eq_some_iff.mp read).1
      exact ⟨handler, (List.getElem?_append_left inside).trans read, .same⟩
  | iterated fails draw => exact ⟨handler, read, .same⟩
  | woken h' old booked found resumes =>
      obtain ⟨unfinished, resumption⟩ := resume_cases old _ _ booked resumes
      apply set_handler_move torch app s _ h h' handler old booked.2 read found
      intro same
      exact .woken booked (congrArg ServerAction.wake same) unfinished resumption
  | gatherCancelled h' old ref found unfinished awaits =>
      exact set_handler_move torch app s _ h h' handler old { old with cancelled := true } read found
        fun _ => .cancelled unfinished
  | threadCancelled h' old call job found unfinished awaits =>
      exact set_handler_move torch app s _ h h' handler old { old with cancelled := true } read found
        fun _ => .cancelled unfinished
  | jobChanged _ h' old call job change acts found awaits =>
      apply set_handler_move torch app s _ h h' handler old _ read found
      intro same
      subst same
      exact .jobChanged call job change acts awaits
  | shutdown => exact ⟨handler, read, .same⟩
  | drained closed idle => exact ⟨handler, read, .same⟩

theorem move_opens (move : ServerMove torch app time s action s') :
    s'.handlers.length = s.handlers.length ∨ ∃ reqId body drawn full engine booked, action = .request reqId body drawn full ∧
      body.validate = .ok () ∧ s' = { s with engine := engine }.opened booked ∧
      Arrival app time s reqId body drawn full engine booked := by
  cases move with
  | still => exact Or.inl rfl
  | arrived reqId body drawn full engine booked valid arrival =>
      exact Or.inr ⟨reqId, body, drawn, full, engine, booked, rfl, valid, rfl, arrival⟩
  | iterated fails draw => exact Or.inl rfl
  | woken h old booked read resumes => exact Or.inl List.length_set
  | gatherCancelled h old ref read unfinished awaits => exact Or.inl List.length_set
  | threadCancelled h old call job read unfinished awaits => exact Or.inl List.length_set
  | jobChanged _ h old call job change acts read awaits => exact Or.inl List.length_set
  | shutdown => exact Or.inl rfl
  | drained closed idle => exact Or.inl rfl

theorem move_member (move : ServerMove torch app time s action s') (h : Nat) (handler' : Handler)
    (read : s'.handlers[h]? = some handler') :
    (∃ handler, s.handlers[h]? = some handler ∧ HandlerMove torch app s action h handler handler') ∨
    (s.handlers.length ≤ h ∧ ∃ reqId body drawn full engine booked, action = .request reqId body drawn full ∧
      body.validate = .ok () ∧ s' = { s with engine := engine }.opened booked ∧
      Arrival app time s reqId body drawn full engine booked ∧ handler' = booked.2) := by
  cases old : s.handlers[h]? with
  | some handler =>
      obtain ⟨moved, found, step⟩ := move_handler torch app time s s' action move h handler old
      obtain rfl := Option.some.inj (read.symm.trans found)
      exact Or.inl ⟨handler, rfl, step⟩
  | none =>
      have outside := List.getElem?_eq_none_iff.mp old
      have inside := (List.getElem?_eq_some_iff.mp read).1
      rcases move_opens torch app time s s' action move with
        same | ⟨reqId, body, drawn, full, engine, booked, request, valid, opened, arrival⟩
      · omega
      · rw [opened, Server.opened, List.getElem?_append_right outside] at read
        exact Or.inr ⟨outside, reqId, body, drawn, full, engine, booked, request, valid, opened, arrival,
          List.mem_singleton.mp (List.mem_of_getElem? read)⟩

end Handlers

section Simulation

variable {V : Type} (torch : Torch V) (app : App V)

-- What a step of the server does to its engine.
inductive EngineMove (time : ℚ) (s : Server) (action : ServerAction V) : Engine → Prop where
  | same : EngineMove time s action s.engine
  | admitted (full : Full) (rendered : String) (params : SamplingParams) (state : DenoiseState)
      (served : s.shuttingDown = false) (prepares : app.Prepares full rendered params state)
      (room : s.engine.scheduler.pending.length < s.engine.scheduler.maxWaiting) :
      EngineMove time s action { s.engine with scheduler := enqueued s.engine.scheduler time state params (some .pending) }
  | iterated (fails : Bool) (draw : Draw V) (round : action = .iterate fails draw) :
      EngineMove time s action (s.engine.iterate torch app.loaded time fails draw)
  | cancelled (ref : Nat) : EngineMove time s action { s.engine with scheduler := s.engine.scheduler.cancel ref }
  | shutdown : EngineMove time s action { s.engine with shutdown := true }

-- A handler gets to await a future by admitting a request, and in no other way.
theorem arrival_admits (time : ℚ) (s : Server) (reqId : String) (body : ChatCompletionRequest) (drawn : Int)
    (full : Full) (engine : Engine) (booked : Metrics × Handler) (arrival : Arrival app time s reqId body drawn full engine booked) :
    (engine = s.engine ∧ ∀ ref, booked.2.awaits ≠ some (.gather ref)) ∨
    ∃ rendered state, s.shuttingDown = false ∧ app.Prepares full rendered (body.samplingParams drawn) state ∧
      s.engine.scheduler.pending.length < s.engine.scheduler.maxWaiting ∧
      engine = { s.engine with
        scheduler := enqueued s.engine.scheduler time state (body.samplingParams drawn) (some .pending) } ∧
      booked.2.awaits = some (.gather s.engine.scheduler.fresh) := by
  cases arrival with
  | shuttingDown closed => exact Or.inl ⟨rfl, fun ref => (Option.some_ne_none _).symm⟩
  | notFound served other detail => exact Or.inl ⟨rfl, fun ref => (Option.some_ne_none _).symm⟩
  | template served hosted error raised => exact Or.inl ⟨rfl, fun ref => (Option.some_ne_none _).symm⟩
  | single served hosted rendered renders alone =>
      refine Or.inl ⟨rfl, fun ref => ?_⟩
      rcases start_single_cases app rendered (body.samplingParams drawn)
        (recordRequestAdmitted s.metrics { reqId := reqId, body := body }).2 with ⟨error, made, _⟩ | ⟨_, call, made⟩
      · rw [made]
        exact (Option.some_ne_none _).symm
      · simp [made]
  | admitted served hosted rendered renders batched state prepares room =>
      exact Or.inr ⟨rendered, state, served, prepares, room, rfl, rfl⟩
  | refused served hosted rendered renders batched error refuses =>
      refine Or.inl ⟨rfl, fun ref => ?_⟩
      rw [(engine_error_keeps _ _ error).1]
      exact (Option.some_ne_none _).symm

theorem move_engine (time : ℚ) (s s' : Server) (action : ServerAction V) (move : ServerMove torch app time s action s') :
    EngineMove torch app time s action s'.engine := by
  cases move with
  | still => exact .same
  | arrived reqId body drawn full engine booked valid arrival =>
      rcases arrival_admits app time s reqId body drawn full engine booked arrival with
        ⟨rfl, _⟩ | ⟨rendered, state, served, prepares, room, rfl, _⟩
      · exact .same
      · exact .admitted full rendered _ state served prepares room
  | iterated fails draw => exact .iterated fails draw rfl
  | woken h handler booked read resumes => exact .same
  | gatherCancelled h handler ref read unfinished awaits => exact .cancelled ref
  | threadCancelled h handler call job read unfinished awaits => exact .same
  | jobChanged _ h handler call job change acts read awaits => exact .same
  | shutdown => exact .shutdown
  | drained closed idle => exact .same

-- The engine's own model knows everything that the server does to it.
theorem engine_move_act (time : ℚ) (s : Server) (action : ServerAction V) (after : Engine)
    (move : EngineMove torch app time s action after) :
    after = s.engine ∨ ∃ a, after = s.engine.act torch app.loaded time a := by
  cases move with
  | same => exact Or.inl rfl
  | admitted full rendered params state served prepares room =>
      obtain ⟨promptIds, submitted⟩ :=
        prepared_submit app.toFrontend app.loaded params true time full rendered s.engine state prepares room
      exact Or.inr ⟨.submit full promptIds params, submitted.symm⟩
  | iterated fails draw round => exact Or.inr ⟨.iterate fails draw, rfl⟩
  | cancelled ref => exact Or.inr ⟨.cancel ref, rfl⟩
  | shutdown => exact Or.inr ⟨.shutdown, rfl⟩

-- The engine of a reachable server is one that the engine reaches by itself.
theorem server_engine_reachable (maxBatch maxWaiting : Nat) (r : ServerRun)
    (reach : Transition.Reachable (InitialServer maxBatch maxWaiting) (ServerStep torch app) r) :
    ∃ now, now ≤ r.now ∧
      Transition.Reachable (InitialEngine maxBatch maxWaiting) (EngineStep torch app.loaded) ⟨r.server.engine, now⟩ := by
  apply Transition.reachable_invariant _ (fun r : ServerRun => ∃ now, now ≤ r.now ∧
    Transition.Reachable (InitialEngine maxBatch maxWaiting) (EngineStep torch app.loaded) ⟨r.server.engine, now⟩) r reach
  · rintro r ⟨unused, now, rfl⟩
    exact ⟨now, le_refl now, _, [], ⟨unused, now, rfl⟩, .nil⟩
  · rintro r a r' ⟨now, earlier, reached⟩ ⟨later, rfl⟩
    have move := move_engine torch app a.1 r.server _ a.2 (act_move torch app a.1 r.server a.2)
    rcases engine_move_act torch app a.1 r.server a.2 _ move with same | ⟨action, acted⟩
    · refine ⟨now, earlier.trans later, ?_⟩
      dsimp only
      rw [same]
      exact reached
    · refine ⟨a.1, le_refl _, ?_⟩
      apply Transition.reachable_step _ _ _ (a.1, action) reached
      exact ⟨earlier.trans later, by rw [acted]⟩

theorem reachable_server_tracked (maxBatch maxWaiting : Nat) (r : ServerRun)
    (reach : Transition.Reachable (InitialServer maxBatch maxWaiting) (ServerStep torch app) r) :
    Tracked r.server.engine.scheduler r.now := by
  obtain ⟨now, earlier, reached⟩ := server_engine_reachable torch app maxBatch maxWaiting r reach
  exact waited_tracked _ now r.now earlier (reachable_tracked torch app.loaded maxBatch maxWaiting _ reached)

end Simulation

section Invariant

variable {V : Type} (torch : Torch V) (app : App V) (now time : ℚ) (s : Server) (action : ServerAction V)

def StepFails (ref : Nat) : Prop :=
  ∃ fails draw, action = .iterate fails draw ∧ FailsIn torch app.loaded s.engine time fails draw ref

theorem engine_move_futures (later : now ≤ time) (queues : Queues s.engine.scheduler now) (after : Engine)
    (move : EngineMove torch app time s action after) :
    s.engine.scheduler.fresh ≤ after.scheduler.fresh ∧
      (∀ ref < s.engine.scheduler.fresh, FutureMove (StepFails torch app time s action ref)
        (s.engine.scheduler.objects ref).future (after.scheduler.objects ref).future) ∧
      ∀ ref, s.engine.scheduler.fresh ≤ ref → ref < after.scheduler.fresh →
        (after.scheduler.objects ref).future = some .pending := by
  have none_new (fresh : after.scheduler.fresh = s.engine.scheduler.fresh) (ref : Nat)
      (old : s.engine.scheduler.fresh ≤ ref) (inside : ref < after.scheduler.fresh) :
      (after.scheduler.objects ref).future = some .pending := absurd (fresh ▸ inside) (Nat.not_lt.mpr old)
  cases move with
  | same => exact ⟨le_refl _, fun ref _ => .same _, none_new rfl⟩
  | admitted full rendered params state served prepares room =>
      refine ⟨Nat.le_succ _, ?_, ?_⟩
      · intro ref alive
        dsimp only
        rw [enqueued_old _ _ _ _ _ ref (Nat.ne_of_lt alive)]
        exact .same _
      · intro ref old inside
        obtain rfl : ref = s.engine.scheduler.fresh := Nat.le_antisymm (Nat.le_of_lt_succ inside) old
        dsimp only
        rw [enqueued_new]
        rfl
  | iterated fails draw round =>
      obtain ⟨fresh, moves⟩ := iteration_futures torch app.loaded s.engine now time fails draw later queues _
        (iterate_iteration torch app.loaded s.engine now time fails draw later queues)
      refine ⟨fresh.ge, fun ref _ => ?_, none_new fresh⟩
      exact future_move_widen _ _ (fun failing => ⟨fails, draw, round, failing⟩) _ _ (moves ref)
  | cancelled ref =>
      have fresh : (s.engine.scheduler.cancel ref).fresh = s.engine.scheduler.fresh := (cancel_queues _ ref).fresh
      exact ⟨fresh.ge, fun other _ => cancel_future_move s.engine.scheduler ref other _, none_new fresh⟩
  | shutdown => exact ⟨le_refl _, fun ref _ => .same _, none_new rfl⟩

-- The flags of the server and of its engine agree, the loop returns to an empty
-- scheduler only, and handlers await futures that exist and never hold None.
structure ServerInvariant (s : Server) : Prop where
  flags : s.shuttingDown = s.engine.shutdown
  stopped : s.engine.loop = .returned → s.engine.shutdown = true ∧ s.engine.scheduler.hasWork = false
  gathers : ∀ handler ∈ s.handlers, ∀ ref, handler.awaits = some (.gather ref) → ref < s.engine.scheduler.fresh
  results : ∀ ref < s.engine.scheduler.fresh, (s.engine.scheduler.objects ref).future ≠ some (.result none)

theorem iterate_shutdown (later : now ≤ time) (queues : Queues s.engine.scheduler now) (fails : Bool) (draw : Draw V) :
    (s.engine.iterate torch app.loaded time fails draw).shutdown = s.engine.shutdown := by
  have iteration := iterate_iteration torch app.loaded s.engine now time fails draw later queues
  generalize s.engine.iterate torch app.loaded time fails draw = after at iteration ⊢
  cases iteration with
  | quiet loop s none_run kept stays => rfl
  | failed key good chosen none_made busy => rfl
  | stepped key states good chosen made busy s raised completed => rfl

theorem move_flags (later : now ≤ time) (queues : Queues s.engine.scheduler now) (s' : Server)
    (move : ServerMove torch app time s action s') (flags : s.shuttingDown = s.engine.shutdown) :
    s'.shuttingDown = s'.engine.shutdown := by
  cases move with
  | still => exact flags
  | arrived reqId body drawn full engine booked valid arrival =>
      rcases arrival_admits app time s reqId body drawn full engine booked arrival with
        ⟨rfl, _⟩ | ⟨rendered, state, served, prepares, room, rfl, _⟩
      · exact flags
      · exact flags
  | iterated fails draw => exact flags.trans (iterate_shutdown torch app now time s later queues fails draw).symm
  | woken h handler booked read resumes => exact flags
  | gatherCancelled h handler ref read unfinished awaits => exact flags
  | threadCancelled h handler call job read unfinished awaits => exact flags
  | jobChanged _ h handler call job change acts read awaits => exact flags
  | shutdown => rfl
  | drained closed idle => exact flags

theorem iteration_stopped (e after : Engine) (fails : Bool) (draw : Draw V)
    (stopped : e.loop = .returned → e.shutdown = true ∧ e.scheduler.hasWork = false)
    (iteration : Iteration torch app.loaded e time fails draw after) :
    after.loop = .returned → after.shutdown = true ∧ after.scheduler.hasWork = false := by
  cases iteration with
  | quiet loop scheduler none_run kept stays =>
      intro returned
      have finished : e.shutdown = true ∧ e.scheduler.hasWork = false := by
        rcases stays with same | ⟨_, closed⟩
        · exact stopped (same.symm.trans returned)
        · exact closed
      refine ⟨finished.1, ?_⟩
      rcases kept with rfl | rfl
      · exact finished.2
      · dsimp only
        rw [has_work_order, Scheduler.promote_order]
        exact (has_work_order e.scheduler).mp finished.2
  | failed key good chosen none_made busy =>
      intro returned
      cases returned
  | stepped key states good chosen made busy scheduler raised completed =>
      intro returned
      cases raised <;> cases returned

theorem engine_move_stopped (later : now ≤ time) (queues : Queues s.engine.scheduler now)
    (flags : s.shuttingDown = s.engine.shutdown)
    (stopped : s.engine.loop = .returned → s.engine.shutdown = true ∧ s.engine.scheduler.hasWork = false) (after : Engine)
    (move : EngineMove torch app time s action after) :
    after.loop = .returned → after.shutdown = true ∧ after.scheduler.hasWork = false := by
  cases move with
  | same => exact stopped
  | admitted full rendered params state served prepares room =>
      intro returned
      rw [flags, (stopped returned).1] at served
      cases served
  | iterated fails draw round =>
      exact iteration_stopped torch app time s.engine _ fails draw stopped
        (iterate_iteration torch app.loaded s.engine now time fails draw later queues)
  | cancelled ref =>
      intro returned
      refine ⟨(stopped returned).1, ?_⟩
      dsimp only
      rw [has_work_order, (cancel_queues s.engine.scheduler ref).active, (cancel_queues s.engine.scheduler ref).pending]
      exact (has_work_order s.engine.scheduler).mp (stopped returned).2
  | shutdown => exact fun returned => ⟨rfl, (stopped returned).2⟩

theorem handler_move_gather (h : Nat) (handler handler' : Handler) (move : HandlerMove torch app s action h handler handler')
    (ref : Nat) : handler'.awaits = some (.gather ref) ↔ handler.awaits = some (.gather ref) := by
  cases move with
  | same => exact Iff.rfl
  | woken booked wakes unfinished resumption => rw [(resumption_keeps handler _ _ booked resumption).1]
  | cancelled unfinished => exact Iff.rfl
  | jobChanged call job change acts awaits => simp [awaits]

theorem move_gathers (s' : Server) (move : ServerMove torch app time s action s') (handler : Handler)
    (member : handler ∈ s'.handlers) (ref : Nat) (awaits : handler.awaits = some (.gather ref)) :
    (∃ old ∈ s.handlers, old.awaits = some (.gather ref)) ∨ ref < s'.engine.scheduler.fresh := by
  obtain ⟨h, read⟩ := List.mem_iff_getElem?.mp member
  rcases move_member torch app time s s' action move h handler read with
    ⟨old, found, step⟩ | ⟨_, reqId, body, drawn, full, engine, booked, _, _, rfl, arrival, rfl⟩
  · exact Or.inl ⟨old, List.mem_of_getElem? found, (handler_move_gather torch app s action h old handler step ref).mp awaits⟩
  · rcases arrival_admits app time s reqId body drawn full engine booked arrival with
      ⟨_, absent⟩ | ⟨rendered, state, served, prepares, room, rfl, admitted⟩
    · exact absurd awaits (absent ref)
    · obtain rfl : s.engine.scheduler.fresh = ref := by simpa [admitted] using awaits
      exact Or.inr (Nat.lt_succ_self _)

theorem move_invariant (later : now ≤ time) (queues : Queues s.engine.scheduler now) (invariant : ServerInvariant s)
    (s' : Server) (move : ServerMove torch app time s action s') : ServerInvariant s' := by
  have engine := move_engine torch app time s s' action move
  obtain ⟨grows, moves, news⟩ := engine_move_futures torch app now time s action later queues s'.engine engine
  refine ⟨move_flags torch app now time s action later queues s' move invariant.flags,
    engine_move_stopped torch app now time s action later queues invariant.flags invariant.stopped s'.engine engine, ?_, ?_⟩
  · intro handler member ref awaits
    rcases move_gathers torch app time s action s' move handler member ref awaits with ⟨old, before, same⟩ | new
    · exact (invariant.gathers old before ref same).trans_le grows
    · exact new
  · intro ref inside
    by_cases old : ref < s.engine.scheduler.fresh
    · exact future_move_result _ _ _ (moves ref old) (invariant.results ref old)
    · rw [news ref (Nat.not_lt.mp old) inside]
      simp

theorem reachable_server_invariant (maxBatch maxWaiting : Nat) (r : ServerRun)
    (reach : Transition.Reachable (InitialServer maxBatch maxWaiting) (ServerStep torch app) r) :
    ServerInvariant r.server := by
  apply Transition.reachable_invariant_under _ (fun r : ServerRun => ServerInvariant r.server)
    (fun r => Tracked r.server.engine.scheduler r.now) r reach
    (fun r reached => reachable_server_tracked torch app maxBatch maxWaiting r reached)
  · rintro r ⟨unused, now, rfl⟩
    refine ⟨rfl, ?_, ?_, ?_⟩
    · exact fun returned => LoopStatus.noConfusion returned
    · exact fun handler member => absurd member List.not_mem_nil
    · exact fun ref inside => absurd inside (Nat.not_lt_zero ref)
  · rintro r a r' tracked invariant ⟨later, rfl⟩
    exact move_invariant torch app r.now a.1 r.server a.2 later tracked.queues invariant _
      (act_move torch app a.1 r.server a.2)

end Invariant

end Dlmserve
