import Dlmserve.ServerDevice
import Dlmserve.ServerInvariant

set_option autoImplicit false

namespace Dlmserve

-- The status of the answer; an exception that leaves the handler is answered with 500.
def Ending.statusCode : Ending → Option Nat
  | .response _ => some 200
  | .httpException exception => some exception.statusCode
  | .raised _ => some 500
  | .cancelled => none

def Failed (future : Option Future) : Prop := ∃ message, future = some (.exception message)

theorem future_move_failed (fails : Prop) (before after : Option Future) (move : FutureMove fails before after)
    (failed : Failed after) : Failed before ∨ (fails ∧ before = some .pending) := by
  obtain ⟨message, exception⟩ := failed
  cases move with
  | same => exact Or.inl ⟨message, exception⟩
  | answered output => simp at exception
  | failed because other => exact Or.inr ⟨because, rfl⟩
  | cancelled => simp at exception

theorem future_move_stays (fails : Prop) (before after : Option Future) (move : FutureMove fails before after)
    (failed : Failed before) : Failed after := by
  obtain ⟨message, rfl⟩ := failed
  rw [future_move_done fails _ after move rfl]
  exact ⟨message, rfl⟩

section Futures

variable {V : Type} (torch : Torch V) (app : App V) (maxBatch maxWaiting : Nat)

-- A round whose step fails while the request is in its batch and still awaited.
def FailsAwaited (entry : ServerRun × (ℚ × ServerAction V)) (ref : Nat) : Prop :=
  StepFails torch app entry.2.1 entry.1.server entry.2.2 ref ∧
    (entry.1.server.engine.scheduler.objects ref).future = some .pending

theorem failing_step (r : ServerRun) (a : ℚ × ServerAction V) (later : r.now ≤ a.1)
    (tracked : Tracked r.server.engine.scheduler r.now) (ref : Nat) (fails : FailsAwaited torch app (r, a) ref) :
    Failed ((r.server.act torch app a.1 a.2).engine.scheduler.objects ref).future := by
  obtain ⟨⟨broken, draw, round, failing⟩, pending⟩ := fails
  have iteration := iterate_iteration torch app.loaded r.server.engine r.now a.1 broken draw later tracked.queues
  have failed := failed_iteration_future torch app.loaded r.server.engine a.1 broken draw _ iteration ref failing pending
  dsimp only at round
  rw [round]
  exact ⟨_, failed⟩

-- A round fails a future that waits for it and no other step does; once failed it stays so.
theorem failed_step_iff (r : ServerRun) (a : ℚ × ServerAction V) (later : r.now ≤ a.1)
    (tracked : Tracked r.server.engine.scheduler r.now) (ref : Nat) (alive : ref < r.server.engine.scheduler.fresh) :
    ref < (r.server.act torch app a.1 a.2).engine.scheduler.fresh ∧
      (Failed ((r.server.act torch app a.1 a.2).engine.scheduler.objects ref).future ↔
        Failed (r.server.engine.scheduler.objects ref).future ∨ FailsAwaited torch app (r, a) ref) := by
  obtain ⟨grows, moves, _⟩ := engine_move_futures torch app r.now a.1 r.server a.2 later tracked.queues _
    (move_engine torch app a.1 r.server _ a.2 (act_move torch app a.1 r.server a.2))
  refine ⟨alive.trans_le grows, future_move_failed _ _ _ (moves ref alive), ?_⟩
  rintro (failed | fails)
  · exact future_move_stays _ _ _ (moves ref alive) failed
  · exact failing_step torch app r a later tracked ref fails

theorem future_history (r after : ServerRun) (trace : List (ServerRun × (ℚ × ServerAction V)))
    (reach : Transition.Reachable (InitialServer maxBatch maxWaiting) (ServerStep torch app) r)
    (run : Transition.Run (ServerStep torch app) r trace after) (ref : Nat)
    (alive : ref < r.server.engine.scheduler.fresh)
    (pending : (r.server.engine.scheduler.objects ref).future = some .pending) :
    Failed (after.server.engine.scheduler.objects ref).future ↔ ∃ entry ∈ trace, FailsAwaited torch app entry ref := by
  have tracked (t : ServerRun) (reached : Transition.Reachable (InitialServer maxBatch maxWaiting) (ServerStep torch app) t) :=
    reachable_server_tracked torch app maxBatch maxWaiting t reached
  apply Transition.run_history (fun t : ServerRun =>
    Tracked t.server.engine.scheduler t.now ∧ ref < t.server.engine.scheduler.fresh)
    (fun t => Failed (t.server.engine.scheduler.objects ref).future) (fun entry => FailsAwaited torch app entry ref) r after
    trace run
  · intro early t earlier
    refine ⟨tracked t (Transition.reachable_run _ r t early reach earlier), ?_⟩
    have both := Transition.run_invariant (fun u : ServerRun =>
      Transition.Reachable (InitialServer maxBatch maxWaiting) (ServerStep torch app) u ∧
        ref < u.server.engine.scheduler.fresh) r t early earlier ⟨reach, alive⟩ ?_
    · exact both.2
    · rintro u a v ⟨reached, inside⟩ step
      refine ⟨Transition.reachable_step _ u v a reached step, ?_⟩
      obtain ⟨later, rfl⟩ := step
      exact (failed_step_iff torch app u a later (tracked u reached) ref inside).1
  · rintro ⟨message, failed⟩
    rw [pending] at failed
    cases failed
  · rintro s a t ⟨holds, inside⟩ ⟨later, rfl⟩
    exact (failed_step_iff torch app s a later holds ref inside).2

end Futures

section Answers

-- What a handler answers that awaited a future: 429 exactly when the future failed and
-- the handler was not cancelled.
structure Answers (handler : Handler) (future : Option Future) : Prop where
  settled : handler.ending ≠ none → handler.cancelled = true ∨ ∃ done, future = some done ∧ done.done = true
  status : ∀ ending, handler.ending = some ending →
    (ending.statusCode = some 429 ↔ handler.cancelled = false ∧ Failed future)

theorem unfinished_answers (handler : Handler) (future : Option Future) (unfinished : handler.ending = none) :
    Answers handler future := by
  refine ⟨fun ended => absurd unfinished ended, fun ending ended => ?_⟩
  rw [unfinished] at ended
  cases ended

theorem moved_answers (handler : Handler) (fails : Prop) (before after : Option Future)
    (move : FutureMove fails before after) (answers : Answers handler before) : Answers handler after := by
  refine ⟨fun ended => ?_, fun ending ended => ?_⟩
  · rcases answers.settled ended with stopped | ⟨future, rfl, done⟩
    · exact Or.inl stopped
    · exact Or.inr ⟨future, future_move_done fails future after move done, done⟩
  · rw [answers.status ending ended]
    rcases answers.settled (by rw [ended]; exact Option.some_ne_none ending) with stopped | ⟨future, rfl, done⟩
    · simp [stopped]
    · rw [future_move_done fails future after move done]

theorem resumption_answers (handler : Handler) (metrics : Metrics) (scheduler : Scheduler) (ref : Nat)
    (booked : Metrics × Handler) (awaits : handler.awaits = some (.gather ref))
    (resumption : Resumption handler metrics scheduler booked) : Answers booked.2 (scheduler.objects ref).future := by
  have kept := (resumption_keeps handler metrics scheduler booked resumption).2.1
  have same (other : Nat) (found : handler.awaits = some (.gather other)) : other = ref := by
    simpa [awaits] using found.symm
  refine ⟨fun _ => ?_, fun ending ended => ?_⟩
  · rw [kept]
    cases resumption with
    | shutDown other found stopped =>
        rw [same other found] at stopped
        exact stopped.imp_right fun future => ⟨_, future, rfl⟩
    | answered other value found _ future => exact Or.inr ⟨_, same other found ▸ future, rfl⟩
    | failed other message found _ future => exact Or.inr ⟨_, same other found ▸ future, rfl⟩
    | threadCancelled call job found stopped => exact Or.inl stopped
    | computed call output found _ => simp [awaits] at found
    | threadRaised call error found _ => simp [awaits] at found
  · rw [kept]
    cases resumption with
    | shutDown other found stopped =>
        obtain rfl := Option.some.inj ended
        refine iff_of_false (by simp [Ending.statusCode]) ?_
        rintro ⟨running, message, failed⟩
        rcases stopped with stopped | cancelled
        · rw [running] at stopped
          cases stopped
        · rw [same other found, failed] at cancelled
          cases cancelled
    | answered other value found running future =>
        rw [same other found] at future
        refine iff_of_false ?_ fun ⟨_, message, failed⟩ => by rw [future] at failed; cases failed
        cases value <;> (obtain rfl := Option.some.inj ended; simp [Ending.statusCode])
    | failed other message found running future =>
        rw [same other found] at future
        obtain rfl := Option.some.inj ended
        exact iff_of_true rfl ⟨running, message, future⟩
    | threadCancelled call job found stopped => simp [awaits] at found
    | computed call output found _ => simp [awaits] at found
    | threadRaised call error found _ => simp [awaits] at found

variable {V : Type} (torch : Torch V) (app : App V) (maxBatch maxWaiting : Nat)

theorem handler_move_answers (s : Server) (action : ServerAction V) (h : Nat) (handler handler' : Handler) (ref : Nat)
    (awaits : handler.awaits = some (.gather ref)) (answers : Answers handler (s.engine.scheduler.objects ref).future)
    (move : HandlerMove torch app s action h handler handler') :
    Answers handler' (s.engine.scheduler.objects ref).future := by
  cases move with
  | same => exact answers
  | woken booked wakes unfinished resumption =>
      exact resumption_answers handler s.metrics s.engine.scheduler ref booked awaits resumption
  | cancelled unfinished => exact unfinished_answers _ _ unfinished
  | jobChanged call job change acts single => simp [awaits] at single

theorem answering_run (r after : ServerRun) (trace : List (ServerRun × (ℚ × ServerAction V)))
    (reach : Transition.Reachable (InitialServer maxBatch maxWaiting) (ServerStep torch app) r)
    (run : Transition.Run (ServerStep torch app) r trace after) (h ref : Nat) (handler : Handler)
    (read : r.server.handlers[h]? = some handler) (awaits : handler.awaits = some (.gather ref))
    (unfinished : handler.ending = none) :
    ∃ handler', after.server.handlers[h]? = some handler' ∧ handler'.awaits = some (.gather ref) ∧
      Answers handler' (after.server.engine.scheduler.objects ref).future := by
  induction run with
  | nil => exact ⟨handler, read, awaits, unfinished_answers handler _ unfinished⟩
  | snoc trace s t a earlier last ih =>
      obtain ⟨before, found, waits, answers⟩ := ih
      have reached := Transition.reachable_run _ r s trace reach earlier
      have tracked := reachable_server_tracked torch app maxBatch maxWaiting s reached
      have alive := (reachable_server_invariant torch app maxBatch maxWaiting s reached).gathers before
        (List.mem_of_getElem? found) ref waits
      obtain ⟨later, rfl⟩ := last
      have move := act_move torch app a.1 s.server a.2
      obtain ⟨_, moves, _⟩ := engine_move_futures torch app s.now a.1 s.server a.2 later tracked.queues _
        (move_engine torch app a.1 s.server _ a.2 move)
      obtain ⟨handler', found', step⟩ := move_handler torch app a.1 s.server _ a.2 move h before found
      refine ⟨handler', found', (handler_move_gather torch app s.server a.2 h before handler' step ref).mpr waits, ?_⟩
      exact moved_answers handler' _ _ _ (moves ref alive)
        (handler_move_answers torch app s.server a.2 h before handler' ref waits answers step)

theorem ended_run (r after : ServerRun) (trace : List (ServerRun × (ℚ × ServerAction V)))
    (run : Transition.Run (ServerStep torch app) r trace after) (h : Nat) (handler : Handler)
    (read : r.server.handlers[h]? = some handler) (awaits : handler.awaits = none) (ended : handler.ending ≠ none) :
    after.server.handlers[h]? = some handler := by
  apply Transition.run_invariant (fun t : ServerRun => t.server.handlers[h]? = some handler) r after trace run read
  rintro s a t found ⟨_, rfl⟩
  obtain ⟨handler', found', step⟩ := move_handler torch app a.1 s.server _ a.2 (act_move torch app a.1 s.server a.2) h
    handler found
  cases step with
  | same => exact found'
  | woken booked wakes unfinished resumption => exact absurd unfinished ended
  | cancelled unfinished => exact absurd unfinished ended
  | jobChanged call job change acts single =>
      rw [awaits] at single
      cases single

end Answers

section Rejection

variable {V : Type} (torch : Torch V) (app : App V) (full : Full) (e : Engine) (body : ChatCompletionRequest) (drawn : Int)

def Rejected : Prop :=
  ∃ rendered state, app.applyChatTemplate body.messages = .ok rendered ∧
    app.Prepares full rendered (body.samplingParams drawn) state ∧ e.scheduler.maxWaiting ≤ e.scheduler.pending.length

-- Encoding the prompt, seeding the generator or init_state raises a RuntimeError.
def RaisesRuntimeError : Prop :=
  ∃ rendered error, app.applyChatTemplate body.messages = .ok rendered ∧
    app.Unprepared full rendered (body.samplingParams drawn) error ∧ error.isRuntimeError = true

def LostToFailure (trace : List (ServerRun × (ℚ × ServerAction V))) (handler : Handler) : Prop :=
  handler.cancelled = false ∧
    ∃ ref, handler.awaits = some (.gather ref) ∧ ∃ entry ∈ trace, FailsAwaited torch app entry ref

theorem prepared_raises_none (rendered : String) (renders : app.applyChatTemplate body.messages = .ok rendered)
    (state : DenoiseState) (prepares : app.Prepares full rendered (body.samplingParams drawn) state) :
    ¬ RaisesRuntimeError app full body drawn := by
  rintro ⟨rendered', error, renders', unprepared, _⟩
  obtain rfl := Except.ok.inj (renders.symm.trans renders')
  exact prepared_excludes app.toFrontend full _ _ true rendered state prepares error unprepared

theorem unprepared_not_rejected (rendered : String) (renders : app.applyChatTemplate body.messages = .ok rendered)
    (error : PyError) (unprepared : app.Unprepared full rendered (body.samplingParams drawn) error) :
    ¬ Rejected app full e body drawn := by
  rintro ⟨rendered', state, renders', prepares, _⟩
  obtain rfl := Except.ok.inj (renders.symm.trans renders')
  exact prepared_excludes app.toFrontend full _ _ true rendered state prepares error unprepared

theorem unprepared_raises_iff (rendered : String) (renders : app.applyChatTemplate body.messages = .ok rendered)
    (error : PyError) (unprepared : app.Unprepared full rendered (body.samplingParams drawn) error) :
    RaisesRuntimeError app full body drawn ↔ error.isRuntimeError = true := by
  constructor
  · rintro ⟨rendered', other, renders', unprepared', runtime⟩
    obtain rfl := Except.ok.inj (renders.symm.trans renders')
    have raised := (unprepared_iff app.toFrontend full _ _ true rendered error).mpr unprepared
    rw [(unprepared_iff app.toFrontend full _ _ true rendered other).mpr unprepared'] at raised
    rwa [← Except.error.inj raised]
  · exact fun runtime => ⟨rendered, error, renders, unprepared, runtime⟩

-- generate_async raises a RuntimeError for a full queue, and otherwise where a part of it does.
theorem refused_iff (rendered : String) (renders : app.applyChatTemplate body.messages = .ok rendered) (error : PyError)
    (refuses : Refuses app full rendered (body.samplingParams drawn) e error) :
    (error.isRuntimeError = true ↔ Rejected app full e body drawn) ↔ ¬ RaisesRuntimeError app full body drawn := by
  cases refuses with
  | unprepared _ unprepared =>
      have accepted := unprepared_not_rejected app full e body drawn rendered renders error unprepared
      rw [unprepared_raises_iff app full body drawn rendered renders error unprepared]
      simp [accepted]
  | filled state prepares filled =>
      have turned_away : Rejected app full e body drawn := ⟨rendered, state, renders, prepares, filled⟩
      have raises := prepared_raises_none app full body drawn rendered renders state prepares
      simp [turned_away, raises, PyError.isRuntimeError, Engine.queueFull]

end Rejection

section Exact

variable {V : Type} (torch : Torch V) (app : App V) (maxBatch maxWaiting : Nat)

theorem engine_error_status (handler : Handler) (metrics : Metrics) (error : PyError) (ending : Ending)
    (ended : (handler.engineError metrics error).2.ending = some ending) :
    ending.statusCode = some 429 ↔ error.isRuntimeError = true := by
  rw [Handler.engineError] at ended
  cases runtime : error.isRuntimeError with
  | true =>
      rw [runtime] at ended
      obtain rfl := Option.some.inj ended
      simp [Ending.statusCode]
  | false =>
      rw [runtime] at ended
      obtain rfl := Option.some.inj ended
      simp [Ending.statusCode]

theorem unawaited_unlost (trace : List (ServerRun × (ℚ × ServerAction V))) (handler : Handler)
    (none_awaits : handler.awaits = none) : ¬ LostToFailure torch app trace handler := by
  rintro ⟨_, ref, awaits, _⟩
  rw [none_awaits] at awaits
  cases awaits

theorem admitted_answer (r after : ServerRun) (trace : List (ServerRun × (ℚ × ServerAction V)))
    (reach : Transition.Reachable (InitialServer maxBatch maxWaiting) (ServerStep torch app) r)
    (run : Transition.Run (ServerStep torch app) r trace after) (h ref : Nat) (first handler : Handler)
    (opened : r.server.handlers[h]? = some first) (waits : first.awaits = some (.gather ref))
    (unfinished : first.ending = none) (pending : (r.server.engine.scheduler.objects ref).future = some .pending)
    (read : after.server.handlers[h]? = some handler) (ending : Ending) (ended : handler.ending = some ending) :
    ending.statusCode = some 429 ↔ LostToFailure torch app trace handler := by
  have alive := (reachable_server_invariant torch app maxBatch maxWaiting r reach).gathers first
    (List.mem_of_getElem? opened) ref waits
  have history := future_history torch app maxBatch maxWaiting r after trace reach run ref alive pending
  obtain ⟨handler', found, awaits, answers⟩ :=
    answering_run torch app maxBatch maxWaiting r after trace reach run h ref first opened waits unfinished
  obtain rfl := Option.some.inj (read.symm.trans found)
  rw [answers.status ending ended, history]
  simp [LostToFailure, awaits]

end Exact

-- A batched request is answered with 429 for a full queue and nothing else exactly when its
-- encoding, its seeding and init_state raise no RuntimeError and it is not lost to a failed step.
theorem back_pressure_iff {V : Type} (torch : Torch V) (app : App V) (maxBatch maxWaiting : Nat) (r : ServerRun)
    (reach : Transition.Reachable (InitialServer maxBatch maxWaiting) (ServerStep torch app) r) (time : ℚ)
    (later : r.now ≤ time) (reqId : String) (body : ChatCompletionRequest) (drawn : Int) (full : Full)
    (valid : body.validate = .ok ()) (served : r.server.shuttingDown = false) (hosted : body.model = app.modelId)
    (batched : body.forceSingleBatch = false) (after : ServerRun) (trace : List (ServerRun × (ℚ × ServerAction V)))
    (run : Transition.Run (ServerStep torch app) ⟨r.server.act torch app time (.request reqId body drawn full), time⟩ trace after)
    (handler : Handler) (read : after.server.handlers[r.server.handlers.length]? = some handler) (ending : Ending)
    (ended : handler.ending = some ending) :
    (ending.statusCode = some 429 ↔ Rejected app full r.server.engine body drawn) ↔
      ¬ RaisesRuntimeError app full body drawn ∧ ¬ LostToFailure torch app trace handler := by
  obtain ⟨engine, booked, acted, arrival⟩ := request_arrival torch app time r.server reqId body drawn full valid
  have reached := Transition.reachable_step _ r _ _ reach
    (⟨later, rfl⟩ : ServerStep torch app r (time, .request reqId body drawn full) _)
  dsimp only at reached
  rw [acted] at run reached
  have first := opened_last { r.server with engine := engine } booked
  have stays (none_awaits : booked.2.awaits = none) (finished : booked.2.ending ≠ none) : handler = booked.2 :=
    Option.some.inj (read.symm.trans
      (ended_run torch app _ after trace run r.server.handlers.length booked.2 first none_awaits finished))
  cases arrival with
  | shuttingDown closed =>
      rw [served] at closed
      cases closed
  | notFound _ other detail => exact absurd hosted other
  | single _ _ rendered renders alone =>
      rw [batched] at alone
      cases alone
  | template _ _ error raised =>
      have same := stays rfl (Option.some_ne_none _)
      have unlost := unawaited_unlost torch app trace handler (congrArg Handler.awaits same)
      rw [same] at ended
      obtain rfl := Option.some.inj ended
      simp [Ending.statusCode, Rejected, RaisesRuntimeError, raised, unlost]
  | refused _ _ rendered renders _ error refuses =>
      obtain ⟨none_awaits, _, finished⟩ := engine_error_keeps
        (recordRequestAdmitted r.server.metrics { reqId := reqId, body := body }).2
        (recordRequestAdmitted r.server.metrics { reqId := reqId, body := body }).1 error
      have same := stays none_awaits finished
      have unlost := unawaited_unlost torch app trace handler (same ▸ none_awaits)
      rw [engine_error_status _ _ error ending (same ▸ ended),
        refused_iff app full r.server.engine body drawn rendered renders error refuses]
      simp [unlost]
  | admitted _ _ rendered renders _ state prepares room =>
      have accepted : ¬ Rejected app full r.server.engine body drawn := by
        rintro ⟨_, _, _, _, filled⟩
        omega
      have quiet := prepared_raises_none app full body drawn rendered renders state prepares
      have lost := admitted_answer torch app maxBatch maxWaiting _ after trace reached run r.server.handlers.length
        r.server.engine.scheduler.fresh _ handler first rfl rfl (by
          change ((enqueued _ _ _ _ _).objects r.server.engine.scheduler.fresh).future = some .pending
          rw [enqueued_new]
          rfl) read ending ended
      simp [lost, accepted, quiet]

def fullServer : ServerRun := servesFrom writtenTorch writtenApp (idleServer 2 1) [.request "a" (tokenBody false) 0 .ample]

def busyHandler : Handler :=
  { reqId := "b"
    body := tokenBody false
    ending := some (.httpException ⟨429, "server busy"⟩)
    admitted := 1
    released := 1 }

theorem token_body_prepares : ∃ state,
    writtenApp.Prepares .ample "hi" ((tokenBody false).samplingParams 0) state :=
  ⟨_, ([2], some [1]), rfl, by decide,
    init_state_accepts _ _ _ 1 1 1 ⟨rfl, rfl, rfl, by decide, by decide, by decide⟩ rfl⟩

theorem back_pressure_full_queue :
    (Ending.httpException ⟨429, "server busy"⟩).statusCode = some 429 ↔
      Rejected writtenApp .ample fullServer.server.engine (tokenBody false) 0 := by
  obtain ⟨state, prepares⟩ := token_body_prepares
  apply (back_pressure_iff writtenTorch writtenApp 2 1 fullServer (serves_reachable writtenTorch writtenApp 2 1 _) 2
    (by decide +kernel) "b" (tokenBody false) 0 .ample (by decide +kernel) (by decide +kernel) rfl rfl _ [] .nil busyHandler
    (by decide +kernel) _ rfl).mpr
  refine ⟨prepared_raises_none writtenApp .ample (tokenBody false) 0 "hi" (by decide +kernel) state prepares, ?_⟩
  rintro ⟨_, ref, awaits, _⟩
  cases awaits

def lostRun : ServerRun :=
  servesFrom writtenTorch writtenApp (idleServer 2 2) [.request "a" (tokenBody false) 0 .ample, .iterate true lowDraw, .wake 0]

def crowdedRun : ServerRun :=
  servesFrom writtenTorch writtenApp (idleServer 2 2) [.request "a" (tokenBody false) 0 (smallFull 1)]

-- Two requests that an empty queue takes are answered with 429: one is admitted and lost to a
-- failed step, and the canvas of the other does not fit.
theorem failed_step_answers_busy :
    (∀ full, ¬ Rejected writtenApp full (idleServer 2 2).server.engine (tokenBody false) 0) ∧
      Transition.Reachable (InitialServer 2 2) (ServerStep writtenTorch writtenApp) lostRun ∧
      lostRun.server.engine.scheduler.fresh = 1 ∧
      lostRun.server.handlers.map (fun handler => handler.ending) = [some (.httpException ⟨429, "server busy"⟩)] ∧
      Transition.Reachable (InitialServer 2 2) (ServerStep writtenTorch writtenApp) crowdedRun ∧
      crowdedRun.server.handlers.map (fun handler => handler.ending) = [some (.httpException ⟨429, "server busy"⟩)] := by
  refine ⟨?_, serves_reachable writtenTorch writtenApp 2 2 _, by decide +kernel, by decide +kernel,
    serves_reachable writtenTorch writtenApp 2 2 _, by decide +kernel⟩
  rintro full ⟨_, _, _, _, filled⟩
  exact absurd filled (by decide)

end Dlmserve
