import Dlmserve.Prepare
import Dlmserve.Server
import Dlmserve.Settlement

set_option autoImplicit false

namespace Dlmserve

section Admission

variable {V : Type} (app : App V)

abbrev App.Prepares (full : Full) (rendered : String) (params : SamplingParams) (state : DenoiseState) : Prop :=
  Dlmserve.Prepares app.toFrontend full app.loaded.maskId params true rendered state

abbrev App.Unready (rendered : String) (params : SamplingParams) (error : PyError) : Prop :=
  Dlmserve.Unready app.toFrontend params true rendered error

abbrev App.Unprepared (full : Full) (rendered : String) (params : SamplingParams) (error : PyError) : Prop :=
  Dlmserve.Unprepared app.toFrontend full app.loaded.maskId params true rendered error

variable (full : Full) (now : ℚ) (rendered : String) (params : SamplingParams) (e : Engine)

-- Why generate_async raises before its await.
inductive Refuses : PyError → Prop where
  | unprepared (error : PyError) (unprepared : app.Unprepared full rendered params error) : Refuses error
  | filled (state : DenoiseState) (prepares : app.Prepares full rendered params state)
      (filled : e.scheduler.maxWaiting ≤ e.scheduler.pending.length) : Refuses Engine.queueFull

theorem refuses_async (error : PyError) (refuses : Refuses app full rendered params e error) :
    e.generateAsync app now full rendered params = (e, .error error) := by
  cases refuses with
  | unprepared _ unprepared =>
      exact admit_prompt_unprepared app.toFrontend app.loaded params true now full rendered e error unprepared
  | filled state prepares filled =>
      exact admit_prompt_full app.toFrontend app.loaded params true now full rendered e state prepares filled

theorem generate_async_cases :
    (∃ error, e.generateAsync app now full rendered params = (e, .error error) ∧
      Refuses app full rendered params e error) ∨
    ∃ state, app.Prepares full rendered params state ∧ e.scheduler.pending.length < e.scheduler.maxWaiting ∧
      e.generateAsync app now full rendered params =
        ({ e with scheduler := enqueued e.scheduler now state params (some .pending) }, .ok e.scheduler.fresh) := by
  have refused (error : PyError) (refuses : Refuses app full rendered params e error) :
      ∃ error, e.generateAsync app now full rendered params = (e, .error error) ∧
        Refuses app full rendered params e error :=
    ⟨error, refuses_async app full now rendered params e error refuses, refuses⟩
  rcases prepared_or_not app.toFrontend full app.loaded.maskId params true rendered with
    ⟨state, prepares⟩ | ⟨error, unprepared⟩
  · by_cases filled : e.scheduler.maxWaiting ≤ e.scheduler.pending.length
    · exact Or.inl (refused Engine.queueFull (.filled state prepares filled))
    · have room : e.scheduler.pending.length < e.scheduler.maxWaiting := by omega
      exact Or.inr ⟨state, prepares, room,
        admit_prompt_room app.toFrontend app.loaded params true now full rendered e state prepares room⟩
  · exact Or.inl (refused error (.unprepared error unprepared))

theorem refuses_unique (error other : PyError) (refuses : Refuses app full rendered params e error)
    (refuses' : Refuses app full rendered params e other) : error = other := by
  have first := refuses_async app full 0 rendered params e error refuses
  have second := refuses_async app full 0 rendered params e other refuses'
  exact Except.error.inj (Prod.mk.inj (first.symm.trans second)).2

theorem start_single_cases (handler : Handler) :
    (∃ error, handler.startSingle app rendered params = handler.ends (.raised error) ∧ app.Unready rendered params error) ∨
    ((∀ error, ¬ app.Unready rendered params error) ∧ ∃ call,
      handler.startSingle app rendered params = { handler with awaits := some (.toThread call .queued) }) := by
  rw [Handler.startSingle]
  cases encodes : app.encode rendered with
  | error error => exact Or.inl ⟨error, rfl, .encode error encodes⟩
  | ok encoded =>
      cases seeds : app.manualSeed params.seed with
      | error error => exact Or.inl ⟨error, rfl, .seed encoded error encodes seeds⟩
      | ok _ =>
          exact Or.inr ⟨encoded_ready app.toFrontend params true rendered encoded encodes seeds,
            ⟨encoded.1, encoded.2, params⟩, rfl⟩

end Admission

section Moves

variable {V : Type} (torch : Torch V) (app : App V) (time : ℚ) (s : Server)

-- What chat_completions makes of a validated body before its first await.
inductive Arrival (reqId : String) (body : ChatCompletionRequest) (drawn : Int) (full : Full) : Engine → Metrics × Handler → Prop where
  | shuttingDown (closed : s.shuttingDown = true) : Arrival reqId body drawn full s.engine
      (s.metrics, Handler.ends { reqId := reqId, body := body } (.httpException ⟨503, "shutting down"⟩))
  | notFound (served : s.shuttingDown = false) (other : body.model ≠ app.modelId) (detail : String) :
      Arrival reqId body drawn full s.engine
        (s.metrics, Handler.ends { reqId := reqId, body := body } (.httpException ⟨404, detail⟩))
  | template (served : s.shuttingDown = false) (hosted : body.model = app.modelId) (error : PyError)
      (raised : app.applyChatTemplate body.messages = .error error) : Arrival reqId body drawn full s.engine
        (s.metrics, Handler.ends { reqId := reqId, body := body } (.raised error))
  | single (served : s.shuttingDown = false) (hosted : body.model = app.modelId) (rendered : String)
      (renders : app.applyChatTemplate body.messages = .ok rendered) (alone : body.forceSingleBatch = true) :
      Arrival reqId body drawn full s.engine
        ((recordRequestAdmitted s.metrics { reqId := reqId, body := body }).1,
          (recordRequestAdmitted s.metrics { reqId := reqId, body := body }).2.startSingle app rendered
            (body.samplingParams drawn))
  | admitted (served : s.shuttingDown = false) (hosted : body.model = app.modelId) (rendered : String)
      (renders : app.applyChatTemplate body.messages = .ok rendered) (batched : body.forceSingleBatch = false)
      (state : DenoiseState) (prepares : app.Prepares full rendered (body.samplingParams drawn) state)
      (room : s.engine.scheduler.pending.length < s.engine.scheduler.maxWaiting) :
      Arrival reqId body drawn full
        { s.engine with scheduler := enqueued s.engine.scheduler time state (body.samplingParams drawn) (some .pending) }
        ((recordRequestAdmitted s.metrics { reqId := reqId, body := body }).1,
          { (recordRequestAdmitted s.metrics { reqId := reqId, body := body }).2 with
            awaits := some (.gather s.engine.scheduler.fresh) })
  | refused (served : s.shuttingDown = false) (hosted : body.model = app.modelId) (rendered : String)
      (renders : app.applyChatTemplate body.messages = .ok rendered) (batched : body.forceSingleBatch = false)
      (error : PyError) (refuses : Refuses app full rendered (body.samplingParams drawn) s.engine error) :
      Arrival reqId body drawn full s.engine
        ((recordRequestAdmitted s.metrics { reqId := reqId, body := body }).2.engineError
          (recordRequestAdmitted s.metrics { reqId := reqId, body := body }).1 error)

theorem chat_completions_arrival (reqId : String) (body : ChatCompletionRequest) (drawn : Int) (full : Full) :
    ∃ engine booked, s.chatCompletions app time reqId body drawn full = { s with engine := engine }.opened booked ∧
      Arrival app time s reqId body drawn full engine booked := by
  rw [Server.chatCompletions]
  dsimp only
  by_cases closed : s.shuttingDown = true
  · rw [if_pos closed]
    exact ⟨s.engine, _, rfl, .shuttingDown closed⟩
  rw [if_neg closed]
  have served : s.shuttingDown = false := Bool.eq_false_iff.mpr closed
  by_cases other : body.model ≠ app.modelId
  · rw [if_pos other]
    exact ⟨s.engine, _, rfl, .notFound served other _⟩
  rw [if_neg other]
  have hosted := not_not.mp other
  cases renders : app.applyChatTemplate body.messages with
  | error error => exact ⟨s.engine, _, rfl, .template served hosted error renders⟩
  | ok rendered =>
      dsimp only
      by_cases alone : body.forceSingleBatch = true
      · rw [if_pos alone]
        exact ⟨s.engine, _, rfl, .single served hosted rendered renders alone⟩
      rw [if_neg alone]
      have batched : body.forceSingleBatch = false := Bool.eq_false_iff.mpr alone
      rcases generate_async_cases app full time rendered (body.samplingParams drawn) s.engine with
        ⟨error, made, refuses⟩ | ⟨state, prepares, room, made⟩
      · rw [made]
        exact ⟨s.engine, _, rfl, .refused served hosted rendered renders batched error refuses⟩
      · rw [made]
        exact ⟨_, _, rfl, .admitted served hosted rendered renders batched state prepares room⟩

theorem request_arrival (reqId : String) (body : ChatCompletionRequest) (drawn : Int) (full : Full) (valid : body.validate = .ok ()) :
    ∃ engine booked, s.act torch app time (.request reqId body drawn full) = { s with engine := engine }.opened booked ∧
      Arrival app time s reqId body drawn full engine booked := by
  obtain ⟨engine, booked, made, arrival⟩ := chat_completions_arrival app time s reqId body drawn full
  refine ⟨engine, booked, ?_, arrival⟩
  rw [Server.act, valid]
  exact made

theorem opened_last (booked : Metrics × Handler) : (s.opened booked).handlers[s.handlers.length]? = some booked.2 := by
  rw [Server.opened, List.getElem?_append_right (le_refl _), Nat.sub_self]
  rfl

inductive JobAction : ServerAction V → Nat → (Handler → SingleCall → Job → Job) → Prop where
  | start (h : Nat) : JobAction (.start h) h Server.startJob
  | drop (h : Nat) : JobAction (.drop h) h Server.dropJob
  | work (h : Nat) (failure : Option PyError) (draws : Nat → Nat → Draw V) (full : Full) :
      JobAction (.work h failure draws full) h (Server.finishJob torch app failure draws full)

inductive ServerMove : ServerAction V → Server → Prop where
  | still (action : ServerAction V) : ServerMove action s
  | arrived (reqId : String) (body : ChatCompletionRequest) (drawn : Int) (full : Full) (engine : Engine) (booked : Metrics × Handler)
      (valid : body.validate = .ok ()) (arrival : Arrival app time s reqId body drawn full engine booked) :
      ServerMove (.request reqId body drawn full) ({ s with engine := engine }.opened booked)
  | iterated (fails : Bool) (draw : Draw V) :
      ServerMove (.iterate fails draw) { s with engine := s.engine.iterate torch app.loaded time fails draw }
  | woken (h : Nat) (handler : Handler) (booked : Metrics × Handler) (read : s.handlers[h]? = some handler)
      (resumes : handler.resume s.metrics s.engine.scheduler = some booked) :
      ServerMove (.wake h) ({ s with metrics := booked.1 }.setHandler h booked.2)
  | gatherCancelled (h : Nat) (handler : Handler) (ref : Nat) (read : s.handlers[h]? = some handler)
      (unfinished : handler.ending = none) (awaits : handler.awaits = some (.gather ref)) :
      ServerMove (.cancel h)
        ({ s with engine := { s.engine with scheduler := s.engine.scheduler.cancel ref } }.setHandler h
          { handler with cancelled := true })
  | threadCancelled (h : Nat) (handler : Handler) (call : SingleCall) (job : Job) (read : s.handlers[h]? = some handler)
      (unfinished : handler.ending = none) (awaits : handler.awaits = some (.toThread call job)) :
      ServerMove (.cancel h) (s.setHandler h { handler with cancelled := true })
  | jobChanged (action : ServerAction V) (h : Nat) (handler : Handler) (call : SingleCall) (job : Job)
      (change : Handler → SingleCall → Job → Job) (acts : JobAction torch app action h change)
      (read : s.handlers[h]? = some handler) (awaits : handler.awaits = some (.toThread call job)) :
      ServerMove action (s.setHandler h { handler with awaits := some (.toThread call (change handler call job)) })
  | shutdown : ServerMove .shutdown s.beginShutdown
  | drained (closed : s.shuttingDown = true) (idle : s.engine.scheduler.hasWork = false) :
      ServerMove .drain { s with drained := true }

theorem change_job_move (action : ServerAction V) (h : Nat) (change : Handler → SingleCall → Job → Job)
    (acts : JobAction torch app action h change) : ServerMove torch app time s action (s.changeJob h change) := by
  rw [Server.changeJob]
  cases read : s.handlers[h]? with
  | none => exact .still action
  | some handler =>
      cases awaits : handler.awaits with
      | none => simpa only [awaits] using ServerMove.still action
      | some await =>
          cases await with
          | gather ref => simpa only [awaits] using ServerMove.still action
          | toThread call job =>
              simpa only [awaits] using ServerMove.jobChanged action h handler call job change acts read awaits

theorem cancel_task_move (h : Nat) : ServerMove torch app time s (.cancel h) (s.cancelTask h) := by
  rw [Server.cancelTask]
  cases read : s.handlers[h]? with
  | none => exact .still _
  | some handler =>
      cases unfinished : handler.ending with
      | some ending => simpa only [unfinished] using ServerMove.still _
      | none =>
          cases awaits : handler.awaits with
          | none => simpa only [unfinished, awaits] using ServerMove.still _
          | some await =>
              cases await with
              | gather ref =>
                  simpa only [unfinished, awaits] using ServerMove.gatherCancelled h handler ref read unfinished awaits
              | toThread call job =>
                  simpa only [unfinished, awaits] using ServerMove.threadCancelled h handler call job read unfinished awaits

theorem act_move (action : ServerAction V) : ServerMove torch app time s action (s.act torch app time action) := by
  cases action with
  | request reqId body drawn full =>
      cases valid : body.validate with
      | error error =>
          rw [Server.act, valid]
          exact .still _
      | ok _ =>
          obtain ⟨engine, booked, made, arrival⟩ := request_arrival torch app time s reqId body drawn full valid
          rw [made]
          exact .arrived reqId body drawn full engine booked valid arrival
  | iterate fails draw => exact .iterated fails draw
  | wake h =>
      rw [Server.act, Server.wake]
      cases read : s.handlers[h]? with
      | none => exact .still _
      | some handler =>
          cases resumes : handler.resume s.metrics s.engine.scheduler with
          | none => simpa only [resumes] using ServerMove.still _
          | some booked => simpa only [resumes] using ServerMove.woken h handler booked read resumes
  | cancel h => exact cancel_task_move torch app time s h
  | start h => exact change_job_move torch app time s _ h _ (.start h)
  | drop h => exact change_job_move torch app time s _ h _ (.drop h)
  | work h failure draws full => exact change_job_move torch app time s _ h _ (.work h failure draws full)
  | shutdown => exact .shutdown
  | drain =>
      rw [Server.act, Server.drainActive]
      split
      · rename_i finished
        exact .drained finished.1 finished.2
      · exact .still _

end Moves

end Dlmserve
