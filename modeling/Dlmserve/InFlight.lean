import Dlmserve.Library.Ledger
import Dlmserve.ServerDevice
import Dlmserve.ServerInvariant
import Dlmserve.Validation

set_option autoImplicit false

namespace Dlmserve

-- The handler lets its exception through, past every record_request_done.
def Ending.escapes : Ending → Bool
  | .raised _ => true
  | .cancelled => true
  | _ => false

namespace Handler

variable (handler : Handler)

def unfinished : Bool := handler.ending.isNone

def leaked : Bool := decide (handler.admitted = 1) && handler.ending.any Ending.escapes

def balance : Int := (handler.admitted : Int) - handler.released

structure Counted : Prop where
  admitted : handler.admitted = 1
  released : handler.released = 0

-- A handler that has not ended was counted and not yet released; one that has ended
-- was released if it was counted, unless its exception escaped.
structure Booked : Prop where
  once : handler.admitted ≤ 1
  pending : handler.ending = none → handler.Counted
  ended : ∀ ending, handler.ending = some ending →
    handler.released = if ending.escapes = true then 0 else handler.admitted

theorem booked_balance (booked : handler.Booked) :
    handler.balance = (if handler.unfinished = true then 1 else 0) + if handler.leaked = true then 1 else 0 := by
  have once := booked.once
  rw [balance, unfinished, leaked]
  cases ended : handler.ending with
  | none =>
      obtain ⟨admitted, released⟩ := booked.pending ended
      simp [admitted, released]
  | some ending =>
      have released := booked.ended ending ended
      cases escapes : ending.escapes with
      | false => simp [released, escapes]
      | true =>
          have counted : handler.admitted = 0 ∨ handler.admitted = 1 := by omega
          rcases counted with none | one
          · simp [released, escapes, none]
          · simp [released, escapes, one]

theorem rebooked (new : Handler) (admitted : new.admitted = handler.admitted) (released : new.released = handler.released)
    (ending : new.ending = handler.ending) (booked : handler.Booked) : new.Booked := by
  refine ⟨?_, ?_, ?_⟩
  · rw [admitted]
    exact booked.once
  · rw [ending]
    intro none
    obtain ⟨one, zero⟩ := booked.pending none
    exact ⟨admitted.trans one, released.trans zero⟩
  · rw [ending, admitted, released]
    exact booked.ended

end Handler

section Bookkeeping

variable (handler : Handler) (metrics : Metrics)

-- What a piece of the handler's code does to the books: from a counted handler it
-- makes an ended one, and the gauge moves with the handler's own balance.
structure Settled (booked : Metrics × Handler) (leaks : Prop) : Prop where
  books : booked.2.Booked
  gauge : booked.1.requestsInFlight - booked.2.balance = metrics.requestsInFlight - handler.balance
  leaks_iff : booked.2.leaked = true ↔ leaks

theorem released_settled (counted : handler.Counted) (ending : Ending) (kept : ending.escapes = false) (genLength : Nat) :
    Settled handler metrics ((recordRequestDone genLength metrics handler).1,
      (recordRequestDone genLength metrics handler).2.ends ending) False := by
  have balance : ((recordRequestDone genLength metrics handler).2.ends ending).balance = handler.balance - 1 := by
    simp only [Handler.balance, Handler.ends, recordRequestDone]
    omega
  refine ⟨⟨counted.admitted.le, fun open_ending => ?_, ?_⟩, ?_, ?_⟩
  · cases open_ending
  · intro other same
    obtain rfl : ending = other := Option.some.inj same
    simp only [Handler.ends, recordRequestDone, counted.admitted, counted.released, kept]
    rfl
  · dsimp only
    rw [balance]
    simp only [recordRequestDone]
    omega
  · simp [Handler.leaked, Handler.ends, kept]

theorem escaped_settled (counted : handler.Counted) (ending : Ending) (escapes : ending.escapes = true) :
    Settled handler metrics (metrics, handler.ends ending) True := by
  refine ⟨⟨counted.admitted.le, fun open_ending => ?_, ?_⟩, rfl, ?_⟩
  · cases open_ending
  · intro other same
    obtain rfl : ending = other := Option.some.inj same
    rw [if_pos escapes]
    exact counted.released
  · simp [Handler.leaked, Handler.ends, escapes, counted.admitted]

theorem respond_settled (counted : handler.Counted) (value : Option GenerationOutput) :
    Settled handler metrics (handler.respond metrics value) (value = none) := by
  cases value with
  | none =>
      rw [eq_self_iff_true]
      exact escaped_settled handler metrics counted _ rfl
  | some output =>
      rw [iff_false_intro (Option.some_ne_none output)]
      exact released_settled handler metrics counted _ rfl output.outputIds.length

theorem engine_error_settled (counted : handler.Counted) (error : PyError) :
    Settled handler metrics (handler.engineError metrics error) (error.isRuntimeError = false) := by
  rw [Handler.engineError]
  cases runtime : error.isRuntimeError with
  | true => simpa using released_settled handler metrics counted (.httpException ⟨429, "server busy"⟩) rfl 0
  | false => simpa using escaped_settled handler metrics counted (.raised error) rfl

def ThreadFails : Prop :=
  ∃ call job, handler.awaits = some (.toThread call job) ∧
    (handler.cancelled = true ∨ ∃ error, job = .finished (.error error))

theorem resumption_settled (counted : handler.Counted) (scheduler : Scheduler) (booked : Metrics × Handler)
    (results : ∀ ref, handler.awaits = some (.gather ref) → (scheduler.objects ref).future ≠ some (.result none))
    (resumption : Resumption handler metrics scheduler booked) :
    Settled handler metrics booked (ThreadFails handler) := by
  have batched (ref : Nat) (awaits : handler.awaits = some (.gather ref)) : ThreadFails handler ↔ False := by
    refine ⟨?_, False.elim⟩
    rintro ⟨call, job, single, _⟩
    rw [awaits] at single
    cases single
  cases resumption with
  | shutDown ref awaits stopped =>
      rw [batched ref awaits]
      exact released_settled handler metrics counted (.httpException ⟨503, "server shutting down"⟩) rfl 0
  | answered ref value awaits kept future =>
      have settled := respond_settled handler metrics counted value
      cases value with
      | none => exact absurd future (results ref awaits)
      | some output =>
          rw [batched ref awaits]
          simpa using settled
  | failed ref message awaits kept future =>
      rw [batched ref awaits]
      simpa [PyError.isRuntimeError] using engine_error_settled handler metrics counted (.runtimeError message)
  | threadCancelled call job awaits stopped =>
      have fails : ThreadFails handler := ⟨call, job, awaits, Or.inl stopped⟩
      simpa [fails] using escaped_settled handler metrics counted .cancelled rfl
  | computed call output awaits kept =>
      have succeeds : ¬ ThreadFails handler := by
        rintro ⟨call', job, single, stopped | ⟨error, raised⟩⟩
        · rw [kept] at stopped
          cases stopped
        · rw [awaits, raised] at single
          cases single
      simpa [succeeds] using respond_settled handler metrics counted (some output)
  | threadRaised call error awaits kept =>
      have fails : ThreadFails handler := ⟨call, _, awaits, Or.inr ⟨error, rfl⟩⟩
      simpa [fails] using escaped_settled handler metrics counted (.raised error) rfl

end Bookkeeping

section Leaks

variable {V : Type} (torch : Torch V) (app : App V) (time : ℚ) (s : Server)

-- The steps at which a counted handler loses its place in the gauge for good: a
-- force_single_batch request that is not encoded or seeded, a batched one whose encoding,
-- seeding or init_state raises an exception other than a RuntimeError, and a call on a
-- worker thread that fails or whose handler is cancelled.
inductive Leaks : ServerAction V → Prop where
  | single (reqId : String) (body : ChatCompletionRequest) (drawn : Int) (full : Full) (rendered : String) (error : PyError)
      (valid : body.validate = .ok ()) (served : s.shuttingDown = false) (hosted : body.model = app.modelId)
      (renders : app.applyChatTemplate body.messages = .ok rendered) (alone : body.forceSingleBatch = true)
      (unready : app.Unready rendered (body.samplingParams drawn) error) : Leaks (.request reqId body drawn full)
  | batched (reqId : String) (body : ChatCompletionRequest) (drawn : Int) (full : Full) (rendered : String) (error : PyError)
      (valid : body.validate = .ok ()) (served : s.shuttingDown = false) (hosted : body.model = app.modelId)
      (renders : app.applyChatTemplate body.messages = .ok rendered) (batched : body.forceSingleBatch = false)
      (unprepared : app.Unprepared full rendered (body.samplingParams drawn) error)
      (other : error.isRuntimeError = false) : Leaks (.request reqId body drawn full)
  | thread (h : Nat) (handler : Handler) (read : s.handlers[h]? = some handler) (unfinished : handler.ending = none)
      (fails : ThreadFails handler) : Leaks (.wake h)

theorem leaks_request (reqId : String) (body : ChatCompletionRequest) (drawn : Int) (full : Full)
    (leaks : Leaks app s (.request reqId body drawn full)) :
    s.shuttingDown = false ∧ body.model = app.modelId ∧ ∃ rendered error,
      app.applyChatTemplate body.messages = .ok rendered ∧
        ((body.forceSingleBatch = true ∧ app.Unready rendered (body.samplingParams drawn) error) ∨
          (body.forceSingleBatch = false ∧ app.Unprepared full rendered (body.samplingParams drawn) error ∧
            error.isRuntimeError = false)) := by
  cases leaks with
  | single _ _ _ _ rendered error valid served hosted renders alone unready =>
      exact ⟨served, hosted, rendered, error, renders, Or.inl ⟨alone, unready⟩⟩
  | batched _ _ _ _ rendered error valid served hosted renders batched unprepared other =>
      exact ⟨served, hosted, rendered, error, renders, Or.inr ⟨batched, unprepared, other⟩⟩

def Entered (booked : Metrics × Handler) (leaks : Prop) : Prop :=
  booked.2.Booked ∧ booked.1.requestsInFlight = s.metrics.requestsInFlight + booked.2.balance ∧
    (booked.2.leaked = true ↔ leaks)

theorem uncounted_entered (reqId : String) (body : ChatCompletionRequest) (ending : Ending) (leaks : Prop) (none : ¬ leaks) :
    Entered s (s.metrics, Handler.ends { reqId := reqId, body := body } ending) leaks := by
  refine ⟨⟨Nat.zero_le 1, fun open_ending => ?_, ?_⟩, ?_, ?_⟩
  · cases open_ending
  · intro other _
    split <;> rfl
  · exact (Int.add_zero _).symm
  · exact iff_of_false Bool.false_ne_true none

theorem awaiting_entered (reqId : String) (body : ChatCompletionRequest) (await : Await) (leaks : Prop) (none : ¬ leaks) :
    Entered s ((recordRequestAdmitted s.metrics { reqId := reqId, body := body }).1,
      { (recordRequestAdmitted s.metrics { reqId := reqId, body := body }).2 with awaits := some await }) leaks := by
  refine ⟨⟨le_refl 1, fun _ => ⟨rfl, rfl⟩, ?_⟩, rfl, iff_of_false Bool.false_ne_true none⟩
  intro ending ended
  cases ended

theorem settled_entered (reqId : String) (body : ChatCompletionRequest) (booked : Metrics × Handler) (ends leaks : Prop)
    (settled : Settled (recordRequestAdmitted s.metrics { reqId := reqId, body := body }).2
      (recordRequestAdmitted s.metrics { reqId := reqId, body := body }).1 booked ends) (same : ends ↔ leaks) :
    Entered s booked leaks := by
  refine ⟨settled.books, ?_, settled.leaks_iff.trans same⟩
  have moved := settled.gauge
  simp only [recordRequestAdmitted, Handler.balance] at moved ⊢
  omega

-- A full queue is a RuntimeError, so another exception comes from the request itself.
theorem escaping_unprepared (full : Full) (rendered : String) (params : SamplingParams) (e : Engine) (error : PyError)
    (refuses : Refuses app full rendered params e error) (escapes : error.isRuntimeError = false) :
    app.Unprepared full rendered params error := by
  cases refuses with
  | unprepared _ unprepared => exact unprepared
  | filled state prepares filled => cases escapes

theorem arrival_entered (reqId : String) (body : ChatCompletionRequest) (drawn : Int) (full : Full)
    (valid : body.validate = .ok ()) (engine : Engine) (booked : Metrics × Handler)
    (arrival : Arrival app time s reqId body drawn full engine booked) :
    Entered s booked (Leaks app s (.request reqId body drawn full)) := by
  have counted : (recordRequestAdmitted s.metrics { reqId := reqId, body := body }).2.Counted := ⟨rfl, rfl⟩
  have request := leaks_request app s reqId body drawn full
  cases arrival with
  | shuttingDown closed =>
      apply uncounted_entered
      intro leaks
      rw [(request leaks).1] at closed
      cases closed
  | notFound served other detail => exact uncounted_entered s reqId body _ _ fun leaks => other (request leaks).2.1
  | template served hosted error raised =>
      apply uncounted_entered
      intro leaks
      obtain ⟨_, _, rendered, _, renders, _⟩ := request leaks
      rw [raised] at renders
      cases renders
  | single served hosted rendered renders alone =>
      rcases start_single_cases app rendered (body.samplingParams drawn)
        (recordRequestAdmitted s.metrics { reqId := reqId, body := body }).2 with ⟨error, made, unready⟩ | ⟨ready, call, made⟩
      · rw [made]
        apply settled_entered s reqId body _ _ _ (escaped_settled _ _ counted (.raised error) rfl)
        exact iff_of_true trivial (.single reqId body drawn full rendered error valid served hosted renders alone unready)
      · rw [made]
        apply awaiting_entered
        intro leaks
        obtain ⟨_, _, rendered', error, renders', ⟨_, unready⟩ | ⟨batched, _⟩⟩ := request leaks
        · obtain rfl := Except.ok.inj (renders.symm.trans renders')
          exact ready error unready
        · rw [alone] at batched
          cases batched
  | admitted served hosted rendered renders batched state prepares room =>
      apply awaiting_entered
      intro leaks
      obtain ⟨_, _, rendered', error, renders', ⟨alone, _⟩ | ⟨_, unprepared, _⟩⟩ := request leaks
      · rw [batched] at alone
        cases alone
      · obtain rfl := Except.ok.inj (renders.symm.trans renders')
        exact prepared_excludes app.toFrontend full _ _ true rendered state prepares error unprepared
  | refused served hosted rendered renders batched error refuses =>
      apply settled_entered s reqId body _ _ _ (engine_error_settled _ _ counted error)
      constructor
      · intro escapes
        exact .batched reqId body drawn full rendered error valid served hosted renders batched
          (escaping_unprepared app full rendered _ s.engine error refuses escapes) escapes
      · intro leaks
        obtain ⟨_, _, rendered', other, renders', ⟨alone, _⟩ | ⟨_, unprepared, escapes⟩⟩ := request leaks
        · rw [batched] at alone
          cases alone
        · obtain rfl := Except.ok.inj (renders.symm.trans renders')
          rwa [refuses_unique app full rendered _ s.engine error other refuses (.unprepared other unprepared)]

end Leaks

section Books

variable {V : Type} (torch : Torch V) (app : App V) (time : ℚ) (s s' : Server) (action : ServerAction V)

structure Books (s : Server) : Prop where
  each : ∀ handler ∈ s.handlers, handler.Booked
  gauge : s.metrics.requestsInFlight = Ledger.total Handler.balance s.handlers

theorem resumed_settled (invariant : ServerInvariant s) (h : Nat) (handler : Handler) (read : s.handlers[h]? = some handler)
    (booked : Metrics × Handler) (counted : handler.Counted)
    (resumption : Resumption handler s.metrics s.engine.scheduler booked) :
    Settled handler s.metrics booked (ThreadFails handler) := by
  apply resumption_settled handler s.metrics counted s.engine.scheduler booked _ resumption
  intro ref awaits
  exact invariant.results ref (invariant.gathers handler (List.mem_of_getElem? read) ref awaits)

theorem replaced_books (books : Books s) (engine : Engine) (h : Nat) (handler new : Handler)
    (read : s.handlers[h]? = some handler) (booked : new.Booked) (metrics : Metrics)
    (gauge : metrics.requestsInFlight - new.balance = s.metrics.requestsInFlight - handler.balance) :
    Books ({ s with engine := engine, metrics := metrics }.setHandler h new) := by
  refine ⟨?_, ?_⟩
  · intro other member
    rcases List.mem_or_eq_of_mem_set member with before | rfl
    · exact books.each other before
    · exact booked
  · have total := books.gauge
    change metrics.requestsInFlight = Ledger.total Handler.balance (s.handlers.set h new)
    rw [Ledger.total_set Handler.balance s.handlers h handler new read]
    omega

theorem move_books (invariant : ServerInvariant s) (books : Books s) (move : ServerMove torch app time s action s') :
    Books s' := by
  have kept (h : Nat) (handler : Handler) (read : s.handlers[h]? = some handler) : handler.Booked :=
    books.each handler (List.mem_of_getElem? read)
  cases move with
  | still => exact books
  | arrived reqId body drawn full engine booked valid arrival =>
      obtain ⟨enters, gauge, _⟩ := arrival_entered app time s reqId body drawn full valid engine booked arrival
      refine ⟨?_, ?_⟩
      · intro handler member
        rcases List.mem_append.mp member with before | new
        · exact books.each handler before
        · rw [List.mem_singleton.mp new]
          exact enters
      · rw [Server.opened, Ledger.total_append, ← books.gauge]
        exact gauge
  | iterated fails draw => exact ⟨books.each, books.gauge⟩
  | woken h handler booked read resumes =>
      obtain ⟨unfinished, resumption⟩ := resume_cases handler _ _ booked resumes
      have settled := resumed_settled s invariant h handler read booked ((kept h handler read).pending unfinished) resumption
      exact replaced_books s books s.engine h handler booked.2 read settled.books booked.1 settled.gauge
  | gatherCancelled h handler ref read unfinished awaits =>
      exact replaced_books s books _ h handler { handler with cancelled := true } read
        (handler.rebooked _ rfl rfl rfl (kept h handler read)) s.metrics rfl
  | threadCancelled h handler call job read unfinished awaits =>
      exact replaced_books s books s.engine h handler { handler with cancelled := true } read
        (handler.rebooked _ rfl rfl rfl (kept h handler read)) s.metrics rfl
  | jobChanged _ h handler call job change acts read awaits =>
      exact replaced_books s books s.engine h handler
        { handler with awaits := some (.toThread call (change handler call job)) } read
        (handler.rebooked _ rfl rfl rfl (kept h handler read)) s.metrics rfl
  | shutdown => exact ⟨books.each, books.gauge⟩
  | drained closed idle => exact ⟨books.each, books.gauge⟩

theorem reachable_books (maxBatch maxWaiting : Nat) (r : ServerRun)
    (reach : Transition.Reachable (InitialServer maxBatch maxWaiting) (ServerStep torch app) r) : Books r.server := by
  apply Transition.reachable_invariant_under _ (fun r : ServerRun => Books r.server)
    (fun r => ServerInvariant r.server) r reach
    (fun r reached => reachable_server_invariant torch app maxBatch maxWaiting r reached)
  · rintro r ⟨unused, now, rfl⟩
    exact ⟨fun handler member => absurd member List.not_mem_nil, rfl⟩
  · rintro r a r' invariant books ⟨_, rfl⟩
    exact move_books torch app a.1 r.server _ a.2 invariant books (act_move torch app a.1 r.server a.2)

end Books

section Leaked

variable {V : Type} (torch : Torch V) (app : App V) (time : ℚ) (s s' : Server) (action : ServerAction V)

def Server.Leaked (s : Server) : Prop := ∃ handler ∈ s.handlers, handler.leaked = true

theorem handler_move_leaked (invariant : ServerInvariant s) (books : Books s) (h : Nat) (handler handler' : Handler)
    (read : s.handlers[h]? = some handler) (move : HandlerMove torch app s action h handler handler') :
    (handler.leaked = true → handler'.leaked = true) ∧
      (handler'.leaked = true → handler.leaked = true ∨ Leaks app s action) := by
  cases move with
  | same => exact ⟨id, Or.inl⟩
  | woken booked wakes unfinished resumption =>
      have counted := (books.each handler (List.mem_of_getElem? read)).pending unfinished
      have settled := resumed_settled s invariant h handler read booked counted resumption
      refine ⟨fun leaked => ?_, fun leaked => Or.inr ?_⟩
      · simp [Handler.leaked, unfinished] at leaked
      · rw [wakes]
        exact .thread h handler read unfinished (settled.leaks_iff.mp leaked)
  | cancelled unfinished => exact ⟨id, Or.inl⟩
  | jobChanged call job change acts awaits => exact ⟨id, Or.inl⟩

theorem thread_fails_resume (handler : Handler) (metrics : Metrics) (scheduler : Scheduler)
    (unfinished : handler.ending = none) (fails : ThreadFails handler) :
    ∃ booked, handler.resume metrics scheduler = some booked := by
  obtain ⟨call, job, awaits, ends⟩ := fails
  cases stopped : handler.cancelled with
  | true => exact ⟨_, by simp only [Handler.resume, unfinished, awaits, stopped, if_true]; rfl⟩
  | false =>
      rcases ends with impossible | ⟨error, rfl⟩
      · rw [stopped] at impossible
        cases impossible
      · exact ⟨_, by simp only [Handler.resume, unfinished, awaits, stopped, Bool.false_eq_true, if_false]; rfl⟩

theorem leaks_leaked (invariant : ServerInvariant s) (books : Books s) (leaks : Leaks app s action) :
    (s.act torch app time action).Leaked := by
  have arrives (reqId : String) (body : ChatCompletionRequest) (drawn : Int) (full : Full) (valid : body.validate = .ok ())
      (request : Leaks app s (.request reqId body drawn full)) : (s.act torch app time (.request reqId body drawn full)).Leaked := by
    obtain ⟨engine, booked, made, arrival⟩ := request_arrival torch app time s reqId body drawn full valid
    obtain ⟨_, _, leaked⟩ := arrival_entered app time s reqId body drawn full valid engine booked arrival
    refine ⟨booked.2, ?_, leaked.mpr request⟩
    rw [made]
    exact List.mem_append_right _ (List.mem_singleton_self _)
  cases leaks with
  | single reqId body drawn full rendered error valid served hosted renders alone unready =>
      exact arrives reqId body drawn full valid (.single reqId body drawn full rendered error valid served hosted renders alone unready)
  | batched reqId body drawn full rendered error valid served hosted renders batched unprepared other =>
      exact arrives reqId body drawn full valid
        (.batched reqId body drawn full rendered error valid served hosted renders batched unprepared other)
  | thread h handler read unfinished fails =>
      obtain ⟨booked, resumes⟩ := thread_fails_resume handler s.metrics s.engine.scheduler unfinished fails
      have counted := (books.each handler (List.mem_of_getElem? read)).pending unfinished
      have settled := resumed_settled s invariant h handler read booked counted (resume_cases handler _ _ booked resumes).2
      refine ⟨booked.2, ?_, settled.leaks_iff.mpr fails⟩
      rw [Server.act, Server.wake, read]
      dsimp only
      rw [resumes]
      exact List.mem_set (List.getElem?_eq_some_iff.mp read).1 booked.2

theorem act_leaked (invariant : ServerInvariant s) (books : Books s) :
    (s.act torch app time action).Leaked ↔ s.Leaked ∨ Leaks app s action := by
  have move := act_move torch app time s action
  constructor
  · rintro ⟨handler', member, leaked⟩
    obtain ⟨h, read⟩ := List.mem_iff_getElem?.mp member
    rcases move_member torch app time s _ action move h handler' read with
      ⟨handler, found, step⟩ | ⟨_, reqId, body, drawn, full, engine, booked, rfl, valid, _, arrival, rfl⟩
    · rcases (handler_move_leaked torch app s action invariant books h handler handler' found step).2 leaked with
        before | leaks
      · exact Or.inl ⟨handler, List.mem_of_getElem? found, before⟩
      · exact Or.inr leaks
    · exact Or.inr ((arrival_entered app time s reqId body drawn full valid engine booked arrival).2.2.mp leaked)
  · rintro (⟨handler, member, leaked⟩ | leaks)
    · obtain ⟨h, read⟩ := List.mem_iff_getElem?.mp member
      obtain ⟨handler', found, step⟩ := move_handler torch app time s _ action move h handler read
      exact ⟨handler', List.mem_of_getElem? found,
        (handler_move_leaked torch app s action invariant books h handler handler' read step).1 leaked⟩
    · exact leaks_leaked torch app time s action invariant books leaks

theorem run_leaked (maxBatch maxWaiting : Nat) (start r : ServerRun) (initial : InitialServer maxBatch maxWaiting start)
    (trace : List (ServerRun × (ℚ × ServerAction V))) (run : Transition.Run (ServerStep torch app) start trace r) :
    r.server.Leaked ↔ ∃ entry ∈ trace, Leaks app entry.1.server entry.2.2 := by
  apply Transition.run_history (fun t : ServerRun => ServerInvariant t.server ∧ Books t.server)
    (fun t => t.server.Leaked) (fun entry => Leaks app entry.1.server entry.2.2) start r trace run
  · intro early t earlier
    exact ⟨reachable_server_invariant torch app maxBatch maxWaiting t ⟨start, early, initial, earlier⟩,
      reachable_books torch app maxBatch maxWaiting t ⟨start, early, initial, earlier⟩⟩
  · obtain ⟨unused, now, rfl⟩ := initial
    rintro ⟨handler, member, _⟩
    cases member
  · rintro s a t ⟨invariant, books⟩ ⟨_, rfl⟩
    exact act_leaked torch app a.1 s.server a.2 invariant books

end Leaked

section Balanced

-- Every counted handler was counted once and is released once, when it ends, and the
-- gauge reads how many of them have not ended.
structure Balanced (s : Server) : Prop where
  each : ∀ handler ∈ s.handlers, handler.admitted ≤ 1 ∧
    handler.released = if handler.unfinished = true then 0 else handler.admitted
  gauge : s.metrics.requestsInFlight =
    s.handlers.countP fun handler => decide (handler.admitted = 1) && handler.unfinished
  zero : (∀ handler ∈ s.handlers, handler.unfinished = false) → s.metrics.requestsInFlight = 0

theorem booked_released (handler : Handler) (booked : handler.Booked) (kept : handler.leaked = false) :
    handler.released = if handler.unfinished = true then 0 else handler.admitted := by
  rw [Handler.unfinished]
  cases ended : handler.ending with
  | none => exact (booked.pending ended).released
  | some ending =>
      have released := booked.ended ending ended
      cases escapes : ending.escapes with
      | false => simpa [escapes] using released
      | true =>
          have uncounted : handler.admitted ≠ 1 := by
            simpa [Handler.leaked, ended, escapes] using kept
          have once := booked.once
          rw [escapes, if_pos rfl] at released
          simp only [Option.isNone_some, Bool.false_eq_true, if_false]
          omega

theorem books_gauge (s : Server) (books : Books s) : s.metrics.requestsInFlight =
    (s.handlers.countP fun handler => decide (handler.admitted = 1) && handler.unfinished) +
      s.handlers.countP Handler.leaked := by
  have same : (s.handlers.countP fun handler => decide (handler.admitted = 1) && handler.unfinished) =
      s.handlers.countP Handler.unfinished := by
    apply List.countP_congr
    intro handler member
    rw [Bool.and_eq_true, decide_eq_true_iff]
    refine ⟨fun both => both.2, fun unfinished => ⟨?_, unfinished⟩⟩
    exact ((books.each handler member).pending (Option.isNone_iff_eq_none.mp unfinished)).admitted
  rw [same, books.gauge]
  exact Ledger.total_count Handler.balance s.handlers Handler.unfinished Handler.leaked fun handler member =>
    handler.booked_balance (books.each handler member)

theorem balanced_iff (s : Server) (books : Books s) : Balanced s ↔ ¬ s.Leaked := by
  constructor
  · rintro balanced ⟨handler, member, leaked⟩
    have released := (balanced.each handler member).2
    rw [Handler.leaked, Bool.and_eq_true, decide_eq_true_iff] at leaked
    obtain ⟨admitted, escaped⟩ := leaked
    cases ended : handler.ending with
    | none => simp [ended] at escaped
    | some ending =>
        have escapes : ending.escapes = true := by simpa [ended] using escaped
        have none_released := (books.each handler member).ended ending ended
        rw [if_pos escapes] at none_released
        simp [Handler.unfinished, ended, admitted, none_released] at released
  · intro kept
    have safe (handler : Handler) (member : handler ∈ s.handlers) : handler.leaked = false :=
      Bool.eq_false_iff.mpr fun leaked => kept ⟨handler, member, leaked⟩
    have gauge := books_gauge s books
    rw [List.countP_eq_zero.mpr fun handler member => Bool.eq_false_iff.mp (safe handler member)] at gauge
    refine ⟨?_, ?_, ?_⟩
    · intro handler member
      exact ⟨(books.each handler member).once, booked_released handler (books.each handler member) (safe handler member)⟩
    · simpa using gauge
    · intro finished
      rw [gauge, List.countP_eq_zero.mpr]
      · rfl
      · intro handler member
        simp [finished handler member]

end Balanced

-- After any run the gauge is right exactly when no step of the run leaked.
theorem in_flight_iff {V : Type} (torch : Torch V) (app : App V) (maxBatch maxWaiting : Nat) (start r : ServerRun)
    (initial : InitialServer maxBatch maxWaiting start) (trace : List (ServerRun × (ℚ × ServerAction V)))
    (run : Transition.Run (ServerStep torch app) start trace r) :
    Balanced r.server ↔ ∀ entry ∈ trace, ¬ Leaks app entry.1.server entry.2.2 := by
  have books := reachable_books torch app maxBatch maxWaiting r ⟨start, trace, initial, run⟩
  rw [balanced_iff r.server books, run_leaked torch app maxBatch maxWaiting start r initial trace run]
  simp only [not_exists, not_and]

def answeredActions : List (ServerAction Written) :=
  [.request "a" (tokenBody false) 0 .ample, .iterate false lowDraw, .wake 0, .request "b" (tokenBody true) 0 .ample, .start 1]

theorem in_flight_one_answered :
    (servesFrom writtenTorch writtenApp (idleServer 2 2) answeredActions).server.metrics.requestsInFlight = 1 ∧
      ∀ entry ∈ servesTrace writtenTorch writtenApp (idleServer 2 2) answeredActions,
        ¬ Leaks writtenApp entry.1.server entry.2.2 := by
  refine ⟨by decide +kernel, ?_⟩
  exact (in_flight_iff writtenTorch writtenApp 2 2 (idleServer 2 2) _ (idle_server_initial 2 2) _
    (serves_from_run writtenTorch writtenApp _ answeredActions)).mp
      ⟨by decide +kernel, by decide +kernel, by decide +kernel⟩

-- Runs after which every handler has ended and the gauge reads one: lengths that
-- init_state does not take, on both paths, a canvas that torch.full does not take, and a
-- cancelled force_single_batch request.
def leakingRuns : List (List (ServerAction Written)) :=
  [[.request "a" (lengthsBody 100 64) 0 .ample],
    [.request "b" { lengthsBody 100 64 with forceSingleBatch := true } 0 .ample, .start 0,
      .work 0 none (fun _ _ => lowDraw) .ample, .wake 0],
    [.request "c" { tokenBody false with maxTokens := some (2 ^ 63 - 1) } 0 (smallFull (2 ^ 40))],
    [.request "d" (tokenBody true) 0 .ample, .start 0, .cancel 0, .wake 0]]

theorem in_flight_leaks : leakingRuns.length = 4 ∧ ∀ actions ∈ leakingRuns,
    Transition.Reachable (InitialServer 2 2) (ServerStep writtenTorch writtenApp)
        (servesFrom writtenTorch writtenApp (idleServer 2 2) actions) ∧
      (∀ handler ∈ (servesFrom writtenTorch writtenApp (idleServer 2 2) actions).server.handlers,
        handler.unfinished = false) ∧
      (servesFrom writtenTorch writtenApp (idleServer 2 2) actions).server.metrics.requestsInFlight = 1 ∧
      ¬ Balanced (servesFrom writtenTorch writtenApp (idleServer 2 2) actions).server := by
  have ended : ∀ actions ∈ leakingRuns,
      (∀ handler ∈ (servesFrom writtenTorch writtenApp (idleServer 2 2) actions).server.handlers,
        handler.unfinished = false) ∧
      (servesFrom writtenTorch writtenApp (idleServer 2 2) actions).server.metrics.requestsInFlight = 1 := by
    decide +kernel
  refine ⟨rfl, ?_⟩
  intro actions member
  obtain ⟨finished, gauge⟩ := ended actions member
  refine ⟨serves_reachable writtenTorch writtenApp 2 2 actions, finished, gauge, ?_⟩
  intro balanced
  rw [balanced.zero finished] at gauge
  cases gauge

end Dlmserve
