import Dlmserve.Generate

set_option autoImplicit false

namespace Dlmserve

structure App (V : Type) extends Frontend where
  modelId : String
  loaded : LoadedModel V
  repr : String → String

structure Metrics where
  requestsInFlight : Int := 0
  committedTokensPerRequest : List Nat := []
deriving DecidableEq

structure HTTPException where
  statusCode : Nat
  detail : String
deriving DecidableEq

inductive StreamEvent where
  | data (chunk : ChatCompletionStreamChunk)
  | done
deriving DecidableEq

inductive Content where
  | json (response : ChatCompletionResponse)
  | eventStream (events : List StreamEvent)
deriving DecidableEq

inductive Ending where
  | response (content : Content)
  | httpException (exception : HTTPException)
  | raised (error : PyError)
  | cancelled
deriving DecidableEq

structure SingleCall where
  promptIds : List Token
  attn : Option (List Nat)
  params : SamplingParams
deriving DecidableEq

inductive Job where
  | queued
  | running
  | finished (result : Except PyError GenerationOutput)
  | dropped
deriving DecidableEq

inductive Await where
  | gather (ref : Nat)
  | toThread (call : SingleCall) (job : Job)
deriving DecidableEq

-- One call of chat_completions: what it awaits, whether its task was cancelled there,
-- how it ended, and how often it called record_request_admitted and _done.
structure Handler where
  reqId : String
  body : ChatCompletionRequest
  awaits : Option Await := none
  cancelled : Bool := false
  ending : Option Ending := none
  admitted : Nat := 0
  released : Nat := 0
deriving DecidableEq

def recordRequestAdmitted (metrics : Metrics) (handler : Handler) : Metrics × Handler :=
  ({ metrics with requestsInFlight := metrics.requestsInFlight + 1 }, { handler with admitted := handler.admitted + 1 })

def recordRequestDone (genLength : Nat) (metrics : Metrics) (handler : Handler) : Metrics × Handler :=
  ({ metrics with
      requestsInFlight := metrics.requestsInFlight - 1
      committedTokensPerRequest := metrics.committedTokensPerRequest ++ [genLength] },
    { handler with released := handler.released + 1 })

-- except RuntimeError, of which NotImplementedError is a subclass.
def PyError.isRuntimeError : PyError → Bool
  | .runtimeError _ => true
  | .notImplementedError _ => true
  | _ => false

def streamResponse (reqId model : String) (output : GenerationOutput) : List StreamEvent :=
  [.data {
      id := reqId
      model := model
      choices := [{
        index := 0
        delta := { role := some .assistant, content := some output.text, denoisingStep := some 0 } }] },
    .data { id := reqId, model := model, choices := [{ index := 0, delta := {}, finishReason := some .stop }] },
    .done]

def completionResponse (reqId model : String) (output : GenerationOutput) : ChatCompletionResponse where
  id := reqId
  model := model
  choices := [{ index := 0, message := ⟨.assistant, output.text⟩ }]
  usage := {
    promptTokens := output.promptIds.length
    completionTokens := output.outputIds.length
    totalTokens := output.promptIds.length + output.outputIds.length }

namespace Handler

variable (handler : Handler) (metrics : Metrics)

def ends (ending : Ending) : Handler := { handler with ending := some ending }

-- A result that is None has no output_ids.
def respond (value : Option GenerationOutput) : Metrics × Handler :=
  match value with
  | none => (metrics, handler.ends (.raised (.attributeError "'NoneType' object has no attribute 'output_ids'")))
  | some output =>
      let done := recordRequestDone output.outputIds.length metrics handler
      (done.1, done.2.ends (.response (
        if handler.body.stream then .eventStream (streamResponse handler.reqId handler.body.model output)
        else .json (completionResponse handler.reqId handler.body.model output))))

def shutDown : Metrics × Handler :=
  let done := recordRequestDone 0 metrics handler
  (done.1, done.2.ends (.httpException ⟨503, "server shutting down"⟩))

-- except RuntimeError around generate_async, which lets other exceptions through.
def engineError (error : PyError) : Metrics × Handler :=
  if error.isRuntimeError then
    let done := recordRequestDone 0 metrics handler
    (done.1, done.2.ends (.httpException ⟨429, "server busy"⟩))
  else (metrics, handler.ends (.raised error))

def resume (scheduler : Scheduler) : Option (Metrics × Handler) :=
  match handler.ending with
  | some _ => none
  | none =>
      match handler.awaits with
      | none => none
      | some (.gather ref) =>
          if handler.cancelled then some (handler.shutDown metrics)
          else
            match (scheduler.objects ref).future with
            | some (.result value) => some (handler.respond metrics value)
            | some (.exception message) => some (handler.engineError metrics (.runtimeError message))
            | some .cancelled => some (handler.shutDown metrics)
            | _ => none
      | some (.toThread _ job) =>
          if handler.cancelled then some (metrics, handler.ends .cancelled)
          else
            match job with
            | .finished (.ok output) => some (handler.respond metrics (some output))
            | .finished (.error error) => some (metrics, handler.ends (.raised error))
            | _ => none

end Handler

structure Server where
  engine : Engine
  shuttingDown : Bool := false
  metrics : Metrics := {}
  handlers : List Handler := []
  drained : Bool := false

section Calls

variable {V : Type} (torch : Torch V) (app : App V)

def Engine.generateAsync (now : ℚ) (full : Full) (rendered : String) (params : SamplingParams) (e : Engine) :
    Engine × Except PyError Nat :=
  e.admitPrompt app.toFrontend app.loaded params true now full rendered

def SingleCall.run (full : Full) (draws : Nat → Nat → Draw V) (call : SingleCall) : Except PyError GenerationOutput := do
  let resultSeq ← denoise torch app.loaded.model app.loaded.maskId full draws (.single call.promptIds)
    (call.attn.map fun row => [row]) call.params
  let genIds := resultSeq.map fun row => row.drop call.promptIds.length
  match app.loaded.tokenizer.batchDecode genIds with
  | none => .error (.other "Exception" "batch_decode")
  | some texts =>
      match texts.head?, resultSeq.head?, genIds.head? with
      | some text, some row, some outputIds =>
          .ok { promptIds := row.take call.promptIds.length, outputIds := outputIds, text := text }
      | _, _, _ => .error (.other "IndexError" "list index out of range")

def Handler.startSingle (rendered : String) (params : SamplingParams) (handler : Handler) : Handler :=
  match app.encode rendered with
  | .error error => handler.ends (.raised error)
  | .ok encoded =>
      match app.manualSeed params.seed with
      | .error error => handler.ends (.raised error)
      | .ok _ => { handler with awaits := some (.toThread ⟨encoded.1, encoded.2, params⟩ .queued) }

end Calls

namespace Server

variable {V : Type} (torch : Torch V) (app : App V) (now : ℚ) (s : Server)

def opened (booked : Metrics × Handler) : Server := { s with metrics := booked.1, handlers := s.handlers ++ [booked.2] }

-- drawn is the seed of a body without one.
def chatCompletions (reqId : String) (body : ChatCompletionRequest) (drawn : Int) (full : Full) : Server :=
  let handler : Handler := { reqId := reqId, body := body }
  if s.shuttingDown then s.opened (s.metrics, handler.ends (.httpException ⟨503, "shutting down"⟩))
  else if body.model ≠ app.modelId then
    s.opened (s.metrics, handler.ends (.httpException
      ⟨404, "Model " ++ app.repr body.model ++ " not found. This server hosts " ++ app.repr app.modelId ++ "."⟩))
  else
    let params := body.samplingParams drawn
    match app.applyChatTemplate body.messages with
    | .error error => s.opened (s.metrics, handler.ends (.raised error))
    | .ok rendered =>
        let counted := recordRequestAdmitted s.metrics handler
        if body.forceSingleBatch then s.opened (counted.1, counted.2.startSingle app rendered params)
        else
          let submitted := s.engine.generateAsync app now full rendered params
          match submitted.2 with
          | .ok ref => { s with engine := submitted.1 }.opened (counted.1, { counted.2 with awaits := some (.gather ref) })
          | .error error => { s with engine := submitted.1 }.opened (counted.2.engineError counted.1 error)

def setHandler (h : Nat) (handler : Handler) : Server := { s with handlers := s.handlers.set h handler }

def wake (h : Nat) : Server :=
  match s.handlers[h]? with
  | none => s
  | some handler =>
      match handler.resume s.metrics s.engine.scheduler with
      | none => s
      | some booked => { s with metrics := booked.1 }.setHandler h booked.2

def cancelTask (h : Nat) : Server :=
  match s.handlers[h]? with
  | none => s
  | some handler =>
      match handler.ending, handler.awaits with
      | none, some (.gather ref) =>
          { s with engine := { s.engine with scheduler := s.engine.scheduler.cancel ref } }.setHandler h
            { handler with cancelled := true }
      | none, some (.toThread _ _) => s.setHandler h { handler with cancelled := true }
      | _, _ => s

def changeJob (h : Nat) (change : Handler → SingleCall → Job → Job) : Server :=
  match s.handlers[h]? with
  | none => s
  | some handler =>
      match handler.awaits with
      | some (.toThread call job) =>
          s.setHandler h { handler with awaits := some (.toThread call (change handler call job)) }
      | _ => s

def startJob (_ : Handler) (_ : SingleCall) : Job → Job
  | .queued => .running
  | job => job

def dropJob (handler : Handler) (_ : SingleCall) : Job → Job
  | .queued => if handler.cancelled then .dropped else .queued
  | job => job

-- The forward pass may fail for reasons outside the program.
def finishJob (failure : Option PyError) (draws : Nat → Nat → Draw V) (full : Full) (_ : Handler) (call : SingleCall) : Job → Job
  | .running =>
      .finished (match failure with
        | some error => .error error
        | none => call.run torch app full draws)
  | job => job

def beginShutdown : Server := { s with shuttingDown := true, engine := { s.engine with shutdown := true } }

def drainActive : Server :=
  if s.shuttingDown = true ∧ s.engine.scheduler.hasWork = false then { s with drained := true } else s

end Server

inductive ServerAction (V : Type) where
  | request (reqId : String) (body : ChatCompletionRequest) (drawn : Int) (full : Full)
  | iterate (fails : Bool) (draw : Draw V)
  | wake (h : Nat)
  | cancel (h : Nat)
  | start (h : Nat)
  | drop (h : Nat)
  | work (h : Nat) (failure : Option PyError) (draws : Nat → Nat → Draw V) (full : Full)
  | shutdown
  | drain

-- A body that does not validate is answered before the handler is called.
def Server.act {V : Type} (torch : Torch V) (app : App V) (now : ℚ) (action : ServerAction V) (s : Server) : Server :=
  match action with
  | .request reqId body drawn full =>
      match body.validate with
      | .error _ => s
      | .ok _ => s.chatCompletions app now reqId body drawn full
  | .iterate fails draw => { s with engine := s.engine.iterate torch app.loaded now fails draw }
  | .wake h => s.wake h
  | .cancel h => s.cancelTask h
  | .start h => s.changeJob h Server.startJob
  | .drop h => s.changeJob h Server.dropJob
  | .work h failure draws full => s.changeJob h (Server.finishJob torch app failure draws full)
  | .shutdown => s.beginShutdown
  | .drain => s.drainActive

structure ServerRun where
  server : Server
  now : ℚ

-- Everything between two awaits is one step, and the steps of the handlers, the
-- engine's loop, the thread pool and the signal come in any order.
def ServerStep {V : Type} (torch : Torch V) (app : App V) (r : ServerRun) (a : ℚ × ServerAction V) (r' : ServerRun) : Prop :=
  r.now ≤ a.1 ∧ r' = ⟨r.server.act torch app a.1 a.2, a.1⟩

def InitialServer (maxBatch maxWaiting : Nat) (r : ServerRun) : Prop :=
  ∃ unused now, r = ⟨{ engine := { scheduler := Scheduler.init maxBatch maxWaiting unused } }, now⟩

end Dlmserve
