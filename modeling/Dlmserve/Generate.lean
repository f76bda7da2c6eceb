import Dlmserve.Engine
import Dlmserve.Protocol

set_option autoImplicit false

namespace Dlmserve

structure Frontend where
  applyChatTemplate : List ChatMessage → Except PyError String
  encode : String → Except PyError (List Token × Option (List Nat))
  manualSeed : Int → Except PyError Unit

def Frontend.encodePrompt (front : Frontend) (prerendered : Bool) (prompt : String) :
    Except PyError (List Token × Option (List Nat)) :=
  match prerendered with
  | true => front.encode prompt
  | false =>
      match front.applyChatTemplate [⟨.user, prompt⟩] with
      | .error error => .error error
      | .ok rendered => front.encode rendered

def Frontend.prepare (front : Frontend) (full : Full) (mask : Token) (params : SamplingParams) (prerendered : Bool)
    (prompt : String) : Except PyError DenoiseState :=
  match front.encodePrompt prerendered prompt with
  | .error error => .error error
  | .ok encoded =>
      match front.manualSeed params.seed with
      | .error error => .error error
      | .ok _ => initState full (.single encoded.1) params mask

structure Surroundings (V : Type) where
  clock : Nat → ℚ
  fails : Nat → Bool
  draw : Nat → Draw V
  full : Nat → Full

-- An exception of the tokenizer comes out of the await behind the loop's cancellation.
inductive Outcome where
  | returned (results : List (Option GenerationOutput))
  | raised (error : PyError)
  | decodeRaised
deriving DecidableEq

namespace Scheduler

variable (s : Scheduler)

def messageOf (ref : Nat) : Option String :=
  match (s.objects ref).future with
  | some (.exception message) => some message
  | _ => none

def resultOf (ref : Nat) : Option (Option GenerationOutput) :=
  match (s.objects ref).future with
  | some (.result value) => some value
  | _ => none

def gathered (refs : List Nat) : Option Outcome :=
  match refs.findSome? s.messageOf with
  | some message => some (.raised (.runtimeError message))
  | none => (refs.mapM s.resultOf).map .returned

end Scheduler

namespace Engine

def queueFull : PyError := .runtimeError "server queue full — retry with backpressure"

variable {V : Type} (torch : Torch V) (front : Frontend) (loaded : LoadedModel V) (params : SamplingParams) (prerendered : Bool)

def admitPrompt (now : ℚ) (full : Full) (prompt : String) (e : Engine) : Engine × Except PyError Nat :=
  match front.prepare full loaded.maskId params prerendered prompt with
  | .error error => (e, .error error)
  | .ok state =>
      match e.scheduler.admitRequest now state params (some .pending) with
      | (_, none) => (e, .error queueFull)
      | (s, some ref) => ({ e with scheduler := s }, .ok ref)

variable (around : Surroundings V)

def admitAll (tick : Nat) (e : Engine) : List String → Engine × Except PyError (List Nat)
  | [] => (e, .ok [])
  | prompt :: prompts =>
      match e.admitPrompt front loaded params prerendered (around.clock tick) (around.full tick) prompt with
      | (e, .error error) => (e, .error error)
      | (e, .ok ref) =>
          let rest := admitAll (tick + 1) e prompts
          (rest.1, rest.2.map (ref :: ·))

def round (tick : Nat) (e : Engine) : Engine :=
  e.iterate torch loaded (around.clock tick) (around.fails tick) (around.draw tick)

-- The task that awaits wakes up two ticks of asyncio after the last future was set,
-- behind one more round of the loop.
def awaitGather (refs : List Nat) (tick : Nat) (e : Engine) : Nat → Option (Engine × Outcome)
  | 0 => none
  | fuel + 1 =>
      let e := e.round torch loaded around tick
      match e.scheduler.gathered refs with
      | none => awaitGather refs (tick + 1) e fuel
      | some outcome => some (e.round torch loaded around (tick + 1), outcome)

def finish (e : Engine) (outcome : Outcome) : Engine × Outcome :=
  if e.loop = .crashed then ({ e with shutdown := true }, .decodeRaised) else ({ e with shutdown := false }, outcome)

-- Without a suspension the loop's task is cancelled before it starts.
def generate (prompts : List String) (fuel : Nat) (e : Engine) : Option (Engine × Outcome) :=
  let admitted := admitAll front loaded params prerendered around 0 { e with loop := .running } prompts
  match admitted.2 with
  | .error error => some (admitted.1.finish (.raised error))
  | .ok [] => some (admitted.1.finish (.returned []))
  | .ok refs =>
      (awaitGather torch loaded around refs prompts.length admitted.1 fuel).map fun final => final.1.finish final.2

end Engine

inductive Call (V : Type) where
  | act (time : ℚ) (action : EngineAction V)
  | generate (params : SamplingParams) (prerendered : Bool) (around : Surroundings V) (prompts : List String) (fuel : Nat)

def CallStep {V : Type} (torch : Torch V) (front : Frontend) (loaded : LoadedModel V) (r : EngineRun) (call : Call V)
    (r' : EngineRun) : Prop :=
  match call with
  | .act time action => EngineStep torch loaded r (time, action) r'
  | .generate params prerendered around prompts fuel =>
      Monotone around.clock ∧ r.now ≤ around.clock 0 ∧ r'.now = around.clock (prompts.length + fuel) ∧
        ∃ outcome, r.engine.generate torch front loaded params prerendered around prompts fuel = some (r'.engine, outcome)

end Dlmserve
