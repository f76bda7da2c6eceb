import Dlmserve.Scheduler

set_option autoImplicit false

namespace Dlmserve

structure Tokenizer where
  padTokenId : Option Token
  eosTokenId : Option Token
  batchDecode : List (List Token) → Option (List String)

structure LoadedModel (V : Type) where
  model : Model V
  maskId : Token
  tokenizer : Tokenizer

def LoadedModel.padTokenId {V : Type} (loaded : LoadedModel V) : Token :=
  match loaded.tokenizer.padTokenId with
  | some pid => if pid = loaded.maskId then loaded.tokenizer.eosTokenId.getD 0 else pid
  | none => loaded.tokenizer.eosTokenId.getD 0

def Tokenizer.makeOutput (tokenizer : Tokenizer) (state : DenoiseState) : Option GenerationOutput := do
  let genIds := state.seq.map fun row => row.drop state.promptLen
  let texts ← tokenizer.batchDecode genIds
  let text ← texts.head?
  let row ← state.seq.head?
  let outputIds ← genIds.head?
  some { promptIds := row.take state.promptLen, outputIds := outputIds, text := text }

namespace Scheduler

def stepFailed : String := "denoising step failed; see server logs"

-- The handler of a failed step: any exception of complete is suppressed.
def failRequest (s : Scheduler) (ref : Nat) : Scheduler :=
  let s := if s.awaited ref then s.setFuture ref (.exception stepFailed) else s
  match s.complete ref with
  | .ok s => s
  | .error _ => s

def setResult (s : Scheduler) (ref : Nat) (output : GenerationOutput) : Scheduler :=
  { s with objects := Function.update s.objects ref { s.objects ref with result := some output } }

-- for req in batch: if req.state.done, with true when an exception ends the loop.
def finishBatch (tokenizer : Tokenizer) (s : Scheduler) : List Nat → Scheduler × Bool
  | [] => (s, false)
  | ref :: batch =>
      if (s.objects ref).state.done then
        match tokenizer.makeOutput (s.objects ref).state with
        | none => (s, true)
        | some output =>
            match (s.setResult ref output).complete ref with
            | .ok s => finishBatch tokenizer s batch
            | .error _ => (s.setResult ref output, true)
      else finishBatch tokenizer s batch

def setStates (s : Scheduler) : List Nat → List DenoiseState → Scheduler
  | ref :: refs, state :: states => setStates (s.setState ref state) refs states
  | _, _ => s

def cancel (s : Scheduler) (ref : Nat) : Scheduler := if s.awaited ref then s.setFuture ref .cancelled else s

end Scheduler

inductive LoopStatus where
  | running
  | returned
  | crashed
deriving DecidableEq

structure Engine where
  scheduler : Scheduler
  shutdown : Bool := false
  loop : LoopStatus := .running

namespace Engine

variable {V : Type} (torch : Torch V) (loaded : LoadedModel V) (now : ℚ)

-- The forward pass may fail for reasons outside the program.
def iterate (fails : Bool) (draw : Draw V) (e : Engine) : Engine :=
  match e.loop with
  | .running =>
      if e.shutdown = true ∧ e.scheduler.hasWork = false then { e with loop := .returned }
      else
        let (s, batch) := e.scheduler.schedule now
        if batch = [] then { e with scheduler := s }
        else
          let states := batch.map fun ref => (s.objects ref).state
          match if fails then none else stepBatch torch loaded.model loaded.maskId loaded.padTokenId draw states with
          | none => { e with scheduler := batch.foldl Scheduler.failRequest s }
          | some states =>
              let (s, raised) := Scheduler.finishBatch loaded.tokenizer (s.setStates batch states) batch
              { e with scheduler := s, loop := if raised then .crashed else .running }
  | _ => e

def submit (full : Full) (promptIds : List Token) (params : SamplingParams) (e : Engine) : Engine :=
  match initState full (.single promptIds) params loaded.maskId with
  | .error _ => e
  | .ok state => { e with scheduler := (e.scheduler.admitRequest now state params (some .pending)).1 }

end Engine

inductive EngineAction (V : Type) where
  | submit (full : Full) (promptIds : List Token) (params : SamplingParams)
  | iterate (fails : Bool) (draw : Draw V)
  | cancel (ref : Nat)
  | shutdown

def Engine.act {V : Type} (torch : Torch V) (loaded : LoadedModel V) (now : ℚ) (action : EngineAction V) (e : Engine) :
    Engine :=
  match action with
  | .submit full promptIds params => e.submit loaded now full promptIds params
  | .iterate fails draw => e.iterate torch loaded now fails draw
  | .cancel ref => { e with scheduler := e.scheduler.cancel ref }
  | .shutdown => { e with shutdown := true }

structure EngineRun where
  engine : Engine
  now : ℚ

def EngineStep {V : Type} (torch : Torch V) (loaded : LoadedModel V) (r : EngineRun) (a : ℚ × EngineAction V)
    (r' : EngineRun) : Prop :=
  r.now ≤ a.1 ∧ r' = ⟨r.engine.act torch loaded a.1 a.2, a.1⟩

def InitialEngine (maxBatch maxWaiting : Nat) (r : EngineRun) : Prop :=
  ∃ unused now, r = ⟨{ scheduler := Scheduler.init maxBatch maxWaiting unused }, now⟩

end Dlmserve
