import Dlmserve.DenoiseLoop
import Dlmserve.Library.Groups
import Dlmserve.Library.Rounding

set_option autoImplicit false

namespace Dlmserve

structure GenerationOutput where
  promptIds : List Token
  outputIds : List Token
  text : String
deriving DecidableEq

inductive Future where
  | pending
  | result (value : Option GenerationOutput)
  | exception (message : String)
  | cancelled
deriving DecidableEq

def Future.done : Future → Bool
  | .pending => false
  | _ => true

structure Request where
  reqId : Nat
  state : DenoiseState
  params : SamplingParams
  admittedMs : ℚ
  result : Option GenerationOutput := none
  future : Option Future := none

def stepIdx (s : DenoiseState) : Nat := s.blockIdx * s.stepsPerBlock + s.stepInBlock

def blockBuckets : List Nat := [32, 64, 128, 256, 512, 1024]

def blockBucket (blockLength : Nat) : Nat := (blockBuckets.find? fun b => decide (blockLength ≤ b)).getD 1024

structure GroupKey where
  stepIdx : Nat
  blockLengthBucket : Nat
  useLocalLeap : Bool
deriving DecidableEq

def Request.stepIdx (req : Request) : Nat := Dlmserve.stepIdx req.state

def Request.blockLengthBucket (req : Request) : Nat := blockBucket req.state.blockLength

def Request.groupKey (req : Request) : GroupKey :=
  ⟨req.stepIdx, req.blockLengthBucket, req.state.params.useLocalLeap⟩

-- What float arithmetic makes of an exact result.
def float (x : ℚ) : ℚ := Rounding.nearest 53 x

-- The deque and the list hold references to Request objects; objects are made by
-- admitRequest only, at the reference fresh.
structure Scheduler where
  maxBatch : Nat
  maxWaiting : Nat
  pending : List Nat := []
  active : List Nat := []
  nextId : Nat := 0
  objects : Nat → Request
  fresh : Nat := 0

namespace Scheduler

def init (maxBatch maxWaiting : Nat) (unused : Request) : Scheduler :=
  { maxBatch := maxBatch, maxWaiting := maxWaiting, objects := fun _ => unused }

variable (s : Scheduler)

def admitRequest (now : ℚ) (state : DenoiseState) (params : SamplingParams) (future : Option Future) : Scheduler × Option Nat :=
  if s.maxWaiting ≤ s.pending.length then (s, none)
  else
    let req : Request := { reqId := s.nextId, state := state, params := params, admittedMs := now, future := future }
    ({ s with
        objects := Function.update s.objects s.fresh req
        fresh := s.fresh + 1
        nextId := s.nextId + 1
        pending := s.pending ++ [s.fresh] }, some s.fresh)

-- while self._pending and room > 0
def promoteLoop (active : List Nat) : List Nat → Nat → List Nat × List Nat
  | ref :: pending, room + 1 => promoteLoop (active ++ [ref]) pending room
  | pending, _ => (active, pending)

def promotePending : Scheduler :=
  let room := s.maxBatch * 2 - s.active.length
  let moved := promoteLoop s.active s.pending room
  { s with active := moved.1, pending := moved.2 }

def flushWaitMs : ℚ := 50

def agingPeriodMs : ℚ := 100

def wait (now : ℚ) (ref : Nat) : ℚ := float (now - (s.objects ref).admittedMs)

def oldestWait (now : ℚ) : List Nat → ℚ
  | [] => 0
  | ref :: reqs => reqs.foldl (fun longest r => max longest (s.wait now r)) (s.wait now ref)

def score (now : ℚ) (reqs : List Nat) : ℚ :=
  let oldestWaitMs := s.oldestWait now reqs
  let ageBonus := float (oldestWaitMs / agingPeriodMs)
  let score := float (float reqs.length + ageBonus)
  if flushWaitMs < oldestWaitMs then float (score + 1000) else score

def groups : List (GroupKey × List Nat) := Groups.groupBy (fun ref => (s.objects ref).groupKey) s.active

def schedule (now : ℚ) : Scheduler × List Nat :=
  let s := s.promotePending
  if s.active = [] then (s, [])
  else
    match (Groups.bestOf (s.score now) (-1) s.groups).1 with
    | none => (s, [])
    | some bestKey => (s, ((s.groups.lookup bestKey).getD []).take s.maxBatch)

-- The comparison of the dataclass fields stops at the first that differs. Behind
-- equal ids come tensors, whose comparison has no truth value.
def requestEq (a b : Request) : Except PyError Bool :=
  if a.reqId = b.reqId then .error (.runtimeError "Boolean value of Tensor with more than one value is ambiguous")
  else .ok false

-- list.remove drops the first element that is the object itself or equal to it.
def listRemove (target : Nat) : List Nat → Except PyError (List Nat)
  | [] => .error (.valueError "list.remove(x): x not in list")
  | ref :: rest =>
      if ref = target then .ok rest
      else do
        let equal ← requestEq (s.objects ref) (s.objects target)
        if equal then .ok rest
        else do
          let rest ← listRemove target rest
          .ok (ref :: rest)

def setFuture (ref : Nat) (future : Future) : Scheduler :=
  { s with objects := Function.update s.objects ref { s.objects ref with future := some future } }

def awaited (ref : Nat) : Bool :=
  match (s.objects ref).future with
  | some future => !future.done
  | none => false

def resolve (ref : Nat) : Scheduler :=
  if s.awaited ref then s.setFuture ref (.result (s.objects ref).result) else s

def complete (ref : Nat) : Except PyError Scheduler :=
  match s.listRemove ref s.active with
  | .ok active => .ok (resolve { s with active := active } ref)
  | .error (.valueError _) => .ok (s.resolve ref)
  | .error e => .error e

def hasWork : Bool := !s.pending.isEmpty || !s.active.isEmpty

def setState (ref : Nat) (state : DenoiseState) : Scheduler :=
  { s with objects := Function.update s.objects ref { s.objects ref with state := state } }

end Scheduler

end Dlmserve
