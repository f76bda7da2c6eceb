import Dlmserve.Device
import Dlmserve.EngineReach
import Dlmserve.Generate

set_option autoImplicit false

namespace Dlmserve

-- The written device behind an engine: the mask token is 9 and the tokenizer pads
-- with 0 and decodes every row to the same text.
def writtenTokenizer : Tokenizer where
  padTokenId := some 0
  eosTokenId := none
  batchDecode rows := some (rows.map fun _ => "decoded")

theorem written_decodes : Decodes writtenTokenizer := by
  intro ids nonempty
  cases ids with
  | nil => exact absurd rfl nonempty
  | cons row rows => exact ⟨"decoded", rows.map fun _ => "decoded", rfl⟩

def writtenLoaded (answer : Nat → Written) : LoadedModel Written where
  model := writtenModel answer
  maskId := 9
  tokenizer := writtenTokenizer

def sameAnswer : Nat → Written := fun _ => (2, 1 / 2)

-- A text has its length as its only token, and the generators take the seeds that
-- torch documents.
def writtenFrontend : Frontend where
  applyChatTemplate messages := .ok (String.join (messages.map fun m => m.content))
  encode text := .ok ([text.length], some [1])
  manualSeed seed :=
    if -2 ^ 63 ≤ seed ∧ seed < 2 ^ 64 then .ok () else .error (.runtimeError "Overflow when unpacking long long")

def tokenParams : SamplingParams := { numDenoisingSteps := 1, genLength := 1, blockLength := some 1 }

def unusedRequest : Request :=
  { reqId := 0, state := initialState (onePrompt 1) tokenParams 9 1 1, params := tokenParams, admittedMs := 0 }

def idleEngine (maxBatch maxWaiting : Nat) : EngineRun :=
  ⟨{ scheduler := Scheduler.init maxBatch maxWaiting unusedRequest }, 0⟩

theorem idle_engine_initial (maxBatch maxWaiting : Nat) :
    InitialEngine maxBatch maxWaiting (idleEngine maxBatch maxWaiting) := ⟨unusedRequest, 0, rfl⟩

def actsFrom {V : Type} (torch : Torch V) (loaded : LoadedModel V) (r : EngineRun) : List (EngineAction V) → EngineRun
  | [] => r
  | action :: actions => actsFrom torch loaded ⟨r.engine.act torch loaded (r.now + 1) action, r.now + 1⟩ actions

theorem acts_from_run {V : Type} (torch : Torch V) (loaded : LoadedModel V) (r : EngineRun)
    (actions : List (EngineAction V)) : ∃ trace,
      Transition.Run (EngineStep torch loaded) r trace (actsFrom torch loaded r actions) ∧
        ∀ entry ∈ trace, entry.2.2 ∈ actions := by
  induction actions generalizing r with
  | nil => exact ⟨[], .nil, fun _ member => absurd member List.not_mem_nil⟩
  | cons action actions ih =>
      have step : EngineStep torch loaded r (r.now + 1, action) ⟨r.engine.act torch loaded (r.now + 1) action, r.now + 1⟩ :=
        ⟨by linarith, rfl⟩
      obtain ⟨trace, run, each⟩ := ih ⟨r.engine.act torch loaded (r.now + 1) action, r.now + 1⟩
      refine ⟨_, Transition.run_append _ _ _ _ _ (.snoc [] r _ _ .nil step) run, ?_⟩
      intro entry member
      rcases List.mem_append.mp member with here | later
      · rw [List.mem_singleton.mp here]
        exact List.mem_cons_self
      · exact List.mem_cons_of_mem action (each entry later)

theorem acts_reachable {V : Type} (torch : Torch V) (loaded : LoadedModel V) (maxBatch maxWaiting : Nat)
    (actions : List (EngineAction V)) :
    Transition.Reachable (InitialEngine maxBatch maxWaiting) (EngineStep torch loaded)
      (actsFrom torch loaded (idleEngine maxBatch maxWaiting) actions) := by
  obtain ⟨trace, run, _⟩ := acts_from_run torch loaded (idleEngine maxBatch maxWaiting) actions
  exact ⟨_, trace, idle_engine_initial maxBatch maxWaiting, run⟩

end Dlmserve
