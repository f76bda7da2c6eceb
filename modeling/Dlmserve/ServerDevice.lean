import Dlmserve.EngineDevice
import Dlmserve.Server

set_option autoImplicit false

namespace Dlmserve

def writtenApp : App Written where
  toFrontend := writtenFrontend
  modelId := "gsai-ml/LLaDA-8B-Instruct"
  loaded := writtenLoaded sameAnswer
  repr text := "'" ++ text ++ "'"

def tokenBody (forceSingleBatch : Bool) : ChatCompletionRequest :=
  { messages := [⟨.user, "hi"⟩]
    seed := some 0
    maxTokens := some 1
    numDenoisingSteps := 1
    forceSingleBatch := forceSingleBatch }

def idleServer (maxBatch maxWaiting : Nat) : ServerRun :=
  ⟨{ engine := { scheduler := Scheduler.init maxBatch maxWaiting unusedRequest } }, 0⟩

theorem idle_server_initial (maxBatch maxWaiting : Nat) :
    InitialServer maxBatch maxWaiting (idleServer maxBatch maxWaiting) := ⟨unusedRequest, 0, rfl⟩

section Serves

variable {V : Type} (torch : Torch V) (app : App V)

def servesFrom (r : ServerRun) : List (ServerAction V) → ServerRun
  | [] => r
  | action :: actions => servesFrom ⟨r.server.act torch app (r.now + 1) action, r.now + 1⟩ actions

def servesTrace (r : ServerRun) : List (ServerAction V) → List (ServerRun × (ℚ × ServerAction V))
  | [] => []
  | action :: actions =>
      (r, r.now + 1, action) :: servesTrace ⟨r.server.act torch app (r.now + 1) action, r.now + 1⟩ actions

theorem serves_from_run (r : ServerRun) (actions : List (ServerAction V)) :
    Transition.Run (ServerStep torch app) r (servesTrace torch app r actions) (servesFrom torch app r actions) := by
  induction actions generalizing r with
  | nil => exact .nil
  | cons action actions ih =>
      have step : ServerStep torch app r (r.now + 1, action) ⟨r.server.act torch app (r.now + 1) action, r.now + 1⟩ :=
        ⟨by linarith, rfl⟩
      exact Transition.run_append _ _ _ _ _ (.snoc [] r _ _ .nil step) (ih _)

theorem serves_trace_actions (r : ServerRun) (actions : List (ServerAction V)) :
    ∀ entry ∈ servesTrace torch app r actions, entry.2.2 ∈ actions := by
  induction actions generalizing r with
  | nil => exact fun entry member => absurd member List.not_mem_nil
  | cons action actions ih =>
      intro entry member
      rcases List.mem_cons.mp member with rfl | later
      · exact List.mem_cons_self
      · exact List.mem_cons_of_mem action (ih _ entry later)

theorem serves_reachable (maxBatch maxWaiting : Nat) (actions : List (ServerAction V)) :
    Transition.Reachable (InitialServer maxBatch maxWaiting) (ServerStep torch app)
      (servesFrom torch app (idleServer maxBatch maxWaiting) actions) :=
  ⟨_, _, idle_server_initial maxBatch maxWaiting, serves_from_run torch app _ actions⟩

end Serves

end Dlmserve
