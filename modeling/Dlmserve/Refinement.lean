import Dlmserve.Library.Service
import Dlmserve.ServedReference

set_option autoImplicit false

namespace Dlmserve

abbrev Question := String × ChatCompletionRequest

-- A body that does not validate never gets to a handler.
def ServerAction.question {V : Type} : ServerAction V → Option Question
  | .request reqId body _ _ =>
      match body.validate with
      | .ok _ => some (reqId, body)
      | .error _ => none
  | _ => none

section Fitting

variable {V : Type} (torch : Torch V) (app : App V) (draws : Nat → Nat → Draw V)

end Fitting

section Excuses

variable {V : Type} (torch : Torch V) (app : App V)

end Excuses

section Steps

variable {V : Type} (torch : Torch V) (app : App V) (time : ℚ) (s : Server) (fitting : Question → Ending → Prop)

end Steps

section Runs

variable {V : Type} (torch : Torch V) (app : App V) (view : List Token → Nat → V)

end Runs

end Dlmserve
