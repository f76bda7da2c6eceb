import Dlmserve.Library.Transition

set_option autoImplicit false

namespace Service

variable {κ α : Type*}

inductive Event (κ α : Type*) where
  | asked (question : κ)
  | answered (i : Nat) (answer : α)
  | idle

def Event.question : Event κ α → Option κ
  | .asked question => some question
  | _ => none

variable {fitting : κ → α → Prop}

end Service
