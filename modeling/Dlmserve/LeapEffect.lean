import Dlmserve.Device

set_option autoImplicit false

namespace Dlmserve

section Fill

variable (isOpen : Nat → Bool) (x0 : Nat → Token) (row : List Token)

end Fill

section Commit

variable {V : Type} (torch : Torch V) (draw : Draw V) (x : List (List Token)) (logits : Nat → Nat → V)
  (maskIndex : Nat → Nat → Bool) (kPerRow : Nat → Nat) (blockEndAbs : Option BlockEnd) (temperature : ℚ)

end Commit

end Dlmserve
