import Mathlib.Algebra.BigOperators.Group.List.Basic
import Mathlib.Tactic.Ring

set_option autoImplicit false

namespace Ledger

variable {α : Type*} (balance : α → Int) (accounts : List α)

def total : Int := (accounts.map balance).sum

theorem total_append (account : α) : total balance (accounts ++ [account]) = total balance accounts + balance account := by
  simp [total]

theorem total_set (i : Nat) (old new : α) (read : accounts[i]? = some old) :
    total balance (accounts.set i new) = total balance accounts - balance old + balance new := by
  obtain ⟨inside, same⟩ := List.getElem?_eq_some_iff.mp read
  have bound : i < (accounts.map balance).length := by
    rw [List.length_map]
    exact inside
  rw [total, List.map_set, List.sum_set', dif_pos bound, List.getElem_map, same, total]
  ring

-- Where every account holds one unit for each of two conditions, the total counts
-- the accounts that meet them.
theorem total_count (p q : α → Bool)
    (each : ∀ account ∈ accounts, balance account = (if p account then 1 else 0) + if q account then 1 else 0) :
    total balance accounts = accounts.countP p + accounts.countP q := by
  induction accounts with
  | nil => rfl
  | cons account accounts ih =>
      have rest := ih fun other member => each other (List.mem_cons_of_mem account member)
      have first := each account List.mem_cons_self
      rw [total, List.map_cons, List.sum_cons, first, ← total, rest, List.countP_cons, List.countP_cons]
      push_cast
      ring

end Ledger
