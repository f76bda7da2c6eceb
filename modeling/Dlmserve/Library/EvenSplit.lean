import Mathlib.Algebra.BigOperators.Group.List.Basic
import Mathlib.Algebra.Order.BigOperators.Group.List
import Mathlib.Data.List.GetD
import Mathlib.Tactic.Ring

set_option autoImplicit false

namespace EvenSplit

-- A total split over a number of parts: every part gets the quotient, the first
-- parts one more until the remainder is used up.
def share (total parts i : Nat) : Nat := total / parts + if i < total % parts then 1 else 0

def shares (total parts : Nat) : List Nat := (List.range parts).map (share total parts)

theorem shares_length (total parts : Nat) : (shares total parts).length = parts := by
  simp [shares]

theorem sum_share (total parts t : Nat) :
    ((List.range t).map (share total parts)).sum = t * (total / parts) + min t (total % parts) := by
  induction t with
  | zero => simp
  | succ t ih =>
      rw [List.range_succ, List.map_append, List.sum_append, ih, Nat.add_mul]
      simp only [List.map_cons, List.map_nil, List.sum_cons, List.sum_nil, share]
      split <;> omega

theorem shares_take_sum (total parts t : Nat) (bounded : t ≤ parts) :
    ((shares total parts).take t).sum = t * (total / parts) + min t (total % parts) := by
  rw [shares, ← List.map_take, List.take_range, Nat.min_eq_left bounded, sum_share]

theorem shares_sum (total parts : Nat) (positive : 0 < parts) : (shares total parts).sum = total := by
  have whole := shares_take_sum total parts parts (Nat.le_refl _)
  rw [List.take_of_length_le (by rw [shares_length])] at whole
  rw [whole, Nat.min_eq_right (Nat.le_of_lt (Nat.mod_lt _ positive))]
  exact Nat.div_add_mod total parts

theorem shares_prefix_sum (total parts t : Nat) (positive : 0 < parts) (bounded : t ≤ parts)
    (enough : min parts total ≤ t) : ((shares total parts).take t).sum = total := by
  have division := Nat.div_add_mod total parts
  rw [shares_take_sum total parts t bounded]
  rcases Nat.lt_or_ge total parts with few | many
  · rw [Nat.div_eq_of_lt few, Nat.mod_eq_of_lt few]
    omega
  · have whole : t = parts := by omega
    have less := Nat.mod_lt total positive
    rw [whole, Nat.min_eq_right (Nat.le_of_lt less)]
    exact division

theorem shares_prefix_short (total parts t : Nat) (less : t < min parts total) :
    ((shares total parts).take t).sum < total := by
  have division := Nat.div_add_mod total parts
  rw [shares_take_sum total parts t (by omega)]
  rcases Nat.lt_or_ge total parts with few | many
  · rw [Nat.div_eq_of_lt few, Nat.mod_eq_of_lt few]
    omega
  · have base : 1 ≤ total / parts := (Nat.one_le_div_iff (by omega)).mpr many
    have gap : (t + 1) * (total / parts) ≤ parts * (total / parts) := Nat.mul_le_mul_right _ (by omega)
    rw [Nat.add_mul] at gap
    omega

theorem drop_sum (row : List Nat) (t : Nat) : (row.drop t).sum + (row.take t).sum = row.sum := by
  rw [Nat.add_comm, ← List.sum_append, List.take_append_drop]

theorem drop_sum_step (row : List Nat) (t : Nat) : (row.drop t).sum = row.getD t 0 + (row.drop (t + 1)).sum := by
  by_cases bound : t < row.length
  · rw [List.drop_eq_getElem_cons bound, List.sum_cons, List.getD_eq_getElem row 0 bound]
  · rw [List.drop_of_length_le (by omega), List.drop_of_length_le (by omega), List.getD_eq_default _ _ (by omega)]
    rfl

theorem shares_rest_zero (total parts t : Nat) (positive : 0 < parts) (bounded : t ≤ parts)
    (enough : min parts total ≤ t) : ((shares total parts).drop t).sum = 0 := by
  have split := drop_sum (shares total parts) t
  rw [shares_sum total parts positive, shares_prefix_sum total parts t positive bounded enough] at split
  omega

theorem shares_rest_positive (total parts t : Nat) (positive : 0 < parts) (less : t < min parts total) :
    0 < ((shares total parts).drop t).sum := by
  have split := drop_sum (shares total parts) t
  have short := shares_prefix_short total parts t less
  rw [shares_sum total parts positive] at split
  omega

-- A non-increasing list whose entries differ by at most one.
structure Even (row : List Nat) : Prop where
  falling : row.Pairwise (· ≥ ·)
  close : ∀ a ∈ row, ∀ b ∈ row, a ≤ b + 1

theorem even_tail (head : Nat) (tail : List Nat) (even : Even (head :: tail)) : Even tail :=
  ⟨(List.pairwise_cons.mp even.falling).2, fun a inTail b alsoTail =>
    even.close a (List.mem_cons_of_mem _ inTail) b (List.mem_cons_of_mem _ alsoTail)⟩

theorem even_sum_lt (head other : Nat) (tail rest : List Nat) (length : tail.length = rest.length)
    (even : Even (head :: tail)) (evenOther : Even (other :: rest)) (less : head < other) :
    (head :: tail).sum < (other :: rest).sum := by
  have above : tail.sum ≤ tail.length * head :=
    List.sum_le_card_nsmul tail head fun a inTail => (List.pairwise_cons.mp even.falling).1 a inTail
  have below : rest.length * head ≤ rest.sum := by
    apply List.card_nsmul_le_sum rest head
    intro b inRest
    have near := evenOther.close other List.mem_cons_self b (List.mem_cons_of_mem _ inRest)
    omega
  rw [length] at above
  rw [List.sum_cons, List.sum_cons]
  omega

theorem even_unique (row other : List Nat) (length : row.length = other.length) (sum : row.sum = other.sum)
    (even : Even row) (evenOther : Even other) : row = other := by
  induction row generalizing other with
  | nil => exact (List.eq_nil_of_length_eq_zero length.symm).symm
  | cons head tail hypothesis =>
      cases other with
      | nil => cases length
      | cons first rest =>
          have lengths : tail.length = rest.length := Nat.succ.inj length
          rcases Nat.lt_trichotomy head first with less | same | more
          · have gap := even_sum_lt head first tail rest lengths even evenOther less
            omega
          · subst same
            rw [List.sum_cons, List.sum_cons] at sum
            rw [hypothesis rest lengths (Nat.add_left_cancel sum) (even_tail _ _ even) (even_tail _ _ evenOther)]
          · have gap := even_sum_lt first head rest tail lengths.symm evenOther even more
            omega

theorem share_bounds (total parts i : Nat) :
    total / parts ≤ share total parts i ∧ share total parts i ≤ total / parts + 1 := by
  rw [share]
  split <;> omega

theorem share_first_positive (total parts : Nat) (some : 0 < total) : 0 < share total parts 0 := by
  have division := Nat.div_add_mod total parts
  rcases Nat.eq_zero_or_pos (total / parts) with none | base
  · rw [none, Nat.mul_zero, Nat.zero_add] at division
    rw [share, division, if_pos some]
    exact Nat.lt_add_left _ Nat.zero_lt_one
  · exact Nat.lt_of_lt_of_le base (Nat.le_add_right _ _)

theorem shares_even (total parts : Nat) : Even (shares total parts) := by
  constructor
  · rw [shares, List.pairwise_map]
    apply List.pairwise_lt_range.imp
    intro i j earlier
    simp only [share]
    split <;> split <;> omega
  · intro a inShares b alsoShares
    obtain ⟨i, -, rfl⟩ := List.mem_map.mp inShares
    obtain ⟨j, -, rfl⟩ := List.mem_map.mp alsoShares
    have high := (share_bounds total parts i).2
    have low := (share_bounds total parts j).1
    omega

theorem shares_unique (total parts : Nat) (row : List Nat) (positive : 0 < parts) (length : row.length = parts)
    (sum : row.sum = total) (even : Even row) : row = shares total parts :=
  even_unique row (shares total parts) (length.trans (shares_length total parts).symm)
    (sum.trans (shares_sum total parts positive).symm) even (shares_even total parts)

end EvenSplit
