import Mathlib.Algebra.Order.Group.Defs
import Mathlib.Data.List.Induction

set_option autoImplicit false

namespace Window

section Prune

variable {τ α : Type*} [LinearOrder τ] (time : α → τ)

def Ordered (entries : List α) : Prop := entries.Pairwise fun a b => time a ≤ time b

def prune (cutoff : τ) : List α → List α
  | [] => []
  | entry :: rest => if time entry < cutoff then prune cutoff rest else entry :: rest

theorem prune_filter (cutoff : τ) (entries : List α) (ordered : Ordered time entries) :
    prune time cutoff entries = entries.filter fun entry => decide (cutoff ≤ time entry) := by
  induction entries with
  | nil => rfl
  | cons entry rest ih =>
      obtain ⟨first, ordered⟩ := List.pairwise_cons.mp ordered
      rw [prune, List.filter_cons]
      by_cases old : time entry < cutoff
      · rw [if_pos old, if_neg (by simpa using old)]
        exact ih ordered
      · have young := not_lt.mp old
        rw [if_neg old, if_pos (decide_eq_true young), List.filter_eq_self.mpr]
        exact fun other member => decide_eq_true (young.trans (first other member))

end Prune

section Push

variable {τ α : Type*} [AddCommGroup τ] [LinearOrder τ] [IsOrderedAddMonoid τ] (time : α → τ) (width : τ)

-- A new entry pushes out what is more than the width older than itself.
def push (window : List α) (entry : α) : List α := prune time (time entry - width) (window ++ [entry])

def recent (now : τ) (entries : List α) : List α := entries.filter fun entry => decide (now - width ≤ time entry)

-- What an earlier cutoff let through loses nothing to a later one that it would not lose anyway.
theorem recent_recent (earlier now : τ) (later : earlier ≤ now) (entries : List α) :
    recent time width now (recent time width earlier entries) = recent time width now entries := by
  rw [recent, recent, recent, List.filter_filter]
  apply List.filter_congr
  intro entry _
  have kept (young : now - width ≤ time entry) : earlier - width ≤ time entry := (sub_le_sub_right later width).trans young
  by_cases young : now - width ≤ time entry
  · simp [young, kept young]
  · simp [young]

theorem push_recent (earlier : τ) (entries : List α) (entry : α) (ordered : Ordered time (entries ++ [entry]))
    (later : earlier ≤ time entry) : push time width (recent time width earlier entries) entry =
      recent time width (time entry) (entries ++ [entry]) := by
  obtain ⟨before, _, last⟩ := List.pairwise_append.mp ordered
  have sorted : Ordered time (recent time width earlier entries ++ [entry]) := by
    refine List.pairwise_append.mpr ⟨before.filter _, List.pairwise_singleton _ _, ?_⟩
    exact fun other member => last other (List.mem_filter.mp member).1
  rw [push, prune_filter time _ _ sorted, List.filter_append, ← recent, recent_recent time width _ _ later, recent, recent,
    List.filter_append]

-- After any sequence of entries under a clock that does not run backwards, the window
-- holds those of the last width and nothing else.
theorem pushes_recent (entries : List α) (entry : α) (ordered : Ordered time (entries ++ [entry])) :
    (entries ++ [entry]).foldl (push time width) [] = recent time width (time entry) (entries ++ [entry]) := by
  induction entries using List.reverseRecOn generalizing entry with
  | nil => exact push_recent time width (time entry) [] entry ordered (le_refl _)
  | append_singleton entries last ih =>
      have before := (List.pairwise_append.mp ordered).1
      have later : time last ≤ time entry := (List.pairwise_append.mp ordered).2.2 last (by simp) entry (by simp)
      rw [List.foldl_append, ih last before]
      exact push_recent time width (time last) (entries ++ [last]) entry ordered later

end Push

end Window
