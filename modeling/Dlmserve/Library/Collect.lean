import Mathlib.Data.List.Basic

set_option autoImplicit false

namespace Collect

variable {α β : Type*}

theorem map_m_cons (f : α → Option β) (head : α) (tail : List α) (results : List β) :
    (head :: tail).mapM f = some results ↔
      ∃ b rest, f head = some b ∧ tail.mapM f = some rest ∧ results = b :: rest := by
  rw [List.mapM_cons]
  constructor
  · intro collected
    obtain ⟨b, here, collected⟩ := Option.bind_eq_some_iff.mp collected
    obtain ⟨rest, others, collected⟩ := Option.bind_eq_some_iff.mp collected
    exact ⟨b, rest, here, others, (Option.some.inj collected).symm⟩
  · rintro ⟨b, rest, here, others, rfl⟩
    rw [here, others]
    rfl

theorem map_m_length (f : α → Option β) (items : List α) (results : List β)
    (collected : items.mapM f = some results) : results.length = items.length := by
  induction items generalizing results with
  | nil => cases collected; rfl
  | cons head tail ih =>
      obtain ⟨b, rest, _, others, rfl⟩ := (map_m_cons f head tail results).mp collected
      rw [List.length_cons, List.length_cons, ih rest others]

theorem map_m_get (f : α → Option β) (items : List α) (results : List β)
    (collected : items.mapM f = some results) (i : Nat) (a : α) (read : items[i]? = some a) :
    ∃ b, results[i]? = some b ∧ f a = some b := by
  induction items generalizing results i with
  | nil => simp at read
  | cons head tail ih =>
      obtain ⟨b, rest, here, others, rfl⟩ := (map_m_cons f head tail results).mp collected
      cases i with
      | zero =>
          have same : head = a := by simpa using read
          exact ⟨b, rfl, same ▸ here⟩
      | succ i => exact ih rest others i (by simpa using read)

theorem map_m_total (f : α → Option β) (items : List α) (total : ∀ a ∈ items, ∃ b, f a = some b) :
    ∃ results, items.mapM f = some results := by
  induction items with
  | nil => exact ⟨[], rfl⟩
  | cons head tail ih =>
      obtain ⟨b, here⟩ := total head (by simp)
      obtain ⟨rest, others⟩ := ih (fun a member => total a (by simp [member]))
      exact ⟨b :: rest, (map_m_cons f head tail _).mpr ⟨b, rest, here, others, rfl⟩⟩

theorem map_m_congr (f g : α → Option β) (items : List α) (same : ∀ a ∈ items, f a = g a) :
    items.mapM f = items.mapM g := by
  induction items with
  | nil => rfl
  | cons head tail ih =>
      rw [List.mapM_cons, List.mapM_cons, same head (by simp), ih (fun a member => same a (by simp [member]))]

theorem map_m_map_results {γ : Type*} (f : α → Option β) (g : β → γ) (items : List α) :
    items.mapM (fun a => (f a).map g) = (items.mapM f).map (List.map g) := by
  induction items with
  | nil => rfl
  | cons head tail ih =>
      rw [List.mapM_cons, List.mapM_cons, ih]
      cases f head with
      | none => rfl
      | some b => cases tail.mapM f <;> rfl

theorem map_m_some (f : α → β) (items : List α) : items.mapM (fun a => some (f a)) = some (items.map f) := by
  induction items with
  | nil => rfl
  | cons head tail ih => rw [List.mapM_cons, ih]; rfl

theorem zip_idx_get (items : List α) (i : Nat) (a : α) (read : items[i]? = some a) :
    items.zipIdx[i]? = some (a, i) := by
  rw [List.getElem?_zipIdx, read, Nat.zero_add]
  rfl

end Collect
