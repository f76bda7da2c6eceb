import Mathlib.Data.List.Induction
import Mathlib.Tactic.Tauto
import Mathlib.Order.Lattice

set_option autoImplicit false

namespace Groups

section GroupBy

variable {α κ : Type*} [DecidableEq κ]

-- groups[key].append(a) in a dictionary that keeps the order of insertion.
def insertGroup (k : κ) (a : α) : List (κ × List α) → List (κ × List α)
  | [] => [(k, [a])]
  | (other, group) :: rest =>
      if other = k then (other, group ++ [a]) :: rest else (other, group) :: insertGroup k a rest

def groupBy (key : α → κ) (items : List α) : List (κ × List α) :=
  items.foldl (fun groups a => insertGroup (key a) a groups) []

theorem insert_group_keys (k : κ) (a : α) (groups : List (κ × List α)) (other : κ) :
    other ∈ (insertGroup k a groups).map Prod.fst ↔ other = k ∨ other ∈ groups.map Prod.fst := by
  induction groups with
  | nil => simp [insertGroup]
  | cons entry rest ih =>
      by_cases same : entry.1 = k
      · rw [insertGroup, if_pos same]
        simp only [List.map_cons, List.mem_cons]
        rw [same]
        tauto
      · rw [insertGroup, if_neg same]
        simp only [List.map_cons, List.mem_cons, ih]
        tauto

theorem insert_group_nodup (k : κ) (a : α) (groups : List (κ × List α)) (distinct : (groups.map Prod.fst).Nodup) :
    ((insertGroup k a groups).map Prod.fst).Nodup := by
  induction groups with
  | nil => simp [insertGroup]
  | cons entry rest ih =>
      rw [List.map_cons, List.nodup_cons] at distinct
      by_cases same : entry.1 = k
      · rw [insertGroup, if_pos same, List.map_cons, List.nodup_cons]
        exact distinct
      · rw [insertGroup, if_neg same, List.map_cons, List.nodup_cons, insert_group_keys]
        refine ⟨?_, ih distinct.2⟩
        rintro (equal | present)
        · exact same equal
        · exact distinct.1 present

theorem mem_insert_group (k : κ) (a : α) (groups : List (κ × List α)) (distinct : (groups.map Prod.fst).Nodup)
    (other : κ) (group : List α) : (other, group) ∈ insertGroup k a groups ↔
      (other ≠ k ∧ (other, group) ∈ groups) ∨
        (other = k ∧ ((∃ old, (k, old) ∈ groups ∧ group = old ++ [a]) ∨ (k ∉ groups.map Prod.fst ∧ group = [a]))) := by
  induction groups with
  | nil =>
      simp [insertGroup]
  | cons entry rest ih =>
      obtain ⟨first, old⟩ := entry
      rw [List.map_cons, List.nodup_cons] at distinct
      by_cases same : first = k
      · subst same
        have absent (g : List α) : (first, g) ∉ rest := fun member => distinct.1 (List.mem_map.mpr ⟨_, member, rfl⟩)
        rw [insertGroup, if_pos rfl]
        simp only [List.mem_cons, Prod.mk.injEq, List.map_cons, true_and]
        constructor
        · rintro (⟨rfl, rfl⟩ | member)
          · exact Or.inr ⟨rfl, Or.inl ⟨old, Or.inl rfl, rfl⟩⟩
          · by_cases equal : other = first
            · exact absurd (equal ▸ member) (absent group)
            · exact Or.inl ⟨equal, Or.inr member⟩
        · rintro (⟨different, ⟨equal, _⟩ | member⟩ | ⟨rfl, ⟨g, rfl | member, rfl⟩ | ⟨missing, _⟩⟩)
          · exact absurd equal different
          · exact Or.inr member
          · exact Or.inl ⟨rfl, rfl⟩
          · exact absurd member (absent g)
          · exact absurd (Or.inl trivial) missing
      · rw [insertGroup, if_neg same]
        simp only [List.mem_cons, Prod.mk.injEq, List.map_cons, ih distinct.2, not_or]
        constructor
        · rintro (⟨rfl, rfl⟩ | ⟨different, member⟩ | ⟨rfl, ⟨g, member, rfl⟩ | ⟨missing, rfl⟩⟩)
          · exact Or.inl ⟨same, Or.inl ⟨rfl, rfl⟩⟩
          · exact Or.inl ⟨different, Or.inr member⟩
          · exact Or.inr ⟨rfl, Or.inl ⟨g, Or.inr member, rfl⟩⟩
          · exact Or.inr ⟨rfl, Or.inr ⟨⟨fun equal => same equal.symm, missing⟩, rfl⟩⟩
        · rintro (⟨different, ⟨rfl, rfl⟩ | member⟩ | ⟨rfl, ⟨g, ⟨equal, _⟩ | member, rfl⟩ | ⟨⟨_, missing⟩, rfl⟩⟩)
          · exact Or.inl ⟨rfl, rfl⟩
          · exact Or.inr (Or.inl ⟨different, member⟩)
          · exact absurd equal.symm same
          · exact Or.inr (Or.inr ⟨rfl, Or.inl ⟨g, member, rfl⟩⟩)
          · exact Or.inr (Or.inr ⟨rfl, Or.inr ⟨missing, rfl⟩⟩)

theorem group_by_append (key : α → κ) (items : List α) (a : α) :
    groupBy key (items ++ [a]) = insertGroup (key a) a (groupBy key items) := by
  rw [groupBy, List.foldl_append]
  rfl

theorem group_by_nodup (key : α → κ) (items : List α) : ((groupBy key items).map Prod.fst).Nodup := by
  induction items using List.reverseRecOn with
  | nil => exact List.nodup_nil
  | append_singleton items a ih =>
      rw [group_by_append]
      exact insert_group_nodup (key a) a _ ih

theorem mem_group_by (key : α → κ) (items : List α) (k : κ) (group : List α) :
    (k, group) ∈ groupBy key items ↔ group = items.filter (fun a => key a = k) ∧ group ≠ [] := by
  induction items using List.reverseRecOn generalizing k group with
  | nil => simp [groupBy]
  | append_singleton items a ih =>
      have keys : key a ∈ (groupBy key items).map Prod.fst ↔ items.filter (fun b => key b = key a) ≠ [] := by
        rw [List.mem_map]
        constructor
        · rintro ⟨⟨k, g⟩, member, rfl⟩
          obtain ⟨rfl, nonempty⟩ := (ih _ g).mp member
          exact nonempty
        · intro nonempty
          exact ⟨(key a, _), (ih _ _).mpr ⟨rfl, nonempty⟩, rfl⟩
      rw [group_by_append, mem_insert_group _ _ _ (group_by_nodup key items), List.filter_append, keys]
      by_cases same : k = key a
      · subst same
        have last : [a].filter (fun b => key b = key a) = [a] := by simp
        simp only [ne_eq, not_true_eq_false, false_and, true_and, false_or, last, ih]
        by_cases empty : items.filter (fun b => key b = key a) = []
        · simp only [empty, not_true_eq_false, not_false_eq_true, true_and, List.nil_append]
          constructor
          · rintro (⟨old, ⟨rfl, impossible⟩, _⟩ | rfl)
            · exact absurd rfl impossible
            · exact ⟨rfl, List.cons_ne_nil _ _⟩
          · exact fun both => Or.inr both.1
        · constructor
          · rintro (⟨old, ⟨rfl, _⟩, rfl⟩ | ⟨impossible, _⟩)
            · exact ⟨rfl, by simp⟩
            · exact absurd empty impossible
          · exact fun both => Or.inl ⟨_, ⟨rfl, empty⟩, both.1⟩
      · have other : ¬ key a = k := fun equal => same equal.symm
        simp [same, other, ih]

end GroupBy

section Best

variable {κ γ σ : Type*} [LinearOrder σ]

-- A running maximum that only a strictly higher score replaces.
def pick (score : γ → σ) (best : Option κ × σ) (entry : κ × γ) : Option κ × σ :=
  if best.2 < score entry.2 then (some entry.1, score entry.2) else best

def bestOf (score : γ → σ) (lowest : σ) (entries : List (κ × γ)) : Option κ × σ :=
  entries.foldl (pick score) (none, lowest)

theorem best_of_append (score : γ → σ) (lowest : σ) (entries : List (κ × γ)) (entry : κ × γ) :
    bestOf score lowest (entries ++ [entry]) = pick score (bestOf score lowest entries) entry := by
  rw [bestOf, List.foldl_append]
  rfl

theorem best_of_bound (score : γ → σ) (lowest : σ) (entries : List (κ × γ)) :
    (∀ entry ∈ entries, score entry.2 ≤ (bestOf score lowest entries).2) ∧ lowest ≤ (bestOf score lowest entries).2 := by
  induction entries using List.reverseRecOn with
  | nil => exact ⟨by simp, le_refl _⟩
  | append_singleton entries entry ih =>
      rw [best_of_append, pick]
      split
      · rename_i higher
        refine ⟨?_, ih.2.trans (le_of_lt higher)⟩
        intro other member
        rcases List.mem_append.mp member with earlier | last
        · exact (ih.1 other earlier).trans (le_of_lt higher)
        · rw [List.mem_singleton.mp last]
      · rename_i lower
        refine ⟨?_, ih.2⟩
        intro other member
        rcases List.mem_append.mp member with earlier | last
        · exact ih.1 other earlier
        · rw [List.mem_singleton.mp last]
          exact le_of_not_gt lower

theorem best_of_cases (score : γ → σ) (lowest : σ) (entries : List (κ × γ)) :
    bestOf score lowest entries = (none, lowest) ∨
      ∃ entry ∈ entries, bestOf score lowest entries = (some entry.1, score entry.2) := by
  induction entries using List.reverseRecOn with
  | nil => exact Or.inl rfl
  | append_singleton entries entry ih =>
      rw [best_of_append, pick]
      split
      · exact Or.inr ⟨entry, by simp, rfl⟩
      · rcases ih with same | ⟨best, member, same⟩
        · exact Or.inl same
        · exact Or.inr ⟨best, List.mem_append_left _ member, same⟩

theorem best_of_winner (score : γ → σ) (lowest : σ) (entries : List (κ × γ)) (nonempty : entries ≠ [])
    (above : ∀ entry ∈ entries, lowest < score entry.2) :
    ∃ entry ∈ entries, bestOf score lowest entries = (some entry.1, score entry.2) ∧
      ∀ other ∈ entries, score other.2 ≤ score entry.2 := by
  have bound := (best_of_bound score lowest entries).1
  rcases best_of_cases score lowest entries with same | ⟨entry, member, same⟩
  · obtain ⟨entry, member⟩ := List.exists_mem_of_ne_nil entries nonempty
    have high := bound entry member
    rw [same] at high
    exact absurd (above entry member) (not_lt_of_ge high)
  · refine ⟨entry, member, same, ?_⟩
    intro other otherMember
    have high := bound other otherMember
    rwa [same] at high

end Best

end Groups
