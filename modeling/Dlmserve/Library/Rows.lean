import Mathlib.Data.Finset.Card
import Mathlib.Data.Finset.Range
import Mathlib.Order.Interval.Finset.Nat

set_option autoImplicit false

namespace Rows

section Symbols

variable {τ : Type*}

theorem get_lt (row : List τ) (c : Nat) (t : τ) (read : row[c]? = some t) : c < row.length := by
  by_contra beyond
  rw [List.getElem?_eq_none (Nat.le_of_not_lt beyond)] at read
  cases read

def slice (row : List τ) (a b : Nat) : List τ := (row.take b).drop a

theorem slice_get (row : List τ) (a b c : Nat) :
    (slice row a b)[c]? = if a + c < b then row[a + c]? else none := by
  rw [slice, List.getElem?_drop, List.getElem?_take]

-- Rows only ever absorb: a position that has left the mask keeps its symbol.
def Absorbs (mask : τ) (old new : List τ) : Prop :=
  new.length = old.length ∧ ∀ (c : Nat) (t : τ), old[c]? = some t → t ≠ mask → new[c]? = some t

theorem absorbs_refl (mask : τ) (row : List τ) : Absorbs mask row row := ⟨rfl, fun _ _ read _ => read⟩

-- Fill the chosen positions among the open ones; the others keep their symbol.
def fill (isOpen : Nat → Bool) (fresh : Nat → τ) (chosen : List Nat) (row : List τ) : List τ :=
  row.mapIdx fun c t => if c ∈ chosen ∧ isOpen c = true then fresh c else t

theorem fill_get (isOpen : Nat → Bool) (fresh : Nat → τ) (chosen : List Nat) (row : List τ) (c : Nat) :
    (fill isOpen fresh chosen row)[c]? =
      row[c]?.map fun t => if c ∈ chosen ∧ isOpen c = true then fresh c else t := by
  rw [fill, List.getElem?_mapIdx]

theorem fill_length (isOpen : Nat → Bool) (fresh : Nat → τ) (chosen : List Nat) (row : List τ) :
    (fill isOpen fresh chosen row).length = row.length := by
  rw [fill, List.length_mapIdx]

theorem fill_congr (isOpen : Nat → Bool) (fresh fresh' : Nat → τ) (chosen chosen' : List Nat) (row : List τ)
    (member : ∀ c < row.length, isOpen c = true → (c ∈ chosen ↔ c ∈ chosen'))
    (same : ∀ c < row.length, isOpen c = true → fresh c = fresh' c) :
    fill isOpen fresh chosen row = fill isOpen fresh' chosen' row := by
  apply List.ext_getElem?
  intro c
  rw [fill_get, fill_get]
  cases read : row[c]? with
  | none => rfl
  | some t =>
      have bound := get_lt row c t read
      by_cases opened : isOpen c = true
      · simp only [Option.map_some, member c bound opened, same c bound opened]
      · rw [Option.map_some, Option.map_some, if_neg fun both => opened both.2, if_neg fun both => opened both.2]

theorem fill_absorbs (mask : τ) (row : List τ) (isOpen : Nat → Bool) (fresh : Nat → τ) (chosen : List Nat)
    (sound : ∀ c < row.length, isOpen c = true → row[c]? = some mask) :
    Absorbs mask row (fill isOpen fresh chosen row) := by
  refine ⟨fill_length _ _ _ _, ?_⟩
  intro c t read kept
  rw [fill_get, read, Option.map_some, if_neg]
  rintro ⟨_, opened⟩
  have masked := sound c (get_lt row c t read) opened
  rw [read] at masked
  exact kept (Option.some.inj masked)

def padded (pad : τ) (left right : Nat) (row : List τ) : List τ :=
  List.replicate left pad ++ row ++ List.replicate right pad

theorem padded_length (pad : τ) (left right : Nat) (row : List τ) :
    (padded pad left right row).length = left + row.length + right := by
  simp only [padded, List.length_append, List.length_replicate]

theorem padded_get_row (pad : τ) (left right : Nat) (row : List τ) (c : Nat) (inside : c < row.length) :
    (padded pad left right row)[left + c]? = row[c]? := by
  rw [padded, List.getElem?_append_left (by simp; omega), List.getElem?_append_right (by simp)]
  simp

theorem padded_get_pad (pad : τ) (left right : Nat) (row : List τ) (c : Nat) (t : τ)
    (outside : c < left ∨ left + row.length ≤ c) (read : (padded pad left right row)[c]? = some t) : t = pad := by
  rcases outside with before | after
  · rw [padded, List.append_assoc, List.getElem?_append_left (by simpa using before)] at read
    exact List.eq_of_mem_replicate (List.mem_of_getElem? read)
  · rw [padded, List.getElem?_append_right (by simpa using after)] at read
    exact List.eq_of_mem_replicate (List.mem_of_getElem? read)

-- The part of a choice in the wider row that falls into the window from left on.
def shifted (left : Nat) (chosen : List Nat) : List Nat := (chosen.filter (left ≤ ·)).map (· - left)

theorem mem_shifted (left : Nat) (chosen : List Nat) (c : Nat) : c ∈ shifted left chosen ↔ left + c ∈ chosen := by
  simp only [shifted, List.mem_map, List.mem_filter, decide_eq_true_eq]
  constructor
  · rintro ⟨p, ⟨member, lower⟩, rfl⟩
    rwa [Nat.add_sub_cancel' lower]
  · intro member
    exact ⟨left + c, ⟨member, Nat.le_add_right left c⟩, Nat.add_sub_cancel_left left c⟩

theorem shifted_length (left : Nat) (chosen : List Nat) : (shifted left chosen).length ≤ chosen.length := by
  rw [shifted, List.length_map]
  exact List.length_filter_le _ _

end Symbols

variable {τ : Type*} [DecidableEq τ]

def holding (symbol : τ) (row : List τ) (a b : Nat) : Finset Nat :=
  (Finset.range row.length).filter fun c => a ≤ c ∧ c < b ∧ row[c]? = some symbol

theorem mem_holding (symbol : τ) (row : List τ) (a b c : Nat) :
    c ∈ holding symbol row a b ↔ a ≤ c ∧ c < b ∧ row[c]? = some symbol := by
  simp only [holding, Finset.mem_filter, Finset.mem_range, and_iff_right_iff_imp]
  rintro ⟨_, _, read⟩
  exact get_lt row c symbol read

theorem mem_holding_append (symbol last : τ) (front : List τ) (c : Nat) :
    c ∈ holding symbol (front ++ [last]) 0 (front ++ [last]).length ↔
      c ∈ holding symbol front 0 front.length ∨ (c = front.length ∧ last = symbol) := by
  simp only [mem_holding, Nat.zero_le, true_and, List.length_append, List.length_singleton]
  rcases Nat.lt_trichotomy c front.length with less | equal | greater
  · rw [List.getElem?_append_left less]
    constructor
    · rintro ⟨_, read⟩
      exact Or.inl ⟨less, read⟩
    · rintro (⟨_, read⟩ | ⟨equal, _⟩)
      · exact ⟨by omega, read⟩
      · omega
  · subst equal
    simp
  · constructor
    · rintro ⟨bound, _⟩
      omega
    · rintro (⟨bound, _⟩ | ⟨equal, _⟩) <;> omega

theorem count_eq_holding (symbol : τ) (row : List τ) : row.count symbol = (holding symbol row 0 row.length).card := by
  induction row using List.reverseRecOn with
  | nil => simp [holding]
  | append_singleton front last ih =>
      have fresh : front.length ∉ holding symbol front 0 front.length := by
        rw [mem_holding]
        omega
      rw [List.count_append, ih]
      by_cases same : last = symbol
      · have grown : holding symbol (front ++ [last]) 0 (front ++ [last]).length =
            insert front.length (holding symbol front 0 front.length) := by
          ext c
          rw [mem_holding_append, Finset.mem_insert]
          tauto
        rw [grown, Finset.card_insert_of_notMem fresh, same]
        simp
      · have kept : holding symbol (front ++ [last]) 0 (front ++ [last]).length =
            holding symbol front 0 front.length := by
          ext c
          rw [mem_holding_append]
          tauto
        rw [kept]
        simp [same]

theorem slice_count (symbol : τ) (row : List τ) (a b : Nat) :
    (slice row a b).count symbol = (holding symbol row a b).card := by
  rw [count_eq_holding]
  apply Finset.card_bij (fun c _ => a + c)
  · intro c member
    obtain ⟨_, _, read⟩ := (mem_holding _ _ _ _ _).mp member
    rw [slice_get] at read
    rw [mem_holding]
    split at read
    · rename_i inside
      exact ⟨Nat.le_add_right a c, inside, read⟩
    · cases read
  · intro c _ d _ equal
    omega
  · intro p member
    obtain ⟨lower, upper, read⟩ := (mem_holding _ _ _ _ _).mp member
    obtain ⟨c, rfl⟩ := Nat.exists_eq_add_of_le lower
    have sliced : (slice row a b)[c]? = some symbol := by rw [slice_get, if_pos upper, read]
    exact ⟨c, (mem_holding _ _ _ _ _).mpr ⟨Nat.zero_le c, get_lt _ _ _ sliced, sliced⟩, rfl⟩

theorem holding_card_le (symbol : τ) (row : List τ) (a n : Nat) : (holding symbol row a (a + n)).card ≤ n := by
  rw [← slice_count]
  refine List.count_le_length.trans ?_
  rw [slice, List.length_drop, List.length_take]
  omega

theorem holding_full (symbol : τ) (row : List τ) (a b : Nat)
    (full : ∀ c, a ≤ c → c < b → row[c]? = some symbol) : (holding symbol row a b).card = b - a := by
  have same : holding symbol row a b = Finset.Ico a b := by
    ext c
    rw [mem_holding, Finset.mem_Ico]
    exact ⟨fun inside => ⟨inside.1, inside.2.1⟩, fun inside => ⟨inside.1, inside.2, full c inside.1 inside.2⟩⟩
  rw [same, Nat.card_Ico]

theorem holding_mono (symbol : τ) (row : List τ) (a b a' b' : Nat) (lower : a' ≤ a) (upper : b ≤ b') :
    holding symbol row a b ⊆ holding symbol row a' b' := by
  intro c member
  obtain ⟨above, below, read⟩ := (mem_holding _ _ _ _ _).mp member
  exact (mem_holding _ _ _ _ _).mpr ⟨lower.trans above, lt_of_lt_of_le below upper, read⟩

theorem holding_split (symbol : τ) (row : List τ) (a b : Nat) (front : holding symbol row 0 a = ∅) :
    holding symbol row 0 b = holding symbol row a b := by
  ext c
  rw [mem_holding, mem_holding]
  constructor
  · rintro ⟨_, upper, read⟩
    refine ⟨?_, upper, read⟩
    by_contra early
    have member : c ∈ holding symbol row 0 a := (mem_holding _ _ _ _ _).mpr ⟨Nat.zero_le c, by omega, read⟩
    rw [front] at member
    cases member
  · rintro ⟨_, upper, read⟩
    exact ⟨Nat.zero_le c, upper, read⟩

theorem absorbs_holding (mask : τ) (old new : List τ) (a b : Nat) (absorbs : Absorbs mask old new) :
    holding mask new a b ⊆ holding mask old a b := by
  intro c member
  obtain ⟨lower, upper, read⟩ := (mem_holding _ _ _ _ _).mp member
  have bound := get_lt new c mask read
  rw [absorbs.1] at bound
  have present : old[c]? = some old[c] := List.getElem?_eq_getElem bound
  refine (mem_holding _ _ _ _ _).mpr ⟨lower, upper, ?_⟩
  by_cases masked : old[c] = mask
  · rw [present, masked]
  · rw [absorbs.2 c old[c] present masked] at read
    exact present.trans read

def isMask (mask : τ) (row : List τ) (c : Nat) : Bool := row[c]? == some mask

theorem is_mask_iff (mask : τ) (row : List τ) (c : Nat) : isMask mask row c = true ↔ row[c]? = some mask := by
  rw [isMask, beq_iff_eq]

theorem fill_keeps_open (mask : τ) (row : List τ) (fresh : Nat → τ) (chosen : List Nat) (c : Nat)
    (read : row[c]? = some mask) (absent : c ∉ chosen) :
    (fill (isMask mask row) fresh chosen row)[c]? = some mask := by
  rw [fill_get, read, Option.map_some, if_neg (fun both => absent both.1)]

theorem fill_closes (mask : τ) (row : List τ) (fresh : Nat → τ) (chosen : List Nat) (c : Nat)
    (read : row[c]? = some mask) (taken : c ∈ chosen) (proper : fresh c ≠ mask) :
    (fill (isMask mask row) fresh chosen row)[c]? ≠ some mask := by
  rw [fill_get, read, Option.map_some, if_pos ⟨taken, (is_mask_iff mask row c).mpr read⟩]
  exact fun same => proper (Option.some.inj same)

theorem fill_holding_card (mask : τ) (row : List τ) (fresh : Nat → τ) (chosen : List Nat) (a b : Nat) :
    (holding mask row a b).card ≤ (holding mask (fill (isMask mask row) fresh chosen row) a b).card + chosen.length := by
  have covered : holding mask row a b ⊆
      holding mask (fill (isMask mask row) fresh chosen row) a b ∪ chosen.toFinset := by
    intro c member
    obtain ⟨lower, upper, read⟩ := (mem_holding _ _ _ _ _).mp member
    rw [Finset.mem_union, List.mem_toFinset, mem_holding]
    by_cases taken : c ∈ chosen
    · exact Or.inr taken
    · exact Or.inl ⟨lower, upper, fill_keeps_open mask row fresh chosen c read taken⟩
  calc
    (holding mask row a b).card ≤ _ := Finset.card_le_card covered
    _ ≤ _ := Finset.card_union_le _ _
    _ ≤ _ := Nat.add_le_add_left (List.toFinset_card_le chosen) _

theorem is_mask_padded (mask pad : τ) (left right : Nat) (row : List τ) (c : Nat) (inside : c < row.length) :
    isMask mask (padded pad left right row) (left + c) = isMask mask row c := by
  rw [isMask, isMask, padded_get_row pad left right row c inside]

theorem fill_window (mask pad : τ) (left right : Nat) (row : List τ) (fresh : Nat → τ) (chosen : List Nat) :
    slice (fill (isMask mask (padded pad left right row)) fresh chosen (padded pad left right row)) left
        (left + row.length) =
      fill (isMask mask row) (fun c => fresh (left + c)) (shifted left chosen) row := by
  apply List.ext_getElem?
  intro c
  rw [slice_get, fill_get, fill_get]
  by_cases inside : c < row.length
  · rw [if_pos (by omega), padded_get_row pad left right row c inside, is_mask_padded mask pad left right row c inside]
    simp only [mem_shifted]
  · rw [if_neg (by omega), List.getElem?_eq_none (Nat.le_of_not_lt inside)]
    rfl

theorem holding_padded_subset (mask pad : τ) (left right : Nat) (row : List τ) (b : Nat) :
    (holding mask row 0 b).image (left + ·) ⊆ holding mask (padded pad left right row) 0 (left + b) := by
  intro p member
  obtain ⟨c, inside, rfl⟩ := Finset.mem_image.mp member
  obtain ⟨_, upper, read⟩ := (mem_holding _ _ _ _ _).mp inside
  refine (mem_holding _ _ _ _ _).mpr ⟨Nat.zero_le _, by omega, ?_⟩
  rw [padded_get_row pad left right row c (get_lt row c mask read), read]

theorem holding_padded (mask pad : τ) (left right : Nat) (row : List τ) (b : Nat) (proper : pad ≠ mask) :
    holding mask (padded pad left right row) 0 (left + b) = (holding mask row 0 b).image (left + ·) := by
  apply Finset.Subset.antisymm _ (holding_padded_subset mask pad left right row b)
  intro p member
  obtain ⟨_, upper, read⟩ := (mem_holding _ _ _ _ _).mp member
  have window : left ≤ p ∧ p < left + row.length := by
    by_contra outside
    exact proper (padded_get_pad pad left right row p mask (by omega) read).symm
  obtain ⟨c, rfl⟩ := Nat.exists_eq_add_of_le window.1
  rw [padded_get_row pad left right row c (by omega)] at read
  exact Finset.mem_image.mpr ⟨c, (mem_holding _ _ _ _ _).mpr ⟨Nat.zero_le c, by omega, read⟩, rfl⟩

theorem holding_image_card (mask : τ) (left : Nat) (row : List τ) (b : Nat) :
    ((holding mask row 0 b).image (left + ·)).card = (holding mask row 0 b).card :=
  Finset.card_image_of_injective _ (fun _ _ same => Nat.add_left_cancel same)

end Rows
