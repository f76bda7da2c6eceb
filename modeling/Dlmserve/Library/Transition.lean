import Mathlib.Logic.Relation
import Mathlib.Data.List.Forall2

set_option autoImplicit false

namespace Transition

section Runs

variable {σ α : Type*} {step : σ → α → σ → Prop}

inductive Run (step : σ → α → σ → Prop) (start : σ) : List (σ × α) → σ → Prop where
  | nil : Run step start [] start
  | snoc (trace : List (σ × α)) (s t : σ) (a : α) (earlier : Run step start trace s) (last : step s a t) :
      Run step start (trace ++ [(s, a)]) t

def Reachable (init : σ → Prop) (step : σ → α → σ → Prop) (s : σ) : Prop :=
  ∃ start trace, init start ∧ Run step start trace s

-- Invariant rule: what holds at the start and survives every permitted step
-- holds after any run that takes permitted steps only; the steps may be counted.
theorem run_counted (inv : Nat → σ → Prop) (permitted : σ → α → Prop) (start s : σ) (trace : List (σ × α))
    (run : Run step start trace s) (holds : inv 0 start) (each : ∀ entry ∈ trace, permitted entry.1 entry.2)
    (preserved : ∀ n s a t, inv n s → permitted s a → step s a t → inv (n + 1) t) : inv trace.length s := by
  induction run with
  | nil => exact holds
  | snoc trace s t a _ last ih =>
      have before := ih fun entry member => each entry (List.mem_append_left _ member)
      rw [List.length_append, List.length_singleton]
      exact preserved trace.length s a t before (each (s, a) (by simp)) last

theorem run_permitted (inv : σ → Prop) (permitted : σ → α → Prop) (start s : σ) (trace : List (σ × α))
    (run : Run step start trace s) (holds : inv start) (each : ∀ entry ∈ trace, permitted entry.1 entry.2)
    (preserved : ∀ s a t, inv s → permitted s a → step s a t → inv t) : inv s :=
  run_counted (fun _ => inv) permitted start s trace run holds each fun _ => preserved

theorem run_invariant (inv : σ → Prop) (start s : σ) (trace : List (σ × α)) (run : Run step start trace s)
    (holds : inv start) (preserved : ∀ s a t, inv s → step s a t → inv t) : inv s :=
  run_permitted inv (fun _ _ => True) start s trace run holds (fun _ _ => trivial)
    fun s a t before _ last => preserved s a t before last

theorem reachable_invariant (init inv : σ → Prop) (s : σ) (reach : Reachable init step s)
    (holds : ∀ s, init s → inv s) (preserved : ∀ s a t, inv s → step s a t → inv t) : inv s := by
  obtain ⟨start, trace, initial, run⟩ := reach
  exact run_invariant inv start s trace run (holds start initial) preserved

theorem reachable_invariant_under (init inv known : σ → Prop) (s : σ) (reach : Reachable init step s)
    (everywhere : ∀ s, Reachable init step s → known s) (holds : ∀ s, init s → inv s)
    (preserved : ∀ s a t, known s → inv s → step s a t → inv t) : inv s := by
  obtain ⟨start, trace, initial, run⟩ := reach
  induction run with
  | nil => exact holds start initial
  | snoc trace s t a earlier last ih => exact preserved s a t (everywhere s ⟨start, trace, initial, earlier⟩) ih last

theorem run_entry (start s t : σ) (a : α) (trace : List (σ × α)) (run : Run step start trace s)
    (member : (t, a) ∈ trace) : ∃ earlier u, Run step start earlier t ∧ step t a u := by
  induction run with
  | nil => cases member
  | snoc trace s u b earlier last ih =>
      rcases List.mem_append.mp member with before | here
      · exact ih before
      · obtain ⟨rfl, rfl⟩ := Prod.mk.inj (List.mem_singleton.mp here)
        exact ⟨trace, u, earlier, last⟩

theorem run_append (start s t : σ) (early late : List (σ × α)) (first : Run step start early s)
    (second : Run step s late t) : Run step start (early ++ late) t := by
  induction second with
  | nil => simpa using first
  | snoc trace s t a _ last ih =>
      rw [← List.append_assoc]
      exact .snoc _ s t a ih last

theorem reachable_step (init : σ → Prop) (s t : σ) (a : α) (reach : Reachable init step s) (last : step s a t) :
    Reachable init step t := by
  obtain ⟨start, trace, initial, run⟩ := reach
  exact ⟨start, _, initial, .snoc trace s t a run last⟩

theorem reachable_run (init : σ → Prop) (s t : σ) (trace : List (σ × α)) (reach : Reachable init step s)
    (run : Run step s trace t) : Reachable init step t := by
  obtain ⟨start, early, initial, first⟩ := reach
  exact ⟨start, early ++ trace, initial, run_append start s t early trace first run⟩

-- History rule: a flag that is down at the start, and that the events of a run raise for
-- good and nothing else does, tells whether one of them took place.
theorem run_history (known flag : σ → Prop) (event : σ × α → Prop) (start s : σ) (trace : List (σ × α))
    (run : Run step start trace s) (everywhere : ∀ early t, Run step start early t → known t) (down : ¬ flag start)
    (raised : ∀ s a t, known s → step s a t → (flag t ↔ flag s ∨ event (s, a))) :
    flag s ↔ ∃ entry ∈ trace, event entry := by
  induction run with
  | nil =>
      refine iff_of_false down ?_
      rintro ⟨entry, member, _⟩
      cases member
  | snoc trace s t a earlier last ih =>
      rw [raised s a t (everywhere trace s earlier) last, ih]
      simp [or_and_right, exists_or]

-- Budget rule: a potential that no step lowers and every counted step raises
-- bounds how many counted steps a run can take.
theorem run_budget (inv : σ → Prop) (potential : σ → Nat) (counted : σ → α → Bool) (start s : σ)
    (trace : List (σ × α)) (run : Run step start trace s) (holds : inv start)
    (preserved : ∀ s a t, inv s → step s a t → inv t)
    (keeps : ∀ s a t, inv s → step s a t → potential s ≤ potential t)
    (pays : ∀ s a t, inv s → step s a t → counted s a = true → potential s < potential t) :
    trace.countP (fun entry => counted entry.1 entry.2) + potential start ≤ potential s := by
  induction run with
  | nil => simp
  | snoc trace s t a earlier last ih =>
      have invariant := run_invariant inv start s trace earlier holds preserved
      rw [List.countP_append]
      cases paid : counted s a with
      | true =>
          have raised := pays s a t invariant last paid
          simp only [List.countP_singleton, paid, if_true]
          omega
      | false =>
          have kept := keeps s a t invariant last
          simp only [List.countP_singleton, paid, Bool.false_eq_true, if_false]
          omega

-- Progress rule: where no step raises a measure and every counted step lowers it, until
-- the goal is reached for good, more counted steps than the measure reach it.
theorem run_exhausts (inv goal : σ → Prop) (measure : σ → Nat) (counted : σ → α → Bool) (start s : σ)
    (trace : List (σ × α)) (run : Run step start trace s) (holds : inv start)
    (preserved : ∀ s a t, inv s → step s a t → inv t)
    (stays : ∀ s a t, inv s → step s a t → goal s → goal t)
    (keeps : ∀ s a t, inv s → step s a t → measure t ≤ measure s)
    (lowers : ∀ s a t, inv s → step s a t → counted s a = true → goal t ∨ measure t < measure s)
    (enough : measure start < trace.countP fun entry => counted entry.1 entry.2) : goal s := by
  have progress : goal s ∨ (trace.countP fun entry => counted entry.1 entry.2) + measure s ≤ measure start := by
    clear enough
    induction run with
    | nil => exact Or.inr (by simp)
    | snoc trace s t a earlier last ih =>
        have invariant := run_invariant inv start s trace earlier holds preserved
        rcases ih with reached | bound
        · exact Or.inl (stays s a t invariant last reached)
        · rw [List.countP_append, List.countP_singleton]
          have kept := keeps s a t invariant last
          by_cases paid : counted s a = true
          · rcases lowers s a t invariant last paid with reached | less
            · exact Or.inl reached
            · refine Or.inr ?_
              rw [if_pos paid]
              omega
          · refine Or.inr ?_
            rw [if_neg paid]
            omega
  rcases progress with reached | bound
  · exact reached
  · omega

theorem run_empty (start s : σ) (trace : List (σ × α)) (run : Run step start trace s) (empty : trace = []) : s = start := by
  cases run with
  | nil => rfl
  | snoc => simp at empty

theorem run_last (start t : σ) (trace : List (σ × α)) (run : Run step start trace t) (early : List α) (a : α)
    (ends : trace.map Prod.snd = early ++ [a]) :
    ∃ trace' s, trace'.map Prod.snd = early ∧ Run step start trace' s ∧ step s a t := by
  cases run with
  | nil => simp at ends
  | snoc trace s t b earlier last =>
      rw [List.map_append, List.map_singleton] at ends
      obtain ⟨same, actions⟩ := List.append_inj' ends rfl
      obtain rfl := List.singleton_inj.mp actions
      exact ⟨trace, s, same, earlier, last⟩

inductive Aligned (paired : α → α → Prop) (silent : α → Prop) : List α → List α → Prop where
  | nil : Aligned paired silent [] []
  | both (early late : List α) (a b : α) (before : Aligned paired silent early late) (pair : paired a b) :
      Aligned paired silent (early ++ [a]) (late ++ [b])
  | left (early late : List α) (a : α) (before : Aligned paired silent early late) (quiet : silent a) :
      Aligned paired silent (early ++ [a]) late
  | right (early late : List α) (b : α) (before : Aligned paired silent early late) (quiet : silent b) :
      Aligned paired silent early (late ++ [b])

-- Unwinding rule: a likeness of states that paired steps keep together, and silent steps
-- of either run keep alone, holds at the ends of two runs whose actions are aligned.
theorem run_aligned (known : σ → Prop) (alike : σ → σ → Prop) (paired : α → α → Prop) (silent : α → Prop)
    (start start' : σ) (similar : alike start start') (actions actions' : List α)
    (aligned : Aligned paired silent actions actions')
    (together : ∀ s s' a b t t', known s → known s' → alike s s' → paired a b → step s a t → step s' b t' → alike t t')
    (alone : ∀ s s' a t, known s → known s' → alike s s' → silent a → step s a t → alike t s')
    (alone' : ∀ s s' b t', known s → known s' → alike s s' → silent b → step s' b t' → alike s t')
    (everywhere : ∀ trace s, Run step start trace s → known s) (everywhere' : ∀ trace s, Run step start' trace s → known s)
    (trace trace' : List (σ × α)) (s s' : σ) (run : Run step start trace s) (run' : Run step start' trace' s')
    (acted : trace.map Prod.snd = actions) (acted' : trace'.map Prod.snd = actions') : alike s s' := by
  induction aligned generalizing trace trace' s s' with
  | nil =>
      obtain rfl := run_empty start s trace run (List.map_eq_nil_iff.mp acted)
      obtain rfl := run_empty start' s' trace' run' (List.map_eq_nil_iff.mp acted')
      exact similar
  | both early late a b _ pair ih =>
      obtain ⟨before, u, same, earlier, last⟩ := run_last start s trace run early a acted
      obtain ⟨before', u', same', earlier', last'⟩ := run_last start' s' trace' run' late b acted'
      exact together u u' a b s s' (everywhere _ u earlier) (everywhere' _ u' earlier')
        (ih before before' u u' earlier earlier' same same') pair last last'
  | left early late a _ quiet ih =>
      obtain ⟨before, u, same, earlier, last⟩ := run_last start s trace run early a acted
      exact alone u s' a s (everywhere _ u earlier) (everywhere' _ s' run') (ih before trace' u s' earlier run' same acted')
        quiet last
  | right early late b _ quiet ih =>
      obtain ⟨before', u', same', earlier', last'⟩ := run_last start' s' trace' run' late b acted'
      exact alone' s u' b s' (everywhere _ s run) (everywhere' _ u' earlier') (ih trace before' s u' run earlier' acted same')
        quiet last'

end Runs

section Halting

variable {σ : Type*}

def Advances (next : σ → Option σ) (halted : σ → Prop) (s t : σ) : Prop := ¬ halted s ∧ next s = some t

theorem halted_unique (next : σ → Option σ) (halted : σ → Prop) (start s t : σ)
    (left : Relation.ReflTransGen (Advances next halted) start s)
    (right : Relation.ReflTransGen (Advances next halted) start t) (leftDone : halted s) (rightDone : halted t) :
    s = t := by
  have unique : Relator.RightUnique (Advances next halted) := by
    intro a b c first second
    exact Option.some.inj (first.2.symm.trans second.2)
  have stuck : ∀ a b, halted a → Relation.ReflTransGen (Advances next halted) a b → a = b := by
    intro a b done path
    rcases Relation.ReflTransGen.cases_head path with same | ⟨_, advance, _⟩
    · exact same
    · exact absurd done advance.1
  rcases Relation.ReflTransGen.total_of_right_unique unique left right with path | path
  · exact stuck s t leftDone path
  · exact (stuck t s rightDone path).symm

end Halting

end Transition
