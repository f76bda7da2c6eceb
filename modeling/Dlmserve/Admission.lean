import Dlmserve.GenerateRun
import Dlmserve.Prepare

set_option autoImplicit false

namespace Dlmserve

variable {V : Type} (torch : Torch V) (front : Frontend) (loaded : LoadedModel V) (params : SamplingParams)
  (prerendered : Bool) (around : Surroundings V)

section Admit

-- Every prompt gets as far as the scheduler at the tick of its turn.
def AllPrepared (tick : Nat) (prompts : List String) : Prop :=
  ∀ i prompt, prompts[i]? = some prompt →
    ∃ state, Prepares front (around.full (tick + i)) loaded.maskId params prerendered prompt state

theorem all_prepared_cons (tick : Nat) (prompt : String) (prompts : List String) :
    AllPrepared front loaded params prerendered around tick (prompt :: prompts) ↔
      (∃ state, Prepares front (around.full tick) loaded.maskId params prerendered prompt state) ∧
        AllPrepared front loaded params prerendered around (tick + 1) prompts := by
  constructor
  · intro each
    refine ⟨each 0 prompt rfl, fun i other read => ?_⟩
    rw [Nat.add_assoc, Nat.add_comm 1 i]
    exact each (i + 1) other read
  · rintro ⟨first, rest⟩ i other read
    cases i with
    | zero =>
        obtain rfl : prompt = other := by simpa using read
        exact first
    | succ i =>
        rw [Nat.add_comm i 1, ← Nat.add_assoc]
        exact rest i other (by simpa using read)

variable (tick : Nat) (e : Engine) (prompt : String) (prompts : List String)

def Engine.enqueue (time : ℚ) (state : DenoiseState) : Engine :=
  { e with scheduler := enqueued e.scheduler time state params (some .pending) }

theorem admit_all_error_cons (error : PyError)
    (refused : e.admitPrompt front loaded params prerendered (around.clock tick) (around.full tick) prompt = (e, .error error)) :
    Engine.admitAll front loaded params prerendered around tick e (prompt :: prompts) = (e, .error error) := by
  rw [Engine.admitAll, refused]

theorem admit_all_room_cons (state : DenoiseState)
    (prepares : Prepares front (around.full tick) loaded.maskId params prerendered prompt state)
    (room : e.scheduler.pending.length < e.scheduler.maxWaiting) :
    Engine.admitAll front loaded params prerendered around tick e (prompt :: prompts) =
      ((Engine.admitAll front loaded params prerendered around (tick + 1) (e.enqueue params (around.clock tick) state)
          prompts).1,
        (Engine.admitAll front loaded params prerendered around (tick + 1) (e.enqueue params (around.clock tick) state)
          prompts).2.map (e.scheduler.fresh :: ·)) := by
  rw [Engine.admitAll, admit_prompt_room front loaded params prerendered _ _ prompt e state prepares room]
  rfl

theorem enqueue_queue (time : ℚ) (state : DenoiseState) :
    (e.enqueue params time state).queue = e.queue ++ [e.scheduler.fresh] :=
  (List.append_assoc e.scheduler.active e.scheduler.pending [e.scheduler.fresh]).symm

structure Admitted (n : Nat) (e e' : Engine) : Prop where
  loop : e'.loop = e.loop
  maxBatch : e'.scheduler.maxBatch = e.scheduler.maxBatch
  active : e'.scheduler.active = e.scheduler.active
  pending : e'.scheduler.pending = e.scheduler.pending ++ List.range' e.scheduler.fresh n
  objects : ∀ ref < e.scheduler.fresh, e'.scheduler.objects ref = e.scheduler.objects ref
  awaited : ∀ ref ∈ List.range' e.scheduler.fresh n, e'.scheduler.awaited ref = true

theorem admitted_enqueue (n : Nat) (e e' : Engine) (time : ℚ) (state : DenoiseState)
    (rest : Admitted n (e.enqueue params time state) e') : Admitted (n + 1) e e' := by
  have old (ref : Nat) (alive : ref < e.scheduler.fresh) : e'.scheduler.objects ref = e.scheduler.objects ref :=
    (rest.objects ref (Nat.lt_succ_of_lt alive)).trans
      (enqueued_old e.scheduler time state params _ ref (Nat.ne_of_lt alive))
  refine ⟨rest.loop, rest.maxBatch, rest.active, ?_, old, ?_⟩
  · rw [rest.pending, List.range'_succ]
    exact List.append_assoc e.scheduler.pending [e.scheduler.fresh] _
  · intro ref member
    rw [List.range'_succ, List.mem_cons] at member
    rcases member with rfl | later
    · rw [awaited_eq, rest.objects _ (Nat.lt_succ_self _)]
      exact congrArg (fun req : Request => req.awaited) (enqueued_new e.scheduler time state params (some .pending))
    · exact rest.awaited ref later

theorem admit_all_room (accepted : AllPrepared front loaded params prerendered around tick prompts)
    (room : e.scheduler.pending.length + prompts.length ≤ e.scheduler.maxWaiting) :
    (Engine.admitAll front loaded params prerendered around tick e prompts).2 =
        .ok (List.range' e.scheduler.fresh prompts.length) ∧
      Admitted prompts.length e (Engine.admitAll front loaded params prerendered around tick e prompts).1 := by
  induction prompts generalizing tick e with
  | nil =>
      exact ⟨rfl, rfl, rfl, rfl, (List.append_nil _).symm, fun _ _ => rfl, fun _ member => absurd member List.not_mem_nil⟩
  | cons prompt prompts ih =>
      rw [List.length_cons] at room
      obtain ⟨⟨state, prepares⟩, others⟩ := (all_prepared_cons front loaded params prerendered around tick prompt prompts).mp
        accepted
      have longer : (e.enqueue params (around.clock tick) state).scheduler.pending.length = e.scheduler.pending.length + 1 :=
        List.length_append
      obtain ⟨refs, admitted⟩ := ih (tick + 1) (e.enqueue params (around.clock tick) state) others
        (by rw [longer]; exact (by omega : e.scheduler.pending.length + 1 + prompts.length ≤ e.scheduler.maxWaiting))
      rw [admit_all_room_cons front loaded params prerendered around tick e prompt prompts state prepares (by omega), refs]
      exact ⟨rfl, admitted_enqueue params prompts.length e _ _ state admitted⟩

theorem admit_all_queue : (Engine.admitAll front loaded params prerendered around tick e prompts).1.loop = e.loop ∧
    ∃ more, (Engine.admitAll front loaded params prerendered around tick e prompts).1.queue = e.queue ++ more := by
  induction prompts generalizing tick e with
  | nil => exact ⟨rfl, [], (List.append_nil _).symm⟩
  | cons prompt prompts ih =>
      rcases prepared_or_not front (around.full tick) loaded.maskId params prerendered prompt with
        ⟨state, prepares⟩ | ⟨error, unprepared⟩
      · by_cases filled : e.scheduler.maxWaiting ≤ e.scheduler.pending.length
        · rw [admit_all_error_cons front loaded params prerendered around tick e prompt prompts _
            (admit_prompt_full front loaded params prerendered _ _ prompt e state prepares filled)]
          exact ⟨rfl, [], (List.append_nil _).symm⟩
        · rw [admit_all_room_cons front loaded params prerendered around tick e prompt prompts state prepares (by omega)]
          obtain ⟨loop, more, longer⟩ := ih (tick + 1) (e.enqueue params (around.clock tick) state)
          refine ⟨loop, e.scheduler.fresh :: more, longer.trans ?_⟩
          rw [enqueue_queue, List.append_assoc, List.singleton_append]
      · rw [admit_all_error_cons front loaded params prerendered around tick e prompt prompts error
          (admit_prompt_unprepared front loaded params prerendered _ _ prompt e error unprepared)]
        exact ⟨rfl, [], (List.append_nil _).symm⟩

-- The first prompt of a call on an idle engine is refused: no place to wait in, or the
-- prompt is not prepared.
def FirstRefused : Prop :=
  ∃ prompt, prompts.head? = some prompt ∧ (e.scheduler.maxWaiting = 0 ∨
    ∃ error, Unprepared front (around.full tick) loaded.maskId params prerendered prompt error)

theorem admit_all_error (refused : ¬ (AllPrepared front loaded params prerendered around tick prompts ∧
      e.scheduler.pending.length + prompts.length ≤ e.scheduler.maxWaiting))
    (fits : e.scheduler.pending.length ≤ e.scheduler.maxWaiting) :
    ∃ error, (Engine.admitAll front loaded params prerendered around tick e prompts).2 = .error error := by
  induction prompts generalizing tick e with
  | nil => exact absurd ⟨fun _ _ read => by simp at read, fits⟩ refused
  | cons prompt prompts ih =>
      rcases prepared_or_not front (around.full tick) loaded.maskId params prerendered prompt with
        ⟨state, prepares⟩ | ⟨error, unprepared⟩
      · by_cases filled : e.scheduler.maxWaiting ≤ e.scheduler.pending.length
        · exact ⟨_, congrArg Prod.snd (admit_all_error_cons front loaded params prerendered around tick e prompt prompts _
            (admit_prompt_full front loaded params prerendered _ _ prompt e state prepares filled))⟩
        · have longer : (e.enqueue params (around.clock tick) state).scheduler.pending.length =
              e.scheduler.pending.length + 1 := List.length_append
          obtain ⟨error, raised⟩ := ih (tick + 1) (e.enqueue params (around.clock tick) state) (by
              rintro ⟨others, room⟩
              rw [longer] at room
              change e.scheduler.pending.length + 1 + prompts.length ≤ e.scheduler.maxWaiting at room
              refine refused ⟨(all_prepared_cons front loaded params prerendered around tick prompt prompts).mpr
                ⟨⟨state, prepares⟩, others⟩, ?_⟩
              rw [List.length_cons]
              omega) (by
              rw [longer]
              exact (by omega : e.scheduler.pending.length + 1 ≤ e.scheduler.maxWaiting))
          rw [admit_all_room_cons front loaded params prerendered around tick e prompt prompts state prepares (by omega), raised]
          exact ⟨error, rfl⟩
      · exact ⟨error, congrArg Prod.snd (admit_all_error_cons front loaded params prerendered around tick e prompt prompts error
          (admit_prompt_unprepared front loaded params prerendered _ _ prompt e error unprepared))⟩

-- An admission that stops on the way leaves the prompts before the refused one queued.
theorem admit_all_leaves (idle : e.queue = []) (refused : ¬ (AllPrepared front loaded params prerendered around tick prompts ∧
      prompts.length ≤ e.scheduler.maxWaiting)) :
    (Engine.admitAll front loaded params prerendered around tick e prompts).1.queue = [] ↔
      FirstRefused front loaded params prerendered around tick e prompts := by
  have none_pending := (List.append_eq_nil_iff.mp idle).2
  cases prompts with
  | nil => exact absurd ⟨fun _ _ read => by simp at read, Nat.zero_le _⟩ refused
  | cons prompt prompts =>
      rcases prepared_or_not front (around.full tick) loaded.maskId params prerendered prompt with
        ⟨state, prepares⟩ | ⟨error, unprepared⟩
      · by_cases filled : e.scheduler.maxWaiting ≤ e.scheduler.pending.length
        · rw [admit_all_error_cons front loaded params prerendered around tick e prompt prompts _
            (admit_prompt_full front loaded params prerendered _ _ prompt e state prepares filled)]
          rw [none_pending] at filled
          exact iff_of_true idle ⟨prompt, rfl, Or.inl (Nat.le_zero.mp filled)⟩
        · rw [admit_all_room_cons front loaded params prerendered around tick e prompt prompts state prepares (by omega)]
          obtain ⟨_, more, longer⟩ := admit_all_queue front loaded params prerendered around (tick + 1)
            (e.enqueue params (around.clock tick) state) prompts
          refine iff_of_false ?_ ?_
          · dsimp only
            rw [longer, enqueue_queue]
            simp
          · rintro ⟨other, read, none_wait | ⟨error, unprepared⟩⟩
            · rw [none_wait] at filled
              exact filled (Nat.zero_le _)
            · obtain rfl : prompt = other := by simpa using read
              exact prepared_excludes front _ _ params prerendered prompt state prepares error unprepared
      · rw [admit_all_error_cons front loaded params prerendered around tick e prompt prompts error
          (admit_prompt_unprepared front loaded params prerendered _ _ prompt e error unprepared)]
        exact iff_of_true idle ⟨prompt, rfl, Or.inr ⟨error, unprepared⟩⟩

end Admit

section Calls

theorem paced_restarts (tokenizer : Tokenizer) (e : Engine) (now time : ℚ) (invariant : PacedInvariant tokenizer ⟨e, now⟩)
    (later : now ≤ time) (shutdown : Bool) (loop : LoopStatus) (alive : loop ≠ .crashed) :
    PacedInvariant tokenizer ⟨{ scheduler := e.scheduler, shutdown := shutdown, loop := loop }, time⟩ :=
  ⟨waited_invariant e now time tokenizer later invariant.engine loop shutdown alive, invariant.paced⟩

theorem paced_waits (tokenizer : Tokenizer) (e : Engine) (now time : ℚ) (invariant : PacedInvariant tokenizer ⟨e, now⟩)
    (later : now ≤ time) : PacedInvariant tokenizer ⟨e, time⟩ :=
  paced_restarts tokenizer e now time invariant later e.shutdown e.loop invariant.engine.alive

theorem submit_paced (e : Engine) (now time : ℚ) (invariant : PacedInvariant loaded.tokenizer ⟨e, now⟩) (later : now ≤ time)
    (full : Full) (promptIds : List Token) : PacedInvariant loaded.tokenizer ⟨e.submit loaded time full promptIds params, time⟩ :=
  ⟨submit_invariant loaded e now time later invariant.engine promptIds params,
    follows_paced _ _ (submit_follows loaded e time promptIds params) invariant.paced⟩

theorem admit_all_paced (monotone : Monotone around.clock) (prompts : List String) (tick : Nat) (e : Engine) (now : ℚ)
    (invariant : PacedInvariant loaded.tokenizer ⟨e, now⟩) (later : now ≤ around.clock tick) :
    PacedInvariant loaded.tokenizer
      ⟨(Engine.admitAll front loaded params prerendered around tick e prompts).1, around.clock (tick + prompts.length)⟩ := by
  induction prompts generalizing tick e now with
  | nil => exact paced_waits loaded.tokenizer e now _ invariant later
  | cons prompt prompts ih =>
      have stopped : PacedInvariant loaded.tokenizer ⟨e, around.clock (tick + (prompt :: prompts).length)⟩ :=
        paced_waits loaded.tokenizer e now _ invariant (later.trans (monotone (Nat.le_add_right _ _)))
      rcases prepared_or_not front (around.full tick) loaded.maskId params prerendered prompt with
        ⟨state, prepares⟩ | ⟨error, unprepared⟩
      · by_cases filled : e.scheduler.maxWaiting ≤ e.scheduler.pending.length
        · rw [admit_all_error_cons front loaded params prerendered around tick e prompt prompts _
            (admit_prompt_full front loaded params prerendered _ _ prompt e state prepares filled)]
          exact stopped
        · have room : e.scheduler.pending.length < e.scheduler.maxWaiting := by omega
          obtain ⟨promptIds, submitted⟩ := prepared_submit front loaded params prerendered (around.clock tick) (around.full tick)
            prompt e state prepares room
          have next := submit_paced loaded params e now (around.clock tick) invariant later (around.full tick) promptIds
          rw [submitted] at next
          have rest := ih (tick + 1) (e.enqueue params (around.clock tick) state) _ next (monotone (Nat.le_succ tick))
          rw [admit_all_room_cons front loaded params prerendered around tick e prompt prompts state prepares room,
            List.length_cons, ← Nat.add_assoc, Nat.add_right_comm]
          exact rest
      · rw [admit_all_error_cons front loaded params prerendered around tick e prompt prompts error
          (admit_prompt_unprepared front loaded params prerendered _ _ prompt e error unprepared)]
        exact stopped

theorem round_paced (decodes : Decodes loaded.tokenizer) (tick : Nat) (e : Engine) (now : ℚ)
    (invariant : PacedInvariant loaded.tokenizer ⟨e, now⟩) (later : now ≤ around.clock tick) :
    PacedInvariant loaded.tokenizer ⟨e.round torch loaded around tick, around.clock tick⟩ :=
  (paced_step torch loaded decodes ⟨e, now⟩ ⟨e.round torch loaded around tick, around.clock tick⟩
    (around.clock tick, .iterate (around.fails tick) (around.draw tick)) invariant ⟨later, rfl⟩).1

theorem await_paced (decodes : Decodes loaded.tokenizer) (monotone : Monotone around.clock) (refs : List Nat) (fuel : Nat)
    (tick : Nat) (e : Engine) (now : ℚ) (invariant : PacedInvariant loaded.tokenizer ⟨e, now⟩)
    (later : now ≤ around.clock tick) (e' : Engine) (outcome : Outcome)
    (ended : e.awaitGather torch loaded around refs tick fuel = some (e', outcome)) :
    PacedInvariant loaded.tokenizer ⟨e', around.clock (tick + fuel)⟩ := by
  induction fuel generalizing tick e now with
  | zero => cases ended
  | succ fuel ih =>
      have after := round_paced torch loaded around decodes tick e now invariant later
      have following := monotone (Nat.le_succ tick)
      rw [Engine.awaitGather] at ended
      cases gathered : (e.round torch loaded around tick).scheduler.gathered refs with
      | none =>
          rw [gathered] at ended
          have rest := ih (tick + 1) _ _ after following ended
          rw [Nat.add_right_comm] at rest
          exact rest
      | some result =>
          rw [gathered] at ended
          obtain ⟨rfl, -⟩ := Prod.mk.inj (Option.some.inj ended)
          have last := round_paced torch loaded around decodes (tick + 1) _ _ after following
          exact paced_waits loaded.tokenizer _ _ _ last (monotone (by omega))

theorem finish_alive (e : Engine) (outcome : Outcome) (alive : e.loop ≠ .crashed) :
    e.finish outcome = ({ e with shutdown := false }, outcome) := if_neg alive

theorem finish_paced (tokenizer : Tokenizer) (e : Engine) (now : ℚ) (invariant : PacedInvariant tokenizer ⟨e, now⟩)
    (outcome : Outcome) : PacedInvariant tokenizer ⟨(e.finish outcome).1, now⟩ := by
  rw [finish_alive e outcome invariant.engine.alive]
  exact paced_restarts tokenizer e now now invariant (le_refl now) false e.loop invariant.engine.alive

-- A call may use up to fuel rounds of the loop behind its admissions.
theorem generate_paced (decodes : Decodes loaded.tokenizer) (monotone : Monotone around.clock)
    (prompts : List String) (fuel : Nat) (e : Engine) (now : ℚ) (invariant : PacedInvariant loaded.tokenizer ⟨e, now⟩)
    (later : now ≤ around.clock 0) (e' : Engine) (outcome : Outcome)
    (ended : e.generate torch front loaded params prerendered around prompts fuel = some (e', outcome)) :
    PacedInvariant loaded.tokenizer ⟨e', around.clock (prompts.length + fuel)⟩ := by
  have started := paced_restarts loaded.tokenizer e now now invariant (le_refl now) e.shutdown .running (by decide)
  have admitted := admit_all_paced front loaded params prerendered around monotone prompts 0 { e with loop := .running } now
    started later
  rw [Nat.zero_add] at admitted
  have stopped := paced_waits loaded.tokenizer _ _ (around.clock (prompts.length + fuel)) admitted
    (monotone (Nat.le_add_right _ _))
  rw [Engine.generate] at ended
  split at ended
  · rename_i error _
    have final := finish_paced loaded.tokenizer _ _ stopped (.raised error)
    rwa [Option.some.inj ended] at final
  · have final := finish_paced loaded.tokenizer _ _ stopped (.returned [])
    rwa [Option.some.inj ended] at final
  · rename_i refs _ _
    obtain ⟨⟨last, result⟩, awaited, done⟩ := Option.map_eq_some_iff.mp ended
    have rested := await_paced torch loaded around decodes monotone refs fuel prompts.length _ _ admitted (le_refl _) last
      result awaited
    have final := finish_paced loaded.tokenizer last _ rested result
    rwa [show last.finish result = (e', outcome) from done] at final

end Calls

end Dlmserve
