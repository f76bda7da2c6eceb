import Dlmserve.Lockstep

set_option autoImplicit false

namespace Dlmserve

variable {full : Full}

section Schedule

variable (mask : Token) (s t : DenoiseState)

def taken (s : DenoiseState) : Nat := s.blockIdx * blockSteps s + s.stepInBlock

structure OnSchedule : Prop where
  exact : Exact mask s (taken s)
  progress : Progress mask s (taken s)

-- Requests without LocalLeap that need the same steps, whatever they ask.
structure Peers : Prop where
  plain : s.params.useLocalLeap = false
  alsoPlain : t.params.useLocalLeap = false
  genLength : t.genLength = s.genLength
  blockLength : t.blockLength = s.blockLength
  stepsPerBlock : t.stepsPerBlock = s.stepsPerBlock

-- Nothing is stepped yet, so that any device will do.
theorem initial_on_schedule (promptIds : List Token) (params : SamplingParams) (clean : mask ∉ promptIds)
    (made : initState full (.single promptIds) params mask = .ok s) : OnSchedule mask s := by
  have inStep := initial_in_step mask params writtenTorch full promptIds s clean made
  have none_taken : taken s = 0 := inStep.exact.spent.symm
  exact ⟨none_taken ▸ inStep.exact, none_taken ▸ inStep.progress⟩

theorem on_schedule_step {V : Type} (torch : Torch V) (model : Model V) (pad : Token) (draw : Draw V) (params0 : SamplingParams)
    (onSchedule : OnSchedule mask s) (plain : params0.useLocalLeap = false) (running : s.done = false)
    (sound : TopKSound draw) (proper : pad ≠ mask) (never : NeverPredictsMask torch model mask draw params0.temperature)
    (step : StateStep torch model mask pad draw params0 s t) : OnSchedule mask t ∧ taken t = taken s + 1 := by
  have exact := exact_step torch model mask pad draw params0 (taken s) s t step sound plain running onSchedule.exact
    onSchedule.progress.early
  have progress := progress_step torch model mask pad draw params0 (taken s) s t step sound proper never running
    onSchedule.progress
  have count : taken t = taken s + 1 := exact.spent.symm
  exact ⟨⟨count ▸ exact, count ▸ progress⟩, count⟩

variable {mask s t}

theorem peers_index (peers : Peers s t) (mine : OnSchedule mask s) (theirs : OnSchedule mask t) (same : taken s = taken t) :
    stepIdx s = stepIdx t :=
  same_place peers.blockLength peers.stepsPerBlock mine.progress.early theirs.progress.early same

-- Who is done has taken as many steps as any peer can take.
theorem peers_done (peers : Peers s t) (mine : OnSchedule mask s) (theirs : OnSchedule mask t) (ahead : taken t ≤ taken s)
    (done : t.done = true) : s.done = true := by
  have all_taken := (exact_done mask t (taken t) theirs.exact theirs.progress).mp done
  have budget : stepBudget t = stepBudget s := by
    rw [stepBudget, stepBudget, blockSteps, blockSteps, peers.genLength, peers.blockLength, peers.stepsPerBlock]
  have bound := progress_bound mask s (taken s) mine.progress
  rw [exact_done mask s (taken s) mine.exact mine.progress]
  omega

end Schedule

theorem take_earlier (l : List Nat) (increasing : l.Pairwise (· < ·)) (k a b : Nat) (earlier : a < b) (member : a ∈ l)
    (inside : b ∈ l.take k) : a ∈ l.take k := by
  by_contra absent
  have late : a ∈ l.drop k := by
    rw [← List.take_append_drop k l, List.mem_append] at member
    exact member.resolve_left absent
  have split : (l.take k ++ l.drop k).Pairwise (· < ·) := by rwa [List.take_append_drop]
  have before := (List.pairwise_append.mp split).2.2 b inside a late
  omega

section Round

variable {V : Type} (torch : Torch V) (loaded : LoadedModel V) (e : Engine) (now time : ℚ) (fails : Bool) (draw : Draw V)

-- The batch takes the members of its group in the order in which they came.
theorem batch_takes_earlier (later : now ≤ time) (invariant : EngineInvariant loaded.tokenizer e now) (a b : Nat)
    (earlier : a < b) (queued : a ∈ e.queue) (inside : b ∈ e.batch time)
    (same : (e.scheduler.objects a).groupKey = (e.scheduler.objects b).groupKey) : a ∈ e.batch time := by
  obtain ⟨key, reqs, chosen, good⟩ := batch_chosen loaded e now time later invariant (List.ne_nil_of_mem inside)
  have order := (promote_valid e.scheduler now time later invariant.queues).order
  have objects : e.scheduler.promotePending.objects = e.scheduler.objects := promote_objects e.scheduler
  have mine := good.uniform b inside
  have active : a ∈ e.scheduler.promotePending.active := by
    rw [Engine.queue, ← Scheduler.promote_order] at queued
    rcases List.mem_append.mp queued with here | pending
    · exact here
    · have before := (List.pairwise_append.mp order).2.2 b (good.fifo.subset inside) a pending
      exact absurd before (Nat.not_lt.mpr (Nat.le_of_lt earlier))
  rw [chosen.batch_eq] at inside ⊢
  refine take_earlier reqs ?_ _ a b earlier ?_ inside
  · rw [chosen.group]
    exact (List.pairwise_append.mp order).1.sublist List.filter_sublist
  · rw [chosen.group, List.mem_filter]
    rw [objects] at mine ⊢
    exact ⟨active, decide_eq_true (same.trans mine)⟩

-- A round leaves a request where it was, or takes it one step on.
theorem round_taken (later : now ≤ time) (decodes : Decodes loaded.tokenizer) (proper : loaded.padTokenId ≠ loaded.maskId)
    (invariant : EngineInvariant loaded.tokenizer e now) (sound : TopKSound draw)
    (never : ∀ ref ∈ e.queue, NeverPredictsMask torch loaded.model loaded.maskId draw
      (e.scheduler.objects ref).state.params.temperature) (ref : Nat)
    (plain : (e.scheduler.objects ref).state.params.useLocalLeap = false)
    (onSchedule : OnSchedule loaded.maskId (e.scheduler.objects ref).state) :
    OnSchedule loaded.maskId ((e.iterate torch loaded time fails draw).scheduler.objects ref).state ∧
      ((ref ∈ e.batch time ∧ e.stepped torch loaded time fails draw ≠ none ∧
        taken ((e.iterate torch loaded time fails draw).scheduler.objects ref).state =
          taken (e.scheduler.objects ref).state + 1) ∨
      (¬ (ref ∈ e.batch time ∧ e.stepped torch loaded time fails draw ≠ none) ∧
        taken ((e.iterate torch loaded time fails draw).scheduler.objects ref).state =
          taken (e.scheduler.objects ref).state)) := by
  rcases iterate_object torch loaded e now time fails draw later decodes invariant ref with
    ⟨absent, object⟩ | ⟨_, none_made, object⟩ | ⟨states, state', member, made, _, ⟨leader, inside, window⟩, object⟩
  · rw [object]
    exact ⟨onSchedule, Or.inr ⟨fun both => absent both.1, rfl⟩⟩
  · rw [object, failed_state]
    exact ⟨onSchedule, Or.inr ⟨fun both => both.2 none_made, rfl⟩⟩
  · obtain ⟨key, _, _, good⟩ := batch_chosen loaded e now time later invariant (List.ne_nil_of_mem member)
    have leads := (good.uniform leader inside).trans (good.uniform ref member).symm
    rw [promote_objects] at leads
    have alsoPlain : (e.scheduler.objects leader).state.params.useLocalLeap = false :=
      (congrArg GroupKey.useLocalLeap leads).trans plain
    have queued := batch_queued loaded e now time later invariant
    obtain ⟨after, count⟩ := on_schedule_step loaded.maskId (e.scheduler.objects ref).state state' torch loaded.model
      loaded.padTokenId draw _ onSchedule alsoPlain (invariant.running ref (queued ref member)).2.2 sound proper
      (never leader (queued leader inside))
      (window_step_state torch loaded.model loaded.maskId loaded.padTokenId draw _ _ state' window)
    have state : ((e.iterate torch loaded time fails draw).scheduler.objects ref).state = state' := by
      rw [object]
      split
      · exact finished_state loaded.tokenizer _
      · rfl
    rw [state]
    exact ⟨after, Or.inl ⟨member, by simp [made], count⟩⟩

end Round

section Orderly

variable {V : Type} (torch : Torch V) (loaded : LoadedModel V) (now time : ℚ)

structure Orderly (e : Engine) : Prop where
  onSchedule : ∀ ref < e.scheduler.fresh, (e.scheduler.objects ref).state.params.useLocalLeap = false →
    OnSchedule loaded.maskId (e.scheduler.objects ref).state
  ordered : ∀ a b, a < b → b < e.scheduler.fresh → Peers (e.scheduler.objects a).state (e.scheduler.objects b).state →
    a ∈ e.queue → taken (e.scheduler.objects b).state ≤ taken (e.scheduler.objects a).state

-- Prompts without the mask, and steps that neither rank nor predict it first.
def FairEntry (entry : EngineRun × (ℚ × EngineAction V)) : Prop :=
  match entry.2.2 with
  | .submit _ promptIds params => params.useLocalLeap = false → loaded.maskId ∉ promptIds
  | .iterate _ draw => TopKSound draw ∧ ∀ ref ∈ entry.1.engine.queue, NeverPredictsMask torch loaded.model loaded.maskId draw
      (entry.1.engine.scheduler.objects ref).state.params.temperature
  | _ => True

theorem peers_before (s s' t t' : DenoiseState) (same : SameRequest s s') (same' : SameRequest t t') (peers : Peers s' t') :
    Peers s t := by
  obtain ⟨plain, alsoPlain, genLength, blockLength, stepsPerBlock⟩ := peers
  rw [same.params] at plain
  rw [same'.params] at alsoPlain
  rw [same.genLength, same'.genLength] at genLength
  rw [same.blockLength, same'.blockLength] at blockLength
  rw [same.stepsPerBlock, same'.stepsPerBlock] at stepsPerBlock
  exact ⟨plain, alsoPlain, genLength, blockLength, stepsPerBlock⟩

theorem iterate_orderly (e : Engine) (fails : Bool) (draw : Draw V) (later : now ≤ time) (decodes : Decodes loaded.tokenizer)
    (proper : loaded.padTokenId ≠ loaded.maskId) (invariant : EngineInvariant loaded.tokenizer e now) (sound : TopKSound draw)
    (never : ∀ ref ∈ e.queue, NeverPredictsMask torch loaded.model loaded.maskId draw
      (e.scheduler.objects ref).state.params.temperature) (orderly : Orderly loaded e) :
    Orderly loaded (e.iterate torch loaded time fails draw) := by
  obtain ⟨_, _, fresh, queue⟩ := iterate_queued torch loaded e now time fails draw later decodes invariant
  have same (ref : Nat) := (request_moved torch loaded e now time fails draw ref later decodes invariant).2.2.1
  have moved (ref : Nat) (alive : ref < e.scheduler.fresh)
      (plain : (e.scheduler.objects ref).state.params.useLocalLeap = false) :=
    round_taken torch loaded e now time fails draw later decodes proper invariant sound never ref plain
      (orderly.onSchedule ref alive plain)
  constructor
  · intro ref alive plain
    rw [fresh] at alive
    rw [(same ref).params] at plain
    exact (moved ref alive plain).1
  · intro a b earlier alive after queued
    rw [fresh] at alive
    have peers := peers_before _ _ _ _ (same a) (same b) after
    have alive' := Nat.lt_trans earlier alive
    have before := ((queue a).mp queued).1
    have ordered := orderly.ordered a b earlier alive peers before
    rcases (moved b alive peers.alsoPlain).2 with ⟨inside, stepped, later_b⟩ | ⟨_, still_b⟩
    · rcases (moved a alive' peers.plain).2 with ⟨_, _, later_a⟩ | ⟨left, still_a⟩
      · omega
      · -- a step that takes b past a would have had both in its batch
        have ahead : taken (e.scheduler.objects a).state ≠ taken (e.scheduler.objects b).state := by
          intro level
          have index := peers_index peers (orderly.onSchedule a alive' peers.plain) (orderly.onSchedule b alive peers.alsoPlain)
            level
          apply left ⟨?_, stepped⟩
          apply batch_takes_earlier loaded e now time later invariant a b earlier before inside
          simp [Request.groupKey, Request.stepIdx, Request.blockLengthBucket, index, peers.blockLength, peers.plain,
            peers.alsoPlain]
        omega
    · rcases (moved a alive' peers.plain).2 with ⟨_, _, later_a⟩ | ⟨_, still_a⟩ <;> omega

theorem submit_orderly (e : Engine) (promptIds : List Token) (params : SamplingParams)
    (clean : params.useLocalLeap = false → loaded.maskId ∉ promptIds) (orderly : Orderly loaded e) :
    Orderly loaded (e.submit loaded time full promptIds params) := by
  rw [Engine.submit]
  split
  · exact orderly
  · rename_i state made
    by_cases full : e.scheduler.maxWaiting ≤ e.scheduler.pending.length
    · rw [admit_full _ _ _ _ _ full]
      exact orderly
    rw [admit_room _ _ _ _ _ (Nat.lt_of_not_le full)]
    have old (ref : Nat) (inside : ref < e.scheduler.fresh) :
        ((enqueued e.scheduler time state params (some .pending)).objects ref).state = (e.scheduler.objects ref).state := by
      rw [enqueued_old _ _ _ _ _ ref (Nat.ne_of_lt inside)]
    have new : ((enqueued e.scheduler time state params (some .pending)).objects e.scheduler.fresh).state = state := by
      rw [enqueued_new]
      rfl
    constructor
    · intro ref inside plain
      dsimp only at inside plain ⊢
      rcases Nat.lt_succ_iff_lt_or_eq.mp inside with before | rfl
      · rw [old ref before] at plain ⊢
        exact orderly.onSchedule ref before plain
      · rw [new] at plain ⊢
        have given : state.params = params := by
          obtain ⟨_, _, _, _, rfl⟩ := init_state_ok _ _ _ _ made
          rfl
        rw [given] at plain
        exact initial_on_schedule loaded.maskId state promptIds params (clean plain) made
    · intro a b earlier inside peers queued
      dsimp only at inside peers ⊢
      have place : a ∈ e.queue ∨ a = e.scheduler.fresh := by
        simpa [Engine.queue, enqueued, or_assoc] using queued
      rcases Nat.lt_succ_iff_lt_or_eq.mp inside with before | rfl
      · have first := Nat.lt_trans earlier before
        rw [old a first, old b before] at peers ⊢
        exact orderly.ordered a b earlier before peers (place.resolve_right (Nat.ne_of_lt first))
      · rw [new]
        have none_taken : taken state = 0 := by
          obtain ⟨_, _, _, _, rfl⟩ := init_state_ok _ _ _ _ made
          simp [taken, initialState]
        rw [none_taken]
        exact Nat.zero_le _

theorem orderly_step (decodes : Decodes loaded.tokenizer) (proper : loaded.padTokenId ≠ loaded.maskId) (r r' : EngineRun)
    (a : ℚ × EngineAction V) (invariant : EngineInvariant loaded.tokenizer r.engine r.now) (orderly : Orderly loaded r.engine)
    (fair : FairEntry torch loaded (r, a)) (step : EngineStep torch loaded r a r') : Orderly loaded r'.engine := by
  obtain ⟨later, rfl⟩ := step
  obtain ⟨time, action⟩ := a
  cases action with
  | submit full promptIds params =>
      exact submit_orderly loaded time r.engine promptIds params fair orderly
  | iterate fails draw =>
      exact iterate_orderly torch loaded r.now time r.engine fails draw later decodes proper invariant fair.1 fair.2 orderly
  | shutdown => exact ⟨orderly.onSchedule, orderly.ordered⟩
  | cancel ref =>
      have same := cancel_queues r.engine.scheduler ref
      have kept (other : Nat) := (cancel_keeps r.engine.scheduler ref other).2
      constructor
      · intro other inside plain
        dsimp only [Engine.act] at inside plain ⊢
        rw [same.fresh] at inside
        rw [kept other] at plain ⊢
        exact orderly.onSchedule other inside plain
      · intro a b earlier inside peers queued
        dsimp only [Engine.act, Engine.queue] at inside peers queued ⊢
        rw [same.fresh] at inside
        rw [same.active, same.pending] at queued
        rw [kept a, kept b] at peers ⊢
        exact orderly.ordered a b earlier inside peers queued

end Orderly

-- First come, first served, among requests that need the same steps without LocalLeap:
-- however they are interleaved with other traffic, failures and cancellations, a request that
-- is still queued is never behind one that came later, and nothing queued is left behind it
-- when that one is done.
theorem first_come_first_served {V : Type} (torch : Torch V) (loaded : LoadedModel V) (decodes : Decodes loaded.tokenizer)
    (proper : loaded.padTokenId ≠ loaded.maskId) (maxBatch maxWaiting : Nat) (start r : EngineRun)
    (initial : InitialEngine maxBatch maxWaiting start) (trace : List (EngineRun × (ℚ × EngineAction V)))
    (run : Transition.Run (EngineStep torch loaded) start trace r) (fair : ∀ entry ∈ trace, FairEntry torch loaded entry)
    (a b : Nat) (earlier : a < b) (admitted : b < r.engine.scheduler.fresh)
    (peers : Peers (r.engine.scheduler.objects a).state (r.engine.scheduler.objects b).state) :
    (a ∈ r.engine.queue → taken (r.engine.scheduler.objects b).state ≤ taken (r.engine.scheduler.objects a).state) ∧
      ((r.engine.scheduler.objects b).state.done = true → a ∉ r.engine.queue ∧ r.engine.scheduler.awaited a = false) := by
  obtain ⟨invariant, orderly⟩ := Transition.run_permitted
    (fun r : EngineRun => EngineInvariant loaded.tokenizer r.engine r.now ∧ Orderly loaded r.engine)
    (fun r a => FairEntry torch loaded (r, a)) start r trace run
    ⟨initial_engine_invariant loaded.tokenizer maxBatch maxWaiting start initial, by
      obtain ⟨unused, now, rfl⟩ := initial
      exact ⟨fun ref alive => absurd alive (Nat.not_lt_zero ref), fun a b _ alive => absurd alive (Nat.not_lt_zero b)⟩⟩
    fair fun r a r' ⟨invariant, orderly⟩ fair step =>
      ⟨act_invariant torch loaded decodes r r' a invariant step,
        orderly_step torch loaded decodes proper r r' a invariant orderly fair step⟩
  have alive := Nat.lt_trans earlier admitted
  have ordered := orderly.ordered a b earlier admitted peers
  refine ⟨ordered, fun done => ?_⟩
  have left : a ∉ r.engine.queue := by
    intro queued
    have finished := peers_done peers (orderly.onSchedule a alive peers.plain) (orderly.onSchedule b admitted peers.alsoPlain)
      (ordered queued) done
    rw [(invariant.running a queued).2.2] at finished
    cases finished
  exact ⟨left, invariant.left a alive left⟩

theorem written_never_mask_hot (temperature : ℚ) :
    NeverPredictsMask writtenTorch (writtenModel sameAnswer) 9 lowDraw temperature := by
  intro x attn positions j c
  cases attn <;> simp [predictAndScore, addGumbelNoise, writtenTorch, writtenModel, sameAnswer, tiedDraw]

def oneByOne : List (EngineAction Written) :=
  [.submit .ample [1] tokenParams, .submit .ample [3, 4] tokenParams, .iterate false lowDraw, .iterate false lowDraw]

def servedOneByOne : EngineRun := actsFrom writtenTorch (writtenLoaded sameAnswer) (idleEngine 1 2) oneByOne

theorem first_come_first_served_one_by_one :
    (servedOneByOne.engine.scheduler.objects 1).state.done = true ∧ 0 ∉ servedOneByOne.engine.queue ∧
      servedOneByOne.engine.scheduler.awaited 0 = false := by
  obtain ⟨trace, run, taken_from⟩ := acts_from_run writtenTorch (writtenLoaded sameAnswer) (idleEngine 1 2) oneByOne
  have fair : ∀ entry ∈ trace, FairEntry writtenTorch (writtenLoaded sameAnswer) entry := by
    rintro ⟨r, time, action⟩ member
    have among := taken_from _ member
    simp only [oneByOne, List.mem_cons, List.not_mem_nil, or_false] at among
    rcases among with rfl | rfl | rfl | rfl
    · exact fun _ => by decide
    · exact fun _ => by decide
    · exact ⟨ties_low_sound _ low_draw_ties_low, fun _ _ => written_never_mask_hot _⟩
    · exact ⟨ties_low_sound _ low_draw_ties_low, fun _ _ => written_never_mask_hot _⟩
  have done : (servedOneByOne.engine.scheduler.objects 1).state.done = true := by decide +kernel
  have served := first_come_first_served writtenTorch (writtenLoaded sameAnswer) written_decodes (by decide) 1 2
    (idleEngine 1 2) servedOneByOne (idle_engine_initial 1 2) trace run fair 0 1 (by decide) (by decide +kernel)
    ⟨by decide +kernel, by decide +kernel, by decide +kernel, by decide +kernel, by decide +kernel⟩
  exact ⟨done, served.2 done⟩

end Dlmserve
