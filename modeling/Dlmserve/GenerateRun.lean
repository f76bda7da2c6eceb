import Dlmserve.Aging
import Dlmserve.Answers
import Dlmserve.Generate

set_option autoImplicit false

namespace Dlmserve

section Round

variable {V : Type} (torch : Torch V) (loaded : LoadedModel V) (e : Engine) (now time : ℚ) (fails : Bool) (draw : Draw V)

def Engine.queue (e : Engine) : List Nat := e.scheduler.active ++ e.scheduler.pending

theorem stepped_none (invariant : EngineInvariant loaded.tokenizer e now) (later : now ≤ time) :
    e.stepped torch loaded time fails draw = none ↔ fails = true := by
  rw [Engine.stepped]
  cases fails with
  | true => exact iff_of_true rfl rfl
  | false =>
      rw [if_neg Bool.false_ne_true]
      refine iff_of_false ?_ Bool.false_ne_true
      have unfinished : ∀ s ∈ (e.batch time).map fun ref => (e.scheduler.objects ref).state, Unfinished s := by
        intro s member
        obtain ⟨ref, inside, rfl⟩ := List.mem_map.mp member
        exact invariant.running ref (batch_queued loaded e now time later invariant ref inside)
      obtain ⟨states, made⟩ := step_batch_total torch loaded.model loaded.maskId loaded.padTokenId draw _
        (fun s member => (unfinished s member).1) (fun s member => (unfinished s member).2.1)
      rw [made]
      exact Option.some_ne_none _

-- What becomes of a request that is waited for: it stays, or leaves with the failure
-- of its batch or with a result.
theorem round_answers (later : now ≤ time) (decodes : Decodes loaded.tokenizer)
    (invariant : EngineInvariant loaded.tokenizer e now) (ref : Nat) (queued : ref ∈ e.queue)
    (awaited : e.scheduler.awaited ref = true) :
    (ref ∈ (e.iterate torch loaded time fails draw).queue ∧
      ((e.iterate torch loaded time fails draw).scheduler.objects ref).future = some .pending) ∨
    (ref ∉ (e.iterate torch loaded time fails draw).queue ∧ ref ∈ e.batch time ∧ fails = true ∧
      ((e.iterate torch loaded time fails draw).scheduler.objects ref).future =
        some (.exception Scheduler.stepFailed)) ∨
    (ref ∉ (e.iterate torch loaded time fails draw).queue ∧ fails = false ∧
      ∃ value, ((e.iterate torch loaded time fails draw).scheduler.objects ref).future = some (.result value)) := by
  have members := (iterate_queued torch loaded e now time fails draw later decodes invariant).2.2.2 ref
  have failing := stepped_none torch loaded e now time fails draw invariant later
  have waits := (awaited_pending (e.scheduler.objects ref)).mp awaited
  rw [awaited_eq] at awaited
  rcases iterate_object torch loaded e now time fails draw later decodes invariant ref with
    ⟨absent, object⟩ | ⟨member, none_made, object⟩ | ⟨states, state', member, made, _, _, object⟩
  · refine Or.inl ⟨members.mpr ⟨queued, fun run => absurd run absent⟩, ?_⟩
    rw [object]
    exact waits
  · refine Or.inr (Or.inl ⟨fun stays => ?_, member, failing.mp none_made, ?_⟩)
    · exact ((members.mp stays).2 member).1 none_made
    · rw [object]
      exact (failed_future _).trans (if_pos awaited)
  · have passes : fails = false := by
      cases fails with
      | false => rfl
      | true =>
          rw [failing.mpr rfl] at made
          cases made
    by_cases done : state'.done = true
    · rw [if_pos done] at object
      refine Or.inr (Or.inr ⟨fun stays => ?_, passes, loaded.tokenizer.makeOutput state', ?_⟩)
      · have running := ((members.mp stays).2 member).2
        rw [object, finished_state, done] at running
        cases running
      · rw [object]
        exact (finished_future loaded.tokenizer _).trans (if_pos awaited)
    · rw [if_neg done] at object
      refine Or.inl ⟨members.mpr ⟨queued, fun _ => ⟨by rw [made]; exact Option.some_ne_none _, ?_⟩⟩, ?_⟩
      · rw [object]
        simpa using done
      · rw [object]
        exact waits

theorem round_unqueued (later : now ≤ time) (decodes : Decodes loaded.tokenizer)
    (invariant : EngineInvariant loaded.tokenizer e now) (ref : Nat) (absent : ref ∉ e.queue) :
    ref ∉ (e.iterate torch loaded time fails draw).queue ∧
      (e.iterate torch loaded time fails draw).scheduler.objects ref = e.scheduler.objects ref := by
  have members := (iterate_queued torch loaded e now time fails draw later decodes invariant).2.2.2 ref
  have idle : ref ∉ e.batch time := fun run => absent (batch_queued loaded e now time later invariant ref run)
  refine ⟨fun stays => absent (members.mp stays).1, ?_⟩
  rcases iterate_object torch loaded e now time fails draw later decodes invariant ref with
    ⟨_, object⟩ | ⟨member, _⟩ | ⟨_, _, member, _⟩
  · exact object
  · exact absurd member idle
  · exact absurd member idle

theorem round_loop (later : now ≤ time) (decodes : Decodes loaded.tokenizer)
    (invariant : EngineInvariant loaded.tokenizer e now) (running : e.loop = .running)
    (work : e.scheduler.hasWork = true) : (e.iterate torch loaded time fails draw).loop = .running := by
  have round := iterate_round torch loaded e now time fails draw decodes later invariant
  generalize e.iterate torch loaded time fails draw = after at round ⊢
  cases round with
  | quiet loop s none_run kept stays =>
      rcases stays with same | ⟨_, idle⟩
      · exact same.trans running
      · rw [work] at idle
        cases idle
  | failed key good chosen none_made busy => rfl
  | stepped key states good chosen made busy => rfl

theorem has_work_queue : e.scheduler.hasWork = true ↔ e.queue ≠ [] := by
  rw [Engine.queue, ne_eq, ← has_work_order, Bool.not_eq_false]

theorem busy_batch (later : now ≤ time) (invariant : EngineInvariant loaded.tokenizer e now) (running : e.loop = .running)
    (work : e.scheduler.hasWork = true) (room : 1 ≤ e.scheduler.maxBatch) : e.batch time ≠ [] := by
  rw [Engine.batch, if_pos ⟨running, fun stops => by rw [stops.2] at work; cases work⟩]
  rcases schedule_cases e.scheduler now time later invariant.queues with ⟨idle, _⟩ | ⟨batch, key, _, _, made, _, good⟩
  · rw [idle room] at work
    cases work
  · rw [made]
    exact good.nonempty

def OneBatch (e : Engine) : Prop :=
  e.queue.length ≤ e.scheduler.maxBatch ∧
    ∀ ref ∈ e.queue, ∀ other ∈ e.queue, (e.scheduler.objects ref).groupKey = (e.scheduler.objects other).groupKey

theorem one_batch_whole (later : now ≤ time) (invariant : EngineInvariant loaded.tokenizer e now)
    (running : e.loop = .running) (work : e.queue ≠ []) (one : OneBatch e) : e.batch time = e.queue := by
  obtain ⟨fits, uniform⟩ := one
  have busy : e.scheduler.hasWork = true := (has_work_queue e).mpr work
  have promoted : e.scheduler.promotePending.active = e.queue := by
    rw [Engine.queue, List.length_append] at fits
    rw [Scheduler.promote_eq, Engine.queue]
    dsimp only
    rw [List.take_of_length_le (by omega)]
  rw [Engine.batch, if_pos ⟨running, fun stops => by rw [stops.2] at busy; cases busy⟩]
  rcases schedule_cases e.scheduler now time later invariant.queues with ⟨idle, _⟩ | ⟨batch, key, reqs, _, made, _, good⟩
  · rw [idle (Nat.lt_of_lt_of_le (List.length_pos_of_ne_nil work) fits)] at busy
    cases busy
  · rw [made]
    dsimp only
    have objects : e.scheduler.promotePending.objects = e.scheduler.objects := by rw [Scheduler.promote_eq]
    have room : e.scheduler.promotePending.maxBatch = e.scheduler.maxBatch := by rw [Scheduler.promote_eq]
    obtain ⟨leader, inside⟩ := List.exists_mem_of_ne_nil _ good.nonempty
    have queued : leader ∈ e.queue := by
      rw [← promoted]
      exact good.fifo.subset inside
    have keys : e.queue.filter (fun ref => (e.scheduler.objects ref).groupKey = key) = e.queue := by
      rw [List.filter_eq_self]
      intro ref member
      have group := good.uniform leader inside
      rw [objects] at group
      simp [uniform ref member leader queued, group]
    have size := good.size
    rw [promoted, objects, room, keys, Nat.min_eq_right fits] at size
    have fifo := good.fifo
    rw [promoted] at fifo
    exact fifo.eq_of_length size

-- The batch of a round is of one group and fits, so that it holds the whole queue only then.
theorem whole_one_batch (later : now ≤ time) (invariant : EngineInvariant loaded.tokenizer e now)
    (whole : ∀ ref ∈ e.queue, ref ∈ e.batch time) : OneBatch e := by
  by_cases empty : e.queue = []
  · rw [OneBatch, empty]
    exact ⟨Nat.zero_le _, fun _ member => absurd member List.not_mem_nil⟩
  obtain ⟨first, queued⟩ := List.exists_mem_of_ne_nil _ empty
  have taken := whole first queued
  rw [Engine.batch] at taken whole
  split at taken
  · rename_i working
    simp only [if_pos working] at whole
    rcases schedule_cases e.scheduler now time later invariant.queues with ⟨_, made⟩ | ⟨batch, key, _, _, made, _, good⟩
    · rw [made] at taken
      cases taken
    · rw [made] at whole
      have objects : e.scheduler.promotePending.objects = e.scheduler.objects := by rw [Scheduler.promote_eq]
      have room : e.scheduler.promotePending.maxBatch = e.scheduler.maxBatch := by rw [Scheduler.promote_eq]
      have distinct : e.queue.Nodup := invariant.queues.order.imp Nat.ne_of_lt
      have size := good.size
      rw [room] at size
      refine ⟨(distinct.subperm whole).length_le.trans (size.trans_le (Nat.min_le_left _ _)), fun ref member other inside => ?_⟩
      have mine := good.uniform ref (whole ref member)
      have theirs := good.uniform other (whole other inside)
      rw [objects] at mine theirs
      exact mine.trans theirs.symm
  · cases taken

-- The last step that the plan of a request holds.
def LastStep (s : DenoiseState) : Prop := s.stepsPerBlock ≤ s.stepInBlock + 1 ∧ (passing s).done = true

theorem last_step_done (mask : Token) (s s' : DenoiseState) (row : List Token) (last : LastStep s)
    (written : writeBack mask s row = some s') : s'.done = true := by
  rw [write_back_eq] at written
  rcases advance_cases mask _ s' written with ⟨goes_on, _⟩ | ⟨_, done, rfl⟩ | ⟨_, running, _⟩
  · exact absurd (Or.inl last.1) goes_on
  · exact done
  · exact absurd last.2 (by rw [show (passing s).done = false from running]; exact Bool.false_ne_true)

-- A step that finishes a request is a step in its last block.
theorem done_last_block (mask : Token) (s s' : DenoiseState) (row : List Token) (running : s.done = false)
    (written : writeBack mask s row = some s') (done : s'.done = true) : (passing s).done = true := by
  rw [write_back_eq] at written
  rcases advance_cases mask _ s' written with ⟨_, rfl⟩ | ⟨_, last, _⟩ | ⟨_, goes_on, _, rfl⟩
  · exact absurd (running.symm.trans done) Bool.false_ne_true
  · exact last
  · exact absurd (goes_on.symm.trans done) Bool.false_ne_true

end Round

section Gather

variable (s : Scheduler) (refs : List Nat)

theorem gathered_failed (ref : Nat) (member : ref ∈ refs) (message : String) (failed : s.messageOf ref = some message) :
    ∃ outcome, s.gathered refs = some outcome := by
  rw [Scheduler.gathered]
  cases found : refs.findSome? s.messageOf with
  | none =>
      rw [List.findSome?_eq_none_iff.mp found ref member] at failed
      cases failed
  | some first => exact ⟨_, rfl⟩

theorem gathered_clean (clean : ∀ ref ∈ refs, s.messageOf ref = none) :
    (∃ outcome, s.gathered refs = some outcome) ↔ ∀ ref ∈ refs, ∃ value, s.resultOf ref = some value := by
  rw [Scheduler.gathered, List.findSome?_eq_none_iff.mpr clean]
  dsimp only
  constructor
  · rintro ⟨outcome, made⟩ ref member
    obtain ⟨results, collected, _⟩ := Option.map_eq_some_iff.mp made
    obtain ⟨i, read⟩ := List.getElem?_of_mem member
    obtain ⟨value, _, result⟩ := Collect.map_m_get s.resultOf refs results collected i ref read
    exact ⟨value, result⟩
  · intro each
    obtain ⟨results, collected⟩ := Collect.map_m_total s.resultOf refs each
    exact ⟨.returned results, by rw [collected]; rfl⟩

end Gather

section Await

variable {V : Type} (torch : Torch V) (loaded : LoadedModel V) (around : Surroundings V)

structure Serving (refs : List Nat) (e : Engine) (now : ℚ) : Prop where
  paced : PacedInvariant loaded.tokenizer ⟨e, now⟩
  running : e.scheduler.hasWork = true → e.loop = .running
  awaited : ∀ ref ∈ e.queue, e.scheduler.awaited ref = true
  known : ∀ ref ∈ e.queue, ref ∈ refs

def Unfailed (refs : List Nat) (e : Engine) : Prop :=
  ∀ ref ∈ refs, ref ∈ e.queue ∨ ∃ value, (e.scheduler.objects ref).future = some (.result value)

def Failing (tick : Nat) (e : Engine) : Prop :=
  e.queue ≠ [] ∧ 1 ≤ e.scheduler.maxBatch ∧ around.fails tick = true

inductive FirstFailure : Nat → Engine → Nat → Engine → Prop where
  | here (tick : Nat) (e : Engine) (failing : Failing around tick e) : FirstFailure tick e tick e
  | later (tick tick' : Nat) (e e' : Engine) (passes : ¬ Failing around tick e)
      (first : FirstFailure (tick + 1) (e.round torch loaded around tick) tick' e') : FirstFailure tick e tick' e'

def AtFirstFailure (holds : Nat → Engine → Prop) (tick : Nat) (e : Engine) : Prop :=
  ∀ tick' failed, FirstFailure torch loaded around tick e tick' failed → holds tick' failed

-- What is queued at a failing round is its whole batch, or what is left is the whole batch
-- of the next round, which fails too or takes the last step of each.
def Survives (tick : Nat) (e : Engine) : Prop :=
  OneBatch e ∨ (OneBatch (e.round torch loaded around tick) ∧
    (around.fails (tick + 1) = true ∨ ∀ ref ∈ (e.round torch loaded around tick).queue,
      LastStep ((e.round torch loaded around tick).scheduler.objects ref).state))

-- What is left behind a failure is one batch in its last blocks, whose forward pass goes
-- through before the last step of some: its predictions may fill the blocks early.
def Undecided (tick : Nat) (e : Engine) : Prop :=
  around.fails (tick + 1) = false ∧ OneBatch (e.round torch loaded around tick) ∧
    (∀ ref ∈ (e.round torch loaded around tick).queue,
      (passing ((e.round torch loaded around tick).scheduler.objects ref).state).done = true) ∧
    ∃ ref ∈ (e.round torch loaded around tick).queue,
      ¬ LastStep ((e.round torch loaded around tick).scheduler.objects ref).state

variable (refs : List Nat) (tick : Nat) (e : Engine) (now : ℚ)

theorem failing_iff (serving : Serving loaded refs e now) (later : now ≤ around.clock tick) :
    Failing around tick e ↔ e.batch (around.clock tick) ≠ [] ∧ around.fails tick = true := by
  have engine := serving.paced.engine
  constructor
  · rintro ⟨work, room, failed⟩
    have busy := (has_work_queue e).mpr work
    exact ⟨busy_batch loaded e now _ later engine (serving.running busy) busy room, failed⟩
  · rintro ⟨nonempty, failed⟩
    obtain ⟨ref, member⟩ := List.exists_mem_of_ne_nil _ nonempty
    refine ⟨List.ne_nil_of_mem (batch_queued loaded e now _ later engine ref member), ?_, failed⟩
    obtain ⟨_, _, _, good⟩ := batch_chosen loaded e now _ later engine nonempty
    have size := List.length_pos_of_ne_nil nonempty
    rw [good.size, Scheduler.promote_eq] at size
    exact size.trans_le (Nat.min_le_left _ _)

theorem serving_round (decodes : Decodes loaded.tokenizer) (serving : Serving loaded refs e now)
    (later : now ≤ around.clock tick) :
    Serving loaded refs (e.round torch loaded around tick) (around.clock tick) := by
  have engine := serving.paced.engine
  have paced := (paced_step torch loaded decodes ⟨e, now⟩ ⟨e.round torch loaded around tick, around.clock tick⟩
    (around.clock tick, .iterate (around.fails tick) (around.draw tick)) serving.paced ⟨later, rfl⟩).1
  have kept (ref : Nat) (member : ref ∈ (e.round torch loaded around tick).queue) : ref ∈ e.queue := by
    by_contra absent
    exact (round_unqueued torch loaded e now _ _ _ later decodes engine ref absent).1 member
  refine ⟨paced, ?_, ?_, fun ref member => serving.known ref (kept ref member)⟩
  · intro work
    have before : e.scheduler.hasWork = true := by
      obtain ⟨ref, member⟩ := List.exists_mem_of_ne_nil _ ((has_work_queue _).mp work)
      exact (has_work_queue e).mpr (List.ne_nil_of_mem (kept ref member))
    exact round_loop torch loaded e now _ _ _ later decodes engine (serving.running before) before
  · intro ref member
    have queued := kept ref member
    rw [awaited_eq]
    rcases round_answers torch loaded e now _ _ (around.draw tick) later decodes engine ref queued
      (serving.awaited ref queued) with ⟨_, waits⟩ | ⟨gone, _⟩ | ⟨gone, _⟩
    · exact (awaited_pending _).mpr waits
    · exact absurd member gone
    · exact absurd member gone

theorem unfailed_round (decodes : Decodes loaded.tokenizer) (serving : Serving loaded refs e now)
    (later : now ≤ around.clock tick) (unfailed : Unfailed refs e) (passes : ¬ Failing around tick e) :
    Unfailed refs (e.round torch loaded around tick) := by
  have engine := serving.paced.engine
  intro ref known
  by_cases queued : ref ∈ e.queue
  · rcases round_answers torch loaded e now _ _ (around.draw tick) later decodes engine ref queued
      (serving.awaited ref queued) with ⟨stays, _⟩ | ⟨_, member, failed, _⟩ | ⟨_, _, result⟩
    · exact Or.inl stays
    · exact absurd ((failing_iff loaded around refs tick e now serving later).mpr ⟨List.ne_nil_of_mem member, failed⟩) passes
    · exact Or.inr result
  · rcases unfailed ref known with present | ⟨value, held⟩
    · exact absurd present queued
    · have object := (round_unqueued torch loaded e now _ (around.fails tick) (around.draw tick) later decodes engine ref
        queued).2
      exact Or.inr ⟨value, (congrArg Request.future object).trans held⟩

theorem failing_message (decodes : Decodes loaded.tokenizer) (serving : Serving loaded refs e now)
    (later : now ≤ around.clock tick) (failing : Failing around tick e) :
    ∃ ref ∈ refs, (e.round torch loaded around tick).scheduler.messageOf ref = some Scheduler.stepFailed := by
  have engine := serving.paced.engine
  obtain ⟨nonempty, failed⟩ := (failing_iff loaded around refs tick e now serving later).mp failing
  obtain ⟨ref, member⟩ := List.exists_mem_of_ne_nil _ nonempty
  have queued := batch_queued loaded e now _ later engine ref member
  have members := (iterate_queued torch loaded e now _ (around.fails tick) (around.draw tick) later decodes engine).2.2.2 ref
  refine ⟨ref, serving.known ref queued, ?_⟩
  rcases round_answers torch loaded e now _ _ (around.draw tick) later decodes engine ref queued
    (serving.awaited ref queued) with ⟨stays, _⟩ | ⟨_, _, _, message⟩ | ⟨_, passes, _⟩
  · exact absurd ((stepped_none torch loaded e now _ _ _ engine later).mpr failed) ((members.mp stays).2 member).1
  · rw [Scheduler.messageOf, Engine.round, message]
  · rw [failed] at passes
    cases passes

theorem gathered_served (serving : Serving loaded refs e now) (unfailed : Unfailed refs e) :
    (∃ outcome, e.scheduler.gathered refs = some outcome) ↔ e.queue = [] := by
  have waits (ref : Nat) (queued : ref ∈ e.queue) : (e.scheduler.objects ref).future = some .pending :=
    (awaited_pending _).mp (serving.awaited ref queued)
  have clean : ∀ ref ∈ refs, e.scheduler.messageOf ref = none := by
    intro ref known
    rw [Scheduler.messageOf]
    rcases unfailed ref known with queued | ⟨value, held⟩
    · rw [waits ref queued]
    · rw [held]
  rw [gathered_clean e.scheduler refs clean, List.eq_nil_iff_forall_not_mem]
  constructor
  · intro each ref queued
    obtain ⟨value, result⟩ := each ref (serving.known ref queued)
    rw [Scheduler.resultOf, waits ref queued] at result
    cases result
  · intro empty ref known
    rcases unfailed ref known with queued | ⟨value, held⟩
    · exact absurd queued (empty ref)
    · exact ⟨value, by rw [Scheduler.resultOf, held]⟩

theorem empty_round (decodes : Decodes loaded.tokenizer) (invariant : EngineInvariant loaded.tokenizer e now)
    (later : now ≤ around.clock tick) (empty : e.queue = []) : (e.round torch loaded around tick).queue = [] :=
  List.eq_nil_iff_forall_not_mem.mpr fun ref =>
    (round_unqueued torch loaded e now _ _ _ later decodes invariant ref (by rw [empty]; exact List.not_mem_nil)).1

theorem whole_round_empty (decodes : Decodes loaded.tokenizer) (serving : Serving loaded refs e now)
    (later : now ≤ around.clock tick) (one : OneBatch e)
    (closes : around.fails tick = true ∨ ∀ ref ∈ e.queue, LastStep (e.scheduler.objects ref).state) :
    (e.round torch loaded around tick).queue = [] := by
  have engine := serving.paced.engine
  by_cases empty : e.queue = []
  · exact empty_round torch loaded around tick e now decodes engine later empty
  have whole := one_batch_whole loaded e now _ later engine (serving.running ((has_work_queue e).mpr empty)) empty one
  refine List.eq_nil_iff_forall_not_mem.mpr fun ref stays => ?_
  have members := (iterate_queued torch loaded e now _ (around.fails tick) (around.draw tick) later decodes engine).2.2.2 ref
  obtain ⟨queued, kept⟩ := members.mp stays
  obtain ⟨passes, running⟩ := kept (by rw [whole]; exact queued)
  rcases closes with failed | last
  · exact passes ((stepped_none torch loaded e now _ _ _ engine later).mpr failed)
  · rcases iterate_object torch loaded e now _ (around.fails tick) (around.draw tick) later decodes engine ref with
      ⟨absent, _⟩ | ⟨_, none_made, _⟩ | ⟨_, state', _, _, _, ⟨leader, _, window⟩, object⟩
    · rw [whole] at absent
      exact absent queued
    · exact passes none_made
    · obtain ⟨_, _, _, _, _, _, written⟩ := window_step_state torch loaded.model loaded.maskId loaded.padTokenId
        (around.draw tick) _ _ state' window
      have done := last_step_done loaded.maskId _ state' _ (last ref queued) written
      rw [object, if_pos done, finished_state] at running
      exact Bool.false_ne_true (running.symm.trans done)

theorem failing_survives (decodes : Decodes loaded.tokenizer) (serving : Serving loaded refs e now)
    (later : now ≤ around.clock tick) (following : around.clock tick ≤ around.clock (tick + 1))
    (failing : Failing around tick e) (survives : Survives torch loaded around tick e) :
    ((e.round torch loaded around tick).round torch loaded around (tick + 1)).queue = [] := by
  have after := serving_round torch loaded around refs tick e now decodes serving later
  rcases survives with one | ⟨one, closes⟩
  · have empty := whole_round_empty torch loaded around refs tick e now decodes serving later one (Or.inl failing.2.2)
    exact empty_round torch loaded around (tick + 1) _ _ decodes after.paced.engine following empty
  · exact whole_round_empty torch loaded around refs (tick + 1) _ _ decodes after following one closes

theorem finished_last_block (decodes : Decodes loaded.tokenizer) (invariant : EngineInvariant loaded.tokenizer e now)
    (later : now ≤ around.clock tick) (passes : around.fails tick = false) (ref : Nat) (queued : ref ∈ e.queue)
    (gone : ref ∉ (e.round torch loaded around tick).queue) :
    (passing (e.scheduler.objects ref).state).done = true := by
  have members := (iterate_queued torch loaded e now _ (around.fails tick) (around.draw tick) later decodes
    invariant).2.2.2 ref
  have failing := stepped_none torch loaded e now _ (around.fails tick) (around.draw tick) invariant later
  have running := (invariant.running ref queued).2.2
  rcases iterate_object torch loaded e now _ (around.fails tick) (around.draw tick) later decodes invariant ref with
    ⟨absent, _⟩ | ⟨_, none_made, _⟩ | ⟨_, state', _, made, _, ⟨leader, _, window⟩, object⟩
  · exact absurd (members.mpr ⟨queued, fun taken => absurd taken absent⟩) gone
  · rw [failing.mp none_made] at passes
    cases passes
  · obtain ⟨_, _, _, _, _, _, written⟩ := window_step_state torch loaded.model loaded.maskId loaded.padTokenId
      (around.draw tick) _ _ state' window
    refine done_last_block loaded.maskId _ state' _ running written ?_
    by_contra unfinished
    rw [if_neg unfinished] at object
    refine gone (members.mpr ⟨queued, fun _ => ⟨by rw [made]; exact Option.some_ne_none _, ?_⟩⟩)
    rw [object]
    exact Bool.eq_false_iff.mpr unfinished

-- What empties the queue after all must have the rest in one batch.
theorem failing_emptied (decodes : Decodes loaded.tokenizer) (serving : Serving loaded refs e now)
    (later : now ≤ around.clock tick) (following : around.clock tick ≤ around.clock (tick + 1))
    (decided : ¬ Undecided torch loaded around tick e)
    (empty : ((e.round torch loaded around tick).round torch loaded around (tick + 1)).queue = []) :
    Survives torch loaded around tick e := by
  have after := (serving_round torch loaded around refs tick e now decodes serving later).paced.engine
  have gone (ref : Nat) : ref ∉ ((e.round torch loaded around tick).round torch loaded around (tick + 1)).queue :=
    List.eq_nil_iff_forall_not_mem.mp empty ref
  have whole : ∀ ref ∈ (e.round torch loaded around tick).queue,
      ref ∈ (e.round torch loaded around tick).batch (around.clock (tick + 1)) := by
    intro ref queued
    by_contra absent
    exact gone ref (((iterate_queued torch loaded _ _ _ (around.fails (tick + 1)) (around.draw (tick + 1)) following decodes
      after).2.2.2 ref).mpr ⟨queued, fun taken => absurd taken absent⟩)
  have one := whole_one_batch loaded _ _ _ following after whole
  refine Or.inr ⟨one, ?_⟩
  by_contra neither
  rw [not_or, not_forall] at neither
  obtain ⟨failed, ref, remaining⟩ := neither
  obtain ⟨queued, early⟩ := Classical.not_imp.mp remaining
  have passes : around.fails (tick + 1) = false := Bool.eq_false_iff.mpr failed
  refine decided ⟨passes, one, fun other inside => ?_, ref, queued, early⟩
  exact finished_last_block torch loaded around (tick + 1) _ _ decodes after following passes other inside (gone other)

theorem at_first_failure_here (holds : Nat → Engine → Prop) (failing : Failing around tick e) :
    AtFirstFailure torch loaded around holds tick e ↔ holds tick e := by
  constructor
  · exact fun each => each tick e (.here tick e failing)
  · intro held tick' failed first
    cases first with
    | here => exact held
    | later _ _ _ _ passes => exact absurd failing passes

theorem at_first_failure_later (holds : Nat → Engine → Prop) (passes : ¬ Failing around tick e) :
    AtFirstFailure torch loaded around holds tick e ↔
      AtFirstFailure torch loaded around holds (tick + 1) (e.round torch loaded around tick) := by
  constructor
  · exact fun each tick' failed first => each tick' failed (.later tick tick' e failed passes first)
  · intro each tick' failed first
    cases first with
    | here _ _ failing => exact absurd failing passes
    | later _ _ _ _ _ rest => exact each tick' failed rest

theorem at_first_failure_empty (holds : Nat → Engine → Prop) (decodes : Decodes loaded.tokenizer)
    (monotone : Monotone around.clock) (invariant : EngineInvariant loaded.tokenizer e now) (later : now ≤ around.clock tick)
    (empty : e.queue = []) : AtFirstFailure torch loaded around holds tick e := by
  intro tick' failed first
  induction first generalizing now with
  | here tick e failing => exact absurd empty failing.1
  | later tick tick' e e' passes rest ih =>
      have after := iterate_invariant torch loaded e now _ (around.fails tick) (around.draw tick) later decodes invariant
      exact ih (around.clock tick) after (monotone (Nat.le_succ tick))
        (empty_round torch loaded around tick e now decodes invariant later empty)

-- The induction is on the rounds that are awaited: the first one that fails ends the
-- wait, and until then every request that left the queue has its result.
theorem await_leaves (decodes : Decodes loaded.tokenizer) (monotone : Monotone around.clock) (fuel : Nat)
    (tick : Nat) (e : Engine) (now : ℚ) (serving : Serving loaded refs e now) (later : now ≤ around.clock tick)
    (unfailed : Unfailed refs e) (e' : Engine) (outcome : Outcome)
    (ended : e.awaitGather torch loaded around refs tick fuel = some (e', outcome)) :
    (AtFirstFailure torch loaded around (Survives torch loaded around) tick e → e'.queue = []) ∧
      (AtFirstFailure torch loaded around (fun tick e => ¬ Undecided torch loaded around tick e) tick e → e'.queue = [] →
        AtFirstFailure torch loaded around (Survives torch loaded around) tick e) := by
  induction fuel generalizing tick e now with
  | zero => cases ended
  | succ fuel ih =>
      have following := monotone (Nat.le_succ tick)
      have after := serving_round torch loaded around refs tick e now decodes serving later
      rw [Engine.awaitGather] at ended
      by_cases failing : Failing around tick e
      · obtain ⟨ref, known, message⟩ := failing_message torch loaded around refs tick e now decodes serving later failing
        obtain ⟨first, gathered⟩ := gathered_failed _ refs ref known _ message
        rw [gathered] at ended
        obtain ⟨rfl, -⟩ := Prod.mk.inj (Option.some.inj ended)
        rw [at_first_failure_here torch loaded around tick e _ failing, at_first_failure_here torch loaded around tick e _ failing]
        exact ⟨failing_survives torch loaded around refs tick e now decodes serving later following failing,
          failing_emptied torch loaded around refs tick e now decodes serving later following⟩
      · have still := unfailed_round torch loaded around refs tick e now decodes serving later unfailed failing
        rw [at_first_failure_later torch loaded around tick e _ failing, at_first_failure_later torch loaded around tick e _ failing]
        cases gathered : (e.round torch loaded around tick).scheduler.gathered refs with
        | none =>
            rw [gathered] at ended
            exact ih (tick + 1) _ (around.clock tick) after following still ended
        | some result =>
            rw [gathered] at ended
            obtain ⟨rfl, -⟩ := Prod.mk.inj (Option.some.inj ended)
            have empty := (gathered_served loaded refs _ _ after still).mp ⟨result, gathered⟩
            exact ⟨fun _ => empty_round torch loaded around (tick + 1) _ _ decodes after.paced.engine following empty,
              fun _ _ => at_first_failure_empty torch loaded around (tick + 1) _ _ _ decodes monotone after.paced.engine
                following empty⟩

end Await

end Dlmserve
