import Dlmserve.Library.Transition
import Dlmserve.SchedulerSpec

set_option autoImplicit false

namespace Dlmserve

-- What may happen to a scheduler between two looks at it. The states of requests
-- that were handed out change in place, by whatever their owner does with them.
inductive SchedulerAction where
  | admitRequest (state : DenoiseState) (params : SamplingParams) (future : Option Future)
  | schedule
  | step (ref : Nat) (state : DenoiseState)
  | complete (ref : Nat)

structure SchedulerRun where
  scheduler : Scheduler
  now : ℚ
  handed : List Nat := []
  completed : List Nat := []

inductive SchedulerStep : SchedulerRun → ℚ × SchedulerAction → SchedulerRun → Prop where
  | admitRequest (r : SchedulerRun) (time : ℚ) (state : DenoiseState) (params : SamplingParams) (future : Option Future)
      (later : r.now ≤ time) : SchedulerStep r (time, .admitRequest state params future)
        { r with scheduler := (r.scheduler.admitRequest time state params future).1, now := time }
  | schedule (r : SchedulerRun) (time : ℚ) (later : r.now ≤ time) : SchedulerStep r (time, .schedule)
      { r with
        scheduler := (r.scheduler.schedule time).1
        now := time
        handed := r.handed ++ (r.scheduler.schedule time).2 }
  | step (r : SchedulerRun) (time : ℚ) (ref : Nat) (state : DenoiseState) (later : r.now ≤ time)
      (member : ref ∈ r.handed) : SchedulerStep r (time, .step ref state)
        { r with scheduler := r.scheduler.setState ref state, now := time }
  | complete (r : SchedulerRun) (time : ℚ) (ref : Nat) (after : Scheduler) (later : r.now ≤ time)
      (member : ref ∈ r.handed) (removed : r.scheduler.complete ref = .ok after) :
      SchedulerStep r (time, .complete ref) { r with scheduler := after, now := time, completed := ref :: r.completed }

def InitialRun (maxBatch maxWaiting : Nat) (r : SchedulerRun) : Prop :=
  ∃ unused now, r = { scheduler := Scheduler.init maxBatch maxWaiting unused, now := now }

-- The queues list live objects in the order of their admission, within bounds;
-- ids count the admissions, and no admission lies in the future.
structure Queues (s : Scheduler) (now : ℚ) : Prop where
  pendingBound : s.pending.length ≤ s.maxWaiting
  activeBound : s.active.length ≤ 2 * s.maxBatch
  order : (s.active ++ s.pending).Pairwise (· < ·)
  alive : ∀ ref ∈ s.active ++ s.pending, ref < s.fresh
  counted : s.nextId = s.fresh
  ids : ∀ ref < s.fresh, (s.objects ref).reqId = ref
  clock : ∀ ref < s.fresh, (s.objects ref).admittedMs ≤ now
  aged : ∀ a b, a ≤ b → b < s.fresh → (s.objects a).admittedMs ≤ (s.objects b).admittedMs

-- The same queues over the same objects, whose states and futures may differ.
structure SameQueues (s s' : Scheduler) : Prop where
  maxBatch : s'.maxBatch = s.maxBatch
  maxWaiting : s'.maxWaiting = s.maxWaiting
  pending : s'.pending = s.pending
  active : s'.active = s.active
  nextId : s'.nextId = s.nextId
  fresh : s'.fresh = s.fresh
  reqId : ∀ ref, (s'.objects ref).reqId = (s.objects ref).reqId
  admittedMs : ∀ ref, (s'.objects ref).admittedMs = (s.objects ref).admittedMs

theorem same_queues_refl (s : Scheduler) : SameQueues s s :=
  ⟨rfl, rfl, rfl, rfl, rfl, rfl, fun _ => rfl, fun _ => rfl⟩

namespace Scheduler

section Frames

variable (s : Scheduler) (ref : Nat)

theorem set_state_object (state : DenoiseState) (other : Nat) : (s.setState ref state).objects other =
    if other = ref then { s.objects ref with state := state } else s.objects other :=
  Function.update_apply s.objects ref _ other

theorem set_future_object (future : Future) (other : Nat) : (s.setFuture ref future).objects other =
    if other = ref then { s.objects ref with future := some future } else s.objects other :=
  Function.update_apply s.objects ref _ other

theorem set_state_queues (state : DenoiseState) : SameQueues s (s.setState ref state) := by
  refine ⟨rfl, rfl, rfl, rfl, rfl, rfl, fun other => ?_, fun other => ?_⟩
  all_goals
    rw [set_state_object]
    split
    · rename_i same
      rw [same]
    · rfl

theorem set_future_queues (future : Future) : SameQueues s (s.setFuture ref future) := by
  refine ⟨rfl, rfl, rfl, rfl, rfl, rfl, fun other => ?_, fun other => ?_⟩
  all_goals
    rw [set_future_object]
    split
    · rename_i same
      rw [same]
    · rfl

theorem resolve_queues : SameQueues s (s.resolve ref) := by
  rw [resolve]
  split
  · exact set_future_queues s ref _
  · exact same_queues_refl s

end Frames

end Scheduler

section Invariant

theorem same_queues_valid (s s' : Scheduler) (now time : ℚ) (same : SameQueues s s') (later : now ≤ time)
    (queues : Queues s now) : Queues s' time := by
  refine ⟨?_, ?_, ?_, ?_, ?_, ?_, ?_, ?_⟩
  · rw [same.pending, same.maxWaiting]
    exact queues.pendingBound
  · rw [same.active, same.maxBatch]
    exact queues.activeBound
  · rw [same.active, same.pending]
    exact queues.order
  · rw [same.active, same.pending, same.fresh]
    exact queues.alive
  · rw [same.nextId, same.fresh]
    exact queues.counted
  · intro ref inside
    rw [same.fresh] at inside
    rw [same.reqId]
    exact queues.ids ref inside
  · intro ref inside
    rw [same.fresh] at inside
    rw [same.admittedMs]
    exact (queues.clock ref inside).trans later
  · intro a b ordered inside
    rw [same.fresh] at inside
    rw [same.admittedMs, same.admittedMs]
    exact queues.aged a b ordered inside

section Admit

variable (s : Scheduler) (time : ℚ) (state : DenoiseState) (params : SamplingParams) (future : Option Future)

def newRequest : Request :=
  { reqId := s.nextId, state := state, params := params, admittedMs := time, future := future }

def enqueued : Scheduler :=
  { s with
      objects := Function.update s.objects s.fresh (newRequest s time state params future)
      fresh := s.fresh + 1
      nextId := s.nextId + 1
      pending := s.pending ++ [s.fresh] }

theorem admit_full (full : s.maxWaiting ≤ s.pending.length) : s.admitRequest time state params future = (s, none) := if_pos full

theorem admit_room (room : s.pending.length < s.maxWaiting) :
    s.admitRequest time state params future = (enqueued s time state params future, some s.fresh) := if_neg (by omega)

theorem enqueued_new : (enqueued s time state params future).objects s.fresh = newRequest s time state params future :=
  Function.update_self s.fresh _ s.objects

theorem enqueued_old (ref : Nat) (old : ref ≠ s.fresh) :
    (enqueued s time state params future).objects ref = s.objects ref :=
  Function.update_of_ne old _ s.objects

theorem enqueued_valid (now : ℚ) (later : now ≤ time) (room : s.pending.length < s.maxWaiting)
    (queues : Queues s now) : Queues (enqueued s time state params future) time := by
  have split (ref : Nat) (inside : ref < s.fresh + 1) : ref = s.fresh ∨ (ref < s.fresh ∧ ref ≠ s.fresh) := by omega
  refine ⟨?_, queues.activeBound, ?_, ?_, congrArg Nat.succ queues.counted, ?_, ?_, ?_⟩
  · change (s.pending ++ [s.fresh]).length ≤ s.maxWaiting
    rw [List.length_append, List.length_singleton]
    exact room
  · change (s.active ++ (s.pending ++ [s.fresh])).Pairwise (· < ·)
    rw [← List.append_assoc, List.pairwise_append]
    refine ⟨queues.order, List.pairwise_singleton _ _, ?_⟩
    intro a old b new
    rw [List.mem_singleton.mp new]
    exact queues.alive a old
  · intro ref member
    change ref ∈ s.active ++ (s.pending ++ [s.fresh]) at member
    rw [← List.append_assoc, List.mem_append, List.mem_singleton] at member
    rcases member with old | rfl
    · exact Nat.lt_succ_of_lt (queues.alive ref old)
    · exact Nat.lt_succ_self _
  · intro ref inside
    rcases split ref inside with rfl | ⟨old, different⟩
    · rw [enqueued_new]
      exact queues.counted
    · rw [enqueued_old _ _ _ _ _ ref different]
      exact queues.ids ref old
  · intro ref inside
    rcases split ref inside with rfl | ⟨old, different⟩
    · rw [enqueued_new]
      exact le_refl time
    · rw [enqueued_old _ _ _ _ _ ref different]
      exact (queues.clock ref old).trans later
  · intro a b ordered inside
    rcases split b inside with rfl | ⟨old, different⟩
    · rw [enqueued_new]
      rcases split a (Nat.lt_succ_of_le ordered) with rfl | ⟨oldA, differentA⟩
      · rw [enqueued_new]
      · rw [enqueued_old _ _ _ _ _ a differentA]
        exact (queues.clock a oldA).trans later
    · rw [enqueued_old _ _ _ _ _ b different, enqueued_old _ _ _ _ _ a (by omega)]
      exact queues.aged a b ordered old

end Admit

theorem promote_valid (s : Scheduler) (now time : ℚ) (later : now ≤ time) (queues : Queues s now) :
    Queues s.promotePending time := by
  have order := Scheduler.promote_order s
  have bound := Scheduler.promote_active_length s queues.activeBound
  rw [Scheduler.promote_eq] at order bound ⊢
  refine ⟨?_, bound, ?_, ?_, queues.counted, queues.ids, fun ref inside => (queues.clock ref inside).trans later,
    queues.aged⟩
  · rw [List.length_drop]
    exact (Nat.sub_le _ _).trans queues.pendingBound
  · rw [order]
    exact queues.order
  · rw [order]
    exact queues.alive

theorem schedule_pool (s : Scheduler) (now : ℚ) : (s.schedule now).1 = s.promotePending := by
  rw [Scheduler.schedule]
  split
  · rfl
  · split <;> rfl

theorem active_nodup (s : Scheduler) (now : ℚ) (queues : Queues s now) : s.active.Nodup :=
  (List.pairwise_append.mp queues.order).1.imp fun less => Nat.ne_of_lt less

theorem complete_valid_eq (s : Scheduler) (now : ℚ) (queues : Queues s now) (ref : Nat) (alive : ref < s.fresh) :
    s.complete ref = .ok (Scheduler.resolve { s with active := s.active.filter (· ≠ ref) } ref) := by
  apply Scheduler.complete_eq s ref (active_nodup s now queues)
  intro other member same
  rwa [queues.ids other (queues.alive other (List.mem_append_left _ member)), queues.ids ref alive] at same

theorem complete_valid (s after : Scheduler) (now time : ℚ) (later : now ≤ time) (queues : Queues s now) (ref : Nat)
    (alive : ref < s.fresh) (removed : s.complete ref = .ok after) : Queues after time := by
  rw [complete_valid_eq s now queues ref alive] at removed
  obtain rfl := Except.ok.inj removed
  refine same_queues_valid _ _ now time (Scheduler.resolve_queues _ ref) later ?_
  have kept : ((s.active.filter (· ≠ ref)) ++ s.pending).Sublist (s.active ++ s.pending) :=
    List.Sublist.append List.filter_sublist (List.Sublist.refl _)
  exact ⟨queues.pendingBound, (List.length_filter_le _ _).trans queues.activeBound, queues.order.sublist kept,
    fun other member => queues.alive other (kept.subset member), queues.counted, queues.ids, queues.clock, queues.aged⟩

end Invariant

end Dlmserve
