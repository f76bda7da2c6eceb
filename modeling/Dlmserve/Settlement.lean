import Dlmserve.Containment

set_option autoImplicit false

namespace Dlmserve

-- What may become of a future: once it is done it stays as it is.
inductive FutureMove (fails : Prop) : Option Future → Option Future → Prop where
  | same (future : Option Future) : FutureMove fails future future
  | answered (output : GenerationOutput) : FutureMove fails (some .pending) (some (.result (some output)))
  | failed (because : fails) (message : String) : FutureMove fails (some .pending) (some (.exception message))
  | cancelled : FutureMove fails (some .pending) (some .cancelled)

theorem future_move_done (fails : Prop) (before : Future) (after : Option Future)
    (move : FutureMove fails (some before) after) (done : before.done = true) : after = some before := by
  cases move with
  | same => rfl
  | answered output => cases done
  | failed because message => cases done
  | cancelled => cases done

theorem future_move_result (fails : Prop) (before after : Option Future) (move : FutureMove fails before after)
    (some_result : before ≠ some (.result none)) : after ≠ some (.result none) := by
  cases move with
  | same => exact some_result
  | answered output => simp
  | failed because message => simp
  | cancelled => simp

theorem future_move_widen (fails wider : Prop) (widens : fails → wider) (before after : Option Future)
    (move : FutureMove fails before after) : FutureMove wider before after := by
  cases move with
  | same => exact .same before
  | answered output => exact .answered output
  | failed because message => exact .failed (widens because) message
  | cancelled => exact .cancelled

theorem resolved_move (fails : Prop) (req : Request) (future : Future)
    (moves : FutureMove fails (some .pending) (some future)) : FutureMove fails req.future (req.resolved future).future := by
  rw [Request.resolved]
  split
  · rename_i awaited
    rw [(awaited_pending req).mp awaited]
    exact moves
  · exact .same req.future

section Engine

variable {V : Type} (torch : Torch V) (loaded : LoadedModel V) (e : Engine) (now time : ℚ) (fails : Bool) (draw : Draw V)

theorem finish_batch_futures (tokenizer : Tokenizer) (s : Scheduler) (queues : Queues s now) (batch : List Nat)
    (distinct : batch.Nodup) (alive : ∀ ref ∈ batch, ref < s.fresh) :
    (s.finishBatch tokenizer batch).1.fresh = s.fresh ∧
      ∀ ref, FutureMove False (s.objects ref).future ((s.finishBatch tokenizer batch).1.objects ref).future := by
  obtain ⟨leaving, raised, result, finishes⟩ := finish_batch_retire tokenizer s now queues batch distinct alive
  rw [result]
  refine ⟨rfl, fun ref => ?_⟩
  by_cases member : ref ∈ leaving
  · obtain ⟨output, made⟩ := Option.ne_none_iff_exists'.mp (finishes.made ref member)
    rw [retire_leaving s leaving _ ref member, Request.finished, made]
    exact resolved_move False { s.objects ref with result := some output } _ (.answered output)
  · rw [retire_staying s leaving _ ref member]
    exact .same _

def FailsIn (ref : Nat) : Prop := ref ∈ e.batch time ∧ e.stepped torch loaded time fails draw = none

theorem iteration_futures (later : now ≤ time) (queues : Queues e.scheduler now) (after : Engine)
    (iteration : Iteration torch loaded e time fails draw after) :
    after.scheduler.fresh = e.scheduler.fresh ∧
      ∀ ref, FutureMove (FailsIn torch loaded e time fails draw ref) (e.scheduler.objects ref).future
        (after.scheduler.objects ref).future := by
  have promoted : e.scheduler.promotePending.fresh = e.scheduler.fresh := by rw [Scheduler.promote_eq]
  cases iteration with
  | quiet loop s none_run kept stays =>
      rcases kept with rfl | rfl
      · exact ⟨rfl, fun ref => .same _⟩
      · refine ⟨promoted, fun ref => ?_⟩
        rw [promote_objects]
        exact .same _
  | failed key good chosen none_made busy =>
      refine ⟨promoted, fun ref => ?_⟩
      dsimp only
      by_cases member : ref ∈ e.batch time
      · rw [retire_leaving _ _ _ ref member, promote_objects]
        exact resolved_move _ _ _ (.failed ⟨member, none_made⟩ _)
      · rw [retire_staying _ _ _ ref member, promote_objects]
        exact .same _
  | stepped key states good chosen made busy s raised completed =>
      obtain ⟨distinct, alive⟩ := batch_alive e now time later queues key good
      have same := set_states_queues e.scheduler.promotePending (e.batch time) states
      have valid := same_queues_valid _ _ time time same (le_refl time) (promote_valid e.scheduler now time later queues)
      obtain ⟨fresh, moves⟩ := finish_batch_futures time loaded.tokenizer _ valid (e.batch time) distinct
        (fun ref member => by rw [same.fresh]; exact alive ref member)
      rw [completed] at fresh moves
      refine ⟨(fresh.trans same.fresh).trans promoted, fun ref => ?_⟩
      rw [← stepped_future e time states]
      exact future_move_widen False _ False.elim _ _ (moves ref)

theorem failed_iteration_future (after : Engine) (iteration : Iteration torch loaded e time fails draw after) (ref : Nat)
    (failing : FailsIn torch loaded e time fails draw ref) (pending : (e.scheduler.objects ref).future = some .pending) :
    (after.scheduler.objects ref).future = some (.exception Scheduler.stepFailed) := by
  obtain ⟨member, none_made⟩ := failing
  cases iteration with
  | quiet loop s none_run kept stays =>
      rw [none_run] at member
      exact absurd member List.not_mem_nil
  | failed key good chosen none_made busy =>
      dsimp only
      rw [retire_leaving _ _ _ ref member, promote_objects, failed_future, if_pos ((awaited_pending _).mpr pending)]
  | stepped key states good chosen made busy s raised completed =>
      rw [none_made] at made
      cases made

theorem cancel_future_move (s : Scheduler) (ref other : Nat) (failing : Prop) :
    FutureMove failing (s.objects other).future ((s.cancel ref).objects other).future := by
  rw [cancel_objects]
  dsimp only
  split
  · exact resolved_move failing _ _ .cancelled
  · exact .same _

end Engine

end Dlmserve
