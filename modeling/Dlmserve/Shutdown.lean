import Dlmserve.ServerDevice
import Dlmserve.ServerInvariant

set_option autoImplicit false

namespace Dlmserve

section Returned

variable {V : Type} (torch : Torch V) (app : App V) (maxBatch maxWaiting : Nat)

theorem engine_move_returned (time : ℚ) (s : Server) (action : ServerAction V) (after : Engine) (invariant : ServerInvariant s)
    (returned : s.engine.loop = .returned) (move : EngineMove torch app time s action after) :
    after.loop = .returned ∧ after.scheduler.fresh = s.engine.scheduler.fresh := by
  cases move with
  | same => exact ⟨returned, rfl⟩
  | admitted full rendered params state served prepares room =>
      rw [invariant.flags, (invariant.stopped returned).1] at served
      cases served
  | iterated fails draw round =>
      have idle : s.engine.iterate torch app.loaded time fails draw = s.engine := by rw [Engine.iterate, returned]
      rw [idle]
      exact ⟨returned, rfl⟩
  | cancelled ref => exact ⟨returned, (cancel_queues s.engine.scheduler ref).fresh⟩
  | shutdown => exact ⟨returned, rfl⟩

theorem returned_run (r after : ServerRun) (trace : List (ServerRun × (ℚ × ServerAction V)))
    (reach : Transition.Reachable (InitialServer maxBatch maxWaiting) (ServerStep torch app) r)
    (returned : r.server.engine.loop = .returned) (run : Transition.Run (ServerStep torch app) r trace after) :
    Transition.Reachable (InitialServer maxBatch maxWaiting) (ServerStep torch app) after ∧
      after.server.engine.loop = .returned ∧ after.server.engine.scheduler.fresh = r.server.engine.scheduler.fresh := by
  apply Transition.run_invariant (fun t : ServerRun =>
    Transition.Reachable (InitialServer maxBatch maxWaiting) (ServerStep torch app) t ∧ t.server.engine.loop = .returned ∧
      t.server.engine.scheduler.fresh = r.server.engine.scheduler.fresh) r after trace run ⟨reach, returned, rfl⟩
  rintro s a t ⟨reached, finished, fresh⟩ step
  refine ⟨Transition.reachable_step _ s t a reached step, ?_⟩
  obtain ⟨_, rfl⟩ := step
  have invariant := reachable_server_invariant torch app maxBatch maxWaiting s reached
  have engine := move_engine torch app a.1 s.server _ a.2 (act_move torch app a.1 s.server a.2)
  obtain ⟨loop, same⟩ := engine_move_returned torch app a.1 s.server a.2 _ invariant finished engine
  exact ⟨loop, same.trans fresh⟩

theorem returned_idle (r : ServerRun)
    (reach : Transition.Reachable (InitialServer maxBatch maxWaiting) (ServerStep torch app) r)
    (returned : r.server.engine.loop = .returned) :
    r.server.shuttingDown = true ∧ r.server.engine.scheduler.pending = [] ∧ r.server.engine.scheduler.active = [] := by
  have invariant := reachable_server_invariant torch app maxBatch maxWaiting r reach
  obtain ⟨closed, idle⟩ := invariant.stopped returned
  obtain ⟨active, pending⟩ := List.append_eq_nil_iff.mp ((has_work_order r.server.engine.scheduler).mp idle)
  exact ⟨invariant.flags.trans closed, pending, active⟩

theorem idle_settled (s : Scheduler) (now : ℚ) (tracked : Tracked s now) (ref : Nat) (alive : ref < s.fresh)
    (idle : ref ∉ s.active ++ s.pending) : ∃ future, (s.objects ref).future = some future ∧ future.done = true :=
  settled_done (s.objects ref) (tracked.futures ref alive) (tracked.left ref alive idle)

end Returned

-- No request is stranded by a shutdown: when the loop has returned, everything that
-- was ever admitted is settled, and nothing is admitted in any run from there.
theorem shutdown_strands_none {V : Type} (torch : Torch V) (app : App V) (maxBatch maxWaiting : Nat) (r : ServerRun)
    (reach : Transition.Reachable (InitialServer maxBatch maxWaiting) (ServerStep torch app) r)
    (returned : r.server.engine.loop = .returned) :
    r.server.shuttingDown = true ∧ r.server.engine.scheduler.pending = [] ∧ r.server.engine.scheduler.active = [] ∧
      (∀ ref < r.server.engine.scheduler.fresh,
        ∃ future, (r.server.engine.scheduler.objects ref).future = some future ∧ future.done = true) ∧
      ∀ trace after, Transition.Run (ServerStep torch app) r trace after →
        after.server.engine.scheduler.fresh = r.server.engine.scheduler.fresh ∧
          after.server.engine.scheduler.pending = [] ∧ after.server.engine.scheduler.active = [] := by
  obtain ⟨closed, pending, active⟩ := returned_idle torch app maxBatch maxWaiting r reach returned
  refine ⟨closed, pending, active, ?_, ?_⟩
  · intro ref alive
    apply idle_settled _ r.now (reachable_server_tracked torch app maxBatch maxWaiting r reach) ref alive
    rw [pending, active]
    exact List.not_mem_nil
  · intro trace after run
    obtain ⟨reached, stays, fresh⟩ := returned_run torch app maxBatch maxWaiting r after trace reach returned run
    exact ⟨fresh, (returned_idle torch app maxBatch maxWaiting after reached stays).2⟩

def lateShutdown : ServerRun :=
  servesFrom writtenTorch writtenApp (idleServer 2 2)
    [.request "a" (tokenBody false) 0 .ample, .shutdown, .iterate false lowDraw, .iterate false lowDraw]

theorem shutdown_behind_request :
    lateShutdown.server.engine.scheduler.fresh = 1 ∧ lateShutdown.server.shuttingDown = true ∧
      ∀ ref < lateShutdown.server.engine.scheduler.fresh,
        ∃ future, (lateShutdown.server.engine.scheduler.objects ref).future = some future ∧ future.done = true := by
  obtain ⟨closed, _, _, settled, _⟩ := shutdown_strands_none writtenTorch writtenApp 2 2 lateShutdown
    (serves_reachable writtenTorch writtenApp 2 2 _) (by decide +kernel)
  exact ⟨by decide +kernel, closed, settled⟩

end Dlmserve
