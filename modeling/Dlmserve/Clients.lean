import Dlmserve.Containment
import Dlmserve.ServerDevice
import Dlmserve.ServerInvariant

set_option autoImplicit false

namespace Dlmserve

variable {full : Full}

def Handler.gathers (handler : Handler) : Option Nat :=
  match handler.awaits with
  | some (.gather ref) => some ref
  | _ => none

theorem gathers_iff (handler : Handler) (ref : Nat) :
    handler.gathers = some ref ↔ handler.awaits = some (.gather ref) := by
  rw [Handler.gathers]
  cases handler.awaits with
  | none => simp
  | some await => cases await <;> simp

def Server.gathered (s : Server) : List Nat := s.handlers.filterMap Handler.gathers

section Limits

variable {V : Type} (torch : Torch V) (loaded : LoadedModel V)

theorem iterate_limits (e : Engine) (now time : ℚ) (fails : Bool) (draw : Draw V) (later : now ≤ time)
    (queues : Queues e.scheduler now) :
    (e.iterate torch loaded time fails draw).scheduler.maxBatch = e.scheduler.maxBatch ∧
      (e.iterate torch loaded time fails draw).scheduler.maxWaiting = e.scheduler.maxWaiting := by
  have iteration := iterate_iteration torch loaded e now time fails draw later queues
  generalize e.iterate torch loaded time fails draw = after at iteration ⊢
  cases iteration with
  | quiet loop s none_run kept stays => rcases kept with rfl | rfl <;> exact ⟨rfl, rfl⟩
  | failed key good chosen none_made busy => exact ⟨rfl, rfl⟩
  | stepped key states good chosen made busy s raised completed =>
      have same := set_states_queues e.scheduler.promotePending (e.batch time) states
      have valid := same_queues_valid _ _ time time same (le_refl time) (promote_valid e.scheduler now time later queues)
      obtain ⟨distinct, alive⟩ := batch_alive e now time later queues key good
      obtain ⟨leaving, stops, result, _⟩ := finish_batch_retire loaded.tokenizer _ time valid (e.batch time) distinct
        fun ref member => by rw [same.fresh]; exact alive ref member
      obtain ⟨rfl, rfl⟩ := Prod.mk.inj (completed.symm.trans result)
      exact ⟨same.maxBatch, same.maxWaiting⟩

end Limits

section Moves

variable {V : Type} (torch : Torch V) (app : App V) (maxBatch maxWaiting : Nat)

theorem engine_move_limits (now time : ℚ) (s : Server) (action : ServerAction V) (later : now ≤ time)
    (queues : Queues s.engine.scheduler now) (after : Engine) (move : EngineMove torch app time s action after) :
    after.scheduler.maxBatch = s.engine.scheduler.maxBatch ∧ after.scheduler.maxWaiting = s.engine.scheduler.maxWaiting := by
  cases move with
  | same | admitted | shutdown => exact ⟨rfl, rfl⟩
  | iterated fails draw round => exact iterate_limits torch app.loaded s.engine now time fails draw later queues
  | cancelled ref =>
      have same := cancel_queues s.engine.scheduler ref
      exact ⟨same.maxBatch, same.maxWaiting⟩

theorem reachable_limits (r : ServerRun)
    (reach : Transition.Reachable (InitialServer maxBatch maxWaiting) (ServerStep torch app) r) :
    r.server.engine.scheduler.maxBatch = maxBatch ∧ r.server.engine.scheduler.maxWaiting = maxWaiting := by
  apply Transition.reachable_invariant_under _ (fun r : ServerRun =>
    r.server.engine.scheduler.maxBatch = maxBatch ∧ r.server.engine.scheduler.maxWaiting = maxWaiting)
    (fun r => Tracked r.server.engine.scheduler r.now) r reach
    (fun r reached => reachable_server_tracked torch app maxBatch maxWaiting r reached)
  · rintro r ⟨unused, now, rfl⟩
    exact ⟨rfl, rfl⟩
  · rintro r a r' tracked ⟨batches, waits⟩ ⟨later, rfl⟩
    obtain ⟨same, same'⟩ := engine_move_limits torch app r.now a.1 r.server a.2 later tracked.queues _
      (move_engine torch app a.1 r.server _ a.2 (act_move torch app a.1 r.server a.2))
    exact ⟨same.trans batches, same'.trans waits⟩

theorem set_gathers (handlers : List Handler) (h : Nat) (old new : Handler) (read : handlers[h]? = some old)
    (same : new.gathers = old.gathers) : (handlers.set h new).filterMap Handler.gathers = handlers.filterMap Handler.gathers := by
  induction handlers generalizing h with
  | nil => rfl
  | cons first handlers ih =>
      cases h with
      | zero =>
          obtain rfl : first = old := Option.some.inj read
          rw [List.set_cons_zero, List.filterMap_cons, List.filterMap_cons, same]
      | succ h => rw [List.set_cons_succ, List.filterMap_cons, List.filterMap_cons, ih h read]

theorem set_gathered (s : Server) (h : Nat) (old new : Handler) (read : s.handlers[h]? = some old)
    (same : new.awaits = old.awaits) : (s.setHandler h new).gathered = s.gathered :=
  set_gathers s.handlers h old new read (by rw [Handler.gathers, Handler.gathers, same])

-- A step opens at most one request, and gives it to the handler that has just arrived.
theorem move_gathered (now time : ℚ) (s s' : Server) (action : ServerAction V) (later : now ≤ time)
    (queues : Queues s.engine.scheduler now) (move : ServerMove torch app time s action s')
    (each : s.gathered = List.range s.engine.scheduler.fresh) : s'.gathered = List.range s'.engine.scheduler.fresh := by
  cases move with
  | still | shutdown | drained => exact each
  | arrived reqId body drawn full engine booked valid arrival =>
      have opened : ({ s with engine := engine }.opened booked).gathered = s.gathered ++ booked.2.gathers.toList := by
        rw [Server.gathered, Server.opened, List.filterMap_append]
        cases found : booked.2.gathers <;> simp [found, Server.gathered]
      rw [opened]
      rcases arrival_admits app time s reqId body drawn full engine booked arrival with
        ⟨rfl, absent⟩ | ⟨rendered, state, served, prepares, room, rfl, admitted⟩
      · have silent : booked.2.gathers = none := by
          rw [Option.eq_none_iff_forall_ne_some]
          exact fun ref gathered => absent ref ((gathers_iff booked.2 ref).mp gathered)
        rw [silent, Option.toList_none, List.append_nil]
        exact each
      · rw [(gathers_iff booked.2 _).mpr admitted, each]
        exact List.range_succ.symm
  | iterated fails draw =>
      have fresh := (iteration_futures torch app.loaded s.engine now time fails draw later queues _
        (iterate_iteration torch app.loaded s.engine now time fails draw later queues)).1
      exact each.trans (congrArg List.range fresh.symm)
  | woken h handler booked read resumes =>
      have kept := (resumption_keeps handler _ _ booked (resume_cases handler _ _ booked resumes).2).1
      exact (set_gathered { s with metrics := booked.1 } h handler booked.2 read kept).trans each
  | gatherCancelled h handler ref read unfinished awaits =>
      refine (set_gathered { s with engine := _ } h handler { handler with cancelled := true } read rfl).trans ?_
      exact each.trans (congrArg List.range (cancel_queues s.engine.scheduler ref).fresh.symm)
  | threadCancelled h handler call job read unfinished awaits =>
      exact (set_gathered s h handler { handler with cancelled := true } read rfl).trans each
  | jobChanged _ h handler call job change acts read awaits =>
      refine (set_gathers s.handlers h handler _ read ?_).trans each
      rw [Handler.gathers, Handler.gathers, awaits]

theorem reachable_gathered (r : ServerRun)
    (reach : Transition.Reachable (InitialServer maxBatch maxWaiting) (ServerStep torch app) r) :
    r.server.gathered = List.range r.server.engine.scheduler.fresh := by
  apply Transition.reachable_invariant_under _
    (fun r : ServerRun => r.server.gathered = List.range r.server.engine.scheduler.fresh)
    (fun r => Tracked r.server.engine.scheduler r.now) r reach
    (fun r reached => reachable_server_tracked torch app maxBatch maxWaiting r reached)
  · rintro r ⟨unused, now, rfl⟩
    rfl
  · rintro r a r' tracked each ⟨later, rfl⟩
    exact move_gathered torch app r.now a.1 r.server _ a.2 later tracked.queues
      (act_move torch app a.1 r.server a.2) each

-- Who still waits for an answer has neither left nor been told to.
def StillOpen (s : Server) : Prop :=
  ∀ handler ∈ s.handlers, ∀ ref, handler.gathers = some ref → s.engine.scheduler.awaited ref = true →
    handler.cancelled = false ∧ handler.ending = none

theorem move_awaited (now time : ℚ) (s s' : Server) (action : ServerAction V) (later : now ≤ time)
    (queues : Queues s.engine.scheduler now) (move : ServerMove torch app time s action s') (ref : Nat)
    (alive : ref < s.engine.scheduler.fresh) (awaited : s'.engine.scheduler.awaited ref = true) :
    s.engine.scheduler.awaited ref = true := by
  have moved := (engine_move_futures torch app now time s action later queues s'.engine
    (move_engine torch app time s s' action move)).2.1 ref alive
  rw [awaited_eq, awaited_pending] at awaited ⊢
  rw [awaited] at moved
  generalize (s.engine.scheduler.objects ref).future = before at moved ⊢
  cases moved with
  | same => rfl

theorem arrival_open (time : ℚ) (s : Server) (reqId : String) (body : ChatCompletionRequest) (drawn : Int) (engine : Engine)
    (booked : Metrics × Handler) (arrival : Arrival app time s reqId body drawn full engine booked) (ref : Nat)
    (gathers : booked.2.gathers = some ref) : booked.2.cancelled = false ∧ booked.2.ending = none := by
  have awaits := (gathers_iff booked.2 ref).mp gathers
  cases arrival with
  | shuttingDown | notFound | template => cases awaits
  | single served hosted rendered renders alone =>
      rcases start_single_cases app rendered (body.samplingParams drawn)
        (recordRequestAdmitted s.metrics { reqId := reqId, body := body }).2 with ⟨error, made, _⟩ | ⟨_, call, made⟩
      · rw [made] at awaits
        cases awaits
      · rw [made] at awaits
        cases awaits
  | admitted served hosted rendered renders batched state prepares room => exact ⟨rfl, rfl⟩
  | refused served hosted rendered renders batched error refuses =>
      rw [(engine_error_keeps _ _ error).1] at awaits
      cases awaits

theorem resumption_unawaited (handler : Handler) (metrics : Metrics) (scheduler : Scheduler) (booked : Metrics × Handler)
    (resumption : Resumption handler metrics scheduler booked) (kept : handler.cancelled = false) (ref : Nat)
    (gathers : handler.gathers = some ref) : scheduler.awaited ref = false := by
  have awaits := (gathers_iff handler ref).mp gathers
  have settles (other : Nat) (future : Future) (same : handler.awaits = some (.gather other))
      (found : (scheduler.objects other).future = some future) (done : future.done = true) :
      scheduler.awaited ref = false := by
    obtain rfl : other = ref := by simpa [awaits] using same.symm
    rw [Scheduler.awaited, found]
    simp [done]
  cases resumption with
  | shutDown other same stopped =>
      rcases stopped with cancelled | found
      · rw [kept] at cancelled
        cases cancelled
      · exact settles other _ same found rfl
  | answered other value same _ found => exact settles other _ same found rfl
  | failed other message same _ found => exact settles other _ same found rfl
  | threadCancelled call job same | computed call output same | threadRaised call error same =>
      rw [awaits] at same
      cases same

theorem move_open (now time : ℚ) (s s' : Server) (action : ServerAction V) (later : now ≤ time)
    (queues : Queues s.engine.scheduler now) (invariant : ServerInvariant s)
    (move : ServerMove torch app time s action s') (each : StillOpen s) : StillOpen s' := by
  have before (handler : Handler) (member : handler ∈ s.handlers) (ref : Nat) (gathers : handler.gathers = some ref)
      (awaited : s'.engine.scheduler.awaited ref = true) : handler.cancelled = false ∧ handler.ending = none := by
    have alive := invariant.gathers handler member ref ((gathers_iff handler ref).mp gathers)
    exact each handler member ref gathers (move_awaited torch app now time s s' action later queues move ref alive awaited)
  cases move with
  | still | iterated | shutdown | drained => exact before
  | arrived reqId body drawn full engine booked valid arrival =>
      intro handler member ref gathers awaited
      rcases List.mem_append.mp member with old | new
      · exact before handler old ref gathers awaited
      · obtain rfl := List.mem_singleton.mp new
        exact arrival_open app time s reqId body drawn engine booked arrival ref gathers
  | woken h old booked read resumes =>
      intro handler member ref gathers awaited
      rcases List.mem_or_eq_of_mem_set member with other | rfl
      · exact before handler other ref gathers awaited
      · obtain ⟨_, resumption⟩ := resume_cases old _ _ booked resumes
        have kept := (resumption_keeps old _ _ booked resumption).1
        have gathered : old.gathers = some ref := by
          rw [gathers_iff] at gathers ⊢
          exact kept.symm.trans gathers
        have stays := (before old (List.mem_of_getElem? read) ref gathered awaited).1
        exact absurd awaited (Bool.eq_false_iff.mp (resumption_unawaited old _ _ booked resumption stays ref gathered))
  | gatherCancelled h old ref' read unfinished awaits =>
      intro handler member ref gathers awaited
      rcases List.mem_or_eq_of_mem_set member with other | rfl
      · exact before handler other ref gathers awaited
      · obtain rfl : ref' = ref := by
          rw [gathers_iff] at gathers
          simpa [awaits] using gathers
        rw [awaited_eq, awaited_pending] at awaited
        dsimp only [Server.setHandler] at awaited
        rw [cancel_objects] at awaited
        dsimp only at awaited
        rw [if_pos rfl, resolved_future] at awaited
        split at awaited
        · cases awaited
        · rename_i settled
          exact absurd ((awaited_pending _).mpr awaited) settled
  | threadCancelled h old call job read unfinished awaits =>
      intro handler member ref gathers awaited
      rcases List.mem_or_eq_of_mem_set member with other | rfl
      · exact before handler other ref gathers awaited
      · rw [gathers_iff] at gathers
        cases awaits.symm.trans gathers
  | jobChanged _ h old call job change acts read awaits =>
      intro handler member ref gathers awaited
      rcases List.mem_or_eq_of_mem_set member with other | rfl
      · exact before handler other ref gathers awaited
      · rw [gathers_iff] at gathers
        cases gathers

theorem reachable_open (r : ServerRun)
    (reach : Transition.Reachable (InitialServer maxBatch maxWaiting) (ServerStep torch app) r) : StillOpen r.server := by
  apply Transition.reachable_invariant_under _ (fun r : ServerRun => StillOpen r.server)
    (fun r => Tracked r.server.engine.scheduler r.now ∧ ServerInvariant r.server) r reach
    (fun r reached => ⟨reachable_server_tracked torch app maxBatch maxWaiting r reached,
      reachable_server_invariant torch app maxBatch maxWaiting r reached⟩)
  · rintro r ⟨unused, now, rfl⟩
    exact fun handler member => absurd member List.not_mem_nil
  · rintro r a r' ⟨tracked, invariant⟩ each ⟨later, rfl⟩
    exact move_open torch app r.now a.1 r.server _ a.2 later tracked.queues invariant
      (act_move torch app a.1 r.server a.2) each

end Moves

-- The clients that still wait, in the order in which they came, are the queue of the
-- scheduler: nothing that is queued for somebody was lost on the way, nobody waits for
-- what is not queued, and no more wait than the queues may hold.
theorem waiting_clients {V : Type} (torch : Torch V) (app : App V) (maxBatch maxWaiting : Nat) (r : ServerRun)
    (reach : Transition.Reachable (InitialServer maxBatch maxWaiting) (ServerStep torch app) r) :
    r.server.gathered.filter r.server.engine.scheduler.awaited =
      (r.server.engine.scheduler.active ++ r.server.engine.scheduler.pending).filter r.server.engine.scheduler.awaited ∧
    (r.server.gathered.filter r.server.engine.scheduler.awaited).length ≤ maxWaiting + 2 * maxBatch ∧
    ∀ handler ∈ r.server.handlers, ∀ ref, handler.gathers = some ref → r.server.engine.scheduler.awaited ref = true →
      handler.cancelled = false ∧ handler.ending = none := by
  have tracked := reachable_server_tracked torch app maxBatch maxWaiting r reach
  have gathered := reachable_gathered torch app maxBatch maxWaiting r reach
  obtain ⟨batches, waits⟩ := reachable_limits torch app maxBatch maxWaiting r reach
  have same : r.server.gathered.filter r.server.engine.scheduler.awaited =
      (r.server.engine.scheduler.active ++ r.server.engine.scheduler.pending).filter r.server.engine.scheduler.awaited := by
    rw [gathered]
    apply List.Pairwise.eq_of_mem_iff (List.pairwise_lt_range.filter _) (tracked.queues.order.filter _)
    intro ref
    simp only [List.mem_filter, List.mem_range, and_congr_left_iff]
    intro awaited
    refine ⟨fun alive => ?_, tracked.queues.alive ref⟩
    by_contra absent
    rw [tracked.left ref alive absent] at awaited
    cases awaited
  refine ⟨same, ?_, reachable_open torch app maxBatch maxWaiting r reach⟩
  have pending := tracked.queues.pendingBound
  have active := tracked.queues.activeBound
  rw [batches] at active
  rw [waits] at pending
  rw [same]
  refine (List.length_filter_le _ _).trans ?_
  rw [List.length_append]
  omega

def threeClients : ServerRun :=
  servesFrom writtenTorch writtenApp (idleServer 1 3) [.request "a" (tokenBody false) 0 .ample, .request "b" (tokenBody false) 0 .ample,
    .request "c" (tokenBody false) 0 .ample, .iterate false lowDraw, .cancel 1]

theorem waiting_clients_one_left :
    threeClients.server.gathered.filter threeClients.server.engine.scheduler.awaited = [2] ∧
      (threeClients.server.engine.scheduler.active ++ threeClients.server.engine.scheduler.pending).filter
        threeClients.server.engine.scheduler.awaited = [2] := by
  have waiting : threeClients.server.gathered.filter threeClients.server.engine.scheduler.awaited = [2] := by decide +kernel
  exact ⟨waiting, (waiting_clients writtenTorch writtenApp 1 3 threeClients
    (serves_reachable writtenTorch writtenApp 1 3 _)).1.symm.trans waiting⟩

end Dlmserve
