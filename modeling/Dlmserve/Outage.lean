import Dlmserve.Lifespan
import Dlmserve.Origins

set_option autoImplicit false

namespace Dlmserve

variable {full : Full}

section Crash

variable {V : Type} (torch : Torch V) (loaded : LoadedModel V) (e : Engine) (now time : ℚ) (fails : Bool) (draw : Draw V)

theorem iterate_crashed (crashed : e.loop = .crashed) : e.iterate torch loaded time fails draw = e := by
  rw [Engine.iterate, crashed]

-- The request whose output raised stays in the active list.
theorem crash_busy (later : now ≤ time) (queues : Queues e.scheduler now) (before : e.loop ≠ .crashed)
    (crashed : (e.iterate torch loaded time fails draw).loop = .crashed) :
    (e.iterate torch loaded time fails draw).scheduler.active ≠ [] := by
  have iteration := iterate_iteration torch loaded e now time fails draw later queues
  generalize e.iterate torch loaded time fails draw = after at iteration crashed ⊢
  cases iteration with
  | quiet loop s none_run kept stays =>
      rcases stays with same | returned
      · exact absurd (same.symm.trans crashed) before
      · cases returned.1.symm.trans crashed
  | failed key good chosen none_made busy => cases crashed
  | stepped key states good chosen made busy s raised completed =>
      have same := set_states_queues e.scheduler.promotePending (e.batch time) states
      have valid := same_queues_valid _ _ time time same (le_refl time) (promote_valid e.scheduler now time later queues)
      obtain ⟨distinct, alive⟩ := batch_alive e now time later queues key good
      obtain ⟨leaving, stops, result, finishes⟩ := finish_batch_retire loaded.tokenizer _ time valid (e.batch time) distinct
        fun ref member => by rw [same.fresh]; exact alive ref member
      obtain ⟨rfl, rfl⟩ := Prod.mk.inj (completed.symm.trans result)
      cases raised with
      | false => cases crashed
      | true =>
          obtain ⟨ref, member, done, none_made⟩ := finishes.raises.mp rfl
          have stays : ref ∉ leaving := fun leaves => finishes.made ref leaves none_made
          have active : ref ∈ e.scheduler.promotePending.active := good.fifo.subset member
          have kept : ref ∈ (retire (e.scheduler.promotePending.setStates (e.batch time) states) leaving
              (Request.finished loaded.tokenizer)).active :=
            List.mem_filter.mpr ⟨by rwa [same.active], decide_eq_true stays⟩
          exact List.ne_nil_of_mem kept

theorem iterate_empty (later : now ≤ time) (queues : Queues e.scheduler now)
    (empty : e.scheduler.active ++ e.scheduler.pending = []) :
    (e.iterate torch loaded time fails draw).scheduler.active ++
      (e.iterate torch loaded time fails draw).scheduler.pending = [] := by
  have promoted : e.scheduler.promotePending.active ++ e.scheduler.promotePending.pending = [] := by
    rw [Scheduler.promote_order, empty]
  have none_chosen (key : GroupKey) (good : GoodBatch e.scheduler.promotePending (e.batch time) key) : False := by
    obtain ⟨ref, member⟩ := List.exists_mem_of_ne_nil _ good.nonempty
    have active := good.fifo.subset member
    rw [(List.append_eq_nil_iff.mp promoted).1] at active
    cases active
  have iteration := iterate_iteration torch loaded e now time fails draw later queues
  generalize e.iterate torch loaded time fails draw = after at iteration ⊢
  cases iteration with
  | quiet loop s none_run kept stays =>
      rcases kept with rfl | rfl
      · exact empty
      · exact promoted
  | failed key good => exact (none_chosen key good).elim
  | stepped key states good => exact (none_chosen key good).elim

end Crash

section Wedged

variable {V : Type} (torch : Torch V) (app : App V) (maxBatch maxWaiting : Nat) (now time : ℚ)

-- A loop that died has work left, and a drain that returned has left none.
structure Wedged (s : Server) : Prop where
  busy : s.engine.loop = .crashed → s.engine.scheduler.active ≠ []
  drained : s.drained = true → s.shuttingDown = true ∧ s.engine.scheduler.active ++ s.engine.scheduler.pending = []

theorem engine_move_busy (s : Server) (action : ServerAction V) (later : now ≤ time) (queues : Queues s.engine.scheduler now)
    (busy : s.engine.loop = .crashed → s.engine.scheduler.active ≠ []) (after : Engine)
    (move : EngineMove torch app time s action after) : after.loop = .crashed → after.scheduler.active ≠ [] := by
  cases move with
  | same | admitted | shutdown => exact busy
  | iterated fails draw round =>
      by_cases before : s.engine.loop = .crashed
      · rw [iterate_crashed torch app.loaded s.engine time fails draw before]
        exact busy
      · exact crash_busy torch app.loaded s.engine now time fails draw later queues before
  | cancelled ref =>
      dsimp only
      rw [(cancel_queues s.engine.scheduler ref).active]
      exact busy

theorem engine_move_empty (s : Server) (action : ServerAction V) (later : now ≤ time) (queues : Queues s.engine.scheduler now)
    (closed : s.shuttingDown = true) (empty : s.engine.scheduler.active ++ s.engine.scheduler.pending = []) (after : Engine)
    (move : EngineMove torch app time s action after) : after.scheduler.active ++ after.scheduler.pending = [] := by
  cases move with
  | same | shutdown => exact empty
  | admitted full rendered params state served prepares room =>
      rw [closed] at served
      cases served
  | iterated fails draw round => exact iterate_empty torch app.loaded s.engine now time fails draw later queues empty
  | cancelled ref =>
      have same := cancel_queues s.engine.scheduler ref
      rw [same.active, same.pending]
      exact empty

theorem reachable_wedged (r : ServerRun)
    (reach : Transition.Reachable (InitialServer maxBatch maxWaiting) (ServerStep torch app) r) : Wedged r.server := by
  apply Transition.reachable_invariant_under _ (fun r : ServerRun => Wedged r.server)
    (fun r => Tracked r.server.engine.scheduler r.now) r reach
    (fun r reached => reachable_server_tracked torch app maxBatch maxWaiting r reached)
  · rintro r ⟨unused, now, rfl⟩
    constructor
    · intro crashed
      cases crashed
    · intro drained
      cases drained
  · rintro r ⟨time, action⟩ r' tracked wedged ⟨later, rfl⟩
    have move := act_move torch app time r.server action
    have engine := move_engine torch app time r.server _ action move
    refine ⟨engine_move_busy torch app r.now time r.server action later tracked.queues wedged.busy _ engine, fun drained => ?_⟩
    dsimp only at drained ⊢
    by_cases before : r.server.drained = true
    · obtain ⟨closed, empty⟩ := wedged.drained before
      exact ⟨closing_stays torch app r _ (time, action) closed ⟨later, rfl⟩,
        engine_move_empty torch app r.now time r.server action later tracked.queues closed empty _ engine⟩
    · generalize r.server.act torch app time action = s' at move drained ⊢
      cases move with
      | drained closed idle => exact ⟨closed, (has_work_order _).mp idle⟩
      | still | arrived | iterated | woken | gatherCancelled | threadCancelled | jobChanged | shutdown =>
          exact absurd drained before

end Wedged

section Stopped

-- What becomes of a future that nobody settles any more.
def Forsaken (before after : Option Future) : Prop := after = before ∨ before = some .pending ∧ after = some .cancelled

theorem forsaken_trans (before between after : Option Future) (first : Forsaken before between)
    (second : Forsaken between after) : Forsaken before after := by
  rcases first with rfl | ⟨pending, cancelled⟩
  · exact second
  · rcases second with rfl | ⟨still, _⟩
    · exact Or.inr ⟨pending, cancelled⟩
    · cases cancelled.symm.trans still

theorem forsaken_result (before : Option Future) (value : Option GenerationOutput)
    (moved : Forsaken before (some (.result value))) : before = some (.result value) := by
  rcases moved with same | ⟨_, cancelled⟩
  · exact same.symm
  · cases cancelled

structure Stopped (e e' : Engine) : Prop where
  loop : e'.loop = .crashed
  grows : e.scheduler.fresh ≤ e'.scheduler.fresh
  active : e'.scheduler.active = e.scheduler.active
  pending : e'.scheduler.pending =
    e.scheduler.pending ++ List.range' e.scheduler.fresh (e'.scheduler.fresh - e.scheduler.fresh)
  old : ∀ ref < e.scheduler.fresh, Forsaken (e.scheduler.objects ref).future (e'.scheduler.objects ref).future
  new : ∀ ref, e.scheduler.fresh ≤ ref → ref < e'.scheduler.fresh → Forsaken (some .pending) (e'.scheduler.objects ref).future

theorem stopped_refl (e : Engine) (crashed : e.loop = .crashed) : Stopped e e :=
  ⟨crashed, le_refl _, rfl, by simp, fun ref _ => Or.inl rfl, fun ref old new => absurd new (Nat.not_lt.mpr old)⟩

theorem stopped_trans (e e' e'' : Engine) (first : Stopped e e') (second : Stopped e' e'') : Stopped e e'' := by
  refine ⟨second.loop, first.grows.trans second.grows, second.active.trans first.active, ?_, ?_, ?_⟩
  · have split : e''.scheduler.fresh - e.scheduler.fresh =
        (e'.scheduler.fresh - e.scheduler.fresh) + (e''.scheduler.fresh - e'.scheduler.fresh) := by
      have grows := first.grows
      have grows' := second.grows
      omega
    rw [second.pending, first.pending, split, ← List.range'_append_1, Nat.add_sub_cancel' first.grows, List.append_assoc]
  · intro ref alive
    exact forsaken_trans _ _ _ (first.old ref alive) (second.old ref (Nat.lt_of_lt_of_le alive first.grows))
  · intro ref late inside
    by_cases early : ref < e'.scheduler.fresh
    · exact forsaken_trans _ _ _ (first.new ref late early) (second.old ref early)
    · exact second.new ref (Nat.not_lt.mp early) inside

variable {V : Type} (torch : Torch V) (app : App V)

theorem cancel_forsakes (s : Scheduler) (ref other : Nat) :
    Forsaken (s.objects other).future ((s.cancel ref).objects other).future := by
  rw [cancel_objects]
  dsimp only
  split
  · rw [resolved_future]
    split
    · rename_i awaited
      exact Or.inr ⟨(awaited_pending _).mp awaited, rfl⟩
    · exact Or.inl rfl
  · exact Or.inl rfl

theorem stopped_step (time : ℚ) (s : Server) (action : ServerAction V) (crashed : s.engine.loop = .crashed) (after : Engine)
    (move : EngineMove torch app time s action after) : Stopped s.engine after := by
  cases move with
  | same => exact stopped_refl s.engine crashed
  | iterated fails draw round =>
      rw [iterate_crashed torch app.loaded s.engine time fails draw crashed]
      exact stopped_refl s.engine crashed
  | shutdown =>
      have same := stopped_refl s.engine crashed
      exact ⟨crashed, same.grows, rfl, same.pending, same.old, same.new⟩
  | cancelled ref =>
      have same := cancel_queues s.engine.scheduler ref
      refine ⟨crashed, same.fresh.ge, same.active, ?_, fun other _ => cancel_forsakes s.engine.scheduler ref other, ?_⟩
      · dsimp only
        rw [same.pending, same.fresh]
        simp
      · intro other late inside
        exact absurd (same.fresh ▸ inside) (Nat.not_lt.mpr late)
  | admitted full rendered params state served prepares room =>
      refine ⟨crashed, Nat.le_succ _, rfl, ?_, ?_, ?_⟩
      · simp [enqueued]
      · intro ref alive
        dsimp only
        rw [enqueued_old _ _ _ _ _ ref (Nat.ne_of_lt alive)]
        exact Or.inl rfl
      · intro ref late inside
        obtain rfl : ref = s.engine.scheduler.fresh := Nat.le_antisymm (Nat.le_of_lt_succ inside) late
        dsimp only
        rw [enqueued_new]
        exact Or.inl rfl

theorem stopped_run (r after : ServerRun) (crashed : r.server.engine.loop = .crashed)
    (trace : List (ServerRun × (ℚ × ServerAction V))) (run : Transition.Run (ServerStep torch app) r trace after) :
    Stopped r.server.engine after.server.engine := by
  induction run with
  | nil => exact stopped_refl _ crashed
  | snoc trace s t a earlier last ih =>
      obtain ⟨later, rfl⟩ := last
      have move := move_engine torch app a.1 s.server _ a.2 (act_move torch app a.1 s.server a.2)
      exact stopped_trans _ _ _ ih (stopped_step torch app a.1 s.server a.2 ih.loop _ move)

end Stopped

section Earned

variable {V : Type} (torch : Torch V) (app : App V) (maxBatch maxWaiting : Nat) (now time : ℚ) (s : Server)
  (action : ServerAction V)

structure Handler.Earned (scheduler : Scheduler) (handler : Handler) : Prop where
  shared : ∀ call job, handler.awaits ≠ some (.toThread call job)
  settled : ∀ content, handler.ending = some (.response content) → ∃ ref output, handler.awaits = some (.gather ref) ∧
    (scheduler.objects ref).future = some (.result (some output)) ∧ content = handler.content output

theorem handler_move_earned (scheduler : Scheduler) (handler handler' : Handler) (h : Nat)
    (kept : ∀ ref value, handler.awaits = some (.gather ref) → (s.engine.scheduler.objects ref).future = some (.result value) →
      (scheduler.objects ref).future = some (.result value))
    (earned : handler.body.forceSingleBatch = false → handler.Earned s.engine.scheduler)
    (move : HandlerMove torch app s action h handler handler') :
    handler'.body.forceSingleBatch = false → handler'.Earned scheduler := by
  intro batched
  cases move with
  | same =>
      obtain ⟨shared, settled⟩ := earned batched
      refine ⟨shared, fun content ended => ?_⟩
      obtain ⟨ref, output, awaits, future, shape⟩ := settled content ended
      exact ⟨ref, output, awaits, kept ref _ awaits future, shape⟩
  | cancelled unfinished =>
      refine ⟨(earned batched).shared, fun content ended => ?_⟩
      cases unfinished.symm.trans ended
  | jobChanged call job change acts awaits => exact absurd awaits ((earned batched).shared call job)
  | woken booked wakes unfinished resumption =>
      obtain ⟨body, reqId⟩ := resumption_body _ _ handler booked resumption
      obtain ⟨awaits, _, _⟩ := resumption_keeps handler _ _ booked resumption
      rw [body] at batched
      have shared := (earned batched).shared
      refine ⟨fun call job => awaits ▸ shared call job, fun content ended => ?_⟩
      rcases resumption_response _ _ handler booked resumption content ended with
        ⟨ref, output, waits, future, shape⟩ | ⟨call, output, waits, _⟩
      · exact ⟨ref, output, awaits.trans waits, kept ref _ waits future,
          shape.trans (same_body_content handler output booked.2 body reqId).symm⟩
      · exact absurd waits (shared call _)

theorem arrival_earned (scheduler : Scheduler) (reqId : String) (body : ChatCompletionRequest) (drawn : Int) (engine : Engine)
    (booked : Metrics × Handler) (arrival : Arrival app time s reqId body drawn full engine booked)
    (batched : booked.2.body.forceSingleBatch = false) : booked.2.Earned scheduler := by
  have silent (handler : Handler) (noAwait : handler.awaits = none)
      (ending : ∀ content, handler.ending ≠ some (.response content)) : handler.Earned scheduler :=
    ⟨by simp [noAwait], fun content ended => absurd ended (ending content)⟩
  cases arrival with
  | shuttingDown | notFound | template => exact silent _ rfl (by simp [Handler.ends])
  | refused served hosted rendered renders plain error refuses =>
      apply silent _ (engine_error_keeps _ _ error).1
      intro content ended
      rw [Handler.engineError] at ended
      split at ended <;> cases ended
  | admitted served hosted rendered renders plain state prepares room =>
      refine ⟨by simp, fun content ended => ?_⟩
      cases ended
  | single served hosted rendered renders alone =>
      rcases start_single_cases app rendered (body.samplingParams drawn)
        (recordRequestAdmitted s.metrics { reqId := reqId, body := body }).2 with ⟨error, made, _⟩ | ⟨_, call, made⟩
      all_goals
        rw [made] at batched
        cases batched.symm.trans alone

def AllEarned (s : Server) : Prop :=
  ∀ handler ∈ s.handlers, handler.body.forceSingleBatch = false → handler.Earned s.engine.scheduler

theorem reachable_earned (r : ServerRun)
    (reach : Transition.Reachable (InitialServer maxBatch maxWaiting) (ServerStep torch app) r) : AllEarned r.server := by
  apply Transition.reachable_invariant_under _ (fun r : ServerRun => AllEarned r.server)
    (fun r => Tracked r.server.engine.scheduler r.now ∧ ServerInvariant r.server) r reach
    (fun r reached => ⟨reachable_server_tracked torch app maxBatch maxWaiting r reached,
      reachable_server_invariant torch app maxBatch maxWaiting r reached⟩)
  · rintro r ⟨unused, now, rfl⟩
    exact fun handler member => absurd member List.not_mem_nil
  · rintro r ⟨time, action⟩ r' ⟨tracked, invariant⟩ earned ⟨later, rfl⟩ handler member
    have move := act_move torch app time r.server action
    obtain ⟨h, read⟩ := List.mem_iff_getElem?.mp member
    dsimp only at read ⊢
    generalize r.server.act torch app time action = s' at move read ⊢
    obtain ⟨_, futures, _⟩ := engine_move_futures torch app r.now time r.server action later tracked.queues _
      (move_engine torch app time r.server s' action move)
    rcases move_member torch app time r.server s' action move h handler read with
      ⟨old, found, step⟩ | ⟨_, reqId, body, drawn, full, engine, booked, _, _, rfl, arrival, rfl⟩
    · apply handler_move_earned torch app r.server action s'.engine.scheduler old handler h _
        (earned old (List.mem_of_getElem? found)) step
      intro ref value awaits future
      have moved := futures ref (invariant.gathers old (List.mem_of_getElem? found) ref awaits)
      rw [future] at moved
      exact future_move_done _ _ _ moved rfl
    · exact arrival_earned app time r.server engine.scheduler reqId body drawn engine booked arrival

end Earned

-- A crash of the loop is an outage that nothing ends. The request whose output raised stays
-- active for good, batched requests are taken in until the queue is full and never heard of
-- again, whoever gets a response had its result before the crash, and no drain returns.
theorem crash_outage {V : Type} (torch : Torch V) (app : App V) (maxBatch maxWaiting : Nat) (r after : ServerRun)
    (reach : Transition.Reachable (InitialServer maxBatch maxWaiting) (ServerStep torch app) r)
    (crashed : r.server.engine.loop = .crashed) (trace : List (ServerRun × (ℚ × ServerAction V)))
    (run : Transition.Run (ServerStep torch app) r trace after) :
    after.server.engine.loop = .crashed ∧ after.server.drained = false ∧
      after.server.engine.scheduler.active = r.server.engine.scheduler.active ∧
      r.server.engine.scheduler.active ≠ [] ∧
      (∃ taken, after.server.engine.scheduler.fresh = r.server.engine.scheduler.fresh + taken ∧
        r.server.engine.scheduler.pending.length + taken ≤ maxWaiting ∧
        after.server.engine.scheduler.pending =
          r.server.engine.scheduler.pending ++ List.range' r.server.engine.scheduler.fresh taken) ∧
      (∀ ref < after.server.engine.scheduler.fresh,
        (ref < r.server.engine.scheduler.fresh → r.server.engine.scheduler.awaited ref = true) →
        after.server.engine.scheduler.awaited ref = true ∨
          (after.server.engine.scheduler.objects ref).future = some .cancelled) ∧
      (∀ handler ∈ after.server.handlers, handler.body.forceSingleBatch = false → ∀ content,
        handler.ending = some (.response content) → ∃ ref output, handler.awaits = some (.gather ref) ∧
          ref < r.server.engine.scheduler.fresh ∧ content = handler.content output ∧
          (r.server.engine.scheduler.objects ref).future = some (.result (some output))) ∧
      ∀ (h : Nat) (handler : Handler) (ref : Nat), after.server.handlers[h]? = some handler → handler.awaits = some (.gather ref) →
        after.server.engine.scheduler.awaited ref = true → after.server.wake h = after.server := by
  have reached := Transition.reachable_run _ r after trace reach run
  have stopped := stopped_run torch app r after crashed trace run
  have active := (reachable_wedged torch app maxBatch maxWaiting r reach).busy crashed
  have wedged := reachable_wedged torch app maxBatch maxWaiting after reached
  have tracked := reachable_server_tracked torch app maxBatch maxWaiting after reached
  have invariant := reachable_server_invariant torch app maxBatch maxWaiting after reached
  refine ⟨stopped.loop, ?_, stopped.active, active, ⟨_, (Nat.add_sub_cancel' stopped.grows).symm, ?_, stopped.pending⟩, ?_, ?_, ?_⟩
  · by_contra returned
    obtain ⟨_, empty⟩ := wedged.drained (by simpa using returned)
    exact active (stopped.active.symm.trans (List.append_eq_nil_iff.mp empty).1)
  · have bound := tracked.queues.pendingBound
    rw [stopped.pending, (reachable_limits torch app maxBatch maxWaiting after reached).2] at bound
    simpa using bound
  · intro ref inside open_before
    rw [awaited_eq, awaited_pending]
    by_cases early : ref < r.server.engine.scheduler.fresh
    · have pending := (awaited_pending _).mp (awaited_eq r.server.engine.scheduler ref ▸ open_before early)
      rcases stopped.old ref early with same | ⟨_, cancelled⟩
      · exact Or.inl (same.trans pending)
      · exact Or.inr cancelled
    · rcases stopped.new ref (Nat.not_lt.mp early) inside with same | ⟨_, cancelled⟩
      · exact Or.inl same
      · exact Or.inr cancelled
  · intro handler member batched content ended
    obtain ⟨ref, output, awaits, future, shape⟩ :=
      (reachable_earned torch app maxBatch maxWaiting after reached handler member batched).settled content ended
    have inside := invariant.gathers handler member ref awaits
    have early : ref < r.server.engine.scheduler.fresh := by
      by_contra late
      have moved := stopped.new ref (Nat.not_lt.mp late) inside
      rw [future] at moved
      cases forsaken_result _ _ moved
    have moved := stopped.old ref early
    rw [future] at moved
    exact ⟨ref, output, awaits, early, shape, forsaken_result _ _ moved⟩
  · intro h handler ref read awaits awaited
    exact open_waits _ (reachable_open torch app maxBatch maxWaiting after reached) h ref handler read
      ((gathers_iff handler ref).mpr awaits) awaited

def fussyApp : App Written := { writtenApp with loaded := fussyLoaded }

def crashedServer : ServerRun :=
  servesFrom writtenTorch fussyApp (idleServer 2 2) [.request "a" (tokenBody false) 0 .ample, .iterate false lowDraw]

-- Of three more requests two are taken in, and a shutdown does not end the wait.
def outageActions : List (ServerAction Written) :=
  [.request "b" (tokenBody false) 0 .ample, .request "c" (tokenBody false) 0 .ample, .request "d" (tokenBody false) 0 .ample,
    .iterate false lowDraw, .wake 1, .shutdown, .iterate false lowDraw, .drain]

theorem crash_outage_two_taken :
    (servesFrom writtenTorch fussyApp crashedServer outageActions).server.drained = false ∧
      (servesFrom writtenTorch fussyApp crashedServer outageActions).server.engine.scheduler.pending = [1, 2] ∧
      (servesFrom writtenTorch fussyApp crashedServer outageActions).server.wake 2 =
        (servesFrom writtenTorch fussyApp crashedServer outageActions).server := by
  have taken : (servesFrom writtenTorch fussyApp crashedServer outageActions).server.engine.scheduler.fresh = 3 := by
    decide +kernel
  have before : crashedServer.server.engine.scheduler.fresh = 1 := by decide +kernel
  have empty : crashedServer.server.engine.scheduler.pending = [] := by decide +kernel
  obtain ⟨_, drained, _, _, ⟨more, fresh, _, pending⟩, _, _, waits⟩ := crash_outage writtenTorch fussyApp 2 2 crashedServer _
    (serves_reachable writtenTorch fussyApp 2 2 _) (by decide +kernel) _
    (serves_from_run writtenTorch fussyApp crashedServer outageActions)
  obtain rfl : more = 2 := by omega
  refine ⟨drained, ?_, ?_⟩
  · rw [pending, empty, before]
    rfl
  · exact waits 2 { reqId := "c", body := tokenBody false, awaits := some (.gather 2), admitted := 1 } 2 (by decide +kernel) rfl
      (by decide +kernel)

end Dlmserve
