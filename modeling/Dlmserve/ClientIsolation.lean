import Dlmserve.Isolation
import Dlmserve.ServerDevice
import Dlmserve.ServerInvariant

set_option autoImplicit false

namespace Dlmserve

def Server.Awaits (s : Server) (h ref : Nat) : Prop :=
  ∃ handler, s.handlers[h]? = some handler ∧ handler.awaits = some (.gather ref)

def OwnRefs (s : Server) : Prop := ∀ h h' ref, s.Awaits h ref → s.Awaits h' ref → h = h'

section Owners

variable {V : Type} (torch : Torch V) (app : App V) (maxBatch maxWaiting : Nat)

-- Who awaits a request after a step awaited it before, or has just been admitted with it.
theorem move_awaits (time : ℚ) (s s' : Server) (action : ServerAction V) (move : ServerMove torch app time s action s')
    (h ref : Nat) (awaits : s'.Awaits h ref) :
    s.Awaits h ref ∨ (h = s.handlers.length ∧ ref = s.engine.scheduler.fresh) := by
  obtain ⟨handler, read, gathers⟩ := awaits
  rcases move_member torch app time s s' action move h handler read with
    ⟨old, found, step⟩ | ⟨outside, reqId, body, drawn, full, engine, booked, _, _, rfl, arrival, rfl⟩
  · exact Or.inl ⟨old, found, (handler_move_gather torch app s action h old handler step ref).mp gathers⟩
  · have inside : h < s.handlers.length + 1 := by
      have bound := (List.getElem?_eq_some_iff.mp read).1
      simpa [Server.opened] using bound
    refine Or.inr ⟨by omega, ?_⟩
    rcases arrival_admits app time s reqId body drawn full engine booked arrival with
      ⟨_, absent⟩ | ⟨rendered, state, served, prepares, room, rfl, admitted⟩
    · exact absurd gathers (absent ref)
    · simpa [admitted] using gathers.symm

theorem awaits_fresh (s : Server) (invariant : ServerInvariant s) (h ref : Nat) (awaits : s.Awaits h ref) :
    ref < s.engine.scheduler.fresh := by
  obtain ⟨handler, read, gathers⟩ := awaits
  exact invariant.gathers handler (List.mem_of_getElem? read) ref gathers

theorem reachable_own_refs (r : ServerRun)
    (reach : Transition.Reachable (InitialServer maxBatch maxWaiting) (ServerStep torch app) r) : OwnRefs r.server := by
  apply Transition.reachable_invariant_under _ (fun r : ServerRun => OwnRefs r.server)
    (fun r => ServerInvariant r.server) r reach (fun r reached => reachable_server_invariant torch app maxBatch maxWaiting r reached)
  · rintro r ⟨unused, now, rfl⟩
    rintro h h' ref ⟨handler, read, _⟩
    cases read
  · rintro r a r' invariant own ⟨later, rfl⟩
    have move := act_move torch app a.1 r.server a.2
    intro h h' ref awaits awaits'
    rcases move_awaits torch app a.1 r.server _ a.2 move h ref awaits with before | ⟨here, new⟩ <;>
      rcases move_awaits torch app a.1 r.server _ a.2 move h' ref awaits' with before' | ⟨here', new'⟩
    · exact own h h' ref before before'
    · have old := awaits_fresh r.server invariant h ref before
      omega
    · have old := awaits_fresh r.server invariant h' ref before'
      omega
    · exact here.trans here'.symm

end Owners

section Alike

variable (hidden : Nat → Prop)

def Hides (s : Server) (ref : Nat) : Prop := ∃ h, hidden h ∧ s.Awaits h ref

-- Servers that nobody behind a handler that is not hidden can tell apart.
structure AlikeServer (s s' : Server) : Prop where
  engine : AlikeEngine (Hides hidden s) s.engine s'.engine
  shuttingDown : s'.shuttingDown = s.shuttingDown
  drained : s'.drained = s.drained
  handlers : s'.handlers.length = s.handlers.length
  seen : ∀ h, ¬ hidden h → s'.handlers[h]? = s.handlers[h]?
  awaits : ∀ h ref, s'.Awaits h ref ↔ s.Awaits h ref

theorem alike_scheduler_mono (loose loose' : Nat → Prop) (grows : ∀ ref, loose ref → loose' ref) (s s' : Scheduler)
    (alike : AlikeScheduler loose s s') : AlikeScheduler loose' s s' :=
  ⟨alike.maxBatch, alike.maxWaiting, alike.pending, alike.active, alike.nextId, alike.fresh, fun ref =>
    ⟨(alike.objects ref).reqId, (alike.objects ref).admittedMs, (alike.objects ref).result, (alike.objects ref).state,
      fun tied => (alike.objects ref).future fun free => tied (grows ref free)⟩⟩

theorem alike_hides (s s' : Server) (alike : AlikeServer hidden s s') (ref : Nat) :
    Hides hidden s' ref ↔ Hides hidden s ref :=
  exists_congr fun h => and_congr_right fun _ => alike.awaits h ref

theorem alike_server_symm (s s' : Server) (alike : AlikeServer hidden s s') : AlikeServer hidden s' s := by
  have schedulers := alike.engine.scheduler
  refine ⟨⟨⟨schedulers.maxBatch.symm, schedulers.maxWaiting.symm, schedulers.pending.symm, schedulers.active.symm,
      schedulers.nextId.symm, schedulers.fresh.symm, ?_⟩, alike.engine.shutdown.symm, alike.engine.loop.symm⟩,
    alike.shuttingDown.symm, alike.drained.symm, alike.handlers.symm, fun h plain => (alike.seen h plain).symm,
    fun h ref => (alike.awaits h ref).symm⟩
  intro ref
  have requests := schedulers.objects ref
  exact ⟨requests.reqId.symm, requests.admittedMs.symm, requests.result.symm, requests.state.symm,
    fun tied => (requests.future fun free => tied ((alike_hides hidden s s' alike ref).mpr free)).symm⟩

theorem set_handler_awaits (s : Server) (h : Nat) (old new : Handler) (read : s.handlers[h]? = some old)
    (same : ∀ ref, new.awaits = some (.gather ref) ↔ old.awaits = some (.gather ref)) (k ref : Nat) :
    (s.setHandler h new).Awaits k ref ↔ s.Awaits k ref := by
  have inside := (List.getElem?_eq_some_iff.mp read).1
  rw [Server.Awaits, Server.Awaits, Server.setHandler]
  dsimp only
  by_cases here : h = k
  · subst here
    rw [List.getElem?_set_self inside, read]
    simp [same ref]
  · rw [List.getElem?_set_ne here]

theorem set_handler_hides (s : Server) (h : Nat) (old new : Handler) (read : s.handlers[h]? = some old)
    (same : ∀ ref, new.awaits = some (.gather ref) ↔ old.awaits = some (.gather ref)) (ref : Nat) :
    Hides hidden (s.setHandler h new) ref ↔ Hides hidden s ref :=
  exists_congr fun k => and_congr_right fun _ => set_handler_awaits s h old new read same k ref

theorem alike_loose (s t : Server) (e e' : Engine) (same : ∀ ref, Hides hidden t ref ↔ Hides hidden s ref)
    (alike : AlikeEngine (Hides hidden s) e e') : AlikeEngine (Hides hidden t) e e' :=
  ⟨alike_scheduler_mono _ _ (fun ref => (same ref).mpr) _ _ alike.scheduler, alike.shutdown, alike.loop⟩

theorem alike_set_left (s s' : Server) (alike : AlikeServer hidden s s') (h : Nat) (secret : hidden h) (old new : Handler)
    (read : s.handlers[h]? = some old) (metrics : Metrics)
    (same : ∀ ref, new.awaits = some (.gather ref) ↔ old.awaits = some (.gather ref)) :
    AlikeServer hidden ({ s with metrics := metrics }.setHandler h new) s' := by
  have awaits := set_handler_awaits { s with metrics := metrics } h old new read same
  have hides := set_handler_hides hidden { s with metrics := metrics } h old new read same
  refine ⟨alike_loose hidden s _ _ _ hides alike.engine, alike.shuttingDown, alike.drained, ?_, ?_, ?_⟩
  · rw [Server.setHandler, List.length_set]
    exact alike.handlers
  · intro k plain
    have other : h ≠ k := fun here => plain (here ▸ secret)
    rw [Server.setHandler, List.getElem?_set_ne other]
    exact alike.seen k plain
  · exact fun k ref => (alike.awaits k ref).trans (awaits k ref).symm

theorem alike_set_both (s s' : Server) (alike : AlikeServer hidden s s') (h : Nat) (old new : Handler)
    (read : s.handlers[h]? = some old) (read' : s'.handlers[h]? = some old) (metrics metrics' : Metrics)
    (same : ∀ ref, new.awaits = some (.gather ref) ↔ old.awaits = some (.gather ref)) :
    AlikeServer hidden ({ s with metrics := metrics }.setHandler h new) ({ s' with metrics := metrics' }.setHandler h new) := by
  have awaits := set_handler_awaits { s with metrics := metrics } h old new read same
  have awaits' := set_handler_awaits { s' with metrics := metrics' } h old new read' same
  have hides := set_handler_hides hidden { s with metrics := metrics } h old new read same
  refine ⟨alike_loose hidden s _ _ _ hides alike.engine, alike.shuttingDown, alike.drained, ?_, ?_, ?_⟩
  · rw [Server.setHandler, Server.setHandler, List.length_set, List.length_set]
    exact alike.handlers
  · intro k plain
    rw [Server.setHandler, Server.setHandler, List.getElem?_set, List.getElem?_set]
    dsimp only
    rw [alike.handlers, alike.seen k plain]
  · exact fun k ref => (awaits' k ref).trans ((alike.awaits k ref).trans (awaits k ref).symm)

end Alike

section Quiet

variable {V : Type} (torch : Torch V) (app : App V) (hidden : Nat → Prop)

-- The handler that an action of its task, its client or its worker concerns.
def ServerAction.concerns : ServerAction V → Option Nat
  | .wake h => some h
  | .cancel h => some h
  | .start h => some h
  | .drop h => some h
  | .work h _ _ _ => some h
  | _ => none

theorem job_concerns (action : ServerAction V) (h : Nat) (change : Handler → SingleCall → Job → Job)
    (acts : JobAction torch app action h change) : action.concerns = some h := by
  cases acts <;> rfl

theorem alike_alone (s s' : Server) (alike : AlikeServer hidden s s') (time : ℚ) (action : ServerAction V) (h : Nat)
    (mine : action.concerns = some h) (secret : hidden h) : AlikeServer hidden (s.act torch app time action) s' := by
  have move := act_move torch app time s action
  generalize s.act torch app time action = t at move ⊢
  cases move with
  | still => exact alike
  | arrived | iterated | shutdown | drained => cases mine
  | woken h' handler booked read resumes =>
      obtain rfl := Option.some.inj mine
      have kept := (resumption_keeps handler _ _ booked (resume_cases handler _ _ booked resumes).2).1
      exact alike_set_left hidden s s' alike h' secret handler booked.2 read booked.1 fun ref => by rw [kept]
  | gatherCancelled h' handler ref read unfinished awaits =>
      obtain rfl := Option.some.inj mine
      have cancelled := (alike_cancel _ _ _ alike.engine.scheduler ref ⟨h', secret, handler, read, awaits⟩).1
      have after : AlikeServer hidden { s with engine := { s.engine with scheduler := s.engine.scheduler.cancel ref } } s' :=
        ⟨⟨cancelled, alike.engine.shutdown, alike.engine.loop⟩, alike.shuttingDown, alike.drained, alike.handlers,
          alike.seen, alike.awaits⟩
      exact alike_set_left hidden _ s' after h' secret handler { handler with cancelled := true } read s.metrics
        fun ref => Iff.rfl
  | threadCancelled h' handler call job read unfinished awaits =>
      obtain rfl := Option.some.inj mine
      exact alike_set_left hidden s s' alike h' secret handler { handler with cancelled := true } read s.metrics
        fun ref => Iff.rfl
  | jobChanged _ h' handler call job change acts read awaits =>
      obtain rfl := Option.some.inj ((job_concerns torch app action h' change acts).symm.trans mine)
      exact alike_set_left hidden s s' alike h' secret handler _ read s.metrics fun ref => by simp [awaits]

theorem alike_alone_right (s s' : Server) (alike : AlikeServer hidden s s') (time : ℚ) (action : ServerAction V) (h : Nat)
    (mine : action.concerns = some h) (secret : hidden h) : AlikeServer hidden s (s'.act torch app time action) :=
  alike_server_symm hidden _ s
    (alike_alone torch app hidden s' s (alike_server_symm hidden s s' alike) time action h mine secret)

end Quiet

section Together

variable {V : Type} (torch : Torch V) (app : App V) (hidden : Nat → Prop)

theorem alike_generate (loose : Nat → Prop) (e e' : Engine) (alike : AlikeEngine loose e e') (time : ℚ) (full : Full)
    (rendered : String) (params : SamplingParams) :
    AlikeEngine loose (e.generateAsync app time full rendered params).1 (e'.generateAsync app time full rendered params).1 ∧
      (e'.generateAsync app time full rendered params).2 = (e.generateAsync app time full rendered params).2 := by
  have schedulers := alike.scheduler
  rw [Engine.generateAsync, Engine.generateAsync, Engine.admitPrompt, Engine.admitPrompt]
  cases app.toFrontend.prepare full app.loaded.maskId params true rendered with
  | error error => exact ⟨alike, rfl⟩
  | ok state =>
      have admitted := alike_admitted loose e e' alike time state state rfl params params (some .pending)
      dsimp only
      by_cases room : e.scheduler.pending.length < e.scheduler.maxWaiting
      · have room' : e'.scheduler.pending.length < e'.scheduler.maxWaiting := by
          rw [schedulers.pending, schedulers.maxWaiting]
          exact room
        rw [admit_room _ _ _ _ _ room, admit_room _ _ _ _ _ room'] at admitted ⊢
        exact ⟨⟨admitted, alike.shutdown, alike.loop⟩, by rw [schedulers.fresh]⟩
      · have filled' : ¬ e'.scheduler.pending.length < e'.scheduler.maxWaiting := by
          rw [schedulers.pending, schedulers.maxWaiting]
          exact room
        rw [admit_full _ _ _ _ _ (Nat.not_lt.mp room), admit_full _ _ _ _ _ (Nat.not_lt.mp filled')]
        exact ⟨alike, rfl⟩

theorem opened_awaits (s : Server) (booked : Metrics × Handler) (h ref : Nat) :
    (s.opened booked).Awaits h ref ↔
      s.Awaits h ref ∨ (h = s.handlers.length ∧ booked.2.awaits = some (.gather ref)) := by
  rw [Server.Awaits, Server.Awaits, Server.opened]
  dsimp only
  rw [List.getElem?_append]
  split
  · rename_i inside
    exact ⟨Or.inl, fun either => either.resolve_right fun new => Nat.ne_of_lt inside new.1⟩
  · rename_i outside
    have absent : s.handlers[h]? = none := List.getElem?_eq_none (Nat.not_lt.mp outside)
    rw [absent]
    by_cases here : h = s.handlers.length
    · subst here
      simp
    · have beyond : [booked.2][h - s.handlers.length]? = none := List.getElem?_eq_none (by simp; omega)
      rw [beyond]
      simp [here]

theorem alike_opened (s s' : Server) (alike : AlikeServer hidden s s') (e e' : Engine)
    (engines : AlikeEngine (Hides hidden s) e e') (metrics metrics' : Metrics) (handler : Handler) :
    AlikeServer hidden ({ s with engine := e }.opened (metrics, handler))
      ({ s' with engine := e' }.opened (metrics', handler)) := by
  have awaits := opened_awaits { s with engine := e } (metrics, handler)
  have awaits' := opened_awaits { s' with engine := e' } (metrics', handler)
  refine ⟨⟨alike_scheduler_mono _ _ ?_ _ _ engines.scheduler, engines.shutdown, engines.loop⟩, alike.shuttingDown,
    alike.drained, ?_, ?_, ?_⟩
  · rintro ref ⟨h, secret, before⟩
    exact ⟨h, secret, (awaits h ref).mpr (Or.inl before)⟩
  · rw [Server.opened, Server.opened, List.length_append, List.length_append]
    exact congrArg (· + 1) alike.handlers
  · intro h plain
    rw [Server.opened, Server.opened]
    dsimp only
    rw [List.getElem?_append, List.getElem?_append, alike.handlers, alike.seen h plain]
  · intro h ref
    rw [awaits, awaits']
    exact or_congr (alike.awaits h ref) (and_congr_left fun _ => by rw [show s'.handlers.length = _ from alike.handlers])

theorem alike_request (s s' : Server) (alike : AlikeServer hidden s s') (time : ℚ) (reqId : String)
    (body : ChatCompletionRequest) (drawn : Int) (full : Full) :
    AlikeServer hidden (s.chatCompletions app time reqId body drawn full)
      (s'.chatCompletions app time reqId body drawn full) := by
  have opens := alike_opened hidden s s' alike s.engine s'.engine alike.engine
  rw [Server.chatCompletions, Server.chatCompletions]
  dsimp only
  by_cases closed : s.shuttingDown = true
  · rw [if_pos closed, if_pos (alike.shuttingDown.trans closed)]
    exact opens _ _ _
  · have served : ¬ s'.shuttingDown = true := fun stopped => closed (alike.shuttingDown.symm.trans stopped)
    rw [if_neg closed, if_neg served]
    split
    · exact opens _ _ _
    · cases app.applyChatTemplate body.messages with
      | error error => exact opens _ _ _
      | ok rendered =>
          dsimp only
          split
          · exact opens _ _ _
          · obtain ⟨engines, same⟩ := alike_generate app _ _ _ alike.engine time full rendered (body.samplingParams drawn)
            rw [same]
            cases (s.engine.generateAsync app time full rendered (body.samplingParams drawn)).2 with
            | ok ref => exact alike_opened hidden s s' alike _ _ engines _ _ _
            | error error =>
                dsimp only
                rw [Handler.engineError, Handler.engineError]
                split <;> exact alike_opened hidden s s' alike _ _ engines _ _ _

-- How a handler goes on does not depend on the gauges, only on the future it gathers.
theorem resume_alike (handler : Handler) (metrics metrics' : Metrics) (scheduler scheduler' : Scheduler)
    (same : ∀ ref, handler.awaits = some (.gather ref) → (scheduler'.objects ref).future = (scheduler.objects ref).future) :
    (handler.resume metrics' scheduler').map Prod.snd = (handler.resume metrics scheduler).map Prod.snd := by
  have responds (value : Option GenerationOutput) :
      (handler.respond metrics' value).2 = (handler.respond metrics value).2 := by cases value <;> rfl
  have fails (error : PyError) : (handler.engineError metrics' error).2 = (handler.engineError metrics error).2 := by
    rw [Handler.engineError, Handler.engineError]
    split <;> rfl
  rw [Handler.resume, Handler.resume]
  cases handler.ending with
  | some ending => rfl
  | none =>
      cases awaits : handler.awaits with
      | none => rfl
      | some await =>
          cases await with
          | gather ref =>
              dsimp only
              rw [same ref awaits]
              cases handler.cancelled with
              | true => rfl
              | false =>
                  cases (scheduler.objects ref).future with
                  | none => rfl
                  | some future =>
                      cases future with
                      | pending => rfl
                      | result value => exact congrArg some (responds value)
                      | exception message => exact congrArg some (fails _)
                      | cancelled => rfl
          | toThread call job =>
              cases handler.cancelled with
              | true => rfl
              | false =>
                  cases job with
                  | queued | running | dropped => rfl
                  | finished result =>
                      cases result with
                      | ok output => exact congrArg some (responds (some output))
                      | error error => rfl

theorem seen_future (s s' : Server) (alike : AlikeServer hidden s s') (own : OwnRefs s) (h : Nat) (plain : ¬ hidden h)
    (handler : Handler) (read : s.handlers[h]? = some handler) (ref : Nat) (awaits : handler.awaits = some (.gather ref)) :
    (s'.engine.scheduler.objects ref).future = (s.engine.scheduler.objects ref).future := by
  apply (alike.engine.scheduler.objects ref).future
  rintro ⟨h', secret, others⟩
  exact plain (own h h' ref ⟨handler, read, awaits⟩ others ▸ secret)

theorem alike_wake (s s' : Server) (alike : AlikeServer hidden s s') (own : OwnRefs s) (h : Nat) (plain : ¬ hidden h) :
    AlikeServer hidden (s.wake h) (s'.wake h) := by
  rw [Server.wake, Server.wake, alike.seen h plain]
  cases read : s.handlers[h]? with
  | none => exact alike
  | some handler =>
      have read' := (alike.seen h plain).trans read
      have resumes := resume_alike handler s.metrics s'.metrics s.engine.scheduler s'.engine.scheduler
        (seen_future hidden s s' alike own h plain handler read)
      dsimp only
      cases resumed : handler.resume s.metrics s.engine.scheduler with
      | none =>
          rw [resumed] at resumes
          rw [Option.map_eq_none_iff.mp resumes]
          exact alike
      | some booked =>
          rw [resumed] at resumes
          obtain ⟨booked', resumed', same⟩ := Option.map_eq_some_iff.mp resumes
          rw [resumed']
          dsimp only
          rw [same]
          have kept := (resumption_keeps handler _ _ booked (resume_cases handler _ _ booked resumed).2).1
          exact alike_set_both hidden s s' alike h handler booked.2 read read' booked.1 booked'.1 fun ref => by rw [kept]

theorem alike_cancel_task (s s' : Server) (alike : AlikeServer hidden s s') (h : Nat) (plain : ¬ hidden h) :
    AlikeServer hidden (s.cancelTask h) (s'.cancelTask h) := by
  rw [Server.cancelTask, Server.cancelTask, alike.seen h plain]
  cases read : s.handlers[h]? with
  | none => exact alike
  | some handler =>
      have read' := (alike.seen h plain).trans read
      obtain ⟨reqId, body, awaits, cancelled, ending, admitted, released⟩ := handler
      cases ending with
      | some ending => exact alike
      | none =>
          cases awaits with
          | none => exact alike
          | some await =>
              cases await with
              | gather ref =>
                  have settled := alike_settled _ _ _ alike.engine.scheduler ref .cancelled .cancelled fun _ => rfl
                  have after : AlikeServer hidden
                      { s with engine := { s.engine with scheduler := s.engine.scheduler.cancel ref } }
                      { s' with engine := { s'.engine with scheduler := s'.engine.scheduler.cancel ref } } :=
                    ⟨⟨settled, alike.engine.shutdown, alike.engine.loop⟩, alike.shuttingDown, alike.drained, alike.handlers,
                      alike.seen, alike.awaits⟩
                  exact alike_set_both hidden _ _ after h _ _ read read' s.metrics s'.metrics fun ref => Iff.rfl
              | toThread call job =>
                  exact alike_set_both hidden s s' alike h _ _ read read' s.metrics s'.metrics fun ref => Iff.rfl

theorem alike_change_job (s s' : Server) (alike : AlikeServer hidden s s') (h : Nat) (plain : ¬ hidden h)
    (change : Handler → SingleCall → Job → Job) : AlikeServer hidden (s.changeJob h change) (s'.changeJob h change) := by
  rw [Server.changeJob, Server.changeJob, alike.seen h plain]
  cases read : s.handlers[h]? with
  | none => exact alike
  | some handler =>
      have read' := (alike.seen h plain).trans read
      dsimp only
      cases awaits : handler.awaits with
      | none => exact alike
      | some await =>
          cases await with
          | gather ref => exact alike
          | toThread call job =>
              exact alike_set_both hidden s s' alike h handler _ read read' s.metrics s'.metrics fun ref => by simp [awaits]

theorem alike_act (s s' : Server) (alike : AlikeServer hidden s s') (own : OwnRefs s) (time : ℚ) (action : ServerAction V) :
    AlikeServer hidden (s.act torch app time action) (s'.act torch app time action) := by
  have secretly (h : Nat) (mine : action.concerns = some h) (secret : hidden h) :
      AlikeServer hidden (s.act torch app time action) (s'.act torch app time action) :=
    alike_alone_right torch app hidden _ s' (alike_alone torch app hidden s s' alike time action h mine secret) time action h
      mine secret
  cases action with
  | request reqId body drawn full =>
      rw [Server.act, Server.act]
      cases body.validate with
      | error error => exact alike
      | ok _ => exact alike_request app hidden s s' alike time reqId body drawn full
  | iterate fails draw =>
      exact ⟨alike_iterate torch app.loaded _ _ _ alike.engine time fails draw, alike.shuttingDown, alike.drained,
        alike.handlers, alike.seen, alike.awaits⟩
  | wake h =>
      by_cases secret : hidden h
      · exact secretly h rfl secret
      · exact alike_wake hidden s s' alike own h secret
  | cancel h =>
      by_cases secret : hidden h
      · exact secretly h rfl secret
      · exact alike_cancel_task hidden s s' alike h secret
  | start h =>
      by_cases secret : hidden h
      · exact secretly h rfl secret
      · exact alike_change_job hidden s s' alike h secret _
  | drop h =>
      by_cases secret : hidden h
      · exact secretly h rfl secret
      · exact alike_change_job hidden s s' alike h secret _
  | work h failure draws full =>
      by_cases secret : hidden h
      · exact secretly h rfl secret
      · exact alike_change_job hidden s s' alike h secret _
  | shutdown =>
      exact ⟨⟨alike.engine.scheduler, rfl, alike.engine.loop⟩, rfl, alike.drained, alike.handlers, alike.seen, alike.awaits⟩
  | drain =>
      rw [Server.act, Server.act, Server.drainActive, Server.drainActive]
      have idle := alike_work _ _ _ alike.engine.scheduler
      by_cases finished : s.shuttingDown = true ∧ s.engine.scheduler.hasWork = false
      · have finished' : s'.shuttingDown = true ∧ s'.engine.scheduler.hasWork = false :=
          ⟨alike.shuttingDown.trans finished.1, idle.trans finished.2⟩
        rw [if_pos finished, if_pos finished']
        exact ⟨alike.engine, alike.shuttingDown, rfl, alike.handlers, alike.seen, alike.awaits⟩
      · have unfinished : ¬ (s'.shuttingDown = true ∧ s'.engine.scheduler.hasWork = false) := fun finished' =>
          finished ⟨alike.shuttingDown.symm.trans finished'.1, idle.symm.trans finished'.2⟩
        rw [if_neg finished, if_neg unfinished]
        exact alike

end Together

def Secret {V : Type} (hidden : Nat → Prop) (a : ℚ × ServerAction V) : Prop := ∃ h, a.2.concerns = some h ∧ hidden h

-- Two runs of one server that differ only in what hidden handlers, their clients and
-- their workers do, and when, are the same run to everybody else: the same answers at the
-- same steps, the same queues and the same drain.
theorem clients_isolated {V : Type} (torch : Torch V) (app : App V) (maxBatch maxWaiting : Nat) (hidden : Nat → Prop)
    (start r r' : ServerRun) (trace trace' : List (ServerRun × (ℚ × ServerAction V)))
    (reach : Transition.Reachable (InitialServer maxBatch maxWaiting) (ServerStep torch app) start)
    (run : Transition.Run (ServerStep torch app) start trace r) (run' : Transition.Run (ServerStep torch app) start trace' r')
    (aligned : Transition.Aligned Eq (Secret hidden) (trace.map Prod.snd) (trace'.map Prod.snd)) :
    AlikeServer hidden r.server r'.server := by
  have known (trace : List (ServerRun × (ℚ × ServerAction V))) (r : ServerRun)
      (run : Transition.Run (ServerStep torch app) start trace r) : OwnRefs r.server :=
    reachable_own_refs torch app maxBatch maxWaiting r (Transition.reachable_run _ start r trace reach run)
  apply Transition.run_aligned (fun r : ServerRun => OwnRefs r.server) (fun r r' : ServerRun => AlikeServer hidden r.server r'.server)
    Eq (Secret hidden) start start _ _ _ aligned _ _ _ known known trace trace' r r' run run' rfl rfl
  · exact ⟨⟨alike_refl _ _, rfl, rfl⟩, rfl, rfl, rfl, fun _ _ => rfl, fun _ _ => Iff.rfl⟩
  · rintro s s' a b t t' own _ alike rfl ⟨_, rfl⟩ ⟨_, rfl⟩
    exact alike_act torch app hidden s.server s'.server alike own a.1 a.2
  · rintro s s' a t _ _ alike ⟨h, mine, secret⟩ ⟨_, rfl⟩
    exact alike_alone torch app hidden s.server s'.server alike a.1 a.2 h mine secret
  · rintro s s' b t' _ _ alike ⟨h, mine, secret⟩ ⟨_, rfl⟩
    exact alike_alone_right torch app hidden s.server s'.server alike b.1 b.2 h mine secret

def ServerRun.actAt (r : ServerRun) (time : ℚ) (action : ServerAction Written) : ServerRun :=
  ⟨r.server.act writtenTorch writtenApp time action, time⟩

theorem serve_at_step (r : ServerRun) (time : ℚ) (action : ServerAction Written) (later : r.now ≤ time) :
    ServerStep writtenTorch writtenApp r (time, action) (r.actAt time action) := ⟨later, rfl⟩

def twoClients : ServerRun :=
  servesFrom writtenTorch writtenApp (idleServer 2 2) [.request "a" (tokenBody false) 0 .ample, .request "b" (tokenBody false) 0 .ample]

theorem clients_isolated_gone :
    ((((twoClients.actAt 3 (.cancel 0)).actAt 4 (.wake 0)).actAt 5 (.iterate false lowDraw)).actAt 6
      (.wake 1)).server.handlers[1]? =
      ((twoClients.actAt 5 (.iterate false lowDraw)).actAt 6 (.wake 1)).server.handlers[1]? := by
  have run := Transition.Run.snoc _ _ _ _ (.snoc _ _ _ _ (.snoc _ _ _ _ (.snoc [] _ _ _ .nil
    (serve_at_step twoClients 3 (.cancel 0) (by decide +kernel))) (serve_at_step _ 4 (.wake 0) (by decide)))
    (serve_at_step _ 5 (.iterate false lowDraw) (by decide))) (serve_at_step _ 6 (.wake 1) (by decide))
  have run' := Transition.Run.snoc _ _ _ _ (.snoc [] _ _ _ .nil
    (serve_at_step twoClients 5 (.iterate false lowDraw) (by decide +kernel))) (serve_at_step _ 6 (.wake 1) (by decide))
  have aligned : Transition.Aligned Eq (@Secret Written (· = 0))
      [(3, .cancel 0), (4, .wake 0), (5, .iterate false lowDraw), (6, .wake 1)] [(5, .iterate false lowDraw), (6, .wake 1)] :=
    .both _ _ _ _ (.both _ _ _ _ (.left _ _ _ (.left [] _ _ .nil ⟨0, rfl, rfl⟩) ⟨0, rfl, rfl⟩) rfl) rfl
  exact ((clients_isolated writtenTorch writtenApp 2 2 (· = 0) twoClients _ _ _ _
    (serves_reachable writtenTorch writtenApp 2 2 _) run run' aligned).seen 1 (by decide)).symm

end Dlmserve
