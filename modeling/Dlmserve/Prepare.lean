import Dlmserve.Advance
import Dlmserve.Generate
import Dlmserve.SchedulerRun

set_option autoImplicit false

namespace Dlmserve

section Prepare

variable (front : Frontend) (full : Full) (mask : Token) (params : SamplingParams) (prerendered : Bool) (prompt : String)

def Prepares (state : DenoiseState) : Prop :=
  ∃ encoded, front.encodePrompt prerendered prompt = .ok encoded ∧ front.manualSeed params.seed = .ok () ∧
    initState full (.single encoded.1) params mask = .ok state

inductive Unready : PyError → Prop where
  | encode (error : PyError) (raised : front.encodePrompt prerendered prompt = .error error) : Unready error
  | seed (encoded : List Token × Option (List Nat)) (error : PyError)
      (encodes : front.encodePrompt prerendered prompt = .ok encoded) (raised : front.manualSeed params.seed = .error error) :
      Unready error

inductive Unprepared : PyError → Prop where
  | unready (error : PyError) (unready : Unready front params prerendered prompt error) : Unprepared error
  | params (encoded : List Token × Option (List Nat)) (error : PyError)
      (encodes : front.encodePrompt prerendered prompt = .ok encoded) (seeds : front.manualSeed params.seed = .ok ())
      (raised : initState full (.single encoded.1) params mask = .error error) : Unprepared error

theorem prepares_iff (state : DenoiseState) :
    front.prepare full mask params prerendered prompt = .ok state ↔ Prepares front full mask params prerendered prompt state := by
  rw [Frontend.prepare]
  constructor
  · intro made
    cases encodes : front.encodePrompt prerendered prompt with
    | error error => rw [encodes] at made; cases made
    | ok encoded =>
        rw [encodes] at made
        cases seeds : front.manualSeed params.seed with
        | error error => rw [seeds] at made; cases made
        | ok _ =>
            rw [seeds] at made
            exact ⟨encoded, encodes, seeds, made⟩
  · rintro ⟨encoded, encodes, seeds, made⟩
    rw [encodes]
    dsimp only
    rw [seeds]
    exact made

theorem unprepared_iff (error : PyError) :
    front.prepare full mask params prerendered prompt = .error error ↔
      Unprepared front full mask params prerendered prompt error := by
  rw [Frontend.prepare]
  constructor
  · intro raised
    cases encodes : front.encodePrompt prerendered prompt with
    | error other =>
        rw [encodes] at raised
        obtain rfl := Except.error.inj raised
        exact .unready _ (.encode _ encodes)
    | ok encoded =>
        rw [encodes] at raised
        cases seeds : front.manualSeed params.seed with
        | error other =>
            rw [seeds] at raised
            obtain rfl := Except.error.inj raised
            exact .unready _ (.seed encoded _ encodes seeds)
        | ok _ =>
            rw [seeds] at raised
            exact .params encoded error encodes seeds raised
  · intro unprepared
    cases unprepared with
    | unready _ unready =>
        cases unready with
        | encode _ raised => rw [raised]
        | seed encoded _ encodes raised =>
            rw [encodes]
            dsimp only
            rw [raised]
    | params encoded _ encodes seeds raised =>
        rw [encodes]
        dsimp only
        rw [seeds]
        exact raised

theorem prepared_or_not : (∃ state, Prepares front full mask params prerendered prompt state) ∨
    ∃ error, Unprepared front full mask params prerendered prompt error := by
  cases made : front.prepare full mask params prerendered prompt with
  | ok state => exact Or.inl ⟨state, (prepares_iff front full mask params prerendered prompt state).mp made⟩
  | error error => exact Or.inr ⟨error, (unprepared_iff front full mask params prerendered prompt error).mp made⟩

theorem prepared_excludes (state : DenoiseState) (prepares : Prepares front full mask params prerendered prompt state)
    (error : PyError) : ¬ Unprepared front full mask params prerendered prompt error := by
  intro unprepared
  have made := (prepares_iff front full mask params prerendered prompt state).mpr prepares
  rw [(unprepared_iff front full mask params prerendered prompt error).mpr unprepared] at made
  cases made

theorem encoded_ready (encoded : List Token × Option (List Nat))
    (encodes : front.encodePrompt prerendered prompt = .ok encoded) (seeds : front.manualSeed params.seed = .ok ())
    (error : PyError) : ¬ Unready front params prerendered prompt error := by
  intro unready
  cases unready with
  | encode _ raised =>
      rw [encodes] at raised
      cases raised
  | seed _ _ _ raised =>
      rw [seeds] at raised
      cases raised

end Prepare

section Admit

variable {V : Type} (front : Frontend) (loaded : LoadedModel V) (params : SamplingParams) (prerendered : Bool) (time : ℚ)
  (full : Full) (prompt : String) (e : Engine)

theorem admit_prompt_unprepared (error : PyError)
    (unprepared : Unprepared front full loaded.maskId params prerendered prompt error) :
    e.admitPrompt front loaded params prerendered time full prompt = (e, .error error) := by
  rw [Engine.admitPrompt, (unprepared_iff front full loaded.maskId params prerendered prompt error).mpr unprepared]

variable (state : DenoiseState) (prepares : Prepares front full loaded.maskId params prerendered prompt state)

include prepares

theorem admit_prompt_full (filled : e.scheduler.maxWaiting ≤ e.scheduler.pending.length) :
    e.admitPrompt front loaded params prerendered time full prompt = (e, .error Engine.queueFull) := by
  rw [Engine.admitPrompt, (prepares_iff front full loaded.maskId params prerendered prompt state).mpr prepares]
  dsimp only
  rw [admit_full _ _ _ _ _ filled]

theorem admit_prompt_room (room : e.scheduler.pending.length < e.scheduler.maxWaiting) :
    e.admitPrompt front loaded params prerendered time full prompt =
      ({ e with scheduler := enqueued e.scheduler time state params (some .pending) }, .ok e.scheduler.fresh) := by
  rw [Engine.admitPrompt, (prepares_iff front full loaded.maskId params prerendered prompt state).mpr prepares]
  dsimp only
  rw [admit_room _ _ _ _ _ room]

-- What is admitted is what the engine's own submission would admit.
theorem prepared_submit (room : e.scheduler.pending.length < e.scheduler.maxWaiting) :
    ∃ promptIds, e.submit loaded time full promptIds params =
      { e with scheduler := enqueued e.scheduler time state params (some .pending) } := by
  obtain ⟨encoded, _, _, made⟩ := prepares
  refine ⟨encoded.1, ?_⟩
  rw [Engine.submit, made]
  dsimp only
  rw [admit_room _ _ _ _ _ room]

end Admit

end Dlmserve
