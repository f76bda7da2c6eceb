import Dlmserve.OwnAnswers
import Dlmserve.Reparam
import Dlmserve.Transparency

set_option autoImplicit false

namespace Dlmserve

section Paths

variable (mask : Token)

theorem plain_path_reparam {V : Type} (torch : Torch V) (view : List Token → Nat → V)
    (change : SamplingParams → SamplingParams) (same : ∀ params, (change params).shared = params.shared)
    (s t : DenoiseState) (path : PlainPath torch view mask s t) :
    PlainPath torch view mask (s.reparam change) (t.reparam change) := by
  induction path with
  | refl => exact .refl
  | tail _ last ih =>
      refine ih.tail ⟨last.1, ?_⟩
      rw [plain_step_reparam change mask _ torch view (same _), last.2]
      rfl

end Paths

section Alone

variable {V : Type} (torch : Torch V) (app : App V) (view : List Token → Nat → V)

theorem plain_carried (isLocal : PaddingLocal app.loaded.model view) (proper : app.loaded.padTokenId ≠ app.loaded.maskId)
    (common : SharedParams) (cold : common.temperature = 0) :
    Carried torch app (PlainPath torch view app.loaded.maskId) TopKTiesLow (Agree common) := by
  refine ⟨fun _ _ _ _ => .refl, ?_, fun s s' => follows_agree common s s'⟩
  intro e now time draw ref start state' invariant later low agree member path _ moved
  exact path.trans (moves_plain torch app.loaded view isLocal proper e now time draw later low invariant common cold agree ref
    member state' moved)

-- The encoding of one prompt attends to all of it.
def AttendsPrompt : Prop :=
  ∀ rendered promptIds row, app.encode rendered = .ok (promptIds, some row) → row = List.replicate promptIds.length 1

def AloneRow (params : SamplingParams) (promptIds row : List Token) : Prop :=
  ∃ start halt, initState .ample (.single promptIds) params app.loaded.maskId = .ok start ∧
    PlainPath torch view app.loaded.maskId start halt ∧ halt.done = true ∧ halt.seq = [row]

theorem plain_path_rows (mask : Token) (s t : DenoiseState) (path : PlainPath torch view mask s t) :
    t.seq.length = s.seq.length := by
  induction path with
  | refl => rfl
  | tail _ last ih =>
      obtain ⟨row, _, stepped⟩ := Option.bind_eq_some_iff.mp last.2
      obtain ⟨k, _, written⟩ := Option.bind_eq_some_iff.mp stepped
      rw [(write_back_keeps mask _ _ _ written).2.1, List.length_set, ih]

theorem alone_row_unique (params : SamplingParams) (seed : Int) (promptIds row row' : List Token)
    (alone : AloneRow torch app view params promptIds row)
    (alone' : AloneRow torch app view (params.reseed seed) promptIds row') : row = row' := by
  obtain ⟨start, halt, made, path, done, single⟩ := alone
  obtain ⟨start', halt', made', path', done', single'⟩ := alone'
  obtain rfl := Except.ok.inj (made'.symm.trans (init_state_reseed seed app.loaded.maskId _ params start made))
  have moved := plain_path_reparam app.loaded.maskId torch view (SamplingParams.reseed seed) (fun _ => rfl) start halt path
  have same : halt' = halt.reparam (SamplingParams.reseed seed) :=
    Transition.halted_unique _ _ _ halt' _ path' moved done' done
  rw [same] at single'
  exact List.singleton_inj.mp (single.symm.trans single')

theorem batched_alone (promptIds : List Token) (params : SamplingParams) (start state : DenoiseState)
    (made : initState .ample (.single promptIds) params app.loaded.maskId = .ok start)
    (path : PlainPath torch view app.loaded.maskId start state) (done : state.done = true) (output : GenerationOutput)
    (decoded : app.loaded.tokenizer.makeOutput state = some output) :
    ∃ row, AloneRow torch app view params promptIds row ∧ RowOutput app.loaded.tokenizer row promptIds.length output := by
  obtain ⟨first, width⟩ := initial_row app.loaded.maskId (.single promptIds) params start promptIds rfl made
  obtain ⟨row, single⟩ : ∃ row, state.seq = [row] := by
    rw [← List.length_eq_one_iff, plain_path_rows torch view app.loaded.maskId start state path, first]
    rfl
  have shape := make_output_row_output app.loaded.tokenizer state row output single decoded
  rw [(plain_path_same torch view app.loaded.maskId start state path).promptLen, ← width] at shape
  exact ⟨row, ⟨start, state, made, path, done, single⟩, shape⟩

theorem single_alone (isLocal : PaddingLocal app.loaded.model view) (call : SingleCall) (full : Full) (draws : Nat → Nat → Draw V)
    (low : ∀ block step, TopKTiesLow (draws block step)) (cold : call.params.temperature = 0)
    (attends : call.attn = none ∨ call.attn = some (List.replicate call.promptIds.length 1)) (output : GenerationOutput)
    (ran : call.run torch app full draws = .ok output) :
    ∃ row, AloneRow torch app view call.params call.promptIds row ∧
      RowOutput app.loaded.tokenizer row call.promptIds.length output := by
  obtain ⟨row, returned, shape⟩ := single_run_output torch app call draws output ran
  obtain ⟨start, _, _, _, made, _⟩ := denoise_returns torch app.loaded.model app.loaded.maskId draws call.params _ _ _ returned
  have attention : (call.attn.map fun row => [row]) = none ∨
      (call.attn.map fun row => [row]) = some [List.replicate call.promptIds.length 1] := by
    rcases attends with noMask | ones
    · exact Or.inl (by rw [noMask]; rfl)
    · exact Or.inr (by rw [ones]; rfl)
  obtain ⟨halt, row', returned', single, path, done⟩ := denoise_plain torch view app.loaded.maskId app.loaded.model draws
    call.params isLocal cold low (.single call.promptIds) call.promptIds rfl _ attention start made
  obtain rfl : row' = row := List.singleton_inj.mp (Except.ok.inj (returned'.symm.trans returned))
  exact ⟨row', ⟨start, halt, init_state_ample _ _ _ _ made, path, done, single⟩, shape⟩

theorem answer_alone (isLocal : PaddingLocal app.loaded.model view) (attends : AttendsPrompt app) (scheduler : Scheduler)
    (handler : Handler) (cold : handler.body.temperature = 0) (output : GenerationOutput)
    (answer : Answer torch app (PlainPath torch view app.loaded.maskId) TopKTiesLow scheduler handler output) :
    ∃ promptIds attn params row, Poses app handler.body promptIds attn params ∧
      AloneRow torch app view params promptIds row ∧ RowOutput app.loaded.tokenizer row promptIds.length output := by
  cases answer with
  | batched ref promptIds attn params start awaits shared poses made path done result decoded =>
      obtain ⟨row, alone, shape⟩ := batched_alone torch app view promptIds params start _ made path done output decoded
      exact ⟨promptIds, attn, params, row, poses, alone, shape⟩
  | single call full draws awaits alone poses low ran =>
      obtain ⟨rendered, _, encodes⟩ := poses.encoded
      obtain ⟨drawn, given⟩ := poses.params
      have ones : call.attn = none ∨ call.attn = some (List.replicate call.promptIds.length 1) := by
        cases mask : call.attn with
        | none => exact Or.inl rfl
        | some row =>
            rw [mask] at encodes
            exact Or.inr (congrArg some (attends rendered call.promptIds row encodes))
      obtain ⟨row, alone, shape⟩ := single_alone torch app view isLocal call full draws low (by rw [given]; exact cold) ones output ran
      exact ⟨call.promptIds, call.attn, call.params, row, poses, alone, shape⟩

theorem row_output_unique (tokenizer : Tokenizer) (row : List Token) (n : Nat) (output output' : GenerationOutput)
    (shape : RowOutput tokenizer row n output) (shape' : RowOutput tokenizer row n output') : output = output' := by
  obtain ⟨texts, decoded⟩ := shape.text
  obtain ⟨texts', decoded'⟩ := shape'.text
  have ids : output.outputIds = output'.outputIds := shape.outputIds.trans shape'.outputIds.symm
  rw [← ids] at decoded'
  have text := (List.cons.inj (Option.some.inj (decoded.symm.trans decoded'))).1
  have prompts : output.promptIds = output'.promptIds := shape.promptIds.trans shape'.promptIds.symm
  cases output
  cases output'
  simp only [GenerationOutput.mk.injEq]
  exact ⟨prompts, ids, text⟩

-- A run from the start of a server in which ties go low and its requests agree.
structure ServesPlain (common : SharedParams) (start : ServerRun) (trace : List (ServerRun × (ℚ × ServerAction V)))
    (r : ServerRun) : Prop where
  initial : ∃ maxBatch maxWaiting, InitialServer maxBatch maxWaiting start
  run : Transition.Run (ServerStep torch app) start trace r
  low : ∀ entry ∈ trace, Draws TopKTiesLow entry.2.2
  agree : Agree common r.server.engine.scheduler
  cold : common.temperature = 0

theorem serves_plain_answer (decodes : Decodes app.loaded.tokenizer) (isLocal : PaddingLocal app.loaded.model view)
    (proper : app.loaded.padTokenId ≠ app.loaded.maskId) (common : SharedParams) (start r : ServerRun)
    (trace : List (ServerRun × (ℚ × ServerAction V))) (serves : ServesPlain torch app common start trace r) (handler : Handler)
    (member : handler ∈ r.server.handlers) (content : Content) (ended : handler.ending = some (.response content)) :
    ∃ output,
      Answer torch app (PlainPath torch view app.loaded.maskId) TopKTiesLow r.server.engine.scheduler handler output ∧
      content = handler.content output := by
  obtain ⟨maxBatch, maxWaiting, initial⟩ := serves.initial
  have origins := run_origins torch app (PlainPath torch view app.loaded.maskId) TopKTiesLow (Agree common)
    (plain_carried torch app view isLocal proper common serves.cold) decodes maxBatch maxWaiting start r initial trace
    serves.run serves.low serves.agree
  exact (origins handler member).answered content ended

-- Bodies that ask the same, under whatever seed, on whatever path and in whatever form.
def SameQuestion (body body' : ChatCompletionRequest) : Prop :=
  body' = { body with seed := body'.seed, forceSingleBatch := body'.forceSingleBatch, stream := body'.stream }

end Alone

-- What a client is answered depends on what it asked: two calls for the same, in two runs
-- of servers with whatever else to do, one batched with others and the other on its own
-- worker thread, or both the same way, are answered with one and the same output.
theorem answer_function_of_body {V : Type} (torch : Torch V) (app : App V) (view : List Token → Nat → V)
    (decodes : Decodes app.loaded.tokenizer) (isLocal : PaddingLocal app.loaded.model view)
    (proper : app.loaded.padTokenId ≠ app.loaded.maskId) (attends : AttendsPrompt app) (common common' : SharedParams)
    (start start' r r' : ServerRun) (trace trace' : List (ServerRun × (ℚ × ServerAction V)))
    (serves : ServesPlain torch app common start trace r) (serves' : ServesPlain torch app common' start' trace' r')
    (handler handler' : Handler) (member : handler ∈ r.server.handlers) (member' : handler' ∈ r'.server.handlers)
    (same : SameQuestion handler.body handler'.body) (cold : handler.body.temperature = 0) (content content' : Content)
    (ended : handler.ending = some (.response content)) (ended' : handler'.ending = some (.response content')) :
    ∃ output, content = handler.content output ∧ content' = handler'.content output := by
  obtain ⟨output, answer, shape⟩ := serves_plain_answer torch app view decodes isLocal proper common start r trace serves
    handler member content ended
  obtain ⟨output', answer', shape'⟩ := serves_plain_answer torch app view decodes isLocal proper common' start' r' trace'
    serves' handler' member' content' ended'
  have cold' : handler'.body.temperature = 0 := by rw [same]; exact cold
  obtain ⟨promptIds, attn, params, row, poses, alone, made⟩ := answer_alone torch app view isLocal attends _ handler cold output answer
  obtain ⟨promptIds', attn', params', row', poses', alone', made'⟩ :=
    answer_alone torch app view isLocal attends _ handler' cold' output' answer'
  obtain ⟨rendered, renders, encodes⟩ := poses.encoded
  obtain ⟨rendered', renders', encodes'⟩ := poses'.encoded
  have messages : handler'.body.messages = handler.body.messages := by rw [same]
  rw [messages] at renders'
  obtain rfl := Except.ok.inj (renders.symm.trans renders')
  obtain ⟨rfl, rfl⟩ := Prod.mk.inj (Except.ok.inj (encodes.symm.trans encodes'))
  obtain ⟨drawn, rfl⟩ := poses.params
  obtain ⟨drawn', rfl⟩ := poses'.params
  have reseeded : handler'.body.samplingParams drawn' =
      (handler.body.samplingParams drawn).reseed (handler'.body.seed.getD drawn') := by rw [same]; rfl
  rw [reseeded] at alone'
  obtain rfl := alone_row_unique torch app view _ _ promptIds row row' alone alone'
  obtain rfl := row_output_unique app.loaded.tokenizer row promptIds.length output output' made made'
  exact ⟨output, shape, shape'⟩

theorem both_serves_plain : ServesPlain writtenTorch writtenApp ((tokenBody false).samplingParams 0).shared (idleServer 2 2)
    (servesTrace writtenTorch writtenApp (idleServer 2 2) bothActions) bothServed := by
  refine ⟨⟨2, 2, idle_server_initial 2 2⟩, serves_from_run writtenTorch writtenApp _ _, ?_, ?_, rfl⟩
  · intro entry member
    have given := serves_trace_actions writtenTorch writtenApp _ _ entry member
    simp only [bothActions, List.mem_cons, List.not_mem_nil, or_false] at given
    rcases given with action | action | action | action | action | action | action <;> rw [action]
    case inr.inr.inl => exact low_draw_ties_low
    case inr.inr.inr.inr.inr.inl => exact fun _ _ => low_draw_ties_low
    all_goals trivial
  · unfold Agree
    decide +kernel

theorem written_attends : AttendsPrompt writtenApp := by
  intro rendered promptIds row encodes
  obtain ⟨rfl, same⟩ := Prod.mk.inj (Except.ok.inj encodes)
  exact (Option.some.inj same).symm

theorem batched_and_single_agree : ∃ output,
    Content.json (completionResponse "a" (tokenBody false).model ⟨[2], [2], "decoded"⟩) = batchedHandler.content output ∧
      Content.json (completionResponse "b" (tokenBody true).model ⟨[2], [2], "decoded"⟩) = singleHandler.content output :=
  answer_function_of_body writtenTorch writtenApp (fun _ c => sameAnswer c) written_decodes (written_local sameAnswer)
    (by decide) written_attends _ _ _ _ bothServed bothServed _ _ both_serves_plain both_serves_plain batchedHandler singleHandler
    (by rw [both_served]; exact List.mem_cons_self) (by rw [both_served]; exact List.mem_cons_of_mem _ List.mem_cons_self) rfl
    (by decide) _ _ rfl rfl

end Dlmserve
