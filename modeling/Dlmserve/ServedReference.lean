import Dlmserve.AnswersAlone
import Dlmserve.ReferenceMatch

set_option autoImplicit false

namespace Dlmserve

def ChatCompletionRequest.referenceArgs (body : ChatCompletionRequest) (mask : Token) : GenerateArgs :=
  { steps := body.numDenoisingSteps.toNat, genLength := body.chosenGenLength.toNat,
    blockLength := body.chosenBlockLength.toNat, maskId := mask }

section Served

variable {V : Type} (torch : Torch V) (app : App V) (view : List Token → Nat → V)

theorem generate_as_denoise (model : Model V) (mask : Token) (full : Full) (draws : Nat → Nat → Draw V) (prompt : Prompt)
    (attention : Option (List (List Nat))) (params : SamplingParams) (size : ∀ block step, TopKSize (draws block step))
    (plain : params.useLocalLeap = false) (cold : params.temperature = 0) (out : List (List Token))
    (returned : denoise torch model mask full draws prompt attention params = .ok out) :
    generate torch model (referenceArgs params (params.blockLength.getD params.genLength) mask) full draws prompt attention =
      .ok out := by
  obtain ⟨start, _, _, _, made, _⟩ := denoise_returns torch model mask draws params prompt attention out returned
  obtain ⟨fits, numBlocks, blockLength, stepsPerBlock, accepted, _⟩ := init_state_cases prompt params mask start made
  obtain ⟨out', alone, generated⟩ := denoise_returns_generate torch model mask full draws prompt attention params numBlocks
    blockLength stepsPerBlock accepted size plain cold fits
  rw [← accepted.blockLength_eq, generated]
  exact alone.symm.trans returned

theorem alone_row_generate (isLocal : PaddingLocal app.loaded.model view) (params : SamplingParams)
    (plain : params.useLocalLeap = false) (cold : params.temperature = 0) (draws : Nat → Nat → Draw V)
    (low : ∀ block step, TopKTiesLow (draws block step)) (promptIds row : List Token) (attention : Option (List (List Nat)))
    (attends : attention = none ∨ attention = some [List.replicate promptIds.length 1])
    (alone : AloneRow torch app view params promptIds row) :
    generate torch app.loaded.model (referenceArgs params (params.blockLength.getD params.genLength) app.loaded.maskId) .ample
      draws (.single promptIds) attention = .ok [row] := by
  obtain ⟨start, final, made, path, done, single⟩ := alone
  obtain ⟨halt, row', returned, single', path', done'⟩ := denoise_plain torch view app.loaded.maskId app.loaded.model draws params
    isLocal cold low (.single promptIds) promptIds rfl attention attends start made
  obtain rfl : final = halt := Transition.halted_unique _ _ start _ halt path path' done done'
  obtain rfl : row = row' := List.singleton_inj.mp (single.symm.trans single')
  have size (block step : Nat) : TopKSize (draws block step) :=
    top_k_sound_size _ (ties_low_sound _ (low block step))
  exact generate_as_denoise torch app.loaded.model app.loaded.maskId .ample draws (.single promptIds) attention params size plain cold
    [row] returned

theorem answer_reference (isLocal : PaddingLocal app.loaded.model view) (attends : AttendsPrompt app) (scheduler : Scheduler)
    (handler : Handler) (cold : handler.body.temperature = 0) (plain : handler.body.useLocalLeap = false) (draws : Nat → Nat → Draw V)
    (low : ∀ block step, TopKTiesLow (draws block step)) (output : GenerationOutput)
    (answer : Answer torch app (PlainPath torch view app.loaded.maskId) TopKTiesLow scheduler handler output) :
    ∃ rendered promptIds attn row, app.applyChatTemplate handler.body.messages = .ok rendered ∧
      app.encode rendered = .ok (promptIds, attn) ∧
      generate torch app.loaded.model (handler.body.referenceArgs app.loaded.maskId) .ample draws (.single promptIds)
        (attn.map fun row => [row]) = .ok [row] ∧
      RowOutput app.loaded.tokenizer row promptIds.length output := by
  obtain ⟨promptIds, attn, params, row, poses, alone, made⟩ := answer_alone torch app view isLocal attends _ handler cold output answer
  obtain ⟨rendered, renders, encodes⟩ := poses.encoded
  obtain ⟨drawn, rfl⟩ := poses.params
  have ones : (attn.map fun row => [row]) = none ∨ (attn.map fun row => [row]) = some [List.replicate promptIds.length 1] := by
    cases attn with
    | none => exact Or.inl rfl
    | some row => exact Or.inr (by rw [attends rendered promptIds row encodes]; rfl)
  exact ⟨rendered, promptIds, attn, row, renders, encodes, alone_row_generate torch app view isLocal _ plain cold draws low
    promptIds row _ ones alone, made⟩

end Served

-- What a client of the server gets is what the reference makes of its prompt: in a run whose
-- requests are at temperature 0, a response to a body with LocalLeap off, batched with others
-- or on its own worker thread, streamed or not, carries the tokens that generate returns for
-- the body's prompt, lengths and steps, and their text.
theorem served_reference {V : Type} (torch : Torch V) (app : App V) (view : List Token → Nat → V)
    (decodes : Decodes app.loaded.tokenizer) (isLocal : PaddingLocal app.loaded.model view)
    (proper : app.loaded.padTokenId ≠ app.loaded.maskId) (attends : AttendsPrompt app) (common : SharedParams)
    (start r : ServerRun) (trace : List (ServerRun × (ℚ × ServerAction V)))
    (serves : ServesPlain torch app common start trace r) (handler : Handler) (member : handler ∈ r.server.handlers)
    (cold : handler.body.temperature = 0) (plain : handler.body.useLocalLeap = false) (content : Content)
    (ended : handler.ending = some (.response content)) (draws : Nat → Nat → Draw V)
    (low : ∀ block step, TopKTiesLow (draws block step)) :
    ∃ rendered promptIds attn row output, app.applyChatTemplate handler.body.messages = .ok rendered ∧
      app.encode rendered = .ok (promptIds, attn) ∧
      generate torch app.loaded.model (handler.body.referenceArgs app.loaded.maskId) .ample draws (.single promptIds)
        (attn.map fun row => [row]) = .ok [row] ∧
      RowOutput app.loaded.tokenizer row promptIds.length output ∧ content = handler.content output := by
  obtain ⟨output, answer, shape⟩ := serves_plain_answer torch app view decodes isLocal proper common start r trace serves
    handler member content ended
  obtain ⟨rendered, promptIds, attn, row, renders, encodes, generated, made⟩ :=
    answer_reference torch app view isLocal attends _ handler cold plain draws low output answer
  exact ⟨rendered, promptIds, attn, row, output, renders, encodes, generated, made, shape⟩

theorem served_reference_batched : ∃ (promptIds : List Token) (attn : Option (List Nat)) (row : List Token)
    (output : GenerationOutput),
    generate writtenTorch writtenApp.loaded.model ((tokenBody false).referenceArgs 9) .ample (fun _ _ => lowDraw)
      (.single promptIds) (attn.map fun row => [row]) = .ok [row] ∧
    RowOutput writtenApp.loaded.tokenizer row promptIds.length output ∧
    Content.json (completionResponse "a" (tokenBody false).model ⟨[2], [2], "decoded"⟩) = batchedHandler.content output := by
  obtain ⟨_, promptIds, attn, row, output, _, _, generated, shape, content⟩ := served_reference writtenTorch writtenApp
    (fun _ c => sameAnswer c) written_decodes (written_local sameAnswer) (by decide) written_attends _ _ bothServed _
    both_serves_plain batchedHandler (by rw [both_served]; exact List.mem_cons_self) (by decide) rfl _ rfl
    (fun _ _ => lowDraw) fun _ _ => low_draw_ties_low
  exact ⟨promptIds, attn, row, output, generated, shape, content⟩

end Dlmserve
