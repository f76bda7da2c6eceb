import Dlmserve.Origins
import Dlmserve.PromptFrame
import Dlmserve.ServerDevice

set_option autoImplicit false

namespace Dlmserve

variable {full : Full}

section Keeps

-- What every step of the engine keeps of a request, whatever its draws and its batch.
structure Keeps (mask : Token) (start state : DenoiseState) : Prop where
  same : SameRequest start state
  shaped : Shaped start → Shaped state
  rows : state.seq.length = start.seq.length
  front : ∀ prompt : Prompt, (∀ row ∈ prompt.rows, mask ∉ row) → Front mask prompt start → Front mask prompt state

variable {V : Type} (torch : Torch V) (app : App V) (mask : Token)

theorem keeps_refl (start : DenoiseState) : Keeps mask start start :=
  ⟨same_request_refl start, id, rfl, fun _ _ => id⟩

theorem state_step_front (model : Model V) (pad : Token) (draw : Draw V) (params0 : SamplingParams) (prompt : Prompt)
    (clean : ∀ row ∈ prompt.rows, mask ∉ row) (s s' : DenoiseState) (front : Front mask prompt s)
    (step : StateStep torch model mask pad draw params0 s s') : Front mask prompt s' :=
  step_absorbs_front mask prompt clean s s' front
    (state_step_absorbs torch model mask pad draw params0 s s' step front.committed)
    (state_step_keeps torch model mask pad draw params0 s s' step)

theorem state_step_rows (model : Model V) (pad : Token) (draw : Draw V) (params0 : SamplingParams) (s s' : DenoiseState)
    (step : StateStep torch model mask pad draw params0 s s') : s'.seq.length = s.seq.length := by
  obtain ⟨_, _, _, _, _, _, written⟩ := step
  rw [(write_back_keeps mask s s' _ written).2.1, List.length_set]

theorem batch_step_keeps (start s s' : DenoiseState) (call : BatchCall V) (keeps : Keeps mask start s)
    (step : BatchStep torch mask s call s') : Keeps mask start s' := by
  have moved := batch_step_state torch mask s s' call step
  refine ⟨same_request_trans _ _ _ keeps.same
      (state_step_keeps torch call.model mask call.pad call.draw call.params0 s s' moved), ?_, ?_, ?_⟩
  · intro shaped
    exact state_step_shaped torch call.model mask call.pad call.draw call.params0 s s' moved (keeps.shaped shaped)
  · exact (state_step_rows torch mask call.model call.pad call.draw call.params0 s s' moved).trans keeps.rows
  · intro prompt clean front
    exact state_step_front torch mask call.model call.pad call.draw call.params0 prompt clean s s' (keeps.front prompt clean front)
      moved

-- A state has come from another by calls of step_batch on the app's model alone.
def Stepped (start state : DenoiseState) : Prop :=
  ∃ trace, Transition.Run (BatchStep torch app.loaded.maskId) start trace state ∧
    ∀ entry ∈ trace, entry.2.model = app.loaded.model ∧ entry.2.pad = app.loaded.padTokenId

theorem stepped_keeps (start state : DenoiseState) (stepped : Stepped torch app start state) :
    Keeps app.loaded.maskId start state := by
  obtain ⟨trace, run, _⟩ := stepped
  exact Transition.run_invariant (Keeps app.loaded.maskId start) start state trace run (keeps_refl app.loaded.maskId start)
    fun s call s' keeps step => batch_step_keeps torch app.loaded.maskId start s s' call keeps step

theorem stepped_carried : Carried torch app (Stepped torch app) (fun _ => True) (fun _ => True) := by
  refine ⟨fun _ _ start _ => ⟨[], .nil, fun _ member => absurd member List.not_mem_nil⟩, ?_, fun _ _ _ => id⟩
  rintro e now time draw ref start state' _ _ _ _ _ ⟨trace, run, own⟩ step _
  refine ⟨_, .snoc _ _ _ _ run step, fun entry member => ?_⟩
  rcases List.mem_append.mp member with earlier | last
  · exact own entry earlier
  · rw [List.mem_singleton.mp last]
    exact ⟨rfl, rfl⟩

end Keeps

section Outputs

variable {V : Type} (torch : Torch V) (app : App V) (tokenizer : Tokenizer)

structure RowOutput (row : List Token) (n : Nat) (output : GenerationOutput) : Prop where
  promptIds : output.promptIds = row.take n
  outputIds : output.outputIds = row.drop n
  text : ∃ texts, tokenizer.batchDecode [output.outputIds] = some (output.text :: texts)

theorem head_cons {α : Type} (items : List α) (first : α) (head : items.head? = some first) : ∃ rest, items = first :: rest := by
  cases items with
  | nil => cases head
  | cons a rest => exact ⟨rest, congrArg (· :: rest) (Option.some.inj head)⟩

theorem make_output_row_output (s : DenoiseState) (row : List Token) (output : GenerationOutput) (single : s.seq = [row])
    (made : tokenizer.makeOutput s = some output) : RowOutput tokenizer row s.promptLen output := by
  rw [Tokenizer.makeOutput, single] at made
  obtain ⟨texts, decoded, made⟩ := Option.bind_eq_some_iff.mp made
  obtain ⟨text, first, made⟩ := Option.bind_eq_some_iff.mp made
  obtain ⟨rest, rfl⟩ := head_cons texts text first
  obtain rfl := Option.some.inj made
  exact ⟨rfl, rfl, rest, decoded⟩

theorem denoise_reach_lengths (model : Model V) (mask : Token) (draws : Nat → Nat → Draw V) (params : SamplingParams)
    (attn : Option (List (List Nat))) (start : DenoiseState) (before : start.committed = notMask mask start.seq)
    (trace : List (DenoisePoint × DenoiseState)) (p : DenoisePoint)
    (reach : DenoiseReach torch model mask draws params attn start trace p) :
    p.state.seq.map List.length = start.seq.map List.length ∧ p.state.promptLen = start.promptLen := by
  obtain ⟨first, ⟨_, entered, _⟩, run⟩ := reach
  obtain ⟨_, opened⟩ := enter_block_cases mask 0 start first.state entered
  refine (Transition.run_invariant (fun p : DenoisePoint => p.state.committed = notMask mask p.state.seq ∧
    p.state.seq.map List.length = start.seq.map List.length ∧ p.state.promptLen = start.promptLen) first p trace run ?_ ?_).2
  · rw [opened]
    exact ⟨before, rfl, rfl⟩
  · rintro p s q ⟨committed, lengths, promptLen⟩ move
    have after := denoise_move_committed torch model mask draws params attn p q s move committed
    have stepFrame (stepped : denoiseStep torch model mask draws params attn p.step p.state = some s) :
        s.seq.map List.length = start.seq.map List.length ∧ s.promptLen = start.promptLen :=
      ⟨(denoise_step_absorbs torch model mask draws params attn p.step p.state s committed stepped).lengths.trans lengths,
        (denoise_step_keeps torch model mask draws params attn p.step p.state s stepped).1.promptLen.trans promptLen⟩
    refine ⟨after, ?_⟩
    cases move with
    | stay stepped => exact stepFrame stepped
    | pass entered stepped _ _ opened =>
        obtain ⟨_, rfl⟩ := enter_block_cases mask _ s entered opened
        exact stepFrame stepped

theorem denoise_single_row (model : Model V) (mask : Token) (draws : Nat → Nat → Draw V) (params : SamplingParams)
    (promptIds : List Token) (attention : Option (List (List Nat))) (out : List (List Token))
    (returned : denoise torch model mask full draws (.single promptIds) attention params = .ok out) :
    ∃ row, out = [row] ∧ row.length = promptIds.length + params.genLength ∧
      (mask ∉ promptIds → row.take promptIds.length = promptIds) := by
  obtain ⟨start, trace, p, final, made, reach, last, rfl⟩ :=
    denoise_returns torch model mask draws params (.single promptIds) attention out returned
  have committed := initial_committed (.single promptIds) params mask start made
  obtain ⟨first, width⟩ := initial_row mask (.single promptIds) params start promptIds rfl made
  obtain ⟨_, _, _, _, shape⟩ := init_state_ok (.single promptIds) params mask start made
  have wide : start.genLength = params.genLength := by
    rw [shape]
    rfl
  have atPoint := denoise_reach_committed torch model mask draws params (fullAttentionMask params attention) start committed
    trace p reach
  obtain ⟨reachedLengths, reachedPrompt⟩ := denoise_reach_lengths torch model mask draws params _ start committed trace p reach
  have promptLen := (denoise_step_keeps torch model mask draws params _ p.step p.state final last).1.promptLen.trans
    (reachedPrompt.trans width.symm)
  have lengths := (denoise_step_absorbs torch model mask draws params _ p.step p.state final atPoint last).lengths.trans
    reachedLengths
  rw [first, List.map_singleton, List.map_eq_singleton_iff] at lengths
  obtain ⟨row, single, length⟩ := lengths
  refine ⟨row, single, ?_, ?_⟩
  · rw [length, List.length_append, List.length_replicate, wide]
  · intro clean
    have proper : ∀ row ∈ (Prompt.single promptIds).rows, mask ∉ row := by
      intro row member
      rwa [List.mem_singleton.mp member]
    have reached := denoise_reach_front mask (.single promptIds) params start torch model draws _ proper made trace p reach
    have kept := (denoise_step_front mask (.single promptIds) params torch model draws _ proper p.step p.state final reached
      last).kept
    rw [PromptKept, single, promptLen] at kept
    exact (List.singleton_inj.mp kept)

-- _run_single makes its output of the row that denoise returns.
theorem single_run_output (call : SingleCall) (draws : Nat → Nat → Draw V) (output : GenerationOutput)
    (ran : call.run torch app full draws = .ok output) :
    ∃ row, denoise torch app.loaded.model app.loaded.maskId full draws (.single call.promptIds)
        (call.attn.map fun row => [row]) call.params = .ok [row] ∧
      RowOutput app.loaded.tokenizer row call.promptIds.length output := by
  rw [SingleCall.run] at ran
  cases returned : denoise torch app.loaded.model app.loaded.maskId full draws (.single call.promptIds)
      (call.attn.map fun row => [row]) call.params with
  | error error =>
      rw [returned] at ran
      cases ran
  | ok out =>
      obtain ⟨row, rfl, _⟩ := denoise_single_row torch app.loaded.model app.loaded.maskId draws call.params call.promptIds _ out
        returned
      rw [returned] at ran
      dsimp only [bind, Except.bind] at ran
      rw [List.map_singleton] at ran
      refine ⟨row, rfl, ?_⟩
      cases decoded : app.loaded.tokenizer.batchDecode [row.drop call.promptIds.length] with
      | none =>
          rw [decoded] at ran
          cases ran
      | some texts =>
          rw [decoded] at ran
          cases texts with
          | nil => cases ran
          | cons text rest =>
              obtain rfl := Except.ok.inj ran
              exact ⟨rfl, rfl, rest, decoded⟩

structure OwnOutput (loaded : LoadedModel V) (promptIds : List Token) (genLength : Nat) (output : GenerationOutput) : Prop where
  promptLength : output.promptIds.length = promptIds.length
  outputLength : output.outputIds.length = genLength
  text : ∃ texts, loaded.tokenizer.batchDecode [output.outputIds] = some (output.text :: texts)
  prompt : loaded.maskId ∉ promptIds → output.promptIds = promptIds

theorem row_own_output (loaded : LoadedModel V) (promptIds row : List Token) (genLength : Nat) (output : GenerationOutput)
    (shape : RowOutput loaded.tokenizer row promptIds.length output) (length : row.length = promptIds.length + genLength)
    (kept : loaded.maskId ∉ promptIds → row.take promptIds.length = promptIds) :
    OwnOutput loaded promptIds genLength output := by
  refine ⟨?_, ?_, shape.text, fun clean => shape.promptIds.trans (kept clean)⟩
  · rw [shape.promptIds, List.length_take, length, Nat.min_eq_left (Nat.le_add_right _ _)]
  · rw [shape.outputIds, List.length_drop, length, Nat.add_sub_cancel_left]

theorem keeps_own_output (loaded : LoadedModel V) (promptIds : List Token) (params : SamplingParams)
    (start state : DenoiseState) (made : initState full (.single promptIds) params loaded.maskId = .ok start)
    (keeps : Keeps loaded.maskId start state) (output : GenerationOutput)
    (decoded : loaded.tokenizer.makeOutput state = some output) : OwnOutput loaded promptIds params.genLength output := by
  obtain ⟨first, width⟩ := initial_row loaded.maskId (.single promptIds) params start promptIds rfl made
  have shaped := keeps.shaped (initial_shaped (.single promptIds) params loaded.maskId start made)
  have front := initial_front loaded.maskId (.single promptIds) params start made
  have wide : state.genLength = params.genLength := by
    obtain ⟨_, _, _, _, rfl⟩ := init_state_ok (.single promptIds) params loaded.maskId start made
    exact keeps.same.genLength
  have promptLen : state.promptLen = promptIds.length := keeps.same.promptLen.trans width.symm
  obtain ⟨row, single⟩ : ∃ row, state.seq = [row] := by
    rw [← List.length_eq_one_iff, keeps.rows, first]
    rfl
  have shape := make_output_row_output loaded.tokenizer state row output single decoded
  rw [promptLen] at shape
  apply row_own_output loaded promptIds row params.genLength output shape
  · rw [shaped.rows row (by rw [single]; exact List.mem_singleton_self row), promptLen, wide]
  · intro clean
    have kept := (keeps.front (.single promptIds) (fun row member => by rwa [List.mem_singleton.mp member]) front).kept
    rw [PromptKept, single, promptLen] at kept
    exact List.singleton_inj.mp kept

theorem answer_own_output (scheduler : Scheduler) (handler : Handler) (output : GenerationOutput)
    (answer : Answer torch app (Stepped torch app) (fun _ : Draw V => True) scheduler handler output) :
    ∃ promptIds attn params, Poses app handler.body promptIds attn params ∧
      OwnOutput app.loaded promptIds params.genLength output := by
  cases answer with
  | batched ref promptIds attn params start awaits shared poses made stepped done result decoded =>
      exact ⟨promptIds, attn, params, poses, keeps_own_output app.loaded promptIds params start _ made
        (stepped_keeps torch app start _ stepped) output decoded⟩
  | single call full draws awaits alone poses drawn ran =>
      obtain ⟨row, returned, shape⟩ := single_run_output torch app call draws output ran
      obtain ⟨same, single, length, kept⟩ := denoise_single_row torch app.loaded.model app.loaded.maskId draws call.params
        call.promptIds _ _ returned
      obtain rfl := List.singleton_inj.mp single
      exact ⟨call.promptIds, call.attn, call.params, poses, row_own_output app.loaded call.promptIds row call.params.genLength
        output shape length kept⟩

end Outputs

theorem reachable_origins {V : Type} (torch : Torch V) (app : App V) (decodes : Decodes app.loaded.tokenizer)
    (maxBatch maxWaiting : Nat) (r : ServerRun)
    (reach : Transition.Reachable (InitialServer maxBatch maxWaiting) (ServerStep torch app) r) :
    AllOrigins torch app (Stepped torch app) (fun _ => True) r.server := by
  obtain ⟨start, trace, initial, run⟩ := reach
  exact run_origins torch app (Stepped torch app) (fun _ => True) (fun _ => True) (stepped_carried torch app) decodes maxBatch
    maxWaiting start r initial trace run (fun entry _ => by cases entry.2.2 <;> simp [Draws]) trivial

-- Every response of the server answers the body of its own call: in any state that the
-- server reaches, whatever else it serves, a response is made of the result of the request
-- that its handler awaits, which step_batch has taken from the body's own prompt to its end,
-- or of what the worker thread of its own call returned, and has the lengths of the body.
theorem response_own {V : Type} (torch : Torch V) (app : App V) (decodes : Decodes app.loaded.tokenizer)
    (maxBatch maxWaiting : Nat) (r : ServerRun)
    (reach : Transition.Reachable (InitialServer maxBatch maxWaiting) (ServerStep torch app) r) (handler : Handler)
    (member : handler ∈ r.server.handlers) (content : Content) (ended : handler.ending = some (.response content)) :
    handler.body.validate = .ok () ∧ handler.body.model = app.modelId ∧ ∃ output,
      Answer torch app (Stepped torch app) (fun _ => True) r.server.engine.scheduler handler output ∧
      content = handler.content output ∧ ∃ rendered promptIds attn,
        app.applyChatTemplate handler.body.messages = .ok rendered ∧ app.encode rendered = .ok (promptIds, attn) ∧
        OwnOutput app.loaded promptIds handler.body.chosenGenLength.toNat output := by
  have origins := reachable_origins torch app decodes maxBatch maxWaiting r reach
  obtain ⟨output, answer, shape⟩ := (origins handler member).answered content ended
  obtain ⟨promptIds, attn, params, poses, own⟩ := answer_own_output torch app _ handler output answer
  obtain ⟨rendered, renders, encodes⟩ := poses.encoded
  obtain ⟨drawn, rfl⟩ := poses.params
  exact ⟨poses.valid, poses.hosted, output, answer, shape, rendered, promptIds, attn, renders, encodes, own⟩

-- The same question twice: "a" goes through the batched engine, "b" to a worker thread.
def bothActions : List (ServerAction Written) :=
  [.request "a" (tokenBody false) 0 .ample, .request "b" (tokenBody true) 0 .ample, .iterate false lowDraw, .wake 0, .start 1,
    .work 1 none (fun _ _ => lowDraw) .ample, .wake 1]

def bothServed : ServerRun := servesFrom writtenTorch writtenApp (idleServer 2 2) bothActions

def answeredHandler (reqId : String) (forceSingleBatch : Bool) (await : Await) : Handler :=
  { reqId := reqId
    body := tokenBody forceSingleBatch
    awaits := some await
    ending := some (.response (.json (completionResponse reqId (tokenBody forceSingleBatch).model ⟨[2], [2], "decoded"⟩)))
    admitted := 1
    released := 1 }

def batchedHandler : Handler := answeredHandler "a" false (.gather 0)

def singleHandler : Handler :=
  answeredHandler "b" true (.toThread ⟨[2], some [1], (tokenBody true).samplingParams 0⟩ (.finished (.ok ⟨[2], [2], "decoded"⟩)))

theorem both_served : bothServed.server.handlers = [batchedHandler, singleHandler] := by decide +kernel

theorem response_own_batched : ∃ output,
    Answer writtenTorch writtenApp (Stepped writtenTorch writtenApp) (fun _ => True) bothServed.server.engine.scheduler
        batchedHandler output ∧
      Content.json (completionResponse "a" (tokenBody false).model ⟨[2], [2], "decoded"⟩) = batchedHandler.content output := by
  obtain ⟨_, _, output, answer, shape, _⟩ := response_own writtenTorch writtenApp written_decodes 2 2 bothServed
    (serves_reachable writtenTorch writtenApp 2 2 _) batchedHandler (by rw [both_served]; exact List.mem_cons_self) _ rfl
  exact ⟨output, answer, shape⟩

end Dlmserve
