import Dlmserve.Library.EventStream
import Dlmserve.OwnAnswers

set_option autoImplicit false

namespace Dlmserve

section Texts

-- model_dump_json of a chunk, and its inverse on the client's side.
variable (dump : ChatCompletionStreamChunk → String) (undump : String → Option ChatCompletionStreamChunk)

def StreamEvent.payload : StreamEvent → String
  | .data chunk => dump chunk
  | .done => "[DONE]"

def StreamEvent.text (event : StreamEvent) : String := "data: " ++ event.payload dump ++ "\n\n"

def streamText (events : List StreamEvent) : List Char := events.flatMap fun event => (event.text dump).toList

def ChatCompletionStreamChunk.text (chunk : ChatCompletionStreamChunk) : String :=
  String.join (chunk.choices.map fun choice => choice.delta.content.getD "")

-- A client takes the chunks up to the end marker, without which the answer is cut off.
def readCompletion : List String → Option (List ChatCompletionStreamChunk)
  | [] => none
  | payload :: rest =>
      if payload = "[DONE]" then some []
      else do
        let chunk ← undump payload
        let chunks ← readCompletion rest
        some (chunk :: chunks)

-- What is relied on of the JSON of the chunks: it is an object on one line, and read back.
structure JsonText (events : List StreamEvent) : Prop where
  oneLine : ∀ chunk, .data chunk ∈ events → EventStream.OneLine (dump chunk).toList
  object : ∀ chunk, .data chunk ∈ events → dump chunk ≠ "[DONE]"
  reads : ∀ chunk, .data chunk ∈ events → undump (dump chunk) = some chunk

theorem event_frame (event : StreamEvent) : (event.text dump).toList = EventStream.frame (event.payload dump).toList := by
  rw [StreamEvent.text, EventStream.frame, String.toList_append, String.toList_append]
  simp

theorem stream_frames (events : List StreamEvent) :
    streamText dump events = (events.map fun event => (event.payload dump).toList).flatMap EventStream.frame := by
  rw [streamText, List.flatMap_map]
  exact List.flatMap_congr fun event _ => event_frame dump event

theorem payload_one_line (events : List StreamEvent) (json : JsonText dump undump events) (event : StreamEvent)
    (member : event ∈ events) : EventStream.OneLine (event.payload dump).toList := by
  cases event with
  | data chunk => exact json.oneLine chunk member
  | done => exact ⟨by change '\n' ∉ "[DONE]".toList; decide, by change '\r' ∉ "[DONE]".toList; decide⟩

theorem stream_payloads (events : List StreamEvent) (json : JsonText dump undump events) (pieces : List (List Char))
    (whole : pieces.flatten = streamText dump events) :
    ((pieces.foldl EventStream.Reader.read {}).events.map String.ofList) = events.map fun event => event.payload dump := by
  have single : ∀ payload ∈ events.map fun event => (event.payload dump).toList, EventStream.OneLine payload := by
    intro payload member
    obtain ⟨event, inside, rfl⟩ := List.mem_map.mp member
    exact payload_one_line dump undump events json event inside
  rw [EventStream.read_pieces _ single pieces (whole.trans (stream_frames dump events)), List.map_map]
  exact List.map_congr_left fun event _ => String.ofList_toList

def closedStream (chunks : List ChatCompletionStreamChunk) : List StreamEvent := chunks.map StreamEvent.data ++ [StreamEvent.done]

theorem completion_read (chunks : List ChatCompletionStreamChunk) (json : JsonText dump undump (closedStream chunks)) :
    readCompletion undump ((closedStream chunks).map fun event => event.payload dump) = some chunks := by
  induction chunks with
  | nil => rfl
  | cons chunk chunks ih =>
      have rest := ih ⟨fun other member => json.oneLine other (List.mem_cons_of_mem _ member),
        fun other member => json.object other (List.mem_cons_of_mem _ member),
        fun other member => json.reads other (List.mem_cons_of_mem _ member)⟩
      have first : (closedStream (chunk :: chunks)).map (fun event => event.payload dump) =
          dump chunk :: (closedStream chunks).map fun event => event.payload dump := rfl
      rw [first, readCompletion, if_neg (json.object chunk List.mem_cons_self), json.reads chunk List.mem_cons_self, rest]
      rfl

theorem response_closed (reqId model : String) (output : GenerationOutput) :
    ∃ chunks, streamResponse reqId model output = closedStream chunks ∧
      String.join (chunks.map ChatCompletionStreamChunk.text) = output.text ∧
      ∀ chunk ∈ chunks, chunk.id = reqId ∧ chunk.model = model := by
  refine ⟨[_, _], rfl, ?_, ?_⟩
  · simp [ChatCompletionStreamChunk.text, String.join]
  · intro chunk member
    rcases List.mem_cons.mp member with rfl | last
    · exact ⟨rfl, rfl⟩
    · obtain rfl := List.mem_singleton.mp last
      exact ⟨rfl, rfl⟩

end Texts

theorem stream_content (handler : Handler) (output : GenerationOutput) (events : List StreamEvent)
    (shape : Content.eventStream events = handler.content output) :
    events = streamResponse handler.reqId handler.body.model output := by
  rw [Handler.content] at shape
  split at shape
  · exact Content.eventStream.inj shape
  · cases shape

-- What a client reads from a streamed answer, in whatever pieces it arrives, is exactly the
-- chunks that _stream_response made of the output of its own request, and their text is that
-- output's: whatever it looks like, no part of it is taken for the framing of the stream.
theorem streamed_answer {V : Type} (torch : Torch V) (app : App V) (decodes : Decodes app.loaded.tokenizer)
    (maxBatch maxWaiting : Nat) (r : ServerRun)
    (reach : Transition.Reachable (InitialServer maxBatch maxWaiting) (ServerStep torch app) r) (handler : Handler)
    (member : handler ∈ r.server.handlers) (events : List StreamEvent)
    (ended : handler.ending = some (.response (.eventStream events))) (dump : ChatCompletionStreamChunk → String)
    (undump : String → Option ChatCompletionStreamChunk) (json : JsonText dump undump events) (pieces : List (List Char))
    (whole : pieces.flatten = streamText dump events) :
    ∃ output chunks, Answer torch app (Stepped torch app) (fun _ => True) r.server.engine.scheduler handler output ∧
      events = streamResponse handler.reqId handler.body.model output ∧ events = closedStream chunks ∧
      readCompletion undump ((pieces.foldl EventStream.Reader.read {}).events.map String.ofList) = some chunks ∧
      String.join (chunks.map ChatCompletionStreamChunk.text) = output.text ∧
      (∀ chunk ∈ chunks, chunk.id = handler.reqId ∧ chunk.model = handler.body.model) ∧
      ∃ rendered promptIds attn, app.applyChatTemplate handler.body.messages = .ok rendered ∧
        app.encode rendered = .ok (promptIds, attn) ∧
        OwnOutput app.loaded promptIds handler.body.chosenGenLength.toNat output := by
  have origins := reachable_origins torch app decodes maxBatch maxWaiting r reach
  obtain ⟨output, answer, shape⟩ := (origins handler member).answered _ ended
  obtain ⟨promptIds, attn, params, poses, own⟩ := answer_own_output torch app _ handler output answer
  obtain ⟨rendered, renders, encodes⟩ := poses.encoded
  obtain ⟨drawn, rfl⟩ := poses.params
  have made := stream_content handler output events shape
  obtain ⟨chunks, closed, text, ids⟩ := response_closed handler.reqId handler.body.model output
  rw [← made] at closed
  have payloads := stream_payloads dump undump _ json pieces whole
  refine ⟨output, chunks, answer, made, closed, ?_, text, ids, rendered, promptIds, attn, renders, encodes, own⟩
  rw [payloads, closed]
  rw [closed] at json
  exact completion_read dump undump chunks json

-- The JSON of a chunk whose texts need no escapes.
def plainJson (chunk : ChatCompletionStreamChunk) : List Char :=
  let quoted (text : String) : List Char := '"' :: text.toList ++ ['"']
  let choice (choice : ChatCompletionStreamChoice) : List Char :=
    "\x7b\"index\":".toList ++ (toString choice.index).toList ++ ",\"delta\":\x7b\"role\":".toList ++
      (if choice.delta.role.isSome then quoted "assistant" else "null".toList) ++ ",\"content\":".toList ++
      (choice.delta.content.map quoted).getD "null".toList ++ ",\"denoising_step\":".toList ++
      (choice.delta.denoisingStep.map fun step => (toString step).toList).getD "null".toList ++
      "\x7d,\"finish_reason\":".toList ++ (if choice.finishReason.isSome then quoted "stop" else "null".toList) ++
      "\x7d".toList
  "\x7b\"id\":".toList ++ quoted chunk.id ++ ",\"object\":".toList ++ quoted chunk.object ++ ",\"model\":".toList ++
    quoted chunk.model ++ ",\"choices\":[".toList ++ List.intercalate [','] (chunk.choices.map choice) ++ "]\x7d".toList

def streamedBody : ChatCompletionRequest := { tokenBody false with stream := true }

def streamedRun : ServerRun :=
  servesFrom writtenTorch writtenApp (idleServer 2 2) [.request "a" streamedBody 0 .ample, .iterate false lowDraw, .wake 0]

def streamedEvents : List StreamEvent := streamResponse "a" streamedBody.model ⟨[2], [2], "decoded"⟩

def streamedHandler : Handler :=
  { reqId := "a"
    body := streamedBody
    awaits := some (.gather 0)
    ending := some (.response (.eventStream streamedEvents))
    admitted := 1
    released := 1 }

def streamedChunks : List ChatCompletionStreamChunk := streamedEvents.filterMap fun event =>
  if let .data chunk := event then some chunk else none

def plainJsonText (chunk : ChatCompletionStreamChunk) : String := String.ofList (plainJson chunk)

def plainJsonReads (text : String) : Option ChatCompletionStreamChunk :=
  streamedChunks.find? fun chunk => plainJson chunk = text.toList

theorem plain_json_text : JsonText plainJsonText plainJsonReads streamedEvents := by
  have each : ∀ chunk ∈ streamedChunks, '\n' ∉ plainJson chunk ∧ '\r' ∉ plainJson chunk ∧
      plainJson chunk ≠ "[DONE]".toList ∧
      (streamedChunks.find? fun other => plainJson other = plainJson chunk) = some chunk := by decide +kernel
  have listed (chunk : ChatCompletionStreamChunk) (member : StreamEvent.data chunk ∈ streamedEvents) :
      chunk ∈ streamedChunks := List.mem_filterMap.mpr ⟨.data chunk, member, rfl⟩
  have chars (chunk : ChatCompletionStreamChunk) : (plainJsonText chunk).toList = plainJson chunk := String.toList_ofList
  refine ⟨fun chunk member => ?_, fun chunk member same => ?_, fun chunk member => ?_⟩
  · obtain ⟨feeds, returns, _⟩ := each chunk (listed chunk member)
    rw [EventStream.OneLine, chars]
    exact ⟨feeds, returns⟩
  · exact (each chunk (listed chunk member)).2.2.1 ((chars chunk).symm.trans (congrArg String.toList same))
  · rw [plainJsonReads, chars]
    exact (each chunk (listed chunk member)).2.2.2

theorem streamed_answer_by_characters : ∃ output chunks, streamedEvents = streamResponse "a" streamedBody.model output ∧
    streamedEvents = closedStream chunks ∧
    readCompletion plainJsonReads ((((streamText plainJsonText streamedEvents).map fun c => [c]).foldl
      EventStream.Reader.read {}).events.map String.ofList) = some chunks ∧
    String.join (chunks.map ChatCompletionStreamChunk.text) = output.text := by
  have served : streamedRun.server.handlers = [streamedHandler] := by decide +kernel
  obtain ⟨output, chunks, _, made, closed, read, text, _⟩ :=
    streamed_answer writtenTorch writtenApp written_decodes 2 2 streamedRun (serves_reachable writtenTorch writtenApp 2 2 _)
      streamedHandler (by rw [served]; exact List.mem_singleton_self _) streamedEvents rfl plainJsonText plainJsonReads
      plain_json_text ((streamText plainJsonText streamedEvents).map fun c => [c])
      (by rw [← List.flatMap_def]; exact List.flatMap_singleton' _)
  exact ⟨output, chunks, made, closed, read, text⟩

end Dlmserve
