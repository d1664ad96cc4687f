import Knoa.Library.KeyedFold
import Knoa.Models.ModelStep
import Knoa.Runtime.ToolInventory

/-!
# The streams of `HttpModelProvider`

The three accumulators of provider events, and what the provider yields for the lines of a
connection over each of them.
-/
namespace Knoa.Models

open Knoa.Runtime (strip)

/-- An entry of `delta_tool_calls`. -/
structure RawCall where
  id : String
  name : String
  arguments : Json

structure StreamChunk where
  deltaContent : String := ""
  deltaThinking : String := ""
  deltaToolCalls : List RawCall := []
  finishReason : String := ""
  usage : List (String × Json) := []

structure CallParts where
  id : String := ""
  name : String := ""
  arguments : String := ""

def orElse (text other : String) : String := if text = "" then other else text

/-- `json.loads` of the arguments, and the text itself where it fails. -/
def loadedArguments (text : String) : Json := (Json.loads text.toList).getD (.str text)

/-- An entry of `tool_calls` in a `delta`. -/
structure ChatCallDelta where
  index : Int := 0
  id : String := ""
  name : String := ""
  arguments : String := ""

/-- `choices[0]` -/
structure ChatChoice where
  content : String := ""
  reasoningContent : String := ""
  thinking : String := ""
  toolCalls : List ChatCallDelta := []
  finishReason : String := ""

structure ChatChunk where
  choice : Option ChatChoice := none
  usage : List (String × Json) := []

structure OpenAIStreamAccumulator where
  accumulatedToolCalls : List (Int × CallParts) := []
  lastFinishReason : String := ""
  lastUsage : List (String × Json) := []

def CallParts.extend (parts : Option CallParts) (delta : ChatCallDelta) : CallParts :=
  let parts := parts.getD { id := delta.id }
  { id := orElse delta.id parts.id, name := parts.name ++ delta.name,
    arguments := parts.arguments ++ delta.arguments }

def OpenAIStreamAccumulator.processChunk (acc : OpenAIStreamAccumulator) (chunk : ChatChunk) :
    List StreamChunk × OpenAIStreamAccumulator :=
  let acc := if chunk.usage.isEmpty then acc else { acc with lastUsage := chunk.usage }
  match chunk.choice with
  | none => ([], acc)
  | some choice =>
    let thinking := orElse choice.reasoningContent choice.thinking
    (if choice.content = "" ∧ thinking = "" then []
      else [{ deltaContent := choice.content, deltaThinking := thinking }],
      { acc with
        accumulatedToolCalls :=
          (choice.toolCalls.map fun delta => (delta.index, delta)).foldl
            (KeyedFold.add CallParts.extend) acc.accumulatedToolCalls
        lastFinishReason := orElse choice.finishReason acc.lastFinishReason })

def OpenAIStreamAccumulator.finish (acc : OpenAIStreamAccumulator) : StreamChunk where
  deltaToolCalls := acc.accumulatedToolCalls.map fun row =>
    { id := row.2.id, name := row.2.name, arguments := loadedArguments row.2.arguments }
  finishReason := acc.lastFinishReason
  usage := acc.lastUsage

structure ContentBlock where
  kind : String
  id : String := ""
  name : String := ""
  text : String := ""
  partialJson : String := ""

inductive AnthropicDelta
  | text (text : String)
  | inputJson (partialJson : String)
  | other (kind : String)

def AnthropicDelta.kind : AnthropicDelta → String
  | .text _ => "text_delta"
  | .inputJson _ => "input_json_delta"
  | .other kind => kind

inductive AnthropicEvent
  | messageStart (usage : List (String × Json))
  | contentBlockStart (index : Int) (block : ContentBlock)
  | contentBlockDelta (index : Int) (delta : AnthropicDelta)
  | contentBlockStop (index : Int)
  | messageDelta (stopReason : String) (usage : List (String × Json))
  | messageStop
  | other

structure AnthropicStreamAccumulator where
  contentBlocks : List (Int × ContentBlock) := []
  lastStopReason : String := ""
  lastUsage : List (String × Json) := []

inductive BlockUpdate
  | start (block : ContentBlock)
  | delta (delta : AnthropicDelta)

def ContentBlock.update (block : Option ContentBlock) : BlockUpdate → ContentBlock
  | .start started => started
  | .delta delta =>
    let block := block.getD { kind := delta.kind }
    match delta with
    | .text text => { block with text := block.text ++ text }
    | .inputJson partialJson => { block with partialJson := block.partialJson ++ partialJson }
    | .other _ => block

def ContentBlock.toolCall (block : ContentBlock) : RawCall where
  id := block.id
  name := block.name
  arguments :=
    if block.partialJson = "" then .obj []
    else (Json.loads block.partialJson.toList).getD (.obj [])

def AnthropicStreamAccumulator.process (acc : AnthropicStreamAccumulator) :
    AnthropicEvent → List StreamChunk × AnthropicStreamAccumulator
  | .messageStart usage => ([], { acc with lastUsage := usage })
  | .contentBlockStart index block =>
    ([], { acc with
      contentBlocks := KeyedFold.add ContentBlock.update acc.contentBlocks (index, .start block) })
  | .contentBlockDelta index delta =>
    (match delta with
      | .text text => [{ deltaContent := text }]
      | _ => [],
      { acc with
        contentBlocks := KeyedFold.add ContentBlock.update acc.contentBlocks
          (index, .delta delta) })
  | .contentBlockStop index =>
    (match KeyedFold.get index acc.contentBlocks with
      | some block =>
        if block.kind = "tool_use" then [{ deltaToolCalls := [block.toolCall] }] else []
      | none => [],
      acc)
  | .messageDelta stopReason usage =>
    ([], { acc with
      lastStopReason := stopReason
      lastUsage := usage.foldl (fun old field => Json.setField field.1 field.2 old) acc.lastUsage })
  | .messageStop => ([{ finishReason := acc.lastStopReason, usage := acc.lastUsage }], acc)
  | .other => ([], acc)

inductive ResponsesEvent
  | outputTextDelta (delta : String)
  | reasoningSummaryTextDelta (delta : String)
  /-- `response.output_item.added` with a `function_call` -/
  | outputItemAdded (index : Int) (callId name : String)
  | functionCallArgumentsDelta (index : Int) (delta : String)
  | functionCallArgumentsDone (index : Int) (arguments : Option String)
  | completed (usage : List (String × Json))
  | incomplete (reason : String)
  /-- `response.failed` or `error` -/
  | failed
  | other

structure ResponsesStreamAccumulator where
  calls : List (Int × CallParts) := []
  usage : List (String × Json) := []
  failed : Bool := false
  incompleteReason : String := ""

/-- What an event makes of a call. -/
inductive CallUpdate
  | added (callId name : String)
  | argumentsDelta (delta : String)
  | argumentsDone (arguments : Option String)

def CallParts.update (call : Option CallParts) (update : CallUpdate) : CallParts :=
  let call := call.getD {}
  match update with
  | .added callId name => { call with id := orElse callId call.id, name := orElse name call.name }
  | .argumentsDelta delta => { call with arguments := call.arguments ++ delta }
  | .argumentsDone arguments => { call with arguments := arguments.getD call.arguments }

def fieldOr (fields : List (String × Json)) (key : String) : Json :=
  (fields.lookup key).getD (.int 0)

def ResponsesStreamAccumulator.processEvent (acc : ResponsesStreamAccumulator) :
    ResponsesEvent → List StreamChunk × ResponsesStreamAccumulator
  | .outputTextDelta delta => (if delta = "" then [] else [{ deltaContent := delta }], acc)
  | .reasoningSummaryTextDelta delta => (if delta = "" then [] else [{ deltaThinking := delta }], acc)
  | .outputItemAdded index callId name =>
    ([], { acc with calls := KeyedFold.add CallParts.update acc.calls (index, .added callId name) })
  | .functionCallArgumentsDelta index delta =>
    ([], { acc with
      calls := KeyedFold.add CallParts.update acc.calls (index, .argumentsDelta delta) })
  | .functionCallArgumentsDone index arguments =>
    ([], { acc with
      calls := KeyedFold.add CallParts.update acc.calls (index, .argumentsDone arguments) })
  | .completed usage =>
    ([], { acc with
      usage :=
        if usage.isEmpty then acc.usage
        else
          [("prompt_tokens", fieldOr usage "input_tokens"),
            ("completion_tokens", fieldOr usage "output_tokens"),
            ("total_tokens", fieldOr usage "total_tokens")] })
  | .incomplete reason => ([], { acc with incompleteReason := reason })
  | .failed => ([], { acc with failed := true })
  | .other => ([], acc)

/-- The calls in the order of their indexes, without those of which nothing has come. -/
def ResponsesStreamAccumulator.toolCalls (acc : ResponsesStreamAccumulator) : List CallParts :=
  ((acc.calls.insertionSort fun a b => a.1 ≤ b.1).map Prod.snd).filter
    fun call => call.name != "" || call.arguments != ""

def ResponsesStreamAccumulator.finish (acc : ResponsesStreamAccumulator) : StreamChunk where
  deltaToolCalls := acc.toolCalls.map fun call =>
    { id := call.id, name := call.name,
      arguments := if call.arguments = "" then .str "" else loadedArguments call.arguments }
  finishReason :=
    if acc.failed then "error"
    else if acc.toolCalls ≠ [] then "tool_calls"
    else if acc.incompleteReason = "max_output_tokens" then "length"
    else "stop"
  usage := acc.usage

/-- `str.lower`, as far as its result is an ASCII letter. -/
def lower (c : Char) : Char := if c.toNat = 0x212a then 'k' else c.toLower

def finishReason (raw : String) : FinishReason :=
  match (strip raw).toList.map lower |> String.ofList with
  | "stop" | "end_turn" | "stop_sequence" | "eos" => .stop
  | "tool_calls" | "tool_use" => .toolCalls
  | "length" | "max_tokens" => .length
  | _ => .error

def proposedArguments : Json → Option (List (String × Json))
  | .obj fields => some fields
  | .str text =>
    match Json.loads text.toList with
    | some (.obj fields) => some fields
    | _ => none
  | _ => none

/-- The bounds of `call_id` and `name` of a `ProposedToolCall`. -/
def fits (text : String) : Prop := 1 ≤ text.length ∧ text.length ≤ 256

instance (text : String) : Decidable (fits text) := inferInstanceAs (Decidable (_ ∧ _))

def proposedToolCall (raw : RawCall) : Option ProposedToolCall := do
  let arguments ← proposedArguments raw.arguments
  if fits raw.id ∧ fits raw.name then
    return { callId := raw.id, name := raw.name, arguments }
  else none

/-- `_tool_calls`; `none` where it raises. -/
def toolCalls (rawCalls : List RawCall) : Option (List ProposedToolCall) :=
  rawCalls.mapM proposedToolCall

def errorChunk (model code : String) : ProviderChunk := .failure code model

theorem finishReason_ne_none (raw : String) : finishReason raw ≠ .none := by
  unfold finishReason
  split
  all_goals decide

def terminalReason (raw : String) (calls : List ProposedToolCall) : FinishReason :=
  if calls ≠ [] ∧ finishReason raw = .stop then .toolCalls else finishReason raw

theorem terminalReason_ne_none (raw : String) (calls : List ProposedToolCall) :
    terminalReason raw calls ≠ .none := by
  unfold terminalReason
  split
  · decide
  · exact finishReason_ne_none raw

/-- `_terminal_chunk` -/
def terminalChunk (model raw : String) (rawCalls : List RawCall) (usage : List (String × Json)) :
    ProviderChunk :=
  match toolCalls rawCalls with
  | none => errorChunk model "provider_protocol_error"
  | some calls =>
    { toolCalls := calls, finishReason := terminalReason raw calls, usage, terminal := true,
      errorCode := if terminalReason raw calls = .error then "provider_failed" else "",
      providerModel := model, calls := fun _ => rfl,
      finished := fun _ => terminalReason_ne_none raw calls, failed := fun _ => rfl }

def passOn (chunk : StreamChunk) : List ProviderChunk :=
  (if chunk.deltaContent = "" then []
    else [{ ProviderChunk.silent with contentDelta := chunk.deltaContent }]) ++
    if chunk.deltaThinking = "" then []
    else [{ ProviderChunk.silent with reasoningDelta := chunk.deltaThinking }]

/-- How the lines of a connection end. -/
inductive Connection
  | closed
  | raised (errorCode : String)

section
variable (model : String) (connection : Connection)

inductive ChatLine
  | data (chunk : ChatChunk)
  /-- `[DONE]` -/
  | done

/-- `_stream_openai` -/
def streamOpenAI (acc : OpenAIStreamAccumulator) : List ChatLine → List ProviderChunk
  | [] =>
    match connection with
    | .closed =>
      if acc.lastFinishReason = "" then []
      else
        let terminal := acc.finish
        [terminalChunk model terminal.finishReason terminal.deltaToolCalls terminal.usage]
    | .raised code => [errorChunk model code]
  | .done :: _ =>
    let terminal := acc.finish
    [terminalChunk model terminal.finishReason terminal.deltaToolCalls terminal.usage]
  | .data chunk :: lines =>
    let (chunks, acc) := acc.processChunk chunk
    chunks.flatMap passOn ++ streamOpenAI acc lines

/-- What a closed or a broken connection leaves to be yielded where nothing is kept of it. -/
def interrupted : List ProviderChunk :=
  match connection with
  | .closed => []
  | .raised code => [errorChunk model code]

/-- `_stream_anthropic`; an event brings at most one chunk. -/
def streamAnthropic (acc : AnthropicStreamAccumulator) (calls : List RawCall) :
    List AnthropicEvent → List ProviderChunk
  | [] => interrupted model connection
  | event :: events =>
    let (chunks, acc) := acc.process event
    let calls := calls ++ chunks.flatMap StreamChunk.deltaToolCalls
    chunks.flatMap passOn ++
      match chunks.find? fun chunk => chunk.finishReason != "" with
      | some chunk => [terminalChunk model chunk.finishReason calls chunk.usage]
      | none => streamAnthropic acc calls events

/-- The events after which `_stream_responses` returns. -/
def ResponsesEvent.terminal : ResponsesEvent → Bool
  | .completed _ | .incomplete _ | .failed => true
  | _ => false

/-- `_stream_responses` -/
def streamResponses (acc : ResponsesStreamAccumulator) :
    List ResponsesEvent → List ProviderChunk
  | [] => interrupted model connection
  | event :: events =>
    let (chunks, acc) := acc.processEvent event
    chunks.flatMap passOn ++
      if event.terminal then
        let terminal := acc.finish
        [terminalChunk model terminal.finishReason terminal.deltaToolCalls terminal.usage]
      else streamResponses acc events

end

/-- The exceptions that `_provider_error_code` tells apart. -/
inductive ProviderFault
  | status (code : Nat)
  | timeout
  | connect
  | malformed
  | other

def providerErrorCode : ProviderFault → String
  | .status code =>
    if 100 ≤ code ∧ code ≤ 599 then "provider_http_" ++ toString code else "provider_failed"
  | .timeout => "provider_timeout"
  | .connect => "provider_unreachable"
  | .malformed => "provider_protocol_error"
  | .other => "provider_failed"

/-- What `HttpModelProvider.stream` comes to. -/
inductive ProviderReply
  /-- The vision profile refuses the messages. -/
  | unsupportedInput
  /-- `normalize_image_messages` raises. -/
  | imageInputRejected
  | openAI (lines : List ChatLine) (fault : Option ProviderFault)
  | anthropic (events : List AnthropicEvent) (fault : Option ProviderFault)
  | responses (events : List ResponsesEvent) (fault : Option ProviderFault)

def connectionOf : Option ProviderFault → Connection
  | none => .closed
  | some fault => .raised (providerErrorCode fault)

/-- `HttpModelProvider.stream` while it is not cancelled; a cancellation cuts it off. -/
def httpStream (model : String) : ProviderReply → List ProviderChunk
  | .unsupportedInput => [errorChunk model "unsupported_input"]
  | .imageInputRejected => [errorChunk model "image_input_rejected"]
  | .openAI lines fault => streamOpenAI model (connectionOf fault) {} lines
  | .anthropic events fault => streamAnthropic model (connectionOf fault) {} [] events
  | .responses events fault => streamResponses model (connectionOf fault) {} events

end Knoa.Models
