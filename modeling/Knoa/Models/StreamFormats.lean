import Knoa.Models.StreamAccumulators

/-!
# How the wire formats carry a response

A response as the model gives it, and the event streams that carry it over each of the three
formats, however it is cut and mixed.
-/
namespace Knoa.Models

/-- The arguments that the model gives with a call. -/
inductive Arguments
  | object (fields : List (String × Json))
  | absent
  /-- A text that is cut off, or that is no JSON object. -/
  | broken (text : String) (other : ∀ fields, Json.loads text.toList ≠ some (.obj fields))

structure LogicalCall where
  id : String
  name : String
  arguments : Arguments
  idFits : fits id
  nameFits : fits name

inductive ResponseEnding
  | finished
  /-- The response reached the limit of its tokens. -/
  | truncated
  /-- The provider withheld the rest. -/
  | refused
  /-- The connection ended before the response did. -/
  | lost (connection : Connection)

structure LogicalResponse where
  text : String
  calls : List LogicalCall
  ending : ResponseEnding

def Arguments.isBroken : Arguments → Bool
  | .broken _ _ => true
  | _ => false

def Arguments.Text : Arguments → String → Prop
  | .object fields, text => Json.loads text.toList = some (.obj fields)
  | .absent, text => text = ""
  | .broken given _, text => text = given

def LogicalCall.executable (call : LogicalCall) : Option ProposedToolCall :=
  match call.arguments with
  | .object fields => some { callId := call.id, name := call.name, arguments := fields }
  | .absent => some { callId := call.id, name := call.name, arguments := [] }
  | .broken _ _ => none

def ChatChunk.content (chunk : ChatChunk) : String := chunk.choice.elim "" ChatChoice.content

def ChatChunk.reason (chunk : ChatChunk) : String := chunk.choice.elim "" ChatChoice.finishReason

def ChatChunk.updates (chunk : ChatChunk) : List (Int × ChatCallDelta) :=
  (chunk.choice.elim [] ChatChoice.toolCalls).map fun delta => (delta.index, delta)

def chatContent (body : List ChatChunk) : String := String.join (body.map ChatChunk.content)

def chatUpdates (body : List ChatChunk) : List (Int × ChatCallDelta) :=
  body.flatMap ChatChunk.updates

/-- The finish reasons that are given. -/
def chatReasons (body : List ChatChunk) : List String :=
  (body.map ChatChunk.reason).filter (· != "")

structure ChatCall (deltas : List ChatCallDelta) (call : LogicalCall) : Prop where
  given : ∃ delta ∈ deltas, delta.id = call.id
  only : ∀ delta ∈ deltas, delta.id = "" ∨ delta.id = call.id
  name : String.join (deltas.map ChatCallDelta.name) = call.name
  arguments : call.arguments.Text (String.join (deltas.map ChatCallDelta.arguments))

/-- `order` is the order in which the indexes of the calls first come. -/
structure ChatCarries (r : LogicalResponse) (order : List LogicalCall) (body : List ChatChunk)
    (reason : String) : Prop where
  content : chatContent body = r.text
  reason : (chatReasons body).getLast? = some reason
  each : List.Forall₂ (fun index call => ChatCall (KeyedFold.own index (chatUpdates body)) call)
    (KeyedFold.keys (chatUpdates body)) order
  all : order.Perm r.calls

def chatReason (r : LogicalResponse) : List String :=
  match r.ending with
  | .finished => ["stop", "eos"] ++ if r.calls.isEmpty then [] else ["tool_calls"]
  | .truncated => ["length"]
  | .refused => ["content_filter"]
  | .lost _ => []

inductive ChatStream (r : LogicalResponse) (order : List LogicalCall) :
    List ChatLine → Connection → Prop
  | done {body reason} (rest : List ChatLine) (connection : Connection)
      (carries : ChatCarries r order body reason) (ends : reason ∈ chatReason r) :
      ChatStream r order (body.map .data ++ .done :: rest) connection
  | closed {body reason} (carries : ChatCarries r order body reason) (ends : reason ∈ chatReason r) :
      ChatStream r order (body.map .data) .closed
  | lost {body connection} (ending : r.ending = .lost connection)
      (content : chatContent body = r.text) (silent : chatReasons body = []) :
      ChatStream r order (body.map .data) connection

def AnthropicEvent.index : AnthropicEvent → Option Int
  | .contentBlockStart index _ | .contentBlockDelta index _ | .contentBlockStop index => some index
  | _ => none

def AnthropicEvent.content : AnthropicEvent → String
  | .contentBlockDelta _ (.text text) => text
  | _ => ""

def AnthropicEvent.stopReason : AnthropicEvent → Option String
  | .messageDelta stopReason _ => some stopReason
  | _ => none

def AnthropicEvent.stopped : AnthropicEvent → Option Int
  | .contentBlockStop index => some index
  | _ => none

def AnthropicEvent.kind : AnthropicEvent → Option String
  | .contentBlockStart _ block => some block.kind
  | .contentBlockDelta _ delta => some delta.kind
  | _ => none

def AnthropicEvent.isStop : AnthropicEvent → Bool
  | .messageStop => true
  | _ => false

def ToolBlock (body : List AnthropicEvent) (index : Int) (call : LogicalCall) : Prop :=
  ∃ fragments : List String, call.arguments.Text (String.join fragments) ∧
    body.filter (fun event => event.index = some index) =
      .contentBlockStart index { kind := "tool_use", id := call.id, name := call.name } ::
        (fragments.map fun fragment => .contentBlockDelta index (.inputJson fragment)) ++
        [.contentBlockStop index]

def anthropicContent (body : List AnthropicEvent) : String :=
  String.join (body.map AnthropicEvent.content)

/-- `order` is the order in which the content blocks of the calls stop. -/
structure AnthropicCarries (r : LogicalResponse) (order : List LogicalCall)
    (body : List AnthropicEvent) (reason : String) : Prop where
  content : anthropicContent body = r.text
  reason : (body.filterMap AnthropicEvent.stopReason).getLast? = some reason
  still : ∀ event ∈ body, event.isStop = false
  each : ∃ indexes : List Int, List.Forall₂ (ToolBlock body) indexes order ∧
    (body.filterMap AnthropicEvent.stopped).filter (· ∈ indexes) = indexes ∧
    ∀ event ∈ body, event.kind = some "tool_use" → ∃ index ∈ indexes, event.index = some index
  all : order.Perm r.calls

def anthropicReason (r : LogicalResponse) : List String :=
  match r.ending with
  | .finished => ["end_turn", "stop_sequence"] ++ if r.calls.isEmpty then [] else ["tool_use"]
  | .truncated => ["max_tokens"]
  | .refused => ["refusal"]
  | .lost _ => []

inductive AnthropicStream (r : LogicalResponse) (order : List LogicalCall) :
    List AnthropicEvent → Connection → Prop
  | stopped {body reason} (rest : List AnthropicEvent) (connection : Connection)
      (carries : AnthropicCarries r order body reason) (ends : reason ∈ anthropicReason r) :
      AnthropicStream r order (body ++ .messageStop :: rest) connection
  | lost {body connection} (ending : r.ending = .lost connection)
      (content : anthropicContent body = r.text) (still : ∀ event ∈ body, event.isStop = false) :
      AnthropicStream r order body connection

def ResponsesEvent.content : ResponsesEvent → String
  | .outputTextDelta delta => delta
  | _ => ""

def ResponsesEvent.update : ResponsesEvent → Option (Int × CallUpdate)
  | .outputItemAdded index callId name => some (index, .added callId name)
  | .functionCallArgumentsDelta index delta => some (index, .argumentsDelta delta)
  | .functionCallArgumentsDone index arguments => some (index, .argumentsDone arguments)
  | _ => none

def responsesUpdates (body : List ResponsesEvent) : List (Int × CallUpdate) :=
  body.filterMap ResponsesEvent.update

def CallUpdate.fragment : CallUpdate → String
  | .argumentsDelta delta => delta
  | _ => ""

def ArgumentUpdates (updates : List CallUpdate) (text : String) : Prop :=
  ∃ before after, updates = before ++ after ∧
    (∀ arguments, .argumentsDone arguments ∉ before) ∧ (∀ delta, .argumentsDelta delta ∉ after) ∧
    (∀ whole, .argumentsDone (some whole) ∈ after → whole = text) ∧
    (String.join (before.map CallUpdate.fragment) = text ∨ .argumentsDone (some text) ∈ after)

structure ResponsesCall (updates : List CallUpdate) (call : LogicalCall) : Prop where
  id : ∃ name, .added call.id name ∈ updates
  name : ∃ id, .added id call.name ∈ updates
  only : ∀ id name, .added id name ∈ updates →
    (id = "" ∨ id = call.id) ∧ (name = "" ∨ name = call.name)
  arguments : ∃ text, call.arguments.Text text ∧ ArgumentUpdates updates text

def responsesContent (body : List ResponsesEvent) : String :=
  String.join (body.map ResponsesEvent.content)

/-- `order` is the order of the output indexes of the calls. -/
structure ResponsesCarries (r : LogicalResponse) (order : List LogicalCall)
    (body : List ResponsesEvent) : Prop where
  content : responsesContent body = r.text
  still : ∀ event ∈ body, event.terminal = false
  each : List.Forall₂
    (fun index call => ResponsesCall (KeyedFold.own index (responsesUpdates body)) call)
    ((KeyedFold.keys (responsesUpdates body)).insertionSort (· ≤ ·)) order
  all : order.Perm r.calls

def ResponseEnding.Last : ResponseEnding → ResponsesEvent → Prop
  | .finished, .completed _ => True
  | .truncated, .incomplete reason => reason = "max_output_tokens"
  | .refused, .incomplete reason => reason = "content_filter"
  | _, _ => False

inductive ResponsesStream (r : LogicalResponse) (order : List LogicalCall) :
    List ResponsesEvent → Connection → Prop
  | ended {body last} (rest : List ResponsesEvent) (connection : Connection)
      (carries : ResponsesCarries r order body) (ends : r.ending.Last last) :
      ResponsesStream r order (body ++ last :: rest) connection
  | lost {body connection} (ending : r.ending = .lost connection)
      (content : responsesContent body = r.text)
      (still : ∀ event ∈ body, event.terminal = false) :
      ResponsesStream r order body connection

structure Outcome where
  content : String
  calls : List ProposedToolCall
  finish : List FinishReason

def outcome (chunks : List ProviderChunk) : Outcome where
  content := String.join (chunks.map ProviderChunk.contentDelta)
  calls := chunks.flatMap ProviderChunk.toolCalls
  finish := (chunks.filter ProviderChunk.terminal).map ProviderChunk.finishReason

structure Agree (r : LogicalResponse) (chat anthropic responses : Outcome) : Prop where
  same : (∀ call ∈ r.calls, call.arguments.isBroken = false) →
    chat = anthropic ∧ anthropic = responses
  sound : ∀ yielded ∈ [chat, anthropic, responses],
    yielded.calls.Subperm (r.calls.filterMap LogicalCall.executable)

end Knoa.Models
