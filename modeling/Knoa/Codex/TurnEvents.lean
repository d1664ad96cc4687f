import Knoa.Runtime.ToolInventory
import Knoa.Tasks.Repository

/-!
# The events of a Codex Turn

What `_events` makes of one message of the App Server, what is asked of the user and what becomes
of the answer.
-/
namespace Knoa.Codex

open Knoa.Runtime (lookup truthy)
open Knoa.Tasks (strip takeChars)

inductive TurnStatus
  | completed
  | interrupted
  | failed
  | outcomeUnknown
  deriving DecidableEq

inductive ToolCallStatus
  | completed
  | rejected
  | failed
  | notExecuted
  deriving DecidableEq

inductive InteractionKind
  | userInput
  | mcpElicitation
  deriving DecidableEq

inductive TurnEvent
  | assistantDelta (content : String)
  | reasoningSummaryDelta (content : String)
  | planChanged (content : String)
  | usageReported (usage : List (String × Json))
  | toolCallStarted (toolCallId toolName : String) (arguments : Json)
  | toolCallFinished (toolCallId toolName : String) (status : ToolCallStatus) (code : String)
      (output : Json)
  | contextCompacted (stateVersion : String)
  | runtimeWarning (code message : String)
  | interactionRequested (interactionId : String) (interactionEpoch : Nat) (kind : InteractionKind)
      (display resolutionSchema : Json)
  | turnFinished (status : TurnStatus) (finalOutput errorCode : String)

structure RuntimeTurnEvent where
  sourceEventId : Option String := none
  event : TurnEvent

def RuntimeTurnEvent.IsFinish (event : RuntimeTurnEvent) : Prop :=
  ∃ status output code, event.event = .turnFinished status output code

inductive Response
  | result (value : Json)
  | error (code : Int) (message : String)

inductive Reaction
  | skip
  | emit (event : RuntimeTurnEvent)
  | respond (id : Json) (response : Response) (warning : Option RuntimeTurnEvent)
  | interact (id : Json) (method : String) (kind : InteractionKind)
  | finish (event : RuntimeTurnEvent)

/-- One Turn, with what Python and the contract models make of values. -/
structure TurnContext where
  turnId : String
  /-- `str` of a value that is not a string. -/
  str : Json → String
  /-- `Identifier`; `none` is a validation error. -/
  identifier : String → Option String
  /-- `NonEmpty` -/
  nonEmpty : String → Option String

namespace TurnContext
variable (context : TurnContext)

/-- `str(value or default)` -/
def textOr (value : Option Json) (default : String) : String :=
  match value with
  | some (.str text) => if text = "" then default else text
  | some value => if truthy value then context.str value else default
  | none => default

def text (value : Option Json) : String := context.textOr value ""

/-- `str(value)` -/
def plain (value : Option Json) : String :=
  match value with
  | some (.str text) => text
  | some value => context.str value
  | none => context.str .null

/-- What the contract makes of an event. -/
def validated (event : RuntimeTurnEvent) : Option RuntimeTurnEvent := do
  let _ ← context.identifier context.turnId
  match event.event with
  | .usageReported usage =>
    if usage.any (fun entry => match entry.2 with | .bool _ => true | _ => false) then none
    else some event
  | .toolCallStarted toolCallId toolName arguments =>
    let toolCallId ← context.identifier toolCallId
    let toolName ← context.identifier toolName
    some { event with event := .toolCallStarted toolCallId toolName arguments }
  | .toolCallFinished toolCallId toolName status code output =>
    let toolCallId ← context.identifier toolCallId
    let toolName ← context.identifier toolName
    some { event with event := .toolCallFinished toolCallId toolName status code output }
  | .contextCompacted stateVersion =>
    let stateVersion ← context.nonEmpty stateVersion
    some { event with event := .contextCompacted stateVersion }
  | .runtimeWarning code message =>
    let code ← context.nonEmpty code
    some { event with event := .runtimeWarning code message }
  | .interactionRequested interactionId epoch kind display resolutionSchema =>
    let interactionId ← context.identifier interactionId
    some { event with
      event := .interactionRequested interactionId epoch kind display resolutionSchema }
  | _ => some event

def isObject : Option Json → Bool
  | some (.obj _) => true
  | _ => false

def paramsOf (message : Json) : Json :=
  match lookup "params" message with
  | some (.obj fields) => .obj fields
  | _ => .obj []

def methodOf (message : Json) : String := context.text (lookup "method" message)

/-- `_message_turn_id` -/
def messageTurnId (params : Json) : String :=
  if (lookup "turnId" params).any truthy then context.plain (lookup "turnId" params)
  else match lookup "turn" params with
    | some (.obj fields) => context.text (fields.lookup "id")
    | _ => ""

def ofTurn (message : Json) : Bool :=
  let turn := context.messageTurnId (paramsOf message)
  turn == "" || turn == context.turnId

/-- `_plan_text` -/
def planText (params : Json) : String :=
  match lookup "plan" params with
  | some (.arr plan) =>
    String.ofList ((Json.obj
      [("explanation", (lookup "explanation" params).getD .null), ("plan", .arr plan)]).dumps
        (Json.compact false))
  | _ => ""

def setKey (key : String) (value : Json) (fields : List (String × Json)) : List (String × Json) :=
  if (fields.lookup key).isSome then
    fields.map fun field => if field.1 = key then (key, value) else field
  else fields ++ [(key, value)]

def isScalar : Json → Bool
  | .int _ | .float _ | .str _ | .bool _ => true
  | _ => false

/-- `_flatten_usage` -/
def flattenUsage (usage : List (String × Json)) : List (String × Json) :=
  usage.foldl (fun result section_ =>
    match section_.2 with
    | .obj fields => fields.foldl (fun result field =>
      if isScalar field.2 then setKey s!"{section_.1}.{field.1}" field.2 result else result) result
    | value => if isScalar value then setKey section_.1 value result else result) []

def firstTrue (values : List (Option Json)) : Option Json :=
  (values.find? fun value => value.any truthy).getD (values.getLast?.getD none)

/-- `_item_event` -/
def itemEvent (method : String) (params : Json) : Option TurnEvent :=
  match lookup "item" params with
  | some (.obj fields) =>
    let item := Json.obj fields
    let itemType := context.text (lookup "type" item)
    let itemId := context.text (lookup "id" item)
    if itemType = "contextCompaction" ∧ method = "item/completed" then
      some (.contextCompacted (if itemId = "" then "codex" else itemId))
    else if itemType ∉ ["mcpToolCall", "commandExecution", "fileChange"] then none
    else
      let toolName :=
        if itemType = "mcpToolCall" then
          "mcp__" ++ context.plain (lookup "server" item) ++ "__" ++
            context.plain (lookup "tool" item)
        else itemType
      if method = "item/started" then
        let arguments :=
          if itemType = "commandExecution" then
            some (Json.obj [("command", (lookup "command" item).getD .null),
              ("cwd", (lookup "cwd" item).getD .null)])
          else if itemType = "fileChange" then
            some (Json.obj [("changes", (lookup "changes" item).getD .null)])
          else lookup "arguments" item
        some (.toolCallStarted itemId toolName
          (if isObject arguments then arguments.getD .null else .obj []))
      else
        let status := context.textOr (lookup "status" item) "failed"
        let mapped : ToolCallStatus :=
          if status = "completed" then .completed
          else if status = "failed" then .failed
          else if status = "declined" ∨ status = "rejected" then .rejected
          else .notExecuted
        some (.toolCallFinished itemId toolName mapped status
          ((firstTrue [lookup "result" item, lookup "aggregatedOutput" item,
            lookup "changes" item]).getD .null))
  | _ => none

/-- `_warning_message` -/
def warningMessage (params : Json) : String :=
  match lookup "error" params with
  | some (.obj fields) => context.plain (firstTrue [fields.lookup "message", some (.obj fields)])
  | _ => context.plain
      (firstTrue [lookup "message" params, lookup "summary" params, some params])

/-- `_final_output` -/
def finalOutput (turn : Json) : String :=
  match lookup "items" turn with
  | some (.arr items) =>
    match items.reverse.find? fun item => lookup "type" item matches some (.str "agentMessage") with
    | some item => context.text (lookup "text" item)
    | none => ""
  | _ => ""

/-- `_turn_error_code` -/
def turnErrorCode (turn : Json) : String :=
  match lookup "error" turn with
  | some (.obj fields) =>
    match fields.lookup "codexErrorInfo" with
    | some (.str info) => info
    | some (.obj ((key, _) :: _)) => key
    | _ => "codex_turn_failed"
  | _ => ""

def readOptions : List Json → List String → Except String (List (String × Json))
  | [], _ => .ok []
  | option :: options, labels =>
    let label := strip (context.text (lookup "label" option))
    let description := strip (context.text (lookup "description" option))
    if !isObject (some option) || label = "" || 256 < label.length || label ∈ labels then
      .error "Codex user-input option is invalid"
    else do
      let rest ← readOptions options (labels ++ [label])
      return (label, .obj [("value", .str label), ("label", .str label),
        ("description", .str description)]) :: rest

/-- A question: its id, what is shown, and the schema of its answer. -/
def readQuestion (raw : Json) (seen : List String) : Except String (String × Json × Json) :=
  if !isObject (some raw) then .error "Codex user-input question is invalid"
  else
    let questionId := strip (context.text (lookup "id" raw))
    let header := strip (context.text (lookup "header" raw))
    let prompt := strip (context.text (lookup "question" raw))
    if questionId = "" || 128 < questionId.length || questionId ∈ seen || prompt = "" ||
        (lookup "isSecret" raw).any truthy then
      .error "Codex user-input question is unsupported"
    else do
      let options ← match lookup "options" raw with
        | none | some .null => pure []
        | some (.arr options) =>
          if 1 ≤ options.length ∧ options.length ≤ 50 then context.readOptions options []
          else .error "Codex user-input options are invalid"
        | _ => .error "Codex user-input options are invalid"
      let allowOther := (lookup "isOther" raw).any truthy
      let schema : List (String × Json) :=
        [("type", .str "string"), ("title", .str (if header = "" then takeChars prompt 80 else header)),
          ("minLength", .int 1), ("maxLength", .int 4000)]
      return (questionId,
        .obj [("id", .str questionId), ("title", .str header), ("description", .str prompt),
          ("options", .arr (options.map Prod.snd)), ("allow_other", .bool allowOther)],
        .obj (if options ≠ [] ∧ !allowOther then
          schema ++ [("enum", .arr (options.map fun option => .str option.1))] else schema))

def readQuestions : List Json → List String → Except String (List (String × Json × Json))
  | [], _ => .ok []
  | raw :: questions, seen => do
    let question ← context.readQuestion raw seen
    let rest ← readQuestions questions (seen ++ [question.1])
    return question :: rest

/-- `_user_input_contract`: what is shown, and the schema of the answer. -/
def userInputContract (params : Json) : Except String (Json × Json) :=
  match lookup "questions" params with
  | some (.arr raw) =>
    if 1 ≤ raw.length ∧ raw.length ≤ 3 then do
      let questions ← context.readQuestions raw []
      return (.obj [("title", .str "Input required"),
          ("description", .str "The agent needs information to continue."),
          ("fields", .arr (questions.map fun question => question.2.1))],
        .obj [("type", .str "object"),
          ("properties", .obj (questions.map fun question => (question.1, question.2.2))),
          ("required", .arr (questions.map fun question => .str question.1)),
          ("additionalProperties", .bool false)])
    else .error "Codex user-input request must contain 1-3 questions"
  | _ => .error "Codex user-input request must contain 1-3 questions"

/-- The kinds of `_interaction_event`. -/
def interactionKind (method : String) : Option InteractionKind :=
  if method = "item/tool/requestUserInput" then some .userInput
  else if method = "mcpServer/elicitation/request" then some .mcpElicitation
  else none

def answerOf : Json → Option Json
  | .str answer => some (.arr [.str answer])
  | .arr answers =>
    if answers ≠ [] ∧ answers.all (fun answer => answer matches .str _) then some (.arr answers)
    else none
  | _ => none

def answersOf : List (String × Json) → Except String (List (String × Json))
  | [] => .ok []
  | (questionId, answer) :: fields =>
    match questionId, answerOf answer with
    | "", _ | _, none => .error "Codex user-input resolution is invalid"
    | questionId, some answers => do
      let rest ← answersOf fields
      return (questionId, .obj [("answers", answers)]) :: rest

/-- `_interaction_result` -/
def interactionResult (method : String) (value : Json) : Except String Json :=
  if method = "item/commandExecution/requestApproval" ∨
      method = "item/fileChange/requestApproval" then
    let decision := match value with
      | .obj fields => fields.lookup "decision"
      | value => some value
    let normalized := context.textOr decision "decline"
    if normalized ∈ ["accept", "decline", "cancel"] then .ok (.obj [("decision", .str normalized)])
    else .error "Codex approval only permits a one-shot decision"
  else if method = "item/tool/requestUserInput" then
    match value with
    | .obj fields => do
      let answers ← answersOf fields
      return .obj [("answers", .obj answers)]
    | _ => .error "Codex user-input resolution is invalid"
  else if method = "mcpServer/elicitation/request" then
    match value with
    | .obj fields =>
      let action := context.textOr (fields.lookup "action") "decline"
      if action ∈ ["accept", "decline", "cancel"] then
        .ok (.obj [("action", .str action), ("content",
          if action = "accept" then (fields.lookup "content").getD .null else .null)])
      else .error "Codex MCP elicitation action is invalid"
    | _ => .error "Codex MCP elicitation resolution is invalid"
  else .ok (.obj [])

/-- The methods that are taken for notifications. -/
def notifications : List String :=
  ["item/agentMessage/delta", "item/reasoning/summaryTextDelta", "turn/plan/updated",
    "thread/tokenUsage/updated", "item/started", "item/completed", "warning", "configWarning",
    "error"]

def notificationEvent (method : String) (params : Json) : Option TurnEvent :=
  if method = "item/agentMessage/delta" then
    some (.assistantDelta (context.text (lookup "delta" params)))
  else if method = "item/reasoning/summaryTextDelta" then
    some (.reasoningSummaryDelta (context.text (lookup "delta" params)))
  else if method = "turn/plan/updated" then some (.planChanged (planText params))
  else if method = "thread/tokenUsage/updated" then
    match lookup "tokenUsage" params with
    | some (.obj usage) => some (.usageReported (flattenUsage usage))
    | _ => some (.usageReported [])
  else if method = "item/started" ∨ method = "item/completed" then context.itemEvent method params
  else some (.runtimeWarning method (context.warningMessage params))

/-- The event of `turn/completed`, when it is of this Turn. -/
def finishEvent (finalParts : List String) (params : Json) : Option TurnEvent :=
  match lookup "turn" params with
  | some (.obj fields) =>
    let turn := Json.obj fields
    if context.text (lookup "id" turn) = context.turnId then
      let status := context.textOr (lookup "status" turn) "failed"
      let output := context.finalOutput turn
      some (.turnFinished
        (if status = "completed" then .completed
          else if status = "interrupted" then .interrupted
          else .failed)
        (if output = "" then String.join finalParts else output) (turnErrorCode turn))
    else none
  | _ => none

def react (finalParts : List String) (message : Json) : Reaction :=
  let method := context.methodOf message
  let params := paramsOf message
  let sourceEventId := context.text (lookup "eventId" message)
  let base : TurnEvent → RuntimeTurnEvent :=
    RuntimeTurnEvent.mk (if sourceEventId = "" then none else some sourceEventId)
  if !context.ofTurn message then .skip
  else if method ∈ notifications then
    match context.notificationEvent method params with
    | some event => .emit (base event)
    | none => .skip
  else
    match lookup "id" message with
    | some id =>
      if method = "" then .skip
      else if method = "item/commandExecution/requestApproval" ∨
          method = "item/fileChange/requestApproval" then
        .respond id (.result (.obj [("decision", .str "decline")]))
          (some (base (.runtimeWarning "native_approval_not_supported"
            ("Codex native approval was declined; use Knoa " ++
              "Capability Gateway approval instead."))))
      else match interactionKind method with
        | some kind => .interact id method kind
        | none => .respond id (.error (-32601) "Unsupported client request") none
    | none =>
      if method = "turn/completed" then
        match context.finishEvent finalParts params with
        | some event => .finish (base event)
        | none => .skip
      else .skip

end TurnContext

end Knoa.Codex
