import Mathlib.Data.Rat.Defs

/-!
# The request of a model step on the wire

`build_chat_payload`, `build_anthropic_payload` and `build_responses_payload` over
one neutral history.
-/
namespace Knoa.Models

inductive Block
  | text (text : String)
  | image (imageUrl mediaType : String)
  | other (json : String)
  deriving DecidableEq

inductive Content
  | none
  | text (text : String)
  | blocks (blocks : List Block)

structure ToolCall where
  id : String
  name : String
  arguments : String
  deriving DecidableEq

inductive ChatMessage
  | system (text : String)
  | user (content : Content)
  | assistant (content : Content) (toolCalls : List ToolCall)
  | tool (toolCallId : String) (content : Content)

structure ToolDefinition where
  name : String := ""
  description : String := ""
  inputSchema : String

def splitContent : Content → List Block
  | .blocks blocks => blocks
  | .text text => [.text text]
  | .none => [.text ""]

def Block.isImage : Block → Bool
  | .image _ _ => true
  | _ => false

def Block.said : Block → String
  | .text value => value
  | _ => ""

def joined (blocks : List Block) : String := String.join (blocks.map Block.said)

/-- `_text_of` -/
def textOf (content : Content) : String := joined (splitContent content)

inductive OpenAIPart
  | text (text : String)
  | imageUrl (url : String)
  | other (json : String)

inductive OpenAIContent
  | none
  | text (text : String)
  | parts (parts : List OpenAIPart)

inductive Role
  | system | user | assistant | tool
  deriving DecidableEq

structure OpenAIMessage where
  role : Role
  content : OpenAIContent
  toolCalls : List ToolCall := []
  toolCallId : String := ""

structure ChatPayload where
  model : String
  messages : List OpenAIMessage
  temperature : Rat
  maxTokens : Nat
  cachePrompt : Bool
  streamOptions : Bool
  thinking : Option String
  tools : List ToolDefinition
  toolChoice : Option String

/-- The arguments of a builder beside the history. -/
structure PayloadOptions where
  model : String
  tools : List ToolDefinition := []
  temperature : Rat := 7 / 10
  maxTokens : Nat := 1024
  toolChoice : Option String := none
  cachePrompt : Bool := false
  streamOptions : Bool := false
  thinking : Option String := none
  cacheControl : Option String := none

def openAIPart : Block → OpenAIPart
  | .text text => .text text
  | .image imageUrl _ => .imageUrl imageUrl
  | .other json => .other json

def toOpenAIContent : Content → OpenAIContent
  | .none => .none
  | .text text => .text text
  | .blocks blocks => .parts (blocks.map openAIPart)

def visualResult : String := "[visual tool result]"

def visualObservation : String := "Visual observation returned by the preceding tool."

def chatMessages : ChatMessage → List OpenAIMessage
  | .system text => [{ role := .system, content := .text text }]
  | .user content => [{ role := .user, content := toOpenAIContent content }]
  | .assistant content toolCalls =>
    [{ role := .assistant, content := toOpenAIContent content, toolCalls }]
  | .tool toolCallId (.blocks blocks) =>
    let text := joined blocks
    let images := blocks.filter Block.isImage
    { role := .tool, content := .text (if text = "" then visualResult else text), toolCallId } ::
    if images.isEmpty then []
    else
      [{ role := .user, content := toOpenAIContent (.blocks (.text visualObservation :: images)) }]
  | .tool toolCallId content => [{ role := .tool, content := toOpenAIContent content, toolCallId }]

def buildChatPayload (options : PayloadOptions) (messages : List ChatMessage) : ChatPayload where
  model := options.model
  messages := messages.flatMap chatMessages
  temperature := options.temperature
  maxTokens := options.maxTokens
  cachePrompt := options.cachePrompt
  streamOptions := options.streamOptions
  thinking := options.thinking
  tools := options.tools
  toolChoice := options.toolChoice

inductive AnthropicPart
  | text (text : String)
  | image (mediaType data : String)
  | other (json : String)

inductive AnthropicContent
  | none
  | text (text : String)
  | parts (parts : List AnthropicPart)

/-- A block of the protocol; the builder makes no `tool_use` block. -/
inductive AnthropicBlock
  | part (part : AnthropicPart)
  | toolUse (id name input : String)
  | toolResult (toolUseId : String) (content : AnthropicContent)

inductive AnthropicBody
  | content (content : AnthropicContent)
  | blocks (blocks : List AnthropicBlock)

/-- `toolCalls` is the key of the neutral message, which the builder copies. -/
structure AnthropicMessage where
  role : Role
  body : AnthropicBody
  toolCalls : List ToolCall := []

inductive AnthropicSystem
  | none
  | text (text : String)
  | blocks (blocks : List (String × Option String))

structure AnthropicTool where
  tool : ToolDefinition
  cacheControl : Option String

structure AnthropicPayload where
  model : String
  messages : List AnthropicMessage
  maxTokens : Nat
  temperature : Rat
  system : AnthropicSystem
  tools : List AnthropicTool

/-- `_data_url_parts` -/
def dataUrlParts (imageUrl : String) : String × String :=
  if imageUrl.startsWith "data:" then
    let header := imageUrl.toList.takeWhile (· ≠ ',')
    let data := (imageUrl.toList.dropWhile (· ≠ ',')).drop 1
    let mediaType := String.ofList ((header.takeWhile (· ≠ ';')).drop 5)
    (if mediaType = "" then "image/jpeg" else mediaType, String.ofList data)
  else ("image/jpeg", imageUrl)

def anthropicPart : Block → AnthropicPart
  | .text text => .text text
  | .image imageUrl _ => .image (dataUrlParts imageUrl).1 (dataUrlParts imageUrl).2
  | .other json => .other json

def toAnthropicContent : Content → AnthropicContent
  | .none => .none
  | .text text => .text text
  | .blocks [] => .text ""
  | .blocks blocks => .parts (blocks.map anthropicPart)

def anthropicMessage : ChatMessage → Option AnthropicMessage
  | .system _ => none
  | .user content => some { role := .user, body := .content (toAnthropicContent content) }
  | .assistant content toolCalls =>
    some { role := .assistant, body := .content (toAnthropicContent content), toolCalls }
  | .tool toolCallId content =>
    some { role := .user, body := .blocks [.toolResult toolCallId (toAnthropicContent content)] }

def ChatMessage.systemText : ChatMessage → Option String
  | .system value => some value
  | _ => none

def buildAnthropicPayload (options : PayloadOptions) (messages : List ChatMessage) :
    AnthropicPayload where
  model := options.model
  messages := messages.filterMap anthropicMessage
  maxTokens := options.maxTokens
  temperature := options.temperature
  system :=
    match messages.filterMap ChatMessage.systemText, options.cacheControl with
    | [], _ => .none
    | texts, some control => .blocks (texts.map fun text => (text, some control))
    | texts, none => .text (" ".intercalate texts)
  tools := options.tools.map fun tool => { tool, cacheControl := options.cacheControl }

inductive ResponsesPart
  | inputText (text : String)
  | inputImage (imageUrl : String)
  | other (json : String)

inductive ResponsesContent
  | none
  | text (text : String)
  | parts (parts : List ResponsesPart)

inductive ResponsesItem
  | message (role : Role) (content : ResponsesContent)
  | functionCall (callId name arguments : String)
  | functionCallOutput (callId output : String)

structure ResponsesPayload where
  model : String
  input : List ResponsesItem
  temperature : Rat
  maxOutputTokens : Nat
  tools : List ToolDefinition

def responsesPart : Block → ResponsesPart
  | .text text => .inputText text
  | .image imageUrl _ => .inputImage imageUrl
  | .other json => .other json

/-- `_user_content` -/
def userContent : Content → ResponsesContent
  | .none => .none
  | .text text => .text text
  | .blocks blocks => .parts (blocks.map responsesPart)

def responsesItems : ChatMessage → List ResponsesItem
  | .system text => [.message .system (.text text)]
  | .user content => [.message .user (userContent content)]
  | .assistant content toolCalls =>
    (if textOf content = "" then [] else [.message .assistant (.text (textOf content))]) ++
      toolCalls.map fun call => .functionCall call.id call.name call.arguments
  | .tool toolCallId content => [.functionCallOutput toolCallId (textOf content)]

/-- `to_responses_input` -/
def toResponsesInput (messages : List ChatMessage) : List ResponsesItem :=
  messages.flatMap responsesItems

def buildResponsesPayload (options : PayloadOptions) (messages : List ChatMessage) :
    ResponsesPayload where
  model := options.model
  input := toResponsesInput messages
  temperature := options.temperature
  maxOutputTokens := options.maxTokens
  tools := options.tools

/-- What a history or a request says, in order. -/
inductive WireEvent
  | text (role : Role) (text : String)
  | call (id name arguments : String)
  | result (id : String)
  deriving DecidableEq

def said (role : Role) (text : String) : List WireEvent :=
  if text = "" then [] else [.text role text]

def ToolCall.event (call : ToolCall) : WireEvent := .call call.id call.name call.arguments

def OpenAIPart.said : OpenAIPart → String
  | .text value => value
  | _ => ""

def OpenAIContent.said : OpenAIContent → String
  | .none => ""
  | .text value => value
  | .parts all => String.join (all.map OpenAIPart.said)

def readOpenAIMessage (message : OpenAIMessage) : List WireEvent :=
  if message.role = .tool then
    .result message.toolCallId :: said .tool message.content.said
  else said message.role message.content.said ++ message.toolCalls.map ToolCall.event

def AnthropicPart.said : AnthropicPart → String
  | .text value => value
  | _ => ""

def AnthropicContent.said : AnthropicContent → String
  | .none => ""
  | .text value => value
  | .parts all => String.join (all.map AnthropicPart.said)

def readAnthropicBlock (role : Role) : AnthropicBlock → List WireEvent
  | .part part => Knoa.Models.said role part.said
  | .toolUse id name input => [.call id name input]
  | .toolResult toolUseId content => .result toolUseId :: Knoa.Models.said .tool content.said

/-- The protocol has no key `tool_calls`. -/
def readAnthropicMessage (message : AnthropicMessage) : List WireEvent :=
  match message.body with
  | .content content => said message.role content.said
  | .blocks blocks => blocks.flatMap (readAnthropicBlock message.role)

def readAnthropicSystem : AnthropicSystem → List WireEvent
  | .none => []
  | .text text => said .system text
  | .blocks blocks => blocks.flatMap fun block => said .system block.1

def ResponsesPart.said : ResponsesPart → String
  | .inputText value => value
  | _ => ""

def ResponsesContent.said : ResponsesContent → String
  | .none => ""
  | .text value => value
  | .parts all => String.join (all.map ResponsesPart.said)

def readResponsesItem : ResponsesItem → List WireEvent
  | .message role content => said role content.said
  | .functionCall callId name arguments => [.call callId name arguments]
  | .functionCallOutput callId output => .result callId :: said .tool output

inductive Protocol
  | chat
  | anthropic
  | responses
  deriving DecidableEq

/-- What the provider of a protocol reads of the request for a history. -/
def wire (options : PayloadOptions) (messages : List ChatMessage) : Protocol → List WireEvent
  | .chat => (buildChatPayload options messages).messages.flatMap readOpenAIMessage
  | .anthropic =>
    readAnthropicSystem (buildAnthropicPayload options messages).system ++
      (buildAnthropicPayload options messages).messages.flatMap readAnthropicMessage
  | .responses => (buildResponsesPayload options messages).input.flatMap readResponsesItem

end Knoa.Models
