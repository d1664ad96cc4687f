import Knoa.Models.Payloads
import Mathlib.Data.List.Basic

/-!
# A history on the wire

Which histories the three protocols carry with every call, every result and every text.
-/
namespace Knoa.Models

/-- What a user says, or what the assistant says with the calls it makes and their results. -/
inductive HistoryTurn
  | user (content : Content)
  | assistant (content : Content) (calls : List (ToolCall × Content))

structure ChatHistory where
  system : Option String := none
  turns : List HistoryTurn

def HistoryTurn.messages : HistoryTurn → List ChatMessage
  | .user content => [.user content]
  | .assistant content calls =>
    .assistant content (calls.map Prod.fst) ::
      calls.map fun answered => .tool answered.1.id answered.2

def ChatHistory.messages (history : ChatHistory) : List ChatMessage :=
  history.system.toList.map .system ++ history.turns.flatMap HistoryTurn.messages

def answerEvents (answered : ToolCall × Content) : List WireEvent :=
  .result answered.1.id :: said .tool (textOf answered.2)

def HistoryTurn.events : HistoryTurn → List WireEvent
  | .user content => said .user (textOf content)
  | .assistant content calls =>
    said .assistant (textOf content) ++ calls.map (fun answered => answered.1.event) ++
      calls.flatMap answerEvents

def ChatHistory.events (history : ChatHistory) : List WireEvent :=
  history.system.toList.flatMap (said .system) ++ history.turns.flatMap HistoryTurn.events

def ChatHistory.calls (history : ChatHistory) : List ToolCall :=
  history.turns.flatMap fun
    | .user _ => []
    | .assistant _ calls => calls.map Prod.fst

def WireEvent.isTool : WireEvent → Bool
  | .text _ _ => false
  | .call _ _ _ => true
  | .result _ => true

/-- The calls that wait for their results, where every result is that of the oldest of them and
nobody but a tool says anything while one waits. -/
def settle : List String → List WireEvent → Option (List String)
  | pending, [] => some pending
  | pending, .call id _ _ :: rest => settle (pending ++ [id]) rest
  | [], .result _ :: _ => none
  | first :: pending, .result id :: rest => if first = id then settle pending rest else none
  | pending, .text role _ :: rest =>
    if role = .tool ∨ pending = [] then settle pending rest else none

/-- A provider reads every text of the history in order, exactly its calls and results, and every
call is followed by its own result. -/
structure Survives (history : ChatHistory) (events : List WireEvent) : Prop where
  texts : history.events.Sublist events
  calls : events.filter WireEvent.isTool = history.events.filter WireEvent.isTool
  answered : settle [] events = some []

def Content.hasImage : Content → Bool
  | .blocks all => all.any Block.isImage
  | _ => false

/-- Among the results of one message only the last has an image. -/
def HistoryTurn.imagesLast : HistoryTurn → Bool
  | .user _ => true
  | .assistant _ calls => calls.dropLast.all fun answered => !answered.2.hasImage

section Settling

variable {pending : List String} {role : Role} {value : String}

theorem settle_append (before after : List WireEvent) :
    settle pending (before ++ after) = (settle pending before).bind fun left => settle left after := by
  induction before generalizing pending with
  | nil => rfl
  | cons event rest ih =>
    cases event with
    | text role value =>
      rw [List.cons_append, settle, settle]
      split
      · exact ih
      · rfl
    | call id name arguments =>
      rw [List.cons_append, settle, settle]
      exact ih
    | result id =>
      cases pending with
      | nil => rfl
      | cons first pending =>
        rw [List.cons_append, settle, settle]
        split
        · exact ih
        · rfl

theorem settle_said (allowed : role = .tool ∨ pending = []) :
    settle pending (said role value) = some pending := by
  unfold said
  split
  · rfl
  · rw [settle, if_pos allowed, settle]

theorem settle_calls (calls : List (ToolCall × Content)) :
    settle pending (calls.map fun answered => answered.1.event) =
      some (pending ++ calls.map fun answered => answered.1.id) := by
  induction calls generalizing pending with
  | nil => rw [List.map_nil, List.map_nil, List.append_nil, settle]
  | cons first rest ih =>
    rw [List.map_cons, ToolCall.event, settle, ih, List.map_cons, List.append_assoc]
    rfl

theorem settle_answers (calls : List (ToolCall × Content)) :
    settle (calls.map fun answered => answered.1.id) (calls.flatMap answerEvents) = some [] := by
  induction calls with
  | nil => rfl
  | cons first rest ih =>
    rw [List.map_cons, List.flatMap_cons, settle_append, answerEvents, settle, if_pos rfl,
      settle_said (.inl rfl)]
    exact ih

theorem settle_flatMap {α : Type} {f : α → List WireEvent} {l : List α}
    (each : ∀ a ∈ l, settle [] (f a) = some []) : settle [] (l.flatMap f) = some [] := by
  induction l with
  | nil => rfl
  | cons a rest ih =>
    rw [List.flatMap_cons, settle_append, each a List.mem_cons_self]
    exact ih fun b member => each b (List.mem_cons_of_mem a member)

theorem settle_turn (turn : HistoryTurn) : settle [] turn.events = some [] := by
  cases turn with
  | user content => exact settle_said (.inr rfl)
  | assistant content calls =>
    rw [HistoryTurn.events, settle_append, settle_append, settle_said (.inr rfl),
      Option.bind_some, settle_calls]
    exact settle_answers calls

theorem settle_system (system : Option String) :
    settle [] (system.toList.flatMap (said .system)) = some [] :=
  settle_flatMap fun _ _ => settle_said (.inr rfl)

theorem settle_events (history : ChatHistory) : settle [] history.events = some [] := by
  rw [ChatHistory.events, settle_append, settle_system]
  exact settle_flatMap fun turn _ => settle_turn turn

theorem survives_events (history : ChatHistory) : Survives history history.events :=
  ⟨List.Sublist.refl _, rfl, settle_events history⟩

end Settling

section Texts

theorem textOf_text (text : String) : textOf (.text text) = text := by
  simp [textOf, splitContent, joined, Block.said, String.join]

theorem said_openAI (content : Content) : (toOpenAIContent content).said = textOf content := by
  cases content with
  | none => rfl
  | text text => exact (textOf_text text).symm
  | blocks blocks =>
    have same : OpenAIPart.said ∘ openAIPart = Block.said := by
      funext block
      cases block <;> rfl
    rw [toOpenAIContent, OpenAIContent.said, List.map_map, same]
    rfl

theorem said_anthropic (content : Content) :
    (toAnthropicContent content).said = textOf content := by
  cases content with
  | none => rfl
  | text text => exact (textOf_text text).symm
  | blocks blocks =>
    have same : AnthropicPart.said ∘ anthropicPart = Block.said := by
      funext block
      cases block <;> rfl
    cases blocks with
    | nil => rfl
    | cons block rest =>
      rw [toAnthropicContent, AnthropicContent.said, List.map_map, same]
      · rfl
      · nofun

theorem said_responses (content : Content) : (userContent content).said = textOf content := by
  cases content with
  | none => rfl
  | text text => exact (textOf_text text).symm
  | blocks blocks =>
    have same : ResponsesPart.said ∘ responsesPart = Block.said := by
      funext block
      cases block <;> rfl
    rw [userContent, ResponsesContent.said, List.map_map, same]
    rfl

end Texts

def ChatMessage.events : ChatMessage → List WireEvent
  | .system value => said .system value
  | .user content => said .user (textOf content)
  | .assistant content toolCalls => said .assistant (textOf content) ++ toolCalls.map ToolCall.event
  | .tool toolCallId content => .result toolCallId :: said .tool (textOf content)

section Protocols

variable {options : PayloadOptions} {history : ChatHistory}

theorem turn_events (turn : HistoryTurn) :
    turn.messages.flatMap ChatMessage.events = turn.events := by
  cases turn with
  | user content => exact List.append_nil _
  | assistant content calls =>
    rw [HistoryTurn.messages, List.flatMap_cons, List.flatMap_map, ChatMessage.events, List.map_map]
    rfl

theorem flatMap_messages {f : ChatMessage → List WireEvent} :
    history.messages.flatMap f = history.system.toList.flatMap (fun text => f (.system text)) ++
      history.turns.flatMap fun turn => turn.messages.flatMap f := by
  rw [ChatHistory.messages, List.flatMap_append, List.flatMap_map, List.flatMap_assoc]

theorem messages_events : history.messages.flatMap ChatMessage.events = history.events := by
  rw [flatMap_messages, ChatHistory.events]
  congr 1
  exact congrArg (history.turns.flatMap ·) (funext turn_events)

theorem wire_responses : wire options history.messages .responses = history.events := by
  have each : ∀ message : ChatMessage,
      (responsesItems message).flatMap readResponsesItem = message.events := by
    intro message
    cases message with
    | system value | tool toolCallId content => exact List.append_nil _
    | user content =>
      rw [ChatMessage.events, ← said_responses content]
      exact List.append_nil _
    | assistant content toolCalls =>
      rw [responsesItems, List.flatMap_append, List.flatMap_map, ChatMessage.events]
      congr 1
      · unfold said
        split
        · rfl
        next some => exact (List.append_nil _).trans (if_neg some)
      · rw [← List.flatMap_singleton' (toolCalls.map ToolCall.event), List.flatMap_map]
        rfl
  rw [← messages_events, wire, buildResponsesPayload, toResponsesInput, List.flatMap_assoc]
  exact congrArg (history.messages.flatMap ·) (funext each)

theorem textOf_observation {images : List Block} (all : ∀ block ∈ images, block.isImage = true) :
    textOf (.blocks (.text visualObservation :: images)) = visualObservation := by
  have silent : ∀ l : List Block, (∀ block ∈ l, block.isImage = true) →
      String.join (l.map Block.said) = "" := by
    intro l shows
    induction l with
    | nil => rfl
    | cons block rest ih =>
      have first : block.said = "" := by
        have image := shows block List.mem_cons_self
        cases block with
        | image imageUrl mediaType => rfl
        | text text | other json => cases image
      rw [List.map_cons, String.join_cons, first,
        ih fun other member => shows other (List.mem_cons_of_mem _ member)]
      rfl
  change String.join (visualObservation :: images.map Block.said) = _
  rw [String.join_cons, silent images all, String.append_empty]

def chatAnswer (answered : ToolCall × Content) : List WireEvent :=
  (chatMessages (.tool answered.1.id answered.2)).flatMap readOpenAIMessage

theorem chatAnswer_eq (answered : ToolCall × Content) :
    ∃ text, chatAnswer answered = .result answered.1.id :: said .tool text ++
        (if answered.2.hasImage then [.text .user visualObservation] else []) ∧
      (textOf answered.2 ≠ "" → text = textOf answered.2) := by
  obtain ⟨call, content⟩ := answered
  have plain : ∀ {content : Content}, content.hasImage = false →
      chatMessages (.tool call.id content) =
        [{ role := .tool, content := toOpenAIContent content, toolCallId := call.id }] →
      ∃ text, chatAnswer (call, content) = .result call.id :: said .tool text ++
          (if content.hasImage then [.text .user visualObservation] else []) ∧
        (textOf content ≠ "" → text = textOf content) := by
    intro content image one
    refine ⟨textOf content, ?_, fun _ => rfl⟩
    rw [chatAnswer, one, image, ← said_openAI content]
    rfl
  cases content with
  | none | text text => exact plain rfl rfl
  | blocks blocks =>
    refine ⟨if joined blocks = "" then visualResult else joined blocks, ?_, fun some => if_neg some⟩
    rw [chatAnswer, chatMessages, List.flatMap_cons]
    congr 1
    cases images : blocks.filter Block.isImage with
    | nil =>
      have none_ : Content.hasImage (.blocks blocks) = false := by
        rw [List.filter_eq_nil_iff] at images
        exact List.any_eq_false.mpr images
      rw [none_]
      rfl
    | cons image rest =>
      have member : image ∈ blocks.filter Block.isImage := images ▸ List.mem_cons_self
      have some_ : Content.hasImage (.blocks blocks) = true :=
        List.any_eq_true.mpr ⟨image, List.mem_filter.mp member⟩
      have spoken := said_openAI (.blocks (.text visualObservation :: image :: rest))
      rw [textOf_observation fun block listed => (List.mem_filter.mp (images ▸ listed)).2] at spoken
      rw [some_]
      change readOpenAIMessage { role := .user, content := _ } ++ [] = _
      rw [List.append_nil]
      change said .user _ ++ [] = _
      rw [spoken]
      rfl

def chatTurn (turn : HistoryTurn) : List WireEvent :=
  turn.messages.flatMap fun message => (chatMessages message).flatMap readOpenAIMessage

theorem chatTurn_user (content : Content) :
    chatTurn (.user content) = said .user (textOf content) := by
  rw [chatTurn, ← said_openAI content]
  simp [HistoryTurn.messages, chatMessages, readOpenAIMessage]

theorem chatTurn_assistant (content : Content) (calls : List (ToolCall × Content)) :
    chatTurn (.assistant content calls) = said .assistant (textOf content) ++
      calls.map (fun answered => answered.1.event) ++ calls.flatMap chatAnswer := by
  rw [chatTurn, HistoryTurn.messages, List.flatMap_cons, List.flatMap_map, ← said_openAI content]
  congr 1
  simp [chatMessages, readOpenAIMessage]

theorem wire_chat : wire options history.messages .chat =
    history.system.toList.flatMap (said .system) ++ history.turns.flatMap chatTurn := by
  rw [wire, buildChatPayload, List.flatMap_assoc, flatMap_messages]
  congr 1
  apply congrArg (history.system.toList.flatMap ·)
  funext text
  simp [chatMessages, readOpenAIMessage, OpenAIContent.said]

theorem settle_chatAnswer {pending : List String} (answered : ToolCall × Content) :
    settle (answered.1.id :: pending) (chatAnswer answered) =
      if answered.2.hasImage = true ∧ pending ≠ [] then none else some pending := by
  obtain ⟨text, read, -⟩ := chatAnswer_eq answered
  rw [read, List.cons_append, settle, if_pos rfl, settle_append, settle_said (.inl rfl),
    Option.bind_some]
  cases answered.2.hasImage with
  | false =>
    rw [if_neg Bool.false_ne_true, settle, if_neg fun both => Bool.false_ne_true both.1]
  | true =>
    rw [if_pos rfl, settle]
    by_cases none_ : pending = []
    · rw [if_pos (.inr none_), if_neg fun both => both.2 none_, settle]
    · rw [if_neg, if_pos ⟨rfl, none_⟩]
      rintro (tool | empty)
      · cases tool
      · exact none_ empty

theorem settle_chatAnswers (calls : List (ToolCall × Content)) :
    settle (calls.map fun answered => answered.1.id) (calls.flatMap chatAnswer) =
      if calls.dropLast.all fun answered => !answered.2.hasImage then some [] else none := by
  induction calls with
  | nil => rfl
  | cons first rest ih =>
    rw [List.map_cons, List.flatMap_cons, settle_append, settle_chatAnswer]
    cases rest with
    | nil =>
      rw [if_neg fun both => both.2 rfl]
      rfl
    | cons second rest =>
      rw [List.dropLast_cons_cons, List.all_cons]
      cases first.2.hasImage with
      | true => rfl
      | false =>
        rw [if_neg fun both => Bool.false_ne_true both.1, Option.bind_some, ih]
        rfl

theorem settle_chatTurn (turn : HistoryTurn) :
    settle [] (chatTurn turn) = if turn.imagesLast then some [] else none := by
  cases turn with
  | user content =>
    rw [chatTurn_user]
    exact settle_said (.inr rfl)
  | assistant content calls =>
    rw [chatTurn_assistant, settle_append, settle_append, settle_said (.inr rfl),
      Option.bind_some, settle_calls]
    exact settle_chatAnswers calls

theorem settle_chat_iff (turns : List HistoryTurn) : settle [] (turns.flatMap chatTurn) = some [] ↔
      ∀ turn ∈ turns, turn.imagesLast = true := by
  induction turns with
  | nil => exact ⟨fun _ _ member => (by cases member), fun _ => rfl⟩
  | cons turn rest ih =>
    rw [List.flatMap_cons, settle_append, settle_chatTurn, List.forall_mem_cons]
    cases turn.imagesLast with
    | true => simpa using ih
    | false => simp

theorem flatMap_sublist {α : Type} {f g : α → List WireEvent} {l : List α}
    (each : ∀ a ∈ l, (f a).Sublist (g a)) : (l.flatMap f).Sublist (l.flatMap g) := by
  induction l with
  | nil => exact List.Sublist.refl _
  | cons a rest ih =>
    rw [List.flatMap_cons, List.flatMap_cons]
    exact (each a List.mem_cons_self).append
      (ih fun b member => each b (List.mem_cons_of_mem a member))

theorem sublist_chatAnswer (answered : ToolCall × Content) :
    (answerEvents answered).Sublist (chatAnswer answered) := by
  obtain ⟨text, read, same⟩ := chatAnswer_eq answered
  rw [read, answerEvents, List.cons_append]
  refine List.Sublist.cons_cons _ ?_
  by_cases none_ : textOf answered.2 = ""
  · rw [none_]
    exact List.nil_sublist _
  · rw [same none_]
    exact List.sublist_append_left _ _

theorem filter_said (role : Role) (text : String) :
    (said role text).filter WireEvent.isTool = [] := by
  unfold said
  split <;> rfl

theorem filter_chatAnswer (answered : ToolCall × Content) :
    (chatAnswer answered).filter WireEvent.isTool =
      (answerEvents answered).filter WireEvent.isTool := by
  obtain ⟨text, read, -⟩ := chatAnswer_eq answered
  have silent : ((if answered.2.hasImage then
      [.text .user visualObservation] else []) : List WireEvent).filter WireEvent.isTool = [] := by
    split <;> rfl
  rw [read, answerEvents, List.cons_append, List.filter_cons, List.filter_cons, List.filter_append,
    filter_said, filter_said, silent]
  rfl

/-- The chat request has everything, and what separates a call from its result is the observation
of an image before the last result. -/
theorem survives_chat_iff : Survives history (wire options history.messages .chat) ↔
    ∀ turn ∈ history.turns, turn.imagesLast = true := by
  have texts : ∀ turn ∈ history.turns, turn.events.Sublist (chatTurn turn) := by
    intro turn _
    cases turn with
    | user content => rw [chatTurn_user]; exact List.Sublist.refl _
    | assistant content calls =>
      rw [chatTurn_assistant, HistoryTurn.events]
      exact (List.Sublist.refl _).append (flatMap_sublist fun answered _ =>
        sublist_chatAnswer answered)
  have calls : ∀ turn : HistoryTurn, (chatTurn turn).filter WireEvent.isTool =
      turn.events.filter WireEvent.isTool := by
    intro turn
    cases turn with
    | user content => rw [chatTurn_user]; rfl
    | assistant content calls =>
      rw [chatTurn_assistant, HistoryTurn.events, List.filter_append,
        List.filter_append _ (calls.flatMap answerEvents), List.filter_flatMap, List.filter_flatMap]
      congr 1
      exact congrArg (calls.flatMap ·) (funext filter_chatAnswer)
  have settled : settle [] (wire options history.messages .chat) =
      settle [] (history.turns.flatMap chatTurn) := by
    rw [wire_chat, settle_append, settle_system, Option.bind_some]
  constructor
  · intro survives
    exact (settle_chat_iff _).mp (settled ▸ survives.answered)
  · intro last
    refine ⟨?_, ?_, settled.trans ((settle_chat_iff _).mpr last)⟩
    · rw [wire_chat, ChatHistory.events]
      exact (List.Sublist.refl _).append (flatMap_sublist texts)
    · rw [wire_chat, ChatHistory.events, List.filter_append, List.filter_append]
      congr 1
      rw [List.filter_flatMap, List.filter_flatMap]
      exact congrArg (history.turns.flatMap ·) (funext calls)

theorem anthropic_system : readAnthropicSystem
    (buildAnthropicPayload options history.messages).system =
      history.system.toList.flatMap (said .system) := by
  have texts : history.messages.filterMap ChatMessage.systemText = history.system.toList := by
    have none_ : (history.turns.flatMap HistoryTurn.messages).filterMap
        ChatMessage.systemText = [] := by
      rw [List.filterMap_eq_nil_iff]
      intro message member
      obtain ⟨turn, -, member⟩ := List.mem_flatMap.mp member
      cases turn with
      | user content => rw [List.mem_singleton.mp member]; rfl
      | assistant content calls =>
        rcases List.mem_cons.mp member with rfl | tool
        · rfl
        · obtain ⟨answered, -, rfl⟩ := List.mem_map.mp tool
          rfl
    rw [ChatHistory.messages, List.filterMap_append, none_, List.append_nil, List.filterMap_map]
    cases history.system with
    | none | some text => rfl
  rw [buildAnthropicPayload, texts]
  cases history.system with
  | none => rfl
  | some text =>
    cases options.cacheControl with
    | none => exact (List.append_nil _).symm
    | some control => rfl

def anthropicEvents (message : ChatMessage) : List WireEvent :=
  (anthropicMessage message).toList.flatMap readAnthropicMessage

theorem wire_anthropic : wire options history.messages .anthropic =
    history.system.toList.flatMap (said .system) ++
      history.turns.flatMap fun turn => turn.messages.flatMap anthropicEvents := by
  have each : (history.messages.filterMap anthropicMessage).flatMap readAnthropicMessage =
      history.messages.flatMap anthropicEvents := by
    induction history.messages with
    | nil => rfl
    | cons message rest ih =>
      rw [List.flatMap_cons, ← ih, anthropicEvents]
      cases made : anthropicMessage message with
      | none => rw [List.filterMap_cons_none made]; rfl
      | some wired => rw [List.filterMap_cons_some made]; simp
  rw [wire, anthropic_system, buildAnthropicPayload, each, flatMap_messages]
  congr 1
  have silent : (fun text => anthropicEvents (.system text)) = fun _ => [] := rfl
  rw [silent, List.flatMap_eq_nil_iff.mpr fun _ _ => rfl, List.nil_append]

theorem anthropicEvents_said {message : ChatMessage} {id name arguments : String} :
    .call id name arguments ∉ anthropicEvents message := by
  have said_ : ∀ role text, (.call id name arguments : WireEvent) ∉ said role text := by
    intro role text member
    unfold said at member
    split at member
    · cases member
    · cases List.mem_singleton.mp member
  cases message with
  | system value => exact List.not_mem_nil
  | user content | assistant content toolCalls =>
    change _ ∉ said _ _ ++ []
    rw [List.append_nil]
    exact said_ _ _
  | tool toolCallId content =>
    change _ ∉ ((.result toolCallId :: said _ _) ++ []) ++ []
    rw [List.append_nil, List.append_nil]
    intro member
    rcases List.mem_cons.mp member with same | later
    · cases same
    · exact said_ _ _ later

theorem survives_anthropic_iff :
    Survives history (wire options history.messages .anthropic) ↔ history.calls = [] := by
  constructor
  · intro survives
    rw [List.eq_nil_iff_forall_not_mem]
    intro call member
    obtain ⟨turn, listed, member⟩ := List.mem_flatMap.mp member
    cases turn with
    | user content => cases member
    | assistant content calls =>
      obtain ⟨answered, made, rfl⟩ := List.mem_map.mp member
      have there : answered.1.event ∈ history.events.filter WireEvent.isTool := by
        refine List.mem_filter.mpr ⟨List.mem_append_right _ (List.mem_flatMap.mpr
          ⟨_, listed, List.mem_append_left _ (List.mem_append_right _ ?_)⟩), rfl⟩
        exact List.mem_map.mpr ⟨answered, made, rfl⟩
      rw [← survives.calls, wire_anthropic] at there
      rcases List.mem_append.mp (List.mem_filter.mp there).1 with system | later
      · obtain ⟨text, -, said_⟩ := List.mem_flatMap.mp system
        unfold said at said_
        split at said_
        · cases said_
        · cases List.mem_singleton.mp said_
      · obtain ⟨turn, -, wired⟩ := List.mem_flatMap.mp later
        obtain ⟨message, -, wired⟩ := List.mem_flatMap.mp wired
        exact absurd wired anthropicEvents_said
  · intro none_
    have each : ∀ turn ∈ history.turns,
        turn.messages.flatMap anthropicEvents = turn.events := by
      intro turn listed
      cases turn with
      | user content =>
        change (said .user (toAnthropicContent content).said ++ []) ++ [] = _
        rw [List.append_nil, List.append_nil, said_anthropic]
        rfl
      | assistant content calls =>
        cases calls with
        | nil =>
          change (said .assistant (toAnthropicContent content).said ++ []) ++ [] = _
          rw [List.append_nil, said_anthropic]
          exact (List.append_nil _).symm
        | cons answered rest =>
          have member : answered.1 ∈ history.calls :=
            List.mem_flatMap.mpr ⟨_, listed, List.mem_cons_self⟩
          rw [none_] at member
          cases member
    have same : wire options history.messages .anthropic = history.events := by
      rw [wire_anthropic, ChatHistory.events]
      congr 1
      exact List.flatMap_congr each
    rw [same]
    exact survives_events history

end Protocols

theorem imagesLast_of_no_calls {history : ChatHistory} (none_ : history.calls = []) :
    ∀ turn ∈ history.turns, turn.imagesLast = true := by
  intro turn listed
  cases turn with
  | user content => rfl
  | assistant content calls =>
    cases calls with
    | nil => rfl
    | cons answered rest =>
      have member : answered.1 ∈ history.calls :=
        List.mem_flatMap.mpr ⟨_, listed, List.mem_cons_self⟩
      rw [none_] at member
      cases member

/-- The Responses request carries every history, the chat request those where only the last result
of a message has an image, and the request of Anthropic's protocol those without a call. -/
theorem history_survives_iff (options : PayloadOptions) (history : ChatHistory) :
    ((∀ protocol, Survives history (wire options history.messages protocol)) ↔
        history.calls = []) ∧
      Survives history (wire options history.messages .responses) ∧
      (Survives history (wire options history.messages .chat) ↔
        ∀ turn ∈ history.turns, turn.imagesLast = true) ∧
      (Survives history (wire options history.messages .anthropic) ↔ history.calls = []) := by
  have responses : Survives history (wire options history.messages .responses) := by
    rw [wire_responses]
    exact survives_events history
  refine ⟨⟨fun all => survives_anthropic_iff.mp (all .anthropic), fun none_ protocol => ?_⟩,
    responses, survives_chat_iff, survives_anthropic_iff⟩
  cases protocol with
  | chat => exact survives_chat_iff.mpr (imagesLast_of_no_calls none_)
  | anthropic => exact survives_anthropic_iff.mpr none_
  | responses => exact responses

section Sample

/-- One call of a tool with its result. -/
def sampleHistory : ChatHistory where
  turns :=
    [.user (.text "a"),
      .assistant (.text "") [({ id := "c", name := "t", arguments := "{}" }, .text "b")]]

/-- Anthropic's provider reads a result of a call that was never made. -/
theorem call_missing : wire { model := "m" } sampleHistory.messages .anthropic =
        [.text .user "a", .result "c", .text .tool "b"] ∧
      ¬Survives sampleHistory (wire { model := "m" } sampleHistory.messages .anthropic) := by
  have run : wire { model := "m" } sampleHistory.messages .anthropic =
        [.text .user "a", .result "c", .text .tool "b"] ∧
      settle [] (wire { model := "m" } sampleHistory.messages .anthropic) = none := by
    decide +kernel
  refine ⟨run.1, fun survives => ?_⟩
  have answered := survives.answered
  rw [run.2] at answered
  cases answered

end Sample

end Knoa.Models
