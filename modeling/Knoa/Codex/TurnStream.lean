import Knoa.Codex.TurnEvents
import Knoa.Library.Transition
import Mathlib.Data.List.Nodup
import Mathlib.Logic.Function.Basic

/-!
# The stream of a Codex Turn

`_events` and `resolve_interaction` of `CodexAgentRuntime` over one Turn: where the loop waits for a
message, for a response to be written or for the pipe to drain, the calls go on.
-/
namespace Knoa.Codex

open Knoa.Runtime (lookup)

/-- An entry of `interactions`, with the number of the message it comes from. -/
structure PendingInteraction where
  requestId : Json
  method : String
  epoch : Nat
  request : Nat

/-- A response on its way to the App Server. -/
structure Answer where
  request : Nat
  id : Json
  response : Response

inductive StreamStage
  | reading
  | responding (answer : Answer) (warning : Option RuntimeTurnEvent)
  /-- The response is written. -/
  | draining (warning : Option RuntimeTurnEvent)
  /-- The last event is yielded, or the stream has raised. -/
  | ended
  /-- The Turn is not active any more. -/
  | left

inductive CommandResult
  | accepted
  | rejected (code : String)
  | unknown
  | notFound
  deriving DecidableEq

/-- A call of `resolve_interaction` that has passed its checks. -/
structure ResolveCall where
  interactionId : String
  pending : PendingInteraction
  value : Json
  written : Bool := false

structure RaisedInteraction where
  request : Nat
  interactionId : String
  epoch : Nat

structure Acceptance where
  request : Nat
  interactionId : String
  epoch : Nat
  current : Option Nat

/-- The stream with its resolvers by slot and, below them, what has come and gone. -/
structure TurnStream where
  stage : StreamStage := .reading
  finalParts : List String := []
  interactionEpoch : Nat := 0
  interactions : List (String × PendingInteraction) := []
  calls : Nat → Option ResolveCall := fun _ => none
  /-- What the App Server has sent. -/
  messages : List Json := []
  raised : List RaisedInteraction := []
  responses : List Answer := []
  yielded : List RuntimeTurnEvent := []
  accepted : List Acceptance := []
  results : List CommandResult := []

inductive StreamStep
  | next (message : Json)
  /-- `events` ends, or raises. -/
  | close (error : Option String)
  | write
  /-- The response fails before it is written. -/
  | refuse (error : String)
  | drained (error : Option String)
  | leave
  /-- A message that does not get to the loop. -/
  | unread (message : Json)
  | resolve (i : Nat) (interactionId : String) (interactionEpoch : Nat) (value : Json)
  | send (i : Nat)
  /-- The pipe has drained. -/
  | settle (i : Nat)
  /-- The response fails, or the call is cancelled. -/
  | fail (i : Nat)

namespace TurnStream

/-- `interactions[interactionId] = pending` -/
def setInteraction (interactionId : String) (pending : PendingInteraction)
    (interactions : List (String × PendingInteraction)) : List (String × PendingInteraction) :=
  (interactionId, pending) :: interactions.filter fun entry => entry.1 != interactionId

def setCall (s : TurnStream) (i : Nat) (call : Option ResolveCall) : TurnStream :=
  { s with calls := Function.update s.calls i call }

variable (context : TurnContext)

def finish (s : TurnStream) (event : RuntimeTurnEvent) : TurnStream :=
  match context.validated event with
  | some event => { s with stage := .ended, yielded := s.yielded ++ [event] }
  | none => { s with stage := .ended }

def failed (s : TurnStream) (error : String) : TurnStream :=
  finish context s { event := .turnFinished .outcomeUnknown "" error }

def emit (s : TurnStream) (event : RuntimeTurnEvent) : TurnStream :=
  match context.validated event with
  | some event => { s with yielded := s.yielded ++ [event] }
  | none => failed context s "ValidationError"

def codexId (id : Json) : String := "codex-" ++ context.plain (some id)

/-- `_interaction_event` for the message `request`. -/
def interact (s : TurnStream) (request : Nat) (message id : Json) (method : String)
    (kind : InteractionKind) : TurnStream :=
  let params := TurnContext.paramsOf message
  let epoch := s.interactionEpoch + 1
  let interactionId := codexId context id
  let sourceEventId := context.text (lookup "eventId" message)
  let registered := { s with
    interactionEpoch := epoch
    interactions := setInteraction interactionId
      { requestId := id, method, epoch, request } s.interactions }
  let contract :=
    if kind = .userInput then context.userInputContract params
    else .ok (.obj [("method", .str method), ("params", params)], .obj [])
  match contract with
  | .error _ => failed context registered "ValueError"
  | .ok (display, resolutionSchema) =>
    let event : RuntimeTurnEvent :=
      { sourceEventId := if sourceEventId = "" then none else some sourceEventId
        event := .interactionRequested interactionId epoch kind display resolutionSchema }
    match context.validated event with
    | some event => { registered with
        yielded := registered.yielded ++ [event]
        raised := registered.raised ++ [{ request := request, interactionId, epoch }] }
    | none => failed context registered "ValidationError"

def take (s : TurnStream) (message : Json) : TurnStream :=
  let request := s.messages.length
  let s := { s with messages := s.messages ++ [message] }
  match context.react s.finalParts message with
  | .skip => s
  | .emit event =>
    let parts := match event.event with
      | .assistantDelta content => [content]
      | _ => []
    emit context { s with finalParts := s.finalParts ++ parts } event
  | .respond id response warning => { s with
      stage := .responding { request := request, id, response } warning }
  | .interact id method kind => interact context s request message id method kind
  | .finish event => finish context s event

def step (s : TurnStream) : StreamStep → Option TurnStream
  | .next message =>
    match s.stage with
    | .reading => some (take context s message)
    | _ => none
  | .close error =>
    match s.stage with
    | .reading => some (failed context s (error.getD "transport_closed_without_terminal"))
    | _ => none
  | .write =>
    match s.stage with
    | .responding answer warning => some { s with
        stage := .draining warning, responses := s.responses ++ [answer] }
    | _ => none
  | .refuse error =>
    match s.stage with
    | .responding _ _ => some (failed context s error)
    | _ => none
  | .drained error =>
    match s.stage with
    | .draining warning =>
      match error, warning with
      | some error, _ => some (failed context s error)
      | none, some warning => some (emit context { s with stage := .reading } warning)
      | none, none => some { s with stage := .reading }
    | _ => none
  | .leave =>
    match s.stage with
    | .ended => some { s with stage := .left }
    | _ => none
  | .unread message => some { s with messages := s.messages ++ [message] }
  | .resolve i interactionId interactionEpoch value =>
    match s.calls i with
    | some _ => none
    | none =>
      let answered (result : CommandResult) := some { s with results := s.results ++ [result] }
      match s.stage with
      | .left => answered .notFound
      | _ =>
        match s.interactions.lookup interactionId with
        | none => answered .notFound
        | some pending =>
          if pending.epoch ≠ interactionEpoch then answered .notFound
          else match context.interactionResult pending.method value with
            | .error code => answered (.rejected code)
            | .ok value => some (s.setCall i (some
                { interactionId := interactionId, pending, value }))
  | .send i =>
    match s.calls i with
    | some call =>
      if call.written then none
      else some { s.setCall i (some { call with written := true }) with
        responses := s.responses ++
          [{ request := call.pending.request, id := call.pending.requestId,
             response := .result call.value }] }
    | none => none
  | .settle i =>
    match s.calls i with
    | some call =>
      if call.written then some { s.setCall i none with
        interactions := s.interactions.filter fun entry => entry.1 != call.interactionId
        results := s.results ++ [.accepted]
        accepted := s.accepted ++
          [{ request := call.pending.request, interactionId := call.interactionId,
             epoch := call.pending.epoch, current := (s.interactions.lookup call.interactionId).map
              PendingInteraction.epoch }] }
      else none
    | none => none
  | .fail i =>
    match s.calls i with
    | some _ => some { s.setCall i none with results := s.results ++ [.unknown] }
    | none => none

def isRequest (message : Json) : Prop :=
  (lookup "id" message).isSome = true ∧ (lookup "method" message).isSome = true

/-- `turn/completed` of this Turn tells that it is completed. -/
def tellsCompleted (message : Json) : Prop :=
  lookup "id" message = none ∧ context.methodOf message = "turn/completed" ∧
    ∃ turn, lookup "turn" (TurnContext.paramsOf message) = some turn ∧
      context.text (lookup "id" turn) = context.turnId ∧
      context.textOr (lookup "status" turn) "failed" = "completed"

def StreamStage.isOver : StreamStage → Bool
  | .ended | .left => true
  | _ => false

/-- The loop is about to answer the message. -/
def responds (s : TurnStream) (n : Nat) : Prop :=
  ∃ answer warning, s.stage = .responding answer warning ∧ answer.request = n

structure Lawful (s : TurnStream) : Prop where
  terminal : StreamStage.isOver s.stage = true →
    ∃ events last, s.yielded = events ++ [last] ∧ last.IsFinish ∧ ∀ event ∈ events, ¬event.IsFinish
  onward : StreamStage.isOver s.stage = false → ∀ event ∈ s.yielded, ¬event.IsFinish
  completed : ∀ event ∈ s.yielded, ∀ output code,
    event.event = .turnFinished .completed output code →
      ∃ message ∈ s.messages, context.ofTurn message = true ∧ tellsCompleted context message
  once : (s.responses.map Answer.request).Nodup
  own : ∀ answer ∈ s.responses, ∃ message, s.messages[answer.request]? = some message ∧
    context.ofTurn message = true ∧ lookup "id" message = some answer.id
  answered : ∀ n message, s.messages[n]? = some message → context.ofTurn message = true →
    isRequest message → n ∉ s.raised.map RaisedInteraction.request → ¬s.responds n →
      n ∈ s.responses.map Answer.request
  acceptedOnce : (s.accepted.map Acceptance.request).Nodup
  acceptedCurrent : ∀ acceptance ∈ s.accepted, acceptance.current = some acceptance.epoch ∧
    RaisedInteraction.mk acceptance.request acceptance.interactionId acceptance.epoch ∈ s.raised

/-- A request of this Turn that the loop takes is named, and its interaction is one that the
contracts take, under an id no resolver is at work on; none is left unread; the loop's response gets
written; and a resolution passes its checks only if no other of the interaction is under way. -/
def Orderly (s : TurnStream) : StreamStep → Prop
  | .next message => context.ofTurn message = true → isRequest message →
      context.methodOf message ≠ "" ∧ context.methodOf message ∉ TurnContext.notifications ∧
      ∀ id kind, lookup "id" message = some id →
        TurnContext.interactionKind (context.methodOf message) = some kind →
          (kind = .userInput →
            ∃ contract, context.userInputContract (TurnContext.paramsOf message) = .ok contract) ∧
          (context.identifier (codexId context id)).isSome = true ∧
          ∀ i call, s.calls i = some call → call.interactionId ≠ codexId context id
  | .refuse _ => False
  | .unread message => ¬(context.ofTurn message = true ∧ isRequest message)
  | .resolve _ interactionId interactionEpoch _ => ∀ pending,
      s.interactions.lookup interactionId = some pending → pending.epoch = interactionEpoch →
        (∀ j call, s.calls j = some call → call.interactionId ≠ interactionId) ∧
        ∀ answer ∈ s.responses, answer.request ≠ pending.request
  | _ => True

section
variable {context}

theorem method_of_text {message : Json} (named : context.methodOf message ≠ "") :
    (lookup "method" message).isSome = true := by
  cases found : lookup "method" message with
  | none =>
    unfold TurnContext.methodOf TurnContext.text TurnContext.textOr at named
    rw [found] at named
    exact absurd rfl named
  | some method => rfl

theorem notificationEvent_quiet {method : String} {params : Json} {event : TurnEvent}
    (shown : context.notificationEvent method params = some event) (sourceEventId : Option String) :
    ¬RuntimeTurnEvent.IsFinish ⟨sourceEventId, event⟩ := by
  rintro ⟨status, output, code, finishes⟩
  have finishes : event = .turnFinished status output code := finishes
  subst finishes
  unfold TurnContext.notificationEvent at shown
  split at shown
  · cases shown
  split at shown
  · cases shown
  split at shown
  · cases shown
  split at shown
  · split at shown <;> cases shown
  split at shown
  · unfold TurnContext.itemEvent at shown
    split at shown
    · dsimp only at shown
      split at shown
      · cases shown
      split at shown
      · cases shown
      split at shown <;> cases shown
    · cases shown
  · cases shown

/-- What a message is when the loop shows it, answers it, asks about it or ends with it. -/
inductive Reacted (parts : List String) (message : Json) : Reaction → Prop
  | skip : Reacted parts message .skip
  | emit (event : RuntimeTurnEvent) (quiet : ¬event.IsFinish) : Reacted parts message (.emit event)
  | respond (id : Json) (response : Response) (warning : Option RuntimeTurnEvent)
      (own : context.ofTurn message = true) (asked : isRequest message)
      (named : lookup "id" message = some id) (quiet : ∀ event ∈ warning, ¬event.IsFinish) :
      Reacted parts message (.respond id response warning)
  | interact (id : Json) (kind : InteractionKind) (own : context.ofTurn message = true)
      (asked : isRequest message) (named : lookup "id" message = some id)
      (kinds : TurnContext.interactionKind (context.methodOf message) = some kind) :
      Reacted parts message (.interact id (context.methodOf message) kind)
  | finish (event : RuntimeTurnEvent) (finishes : event.IsFinish)
      (told : ∀ output code, event.event = .turnFinished .completed output code →
        context.ofTurn message = true ∧ tellsCompleted context message) :
      Reacted parts message (.finish event)

theorem react_reacted (parts : List String) (message : Json) :
    @Reacted context parts message (context.react parts message) := by
  unfold TurnContext.react
  dsimp only
  split
  · exact .skip
  rename_i own
  have own : context.ofTurn message = true := by
    rw [Bool.not_eq_true', Bool.not_eq_false] at own
    exact own
  split
  · split
    · rename_i event shown
      exact .emit _ (notificationEvent_quiet shown _)
    · exact .skip
  split
  · rename_i id found
    split
    · exact .skip
    rename_i named
    have asked : isRequest message := ⟨by rw [found]; rfl, method_of_text named⟩
    split
    · refine .respond _ _ _ own asked found ?_
      rintro event ⟨⟩ ⟨_, _, _, finishes⟩
      cases finishes
    split
    · rename_i kind kinds
      exact .interact id kind own asked found kinds
    · exact .respond _ _ _ own asked found nofun
  · rename_i unnumbered
    split
    · rename_i completes
      split
      · rename_i event ends
        unfold TurnContext.finishEvent at ends
        split at ends
        · rename_i fields found
          dsimp only at ends
          split at ends <;> cases ends
          rename_i same
          refine .finish _ ⟨_, _, _, rfl⟩ ?_
          intro output code finishes
          refine ⟨own, unnumbered, completes, .obj fields, found, same, ?_⟩
          have status := congrArg (fun event => match event with
            | TurnEvent.turnFinished status _ _ => some status
            | _ => none) finishes
          dsimp only at status
          split at status
          · assumption
          · split at status <;> cases status
        · cases ends
      · exact .skip
    · exact .skip

theorem react_request {parts : List String} {message : Json} (own : context.ofTurn message = true)
    (asked : isRequest message) (named : context.methodOf message ≠ "")
    (proper : context.methodOf message ∉ TurnContext.notifications) :
    (∃ id response warning, context.react parts message = .respond id response warning) ∨
      ∃ id method kind, context.react parts message = .interact id method kind := by
  obtain ⟨id, found⟩ := Option.isSome_iff_exists.mp asked.1
  unfold TurnContext.react
  dsimp only
  rw [if_neg (by rw [own]; decide), if_neg proper, found]
  dsimp only
  rw [if_neg named]
  split
  · exact .inl ⟨_, _, _, rfl⟩
  · split
    · exact .inr ⟨_, _, _, rfl⟩
    · exact .inl ⟨_, _, _, rfl⟩

variable {event : RuntimeTurnEvent} {s s' : TurnStream}

theorem validated_isFinish {shown : RuntimeTurnEvent}
    (valid : context.validated event = some shown) : shown.IsFinish ↔ event.IsFinish := by
  unfold TurnContext.validated at valid
  rw [Option.bind_eq_bind, Option.bind_eq_some_iff] at valid
  obtain ⟨_, _, valid⟩ := valid
  unfold RuntimeTurnEvent.IsFinish
  split at valid
  case h_1 usage same =>
    split at valid <;> cases valid
    rfl
  case h_7 => cases valid; rfl
  all_goals
    rename_i same
    simp only [Option.bind_eq_some_iff, Option.some.injEq] at valid
    rw [same]
    first
    | obtain ⟨_, _, rfl⟩ := valid
      simp
    | obtain ⟨_, _, _, _, rfl⟩ := valid
      simp

theorem validated_finish (named : (context.identifier context.turnId).isSome = true)
    (finishes : event.IsFinish) :
    context.validated event = some event := by
  obtain ⟨id, known⟩ := Option.isSome_iff_exists.mp named
  obtain ⟨status, output, code, finishes⟩ := finishes
  unfold TurnContext.validated
  rw [known, Option.bind_eq_bind, Option.bind_some, finishes]

/-- An event is shown, or the stream ends: nothing else changes. -/
structure Shown (s s' : TurnStream) : Prop where
  stage : s'.stage = s.stage ∨ s'.stage = .ended
  messages : s'.messages = s.messages
  raised : s'.raised = s.raised
  responses : s'.responses = s.responses
  interactions : s'.interactions = s.interactions
  calls : s'.calls = s.calls
  accepted : s'.accepted = s.accepted

theorem finish_shown (s : TurnStream) (event : RuntimeTurnEvent) :
    Shown s (finish context s event) := by
  unfold finish
  split <;> exact ⟨.inr rfl, rfl, rfl, rfl, rfl, rfl, rfl⟩

theorem emit_shown (s : TurnStream) (event : RuntimeTurnEvent) :
    Shown s (emit context s event) := by
  unfold emit
  split
  · exact ⟨.inl rfl, rfl, rfl, rfl, rfl, rfl, rfl⟩
  · exact finish_shown s _

def Warns (s : TurnStream) (event : RuntimeTurnEvent) : Prop :=
  (∃ answer, s.stage = .responding answer (some event)) ∨ s.stage = .draining (some event)

/-- What `Lawful` has about the last event. -/
structure Ending (context : TurnContext) (s : TurnStream) : Prop where
  terminal : StreamStage.isOver s.stage = true →
    ∃ events last, s.yielded = events ++ [last] ∧ last.IsFinish ∧ ∀ event ∈ events, ¬event.IsFinish
  onward : StreamStage.isOver s.stage = false → ∀ event ∈ s.yielded, ¬event.IsFinish
  completed : ∀ event ∈ s.yielded, ∀ output code,
    event.event = .turnFinished .completed output code →
      ∃ message ∈ s.messages, context.ofTurn message = true ∧ tellsCompleted context message
  warned : ∀ event, s.Warns event → ¬event.IsFinish

theorem Ending.same (inv : Ending context s)
    (isOver : StreamStage.isOver s'.stage = StreamStage.isOver s.stage)
    (yielded : s'.yielded = s.yielded)
    (messages : ∀ message ∈ s.messages, message ∈ s'.messages)
    (warned : ∀ event, s'.Warns event → ¬event.IsFinish) : Ending context s' where
  terminal := by
    rw [isOver, yielded]
    exact inv.terminal
  onward := by
    rw [isOver, yielded]
    exact inv.onward
  completed := by
    rw [yielded]
    intro event member output code finishes
    obtain ⟨message, known, told⟩ := inv.completed event member output code finishes
    exact ⟨message, messages message known, told⟩
  warned := warned

theorem Ending.finish (named : (context.identifier context.turnId).isSome = true) {s : TurnStream}
    (inv : Ending context s) (going : StreamStage.isOver s.stage = false) {event : RuntimeTurnEvent}
    (finishes : event.IsFinish)
    (told : ∀ output code, event.event = .turnFinished .completed output code →
      ∃ message ∈ s.messages, context.ofTurn message = true ∧ tellsCompleted context message) :
    Ending context (TurnStream.finish context s event) := by
  unfold TurnStream.finish
  rw [validated_finish named finishes]
  refine ⟨fun _ => ⟨s.yielded, event, rfl, finishes, inv.onward going⟩, ?_, ?_, ?_⟩
  · nofun
  · intro other member output code
    rcases List.mem_concat.mp member with earlier | here
    · exact inv.completed other earlier output code
    · rw [here]
      exact told output code
  · rintro other (⟨_, responding⟩ | draining)
    · cases responding
    · cases draining

theorem Ending.failed (named : (context.identifier context.turnId).isSome = true) {s : TurnStream}
    (inv : Ending context s) (going : StreamStage.isOver s.stage = false) (error : String) :
    Ending context (TurnStream.failed context s error) :=
  inv.finish named going ⟨_, _, _, rfl⟩ nofun

theorem Ending.yields (inv : Ending context s)
    (going : StreamStage.isOver s.stage = false) (isOver : StreamStage.isOver s'.stage = false)
    (quiet : ¬event.IsFinish) (yielded : s'.yielded = s.yielded ++ [event])
    (messages : s'.messages = s.messages) (warned : ∀ event, s'.Warns event → ¬event.IsFinish) :
    Ending context s' where
  terminal := by
    rw [isOver]
    intro past
    cases past
  onward := by
    intro _ other member
    rw [yielded] at member
    rcases List.mem_concat.mp member with earlier | here
    · exact inv.onward going other earlier
    · rw [here]
      exact quiet
  completed := by
    intro other member output code finishes
    rw [yielded] at member
    rw [messages]
    rcases List.mem_concat.mp member with earlier | here
    · exact inv.completed other earlier output code finishes
    · rw [here] at finishes
      exact absurd ⟨_, _, _, finishes⟩ quiet
  warned := warned

theorem Ending.emit (named : (context.identifier context.turnId).isSome = true)
    (inv : Ending context s) (going : StreamStage.isOver s.stage = false)
    (quiet : ¬event.IsFinish) : Ending context (TurnStream.emit context s event) := by
  unfold TurnStream.emit
  split
  · rename_i shown valid
    exact inv.yields going going (fun finishes => quiet ((validated_isFinish valid).mp finishes))
      rfl rfl inv.warned
  · exact inv.failed named going _

/-- Message `n` is a request of this Turn with this id. -/
def Own (context : TurnContext) (s : TurnStream) (n : Nat) (id : Json) : Prop :=
  ∃ message, s.messages[n]? = some message ∧ context.ofTurn message = true ∧
    lookup "id" message = some id

theorem Own.grows {n : Nat} {id : Json} (own : Own context s n id)
    {more : List Json} (messages : s'.messages = s.messages ++ more) : Own context s' n id := by
  obtain ⟨message, known, rest⟩ := own
  refine ⟨message, ?_, rest⟩
  rw [messages, List.getElem?_append_left (List.getElem?_eq_some_iff.mp known).1]
  exact known

structure Answering (context : TurnContext) (s : TurnStream) : Prop where
  once : (s.responses.map Answer.request).Nodup
  own : ∀ answer ∈ s.responses, Own context s answer.request answer.id
  raisedOnce : (s.raised.map RaisedInteraction.request).Nodup
  raisedKnown : ∀ raised ∈ s.raised, raised.request < s.messages.length
  responding : ∀ answer warning, s.stage = .responding answer warning →
    answer.request ∉ s.responses.map Answer.request ∧
      answer.request ∉ s.raised.map RaisedInteraction.request ∧ Own context s answer.request answer.id
  answered : ∀ n message, s.messages[n]? = some message → context.ofTurn message = true →
    isRequest message → n ∉ s.raised.map RaisedInteraction.request → ¬s.responds n →
      n ∈ s.responses.map Answer.request

theorem Own.lt {n : Nat} {id : Json} (own : Own context s n id) : n < s.messages.length := by
  obtain ⟨message, known, _⟩ := own
  exact (List.getElem?_eq_some_iff.mp known).1

theorem Answering.unanswered (inv : Answering context s) :
    s.messages.length ∉ s.responses.map Answer.request := by
  intro member
  obtain ⟨answer, known, same⟩ := List.mem_map.mp member
  have below := (inv.own answer known).lt
  omega

theorem Answering.unraised (inv : Answering context s) :
    s.messages.length ∉ s.raised.map RaisedInteraction.request := by
  intro member
  obtain ⟨raised, known, same⟩ := List.mem_map.mp member
  have below := inv.raisedKnown raised known
  omega

theorem Answering.same (inv : Answering context s)
    (messages : s'.messages = s.messages) (raised : s'.raised = s.raised)
    (responses : s'.responses = s.responses) (stage : s'.stage = s.stage ∨
      (∀ answer warning, s.stage ≠ .responding answer warning) ∧
        ∀ answer warning, s'.stage ≠ .responding answer warning) : Answering context s' := by
  cases s
  cases s'
  dsimp only at messages raised responses stage
  subst messages raised responses
  refine { inv with responding := ?_, answered := ?_ }
  · intro answer warning responding
    rcases stage with same | ⟨_, none⟩
    · exact inv.responding answer warning (same.symm.trans responding)
    · exact absurd responding (none answer warning)
  · intro n message known own asked unraised unanswered
    refine inv.answered n message known own asked unraised ?_
    rintro ⟨answer, warning, responding, number⟩
    rcases stage with same | ⟨none, _⟩
    · exact unanswered ⟨answer, warning, same.trans responding, number⟩
    · exact absurd responding (none answer warning)

theorem Answering.shown (inv : Answering context s) (shown : Shown s s')
    (idle : ∀ answer warning, s.stage ≠ .responding answer warning) : Answering context s' := by
  refine inv.same shown.messages shown.raised shown.responses (.inr ⟨idle, ?_⟩)
  intro answer warning responding
  rcases shown.stage with same | ended
  · exact idle answer warning (same.symm.trans responding)
  · rw [ended] at responding
    cases responding

/-- A message comes; if it is a request of this Turn, something is done about it. -/
theorem Answering.received {s s' : TurnStream} (inv : Answering context s) {message : Json}
    (messages : s'.messages = s.messages ++ [message]) (responses : s'.responses = s.responses)
    (raised : s'.raised = s.raised ∨ ∃ interaction : RaisedInteraction,
      interaction.request = s.messages.length ∧ s'.raised = s.raised ++ [interaction])
    (stage : s'.stage = s.stage ∨ (∀ answer warning, s.stage ≠ .responding answer warning) ∧
      ∀ answer warning, s'.stage = .responding answer warning →
        answer.request = s.messages.length ∧ s'.raised = s.raised ∧
          context.ofTurn message = true ∧ lookup "id" message = some answer.id)
    (done : context.ofTurn message = true → isRequest message →
      s.messages.length ∈ s'.raised.map RaisedInteraction.request ∨ s'.responds s.messages.length) :
    Answering context s' where
  once := by
    rw [responses]
    exact inv.once
  own := by
    rw [responses]
    intro answer member
    exact (inv.own answer member).grows messages
  raisedOnce := by
    rcases raised with same | ⟨interaction, number, more⟩
    · rw [same]
      exact inv.raisedOnce
    · rw [more]
      exact Relational.Table.keyed_append inv.raisedOnce (number ▸ inv.unraised)
  raisedKnown := by
    intro interaction member
    rw [messages, List.length_append, List.length_singleton]
    rcases raised with same | ⟨new, number, more⟩
    · rw [same] at member
      have below := inv.raisedKnown interaction member
      omega
    · rw [more] at member
      rcases List.mem_concat.mp member with known | here
      · have below := inv.raisedKnown interaction known
        omega
      · rw [here, number]
        omega
  responding := by
    intro answer warning responding
    rw [responses]
    rcases stage with same | ⟨_, new⟩
    · rw [same] at responding
      obtain ⟨unanswered, unraised, own⟩ := inv.responding answer warning responding
      refine ⟨unanswered, ?_, own.grows messages⟩
      rcases raised with same | ⟨interaction, number, more⟩
      · rw [same]
        exact unraised
      · rw [more, List.map_append, List.mem_append, not_or]
        refine ⟨unraised, ?_⟩
        rw [List.map_singleton, List.mem_singleton, number]
        exact Nat.ne_of_lt own.lt
    · obtain ⟨number, same, own, named⟩ := new answer warning responding
      rw [number, same]
      refine ⟨inv.unanswered, inv.unraised, message, ?_, own, named⟩
      rw [messages, List.getElem?_concat_length]
  answered := by
    intro n other known own asked unraised unanswered
    rw [responses]
    rw [messages] at known
    by_cases here : n < s.messages.length
    · rw [List.getElem?_append_left here] at known
      refine inv.answered n other known own asked ?_ ?_
      · intro member
        refine unraised ?_
        rcases raised with same | ⟨_, _, more⟩
        · rw [same]
          exact member
        · rw [more, List.map_append]
          exact List.mem_append_left _ member
      · rintro ⟨answer, warning, responding, number⟩
        rcases stage with same | ⟨none, _⟩
        · exact unanswered ⟨answer, warning, same.trans responding, number⟩
        · exact absurd responding (none answer warning)
    · have below := (List.getElem?_eq_some_iff.mp known).1
      rw [List.length_append, List.length_singleton] at below
      have last : n = s.messages.length := by omega
      subst last
      rw [List.getElem?_concat_length] at known
      cases known
      rcases done own asked with raised | responds
      · exact absurd raised unraised
      · exact absurd responds unanswered

theorem Answering.wrote (inv : Answering context s) {answer : Answer}
    (messages : s'.messages = s.messages) (raised : s'.raised = s.raised)
    (responses : s'.responses = s.responses ++ [answer])
    (fresh : answer.request ∉ s.responses.map Answer.request)
    (own : Own context s answer.request answer.id)
    (stage : (∀ other warning, s.stage = .responding other warning →
        s'.stage = .responding other warning ∨ other.request = answer.request) ∧
      ∀ other warning, s'.stage = .responding other warning →
        s.stage = .responding other warning ∧ other.request ≠ answer.request) :
    Answering context s' := by
  cases s
  cases s'
  dsimp only at messages raised responses stage
  subst messages raised responses
  refine { inv with once := ?_, own := ?_, responding := ?_, answered := ?_ }
  · exact Relational.Table.keyed_append inv.once fresh
  · intro other member
    rcases List.mem_concat.mp member with earlier | rfl
    · exact inv.own other earlier
    · exact own
  · intro other warning responding
    obtain ⟨before, different⟩ := stage.2 other warning responding
    obtain ⟨unanswered, unraised, known⟩ := inv.responding other warning before
    rw [List.map_append, List.mem_append, not_or]
    refine ⟨⟨unanswered, ?_⟩, unraised, known⟩
    rw [List.map_singleton, List.mem_singleton]
    exact different
  · intro n message known own asked unraised unanswered
    rw [List.map_append]
    by_cases here : n = answer.request
    · rw [here]
      exact List.mem_concat_self
    · refine List.mem_append_left _ (inv.answered n message known own asked unraised ?_)
      rintro ⟨other, warning, responding, number⟩
      rcases stage.1 other warning responding with same | same
      · exact unanswered ⟨other, warning, same, number⟩
      · exact here (number.symm.trans same)

section
variable {interactionId other : String} {interactions : List (String × PendingInteraction)}

theorem lookup_other {pending : PendingInteraction} (different : other ≠ interactionId) :
    ((interactionId, pending) :: interactions).lookup other = interactions.lookup other := by
  simp only [List.lookup_cons, beq_false_of_ne different]

theorem lookup_without (different : other ≠ interactionId) :
    (interactions.filter fun entry => entry.1 != interactionId).lookup other =
      interactions.lookup other := by
  induction interactions with
  | nil => rfl
  | cons entry interactions ih =>
    obtain ⟨id, pending⟩ := entry
    by_cases here : id = interactionId
    · subst here
      rw [List.filter_cons_of_neg (by simp), ih, lookup_other different]
    · rw [List.filter_cons_of_pos (by simp [here]), List.lookup_cons, List.lookup_cons, ih]

theorem lookup_of_without {pending : PendingInteraction}
    (found : (interactions.filter fun entry => entry.1 != interactionId).lookup other =
      some pending) : other ≠ interactionId ∧ interactions.lookup other = some pending := by
  by_cases same : other = interactionId
  · subst same
    have none : (interactions.filter fun entry => entry.1 != other).lookup other = none := by
      rw [List.lookup_eq_none_iff]
      intro entry member
      have kept := (List.mem_filter.mp member).2
      rw [bne_iff_ne] at kept
      exact bne_iff_ne.mpr (Ne.symm kept)
    rw [none] at found
    cases found
  · rw [lookup_without same] at found
    exact ⟨same, found⟩

end

structure Resolving (context : TurnContext) (s : TurnStream) : Prop where
  registered : ∀ id pending, s.interactions.lookup id = some pending →
    RaisedInteraction.mk pending.request id pending.epoch ∈ s.raised ∧
      Own context s pending.request pending.requestId
  held : ∀ i call, s.calls i = some call →
    s.interactions.lookup call.interactionId = some call.pending
  apart : ∀ i j a b, i ≠ j → s.calls i = some a → s.calls j = some b →
    a.interactionId ≠ b.interactionId
  unwritten : ∀ i call, s.calls i = some call → call.written = false →
    call.pending.request ∉ s.responses.map Answer.request
  written : ∀ i call, s.calls i = some call → call.written = true →
    call.pending.request ∈ s.responses.map Answer.request
  unaccepted : ∀ i call, s.calls i = some call →
    call.pending.request ∉ s.accepted.map Acceptance.request
  acceptedWritten : ∀ acceptance ∈ s.accepted, acceptance.request ∈ s.responses.map Answer.request
  acceptedOnce : (s.accepted.map Acceptance.request).Nodup
  acceptedCurrent : ∀ acceptance ∈ s.accepted, acceptance.current = some acceptance.epoch ∧
    RaisedInteraction.mk acceptance.request acceptance.interactionId acceptance.epoch ∈ s.raised

variable {s s' : TurnStream}

theorem Resolving.raised (inv : Resolving context s) {i : Nat} {call : ResolveCall}
    (found : s.calls i = some call) :
    RaisedInteraction.mk call.pending.request call.interactionId call.pending.epoch ∈ s.raised :=
  (inv.registered _ _ (inv.held i call found)).1

theorem Resolving.requests_apart (inv : Resolving context s)
    (once : (s.raised.map RaisedInteraction.request).Nodup) {i j : Nat} {a b : ResolveCall}
    (different : i ≠ j) (first : s.calls i = some a) (second : s.calls j = some b) :
    a.pending.request ≠ b.pending.request := by
  intro same
  have one := List.inj_on_of_nodup_map once (inv.raised first) (inv.raised second) same
  exact inv.apart i j a b different first second (congrArg RaisedInteraction.interactionId one)

theorem Resolving.same (inv : Resolving context s) {more : List Json}
    (messages : s'.messages = s.messages ++ more) (raised : s'.raised = s.raised)
    (responses : s'.responses = s.responses) (interactions : s'.interactions = s.interactions)
    (calls : s'.calls = s.calls) (accepted : s'.accepted = s.accepted) : Resolving context s' := by
  have registered : ∀ id pending, s.interactions.lookup id = some pending →
      RaisedInteraction.mk pending.request id pending.epoch ∈ s.raised ∧
        Own context s' pending.request pending.requestId := by
    intro id pending found
    obtain ⟨known, own⟩ := inv.registered id pending found
    exact ⟨known, own.grows messages⟩
  cases s
  cases s'
  subst raised responses interactions calls accepted
  exact { inv with registered }

theorem Resolving.shown (inv : Resolving context s) (shown : Shown s s') : Resolving context s' :=
  inv.same (shown.messages.trans (List.append_nil _).symm) shown.raised shown.responses
    shown.interactions shown.calls shown.accepted

theorem Resolving.raises (inv : Resolving context s) {interactionId : String}
    {pending : PendingInteraction} {more : List Json} (messages : s'.messages = s.messages ++ more)
    (raised : s'.raised = s.raised ++ [⟨pending.request, interactionId, pending.epoch⟩])
    (responses : s'.responses = s.responses)
    (interactions : s'.interactions = setInteraction interactionId pending s.interactions)
    (calls : s'.calls = s.calls) (accepted : s'.accepted = s.accepted)
    (own : Own context s' pending.request pending.requestId)
    (free : ∀ i call, s.calls i = some call → call.interactionId ≠ interactionId) :
    Resolving context s' := by
  have grown {n : Nat} {id : Json} (own : Own context s n id) : Own context s' n id :=
    own.grows messages
  cases s
  cases s'
  dsimp only at raised responses interactions calls accepted
  subst raised responses interactions calls accepted
  refine { inv with registered := ?_, held := ?_, acceptedCurrent := ?_ }
  · intro id other found
    rw [setInteraction] at found
    by_cases here : id = interactionId
    · subst here
      rw [List.lookup_cons_self] at found
      cases found
      exact ⟨List.mem_concat_self, own⟩
    · rw [lookup_other here, lookup_without here] at found
      obtain ⟨known, own⟩ := inv.registered id other found
      exact ⟨List.mem_append_left _ known, grown own⟩
  · intro i call found
    have different := free i call found
    rw [setInteraction, lookup_other different, lookup_without different]
    exact inv.held i call found
  · intro acceptance member
    obtain ⟨current, known⟩ := inv.acceptedCurrent acceptance member
    exact ⟨current, List.mem_append_left _ known⟩

theorem Resolving.loop_wrote (inv : Resolving context s) {answer : Answer}
    (messages : s'.messages = s.messages) (raised : s'.raised = s.raised)
    (responses : s'.responses = s.responses ++ [answer])
    (interactions : s'.interactions = s.interactions)
    (calls : s'.calls = s.calls) (accepted : s'.accepted = s.accepted)
    (other : answer.request ∉ s.raised.map RaisedInteraction.request) : Resolving context s' := by
  have earlier {n : Nat} (member : n ∈ s.responses.map Answer.request) :
      n ∈ (s.responses ++ [answer]).map Answer.request := by
    rw [List.map_append]
    exact List.mem_append_left _ member
  cases s
  cases s'
  dsimp only at messages raised responses interactions calls accepted
  subst messages raised responses interactions calls accepted
  refine { inv with unwritten := ?_, written := ?_, acceptedWritten := ?_ }
  · intro i call found open_ member
    rw [List.map_append] at member
    rcases List.mem_append.mp member with earlier | here
    · exact inv.unwritten i call found open_ earlier
    · rw [List.map_singleton, List.mem_singleton] at here
      exact other (List.mem_map.mpr ⟨_, inv.raised found, here⟩)
  · exact fun i call found closed => earlier (inv.written i call found closed)
  · exact fun acceptance member => earlier (inv.acceptedWritten acceptance member)

section
variable {s : TurnStream} {i j : Nat} {call new : ResolveCall}

theorem setCall_some (known : (s.setCall i (some new)).calls j = some call) :
    (j = i ∧ call = new) ∨ (j ≠ i ∧ s.calls j = some call) := by
  change Function.update s.calls i (some new) j = some call at known
  by_cases here : j = i
  · subst here
    rw [Function.update_self] at known
    exact .inl ⟨rfl, (Option.some.inj known).symm⟩
  · rw [Function.update_of_ne here] at known
    exact .inr ⟨here, known⟩

theorem setCall_none (known : (s.setCall i none).calls j = some call) :
    j ≠ i ∧ s.calls j = some call := by
  change Function.update s.calls i none j = some call at known
  by_cases here : j = i
  · rw [here, Function.update_self] at known
    cases known
  · rw [Function.update_of_ne here] at known
    exact ⟨here, known⟩

end

variable {s' : TurnStream}

theorem Resolving.begins {s : TurnStream} (inv : Resolving context s) {i : Nat}
    {call : ResolveCall} (same : s' = s.setCall i (some call)) (open_ : call.written = false)
    (found : s.interactions.lookup call.interactionId = some call.pending)
    (alone : ∀ j other, s.calls j = some other → other.interactionId ≠ call.interactionId)
    (unanswered : ∀ answer ∈ s.responses, answer.request ≠ call.pending.request) :
    Resolving context s' := by
  subst same
  have fresh : call.pending.request ∉ s.responses.map Answer.request := by
    intro member
    obtain ⟨answer, known, same⟩ := List.mem_map.mp member
    exact unanswered answer known same
  exact {
    registered := inv.registered
    held := by
      intro j other known
      rcases setCall_some known with ⟨_, rfl⟩ | ⟨_, known⟩
      · exact found
      · exact inv.held j other known
    apart := by
      intro j k a b different first second
      rcases setCall_some first with ⟨rfl, rfl⟩ | ⟨_, first'⟩
      · rcases setCall_some second with ⟨rfl, _⟩ | ⟨_, second'⟩
        · exact absurd rfl different
        · exact (alone k b second').symm
      · rcases setCall_some second with ⟨_, rfl⟩ | ⟨_, second'⟩
        · exact alone j a first'
        · exact inv.apart j k a b different first' second'
    unwritten := by
      intro j other known unwritten
      rcases setCall_some known with ⟨_, rfl⟩ | ⟨_, known⟩
      · exact fresh
      · exact inv.unwritten j other known unwritten
    written := by
      intro j other known written
      rcases setCall_some known with ⟨_, rfl⟩ | ⟨_, known⟩
      · rw [open_] at written
        cases written
      · exact inv.written j other known written
    unaccepted := by
      intro j other known
      rcases setCall_some known with ⟨_, rfl⟩ | ⟨_, known⟩
      · intro member
        obtain ⟨acceptance, accepted, same⟩ := List.mem_map.mp member
        have written := inv.acceptedWritten acceptance accepted
        rw [same] at written
        exact fresh written
      · exact inv.unaccepted j other known
    acceptedWritten := inv.acceptedWritten
    acceptedOnce := inv.acceptedOnce
    acceptedCurrent := inv.acceptedCurrent }

theorem Resolving.sends {s : TurnStream} (inv : Resolving context s)
    (once : (s.raised.map RaisedInteraction.request).Nodup) {i : Nat} {call : ResolveCall}
    {answer : Answer} (found : s.calls i = some call) (number : answer.request = call.pending.request)
    (same : s' = { s.setCall i (some { call with written := true }) with
      responses := s.responses ++ [answer] }) : Resolving context s' := by
  subst same
  have responses : ∀ n, n ∈ (s.responses ++ [answer]).map Answer.request ↔
      n ∈ s.responses.map Answer.request ∨ n = call.pending.request := by
    intro n
    rw [List.map_append, List.mem_append, List.map_singleton, List.mem_singleton, number]
  exact {
    registered := inv.registered
    held := by
      intro j other known
      rcases setCall_some known with ⟨_, rfl⟩ | ⟨_, known⟩
      · exact inv.held i call found
      · exact inv.held j other known
    apart := by
      intro j k a b different first second
      rcases setCall_some first with ⟨rfl, rfl⟩ | ⟨_, first'⟩
      · rcases setCall_some second with ⟨rfl, _⟩ | ⟨_, second'⟩
        · exact absurd rfl different
        · exact inv.apart j k call b different found second'
      · rcases setCall_some second with ⟨rfl, rfl⟩ | ⟨_, second'⟩
        · exact inv.apart j k a call different first' found
        · exact inv.apart j k a b different first' second'
    unwritten := by
      intro j other known unwritten member
      rcases setCall_some known with ⟨_, rfl⟩ | ⟨different, known⟩
      · cases unwritten
      · rcases (responses _).mp member with earlier | here
        · exact inv.unwritten j other known unwritten earlier
        · exact inv.requests_apart once different known found here
    written := by
      intro j other known written
      rcases setCall_some known with ⟨_, rfl⟩ | ⟨_, known⟩
      · exact (responses _).mpr (.inr rfl)
      · exact (responses _).mpr (.inl (inv.written j other known written))
    unaccepted := by
      intro j other known
      rcases setCall_some known with ⟨_, rfl⟩ | ⟨_, known⟩
      · exact inv.unaccepted i call found
      · exact inv.unaccepted j other known
    acceptedWritten := fun acceptance member =>
      (responses _).mpr (.inl (inv.acceptedWritten acceptance member))
    acceptedOnce := inv.acceptedOnce
    acceptedCurrent := inv.acceptedCurrent }

theorem Resolving.ends {s : TurnStream} (inv : Resolving context s) (i : Nat) :
    Resolving context (s.setCall i none) := by
  have old : ∀ j other, (s.setCall i none).calls j = some other → s.calls j = some other :=
    fun _ _ known => (setCall_none known).2
  exact {
    registered := inv.registered
    held := fun j other known => inv.held j other (old j other known)
    apart := fun j k a b different first second =>
      inv.apart j k a b different (old j a first) (old k b second)
    unwritten := fun j other known => inv.unwritten j other (old j other known)
    written := fun j other known => inv.written j other (old j other known)
    unaccepted := fun j other known => inv.unaccepted j other (old j other known)
    acceptedWritten := inv.acceptedWritten
    acceptedOnce := inv.acceptedOnce
    acceptedCurrent := inv.acceptedCurrent }

theorem Resolving.settles {s : TurnStream} (inv : Resolving context s)
    (once : (s.raised.map RaisedInteraction.request).Nodup) {i : Nat} {call : ResolveCall}
    (found : s.calls i = some call) (written : call.written = true)
    (same : s' = { s.setCall i none with
      interactions := s.interactions.filter fun entry => entry.1 != call.interactionId
      results := s.results ++ [.accepted]
      accepted := s.accepted ++
        [{ request := call.pending.request, interactionId := call.interactionId,
           epoch := call.pending.epoch,
           current := (s.interactions.lookup call.interactionId).map PendingInteraction.epoch }] }) :
    Resolving context s' := by
  subst same
  have ended := inv.ends i
  exact {
    registered := by
      intro id pending known
      exact ended.registered id pending (lookup_of_without known).2
    held := by
      intro j other known
      obtain ⟨left, before⟩ := setCall_none known
      have apart := inv.apart j i other call left before found
      exact (lookup_without apart).trans (ended.held j other known)
    apart := ended.apart
    unwritten := ended.unwritten
    written := ended.written
    unaccepted := by
      intro j other known member
      rw [List.map_append] at member
      rcases List.mem_append.mp member with earlier | here
      · exact ended.unaccepted j other known earlier
      · rw [List.map_singleton, List.mem_singleton] at here
        obtain ⟨left, before⟩ := setCall_none known
        exact inv.requests_apart once left before found here
    acceptedWritten := by
      intro acceptance member
      rcases List.mem_concat.mp member with earlier | here
      · exact inv.acceptedWritten acceptance earlier
      · rw [here]
        exact inv.written i call found written
    acceptedOnce := Relational.Table.keyed_append inv.acceptedOnce (inv.unaccepted i call found)
    acceptedCurrent := by
      intro acceptance member
      rcases List.mem_concat.mp member with earlier | here
      · exact inv.acceptedCurrent acceptance earlier
      · rw [here]
        refine ⟨?_, inv.raised found⟩
        rw [inv.held i call found]
        rfl }

structure Reached (context : TurnContext) (s : TurnStream) : Prop where
  ending : Ending context s
  answering : Answering context s
  resolving : Resolving context s

theorem Reached.lawful {s : TurnStream} (inv : Reached context s) : Lawful context s where
  terminal := inv.ending.terminal
  onward := inv.ending.onward
  completed := inv.ending.completed
  once := inv.answering.once
  own := inv.answering.own
  answered := inv.answering.answered
  acceptedOnce := inv.resolving.acceptedOnce
  acceptedCurrent := inv.resolving.acceptedCurrent

theorem start_reached : Reached context {} where
  ending := by
    refine ⟨nofun, nofun, nofun, ?_⟩
    rintro event (⟨_, responding⟩ | draining)
    · cases responding
    · cases draining
  answering := ⟨List.nodup_nil, nofun, List.nodup_nil, nofun, nofun, nofun⟩
  resolving := ⟨nofun, nofun, nofun, nofun, nofun, nofun, nofun, List.nodup_nil, nofun⟩

theorem Reached.shown {s : TurnStream} (inv : Reached context s) (shown : Shown s s')
    (idle : ∀ answer warning, s.stage ≠ .responding answer warning) (ending : Ending context s') :
    Reached context s' :=
  ⟨ending, inv.answering.shown shown idle, inv.resolving.shown shown⟩

theorem Reached.heard {s : TurnStream} (inv : Reached context s) {message : Json}
    (unasked : ¬(context.ofTurn message = true ∧ isRequest message)) :
    Reached context { s with messages := s.messages ++ [message] } where
  ending := inv.ending.same rfl rfl (fun _ member => List.mem_append_left _ member) inv.ending.warned
  answering := inv.answering.received rfl rfl (.inl rfl) (.inl rfl)
    fun own asked => absurd ⟨own, asked⟩ unasked
  resolving := inv.resolving.same rfl rfl rfl rfl rfl rfl

section
variable (named : (context.identifier context.turnId).isSome = true)
include named

theorem interact_reached
    {s : TurnStream} (inv : Reached context s) (reading : s.stage = .reading) {message id : Json}
    {method : String} {kind : InteractionKind} (own : context.ofTurn message = true)
    (found : lookup "id" message = some id) (taken : kind = .userInput →
      ∃ contract, context.userInputContract (TurnContext.paramsOf message) = .ok contract)
    (identified : (context.identifier (codexId context id)).isSome = true)
    (free : ∀ i call, s.calls i = some call → call.interactionId ≠ codexId context id) :
    Reached context (interact context { s with messages := s.messages ++ [message] }
      s.messages.length message id method kind) := by
  have contract : ∃ shown, (if kind = .userInput then
      context.userInputContract (TurnContext.paramsOf message)
      else .ok (.obj [("method", .str method), ("params", TurnContext.paramsOf message)],
        .obj [])) = .ok shown := by
    split
    · rename_i asks
      exact taken asks
    · exact ⟨_, rfl⟩
  obtain ⟨⟨display, resolutionSchema⟩, contract⟩ := contract
  obtain ⟨turn, valid⟩ := Option.isSome_iff_exists.mp named
  obtain ⟨name, identified⟩ := Option.isSome_iff_exists.mp identified
  unfold interact
  dsimp only
  rw [contract]
  dsimp only
  have shown : ∀ source epoch, context.validated
      { sourceEventId := source
        event := .interactionRequested (codexId context id) epoch kind display resolutionSchema } =
      some { sourceEventId := source
             event := .interactionRequested name epoch kind display resolutionSchema } := by
    intro source epoch
    unfold TurnContext.validated
    rw [valid, Option.bind_eq_bind, Option.bind_some]
    dsimp only
    rw [identified, Option.bind_some]
  rw [shown]
  have going : StreamStage.isOver s.stage = false := by
    rw [reading]
    rfl
  have more : ∀ known ∈ s.messages, known ∈ s.messages ++ [message] :=
    fun known member => List.mem_append_left _ member
  refine ⟨?_, ?_, ?_⟩
  · have heard : Ending context { s with messages := s.messages ++ [message] } :=
      inv.ending.same rfl rfl more inv.ending.warned
    refine heard.yields going going ?_ rfl rfl heard.warned
    rintro ⟨_, _, _, finishes⟩
    cases finishes
  · refine inv.answering.received rfl rfl (.inr ⟨_, rfl, rfl⟩) (.inl rfl) ?_
    intro _ _
    left
    rw [List.map_append]
    exact List.mem_concat_self
  · refine inv.resolving.raises rfl rfl rfl rfl rfl rfl ?_ free
    refine ⟨message, ?_, own, found⟩
    exact List.getElem?_concat_length

theorem take_reached {s : TurnStream}
    (inv : Reached context s) (reading : s.stage = .reading) {message : Json}
    (orderly : s.Orderly context (.next message)) : Reached context (take context s message) := by
  have idle : ∀ answer warning, s.stage ≠ .responding answer warning := by
    rw [reading]
    intro _ _ responding
    cases responding
  have going : StreamStage.isOver s.stage = false := by
    rw [reading]
    rfl
  have reacted := @react_reacted context s.finalParts message
  unfold take
  dsimp only
  by_cases request : context.ofTurn message = true ∧ isRequest message
  · obtain ⟨own, asked⟩ := request
    obtain ⟨spoken, proper, contracts⟩ := orderly own asked
    rcases @react_request context s.finalParts message own asked spoken proper with
      ⟨id, response, warning, answers⟩ | ⟨id, method, kind, asks⟩
    · rw [answers] at reacted ⊢
      obtain _ | _ | ⟨_, _, _, _, _, found, quiet⟩ := reacted
      refine ⟨?_, ?_, ?_⟩
      · refine inv.ending.same ?_ rfl (fun _ member => List.mem_append_left _ member) ?_
        · rw [going]
          rfl
        · rintro event (⟨_, responding⟩ | draining)
          · cases responding
            exact quiet event rfl
          · cases draining
      · refine inv.answering.received rfl rfl (.inl rfl) (.inr ⟨idle, ?_⟩) ?_
        · rintro answer other ⟨⟩
          exact ⟨rfl, rfl, own, found⟩
        · intro _ _
          exact .inr ⟨_, _, rfl, rfl⟩
      · exact inv.resolving.same rfl rfl rfl rfl rfl rfl
    · rw [asks] at reacted ⊢
      obtain _ | _ | _ | ⟨_, _, _, _, found, kinds⟩ := reacted
      obtain ⟨taken, identified, free⟩ := contracts id kind found kinds
      exact interact_reached named inv reading own found taken identified free
  · have heard := inv.heard request
    cases reaction : context.react s.finalParts message with
    | skip => exact heard
    | emit event =>
      rw [reaction] at reacted
      obtain _ | ⟨_, quiet⟩ := reacted
      have after : Reached context { s with
          messages := s.messages ++ [message]
          finalParts := s.finalParts ++ match event.event with
            | .assistantDelta content => [content]
            | _ => [] } := by
        refine ⟨heard.ending.same rfl rfl (fun _ member => member) heard.ending.warned,
          heard.answering.same rfl rfl rfl (.inl rfl), ?_⟩
        exact heard.resolving.same (List.append_nil _).symm rfl rfl rfl rfl rfl
      exact after.shown (emit_shown _ event) idle (after.ending.emit named going quiet)
    | respond id response warning =>
      rw [reaction] at reacted
      obtain _ | _ | ⟨_, _, _, own, asked⟩ := reacted
      exact absurd ⟨own, asked⟩ request
    | interact id method kind =>
      rw [reaction] at reacted
      obtain _ | _ | _ | ⟨_, _, own, asked⟩ := reacted
      exact absurd ⟨own, asked⟩ request
    | finish event =>
      rw [reaction] at reacted
      obtain _ | _ | _ | _ | ⟨_, finishes, told⟩ := reacted
      refine heard.shown (finish_shown _ event) idle (heard.ending.finish named going finishes ?_)
      intro output code completes
      exact ⟨message, List.mem_concat_self, told output code completes⟩

theorem step_reached {s s' : TurnStream} {label : StreamStep} (inv : Reached context s)
    (orderly : s.Orderly context label) (taken : s.step context label = some s') :
    Reached context s' := by
  cases label with
  | next message =>
    simp only [step] at taken
    split at taken <;> cases taken
    rename_i reading
    exact take_reached named inv reading orderly
  | close error =>
    simp only [step] at taken
    split at taken <;> cases taken
    rename_i reading
    refine inv.shown (finish_shown s _) ?_ (inv.ending.failed named (by rw [reading]; rfl) _)
    rw [reading]
    intro _ _ responding
    cases responding
  | write =>
    simp only [step] at taken
    split at taken <;> cases taken
    rename_i answer warning responding
    obtain ⟨fresh, unraised, own⟩ := inv.answering.responding answer warning responding
    refine ⟨?_, ?_, inv.resolving.loop_wrote rfl rfl rfl rfl rfl rfl unraised⟩
    · refine inv.ending.same ?_ rfl (fun _ member => member) ?_
      · rw [responding]
        rfl
      · rintro event (⟨_, again⟩ | draining)
        · cases again
        · cases draining
          exact inv.ending.warned event (.inl ⟨_, responding⟩)
    · refine inv.answering.wrote rfl rfl rfl fresh own ⟨?_, ?_⟩
      · intro other _ same
        rw [responding] at same
        cases same
        exact .inr rfl
      · intro _ _ same
        cases same
  | refuse error => exact orderly.elim
  | drained error =>
    simp only [step] at taken
    split at taken
    · rename_i warning draining
      have going : StreamStage.isOver s.stage = false := by
        rw [draining]
        rfl
      have idle : ∀ answer warning, s.stage ≠ .responding answer warning := by
        rw [draining]
        intro _ _ responding
        cases responding
      split at taken
      · cases taken
        exact inv.shown (finish_shown s _) idle (inv.ending.failed named going _)
      · rename_i shown
        cases taken
        have quiet := inv.ending.warned shown (.inr draining)
        have after : Reached context { s with stage := .reading } := by
          refine ⟨inv.ending.same ?_ rfl (fun _ member => member) ?_,
            inv.answering.same rfl rfl rfl (.inr ⟨idle, ?_⟩),
            inv.resolving.same (List.append_nil _).symm rfl rfl rfl rfl rfl⟩
          · rw [draining]
            rfl
          · rintro event (⟨_, responding⟩ | again)
            · cases responding
            · cases again
          · intro _ _ responding
            cases responding
        refine after.shown (emit_shown _ shown) ?_ (after.ending.emit named rfl quiet)
        intro _ _ responding
        cases responding
      · cases taken
        refine ⟨inv.ending.same ?_ rfl (fun _ member => member) ?_,
          inv.answering.same rfl rfl rfl (.inr ⟨idle, ?_⟩),
          inv.resolving.same (List.append_nil _).symm rfl rfl rfl rfl rfl⟩
        · rw [draining]
          rfl
        · rintro event (⟨_, responding⟩ | again)
          · cases responding
          · cases again
        · intro _ _ responding
          cases responding
    · cases taken
  | leave =>
    simp only [step] at taken
    split at taken <;> cases taken
    rename_i ended
    refine ⟨inv.ending.same ?_ rfl (fun _ member => member) ?_,
      inv.answering.same rfl rfl rfl (.inr ⟨?_, ?_⟩),
      inv.resolving.same (List.append_nil _).symm rfl rfl rfl rfl rfl⟩
    · rw [ended]
      rfl
    · rintro event (⟨_, responding⟩ | draining)
      · cases responding
      · cases draining
    · rw [ended]
      intro _ _ responding
      cases responding
    · intro _ _ responding
      cases responding
  | unread message =>
    cases taken
    exact inv.heard orderly
  | resolve i interactionId interactionEpoch value =>
    have noted : ∀ result, Reached context { s with results := s.results ++ [result] } :=
      fun result => ⟨inv.ending.same rfl rfl (fun _ member => member) inv.ending.warned,
        inv.answering.same rfl rfl rfl (.inl rfl),
        inv.resolving.same (List.append_nil _).symm rfl rfl rfl rfl rfl⟩
    simp only [step] at taken
    split at taken
    · cases taken
    split at taken
    · cases taken
      exact noted _
    split at taken
    · cases taken
      exact noted _
    rename_i pending found
    split at taken
    · cases taken
      exact noted _
    rename_i current
    split at taken
    · cases taken
      exact noted _
    · cases taken
      obtain ⟨alone, unanswered⟩ := orderly pending found (not_not.mp current)
      exact ⟨inv.ending.same rfl rfl (fun _ member => member) inv.ending.warned,
        inv.answering.same rfl rfl rfl (.inl rfl),
        inv.resolving.begins rfl rfl found alone unanswered⟩
  | send i =>
    simp only [step] at taken
    split at taken
    · rename_i call found
      split at taken <;> cases taken
      rename_i unwritten
      have raised := inv.resolving.raised found
      have fresh := inv.resolving.unwritten i call found (Bool.not_eq_true _ ▸ unwritten)
      have own := (inv.resolving.registered _ _ (inv.resolving.held i call found)).2
      refine ⟨inv.ending.same rfl rfl (fun _ member => member) inv.ending.warned,
        inv.answering.wrote rfl rfl rfl fresh own ⟨fun _ _ same => .inl same, ?_⟩,
        inv.resolving.sends inv.answering.raisedOnce found rfl rfl⟩
      intro other warning responding
      refine ⟨responding, ?_⟩
      intro same
      have unraised := (inv.answering.responding other warning responding).2.1
      rw [same] at unraised
      exact unraised (List.mem_map.mpr ⟨_, raised, rfl⟩)
    · cases taken
  | settle i =>
    simp only [step] at taken
    split at taken
    · rename_i call found
      split at taken <;> cases taken
      rename_i written
      exact ⟨inv.ending.same rfl rfl (fun _ member => member) inv.ending.warned,
        inv.answering.same rfl rfl rfl (.inl rfl),
        inv.resolving.settles inv.answering.raisedOnce found written rfl⟩
    · cases taken
  | fail i =>
    simp only [step] at taken
    split at taken <;> cases taken
    refine ⟨inv.ending.same rfl rfl (fun _ member => member) inv.ending.warned,
      inv.answering.same rfl rfl rfl (.inl rfl), ?_⟩
    have ended := inv.resolving.ends i
    exact ended.same (List.append_nil _).symm rfl rfl rfl rfl rfl

end

/-- The stream of a Turn with a valid reference is lawful while its requests are in order, the
loop's responses get written and resolutions of one interaction do not overlap. -/
theorem lawful_of_orderly (named : (context.identifier context.turnId).isSome = true)
    (labels : List StreamStep) (orderly : ∀ taken ∈ Transition.accepted (step context) {} labels,
      taken.1.Orderly context taken.2) :
    ∀ t ∈ Transition.trace (step context) {} labels, Lawful context t :=
  fun t member => (Transition.trace_safe_of_clean
    (fun _ _ _ inv orderly taken => step_reached named inv orderly taken) start_reached orderly
    t member).lawful

end

def plainTurn : TurnContext where
  turnId := "turn"
  str := fun _ => ""
  identifier text := if text = "" then none else some text
  nonEmpty text := if text = "" then none else some text

def elicitation : Json := .obj [("id", .str "2"), ("method", .str "mcpServer/elicitation/request")]

def approvalRequest : Json :=
  .obj [("id", .str "3"), ("method", .str "item/fileChange/requestApproval")]

def turnCompleted : Json :=
  .obj [("method", .str "turn/completed"),
    ("params", .obj [("turn", .obj [("id", .str "turn"), ("status", .str "completed")])])]

/-- An approval and an elicitation are answered, and the Turn completes. -/
theorem lawful_completed : Transition.Along (Lawful plainTurn) (Transition.trace (step plainTurn) {}
      [.next approvalRequest, .write, .drained none, .next elicitation,
        .resolve 0 "codex-2" 1 (.obj [("action", .str "accept")]), .send 0, .settle 0,
        .next turnCompleted, .leave]) := by
  refine lawful_of_orderly rfl _ ?_
  have next := @Transition.accepted_forall_cons _ _ (step plainTurn)
    (fun taken => taken.1.Orderly plainTurn taken.2)
  refine next (by with_unfolding_all rfl) ?_ ?_
  · intro _ _
    refine ⟨by decide, by decide, ?_⟩
    intro id kind _ kinds
    cases kinds
  refine next (by with_unfolding_all rfl) trivial ?_
  refine next (by with_unfolding_all rfl) trivial ?_
  refine next (by with_unfolding_all rfl) ?_ ?_
  · intro _ _
    refine ⟨by decide, by decide, ?_⟩
    rintro id kind ⟨⟩ ⟨⟩
    refine ⟨by simp, by decide, ?_⟩
    intro i call found
    cases found
  refine next (by with_unfolding_all rfl) ?_ ?_
  · rintro pending ⟨⟩ _
    refine ⟨?_, ?_⟩
    · intro j call found
      cases found
    · intro answer member
      have declined : answer ∈ [(⟨0, _, _⟩ : Answer)] := member
      rw [List.mem_singleton.mp declined]
      exact Nat.zero_ne_one
  refine next (by with_unfolding_all rfl) trivial ?_
  refine next (by with_unfolding_all rfl) trivial ?_
  refine next (by with_unfolding_all rfl) ?_ ?_
  · rintro _ ⟨asked, _⟩
    cases asked
  refine next (by with_unfolding_all rfl) trivial ?_
  intro taken member
  cases member

def answeredTwice : List StreamStep :=
  [.next elicitation, .resolve 0 "codex-2" 1 (.obj [("action", .str "accept")]),
    .resolve 1 "codex-2" 1 (.obj [("action", .str "decline")]), .send 0, .settle 0, .send 1,
    .settle 1]

/-- Both are written and accepted. -/
theorem answered_twice :
    ¬∀ t ∈ Transition.trace (step plainTurn) {} answeredTwice, Lawful plainTurn t := by
  intro lawful
  have once := (lawful _ (Transition.mem_trace_final _ answeredTwice)).acceptedOnce
  have accepted : (Transition.final (step plainTurn) {} answeredTwice).accepted.map
      Acceptance.request = [0, 0] := by
    decide +kernel
  rw [accepted] at once
  simp at once

end TurnStream

end Knoa.Codex
