import Knoa.Library.Json

/-!
# Model providers and model steps

What a provider streams, `FailoverModelProvider` over two of them and `ModelStep.run` over any.
A stream is its chunks and how it ends.
-/
namespace Knoa.Models

structure ProposedToolCall where
  callId : String
  name : String
  arguments : List (String × Json)

inductive FinishReason
  | none
  | stop
  | toolCalls
  | length
  | error
  deriving DecidableEq

/-- `ProviderChunk`, with its validator. -/
structure ProviderChunk where
  contentDelta : String := ""
  reasoningDelta : String := ""
  toolCalls : List ProposedToolCall := []
  finishReason : FinishReason := .none
  usage : List (String × Json) := []
  terminal : Bool := false
  errorCode : String := ""
  providerModel : String := ""
  failoverUsed : Bool := false
  calls : toolCalls ≠ [] → terminal = true := by decide
  finished : terminal = true → finishReason ≠ .none := by decide
  failed : finishReason = .error → terminal = true := by decide

inductive Ending
  | finished
  | raised
  /-- `asyncio.CancelledError` -/
  | cancelled
  deriving DecidableEq

structure ProviderStream where
  chunks : List ProviderChunk
  ending : Ending

def ProviderChunk.observable (chunk : ProviderChunk) : Bool :=
  chunk.contentDelta != "" || chunk.reasoningDelta != "" || !chunk.toolCalls.isEmpty

def ProviderChunk.fails (chunk : ProviderChunk) : Bool :=
  chunk.terminal && chunk.finishReason == .error

/-- The variables of `FailoverModelProvider._stream`. -/
structure Seen where
  emitted : Bool := false
  terminal : Bool := false
  primaryModel : String := ""

inductive PrimaryEnd
  /-- An error of a primary that has shown something. -/
  | returned
  | isOver
  | cancelled
  deriving DecidableEq

/-- The loop over the primary: what it yields, how it ends, and what it has seen. -/
def followPrimary (ending : Ending) :
    List ProviderChunk → Seen → List ProviderChunk × PrimaryEnd × Seen
  | [], seen => ([], if ending = .cancelled then .cancelled else .isOver, seen)
  | chunk :: rest, seen =>
    let model := if chunk.providerModel = "" then seen.primaryModel else chunk.providerModel
    if chunk.fails then
      if seen.emitted then ([chunk], .returned, { seen with primaryModel := model })
      else ([], .isOver, { seen with primaryModel := model })
    else
      let (later, stop, last) := followPrimary ending rest
        { emitted := seen.emitted || chunk.observable, terminal := seen.terminal || chunk.terminal,
          primaryModel := model }
      (chunk :: later, stop, last)

structure FailoverStream where
  primary : List ProviderChunk
  own : List ProviderChunk := []
  fallback : List ProviderChunk := []
  ending : Ending := .finished

def FailoverStream.toStream (out : FailoverStream) : ProviderStream where
  chunks := out.primary ++ out.own ++ out.fallback
  ending := out.ending

@[simp] def ProviderChunk.silent : ProviderChunk := {}

@[simp] def ProviderChunk.stopped : ProviderChunk where
  finishReason := .stop
  terminal := true

@[simp] def ProviderChunk.failure (errorCode providerModel : String) : ProviderChunk where
  finishReason := .error
  terminal := true
  errorCode := errorCode
  providerModel := providerModel

def providerFailed (model : String) : ProviderChunk := .failure "provider_failed" model

def ProviderChunk.failedOver (chunk : ProviderChunk) : ProviderChunk :=
  { chunk with failoverUsed := true }

/-- `FailoverModelProvider._stream`; `cancelled` is what it finds after the primary. -/
def failover (primary fallback : ProviderStream) (cancelled : Bool) : FailoverStream :=
  match followPrimary primary.ending primary.chunks {} with
  | (yielded, .cancelled, _) => { primary := yielded, ending := .cancelled }
  | (yielded, .returned, _) => { primary := yielded }
  | (yielded, .isOver, seen) =>
    if cancelled || seen.terminal then { primary := yielded }
    else if seen.emitted then { primary := yielded, own := [providerFailed seen.primaryModel] }
    else
      { primary := yielded, fallback := fallback.chunks.map ProviderChunk.failedOver,
        ending := fallback.ending }

inductive StepStatus
  | completed
  | failed
  | cancelled
  deriving DecidableEq

/-- `ModelStepResult`, without the times. -/
structure ModelStepResult where
  status : StepStatus
  content : String := ""
  reasoning : String := ""
  toolCalls : List ProposedToolCall := []
  finishReason : FinishReason := .none
  usage : List (String × Json) := []
  promptTokensEstimated : Nat
  schemaTokensEstimated : Nat
  errorCode : String := ""
  providerModel : String := ""
  failoverUsed : Bool := false

inductive ModelStepEvent
  | contentDelta (content : String)
  | reasoningDelta (content : String)
  | terminal (result : ModelStepResult)

/-- What precedes the call of the provider. -/
inductive Preparation
  | exceeded (toolTokens : Nat)
  | ready (promptTokens toolTokens : Nat)

/-- The events of a step, and whether it passes a `CancelledError` on. -/
structure ModelStepRun where
  events : List ModelStepEvent
  raised : Bool := false

structure Collected where
  content : List String := []
  reasoning : List String := []
  terminalChunk : Option ProviderChunk := none

def deltas (chunk : ProviderChunk) : List ModelStepEvent :=
  (if chunk.contentDelta = "" then [] else [.contentDelta chunk.contentDelta]) ++
    if chunk.reasoningDelta = "" then [] else [.reasoningDelta chunk.reasoningDelta]

def Collected.add (parts : Collected) (chunk : ProviderChunk) : Collected :=
  { parts with
    content := if chunk.contentDelta = "" then parts.content
      else parts.content ++ [chunk.contentDelta]
    reasoning := if chunk.reasoningDelta = "" then parts.reasoning
      else parts.reasoning ++ [chunk.reasoningDelta] }

section Step

variable (promptTokens toolTokens : Nat)

def broken (status : StepStatus) (parts : Collected) (errorCode : String) : ModelStepEvent :=
  .terminal
    { status, content := String.join parts.content,
      reasoning := String.join parts.reasoning, promptTokensEstimated := promptTokens,
      schemaTokensEstimated := toolTokens, errorCode }

def concluded (cancelled : Bool) (parts : Collected) : ModelStepEvent :=
  let chunk := parts.terminalChunk
  let failed := chunk.all fun chunk => chunk.finishReason == .error
  .terminal
    { status := if cancelled then .cancelled else if failed then .failed else .completed
      content := String.join parts.content
      reasoning := String.join parts.reasoning
      toolCalls := chunk.elim [] ProviderChunk.toolCalls
      finishReason := chunk.elim .none ProviderChunk.finishReason
      usage := chunk.elim [] ProviderChunk.usage
      promptTokensEstimated := promptTokens
      schemaTokensEstimated := toolTokens
      errorCode :=
        if cancelled then "cancelled"
        else if failed then
          match chunk.elim "" ProviderChunk.errorCode with
          | "" => "provider_failed"
          | code => code
        else ""
      providerModel := chunk.elim "" ProviderChunk.providerModel
      failoverUsed := chunk.elim false ProviderChunk.failoverUsed }

/-- The loop over the chunks; `i` counts the checks of the cancellation. -/
def consume (ending : Ending) (cancelled : Nat → Bool) :
    List ProviderChunk → Nat → Collected → ModelStepRun
  | [], i, parts =>
    match ending with
    | .cancelled => { events := [], raised := true }
    | .raised => { events := [broken promptTokens toolTokens .failed parts "provider_failed"] }
    | .finished => { events := [concluded promptTokens toolTokens (cancelled i) parts] }
  | chunk :: rest, i, parts =>
    if cancelled i then
      { events := [broken promptTokens toolTokens .cancelled parts "cancelled"] }
    else
      let parts := parts.add chunk
      if chunk.terminal && parts.terminalChunk.isSome then
        -- "Provider emitted multiple terminal chunks" is raised and caught
        { events := deltas chunk ++
            [broken promptTokens toolTokens .failed parts "provider_failed"] }
      else
        let later := consume ending cancelled rest (i + 1)
          (if chunk.terminal then { parts with terminalChunk := some chunk } else parts)
        { later with events := deltas chunk ++ later.events }

end Step

/-- `ModelStep.run` -/
def modelStep (preparation : Preparation) (stream : ProviderStream) (cancelled : Nat → Bool) :
    ModelStepRun :=
  match preparation with
  | .exceeded toolTokens =>
    { events := [broken toolTokens toolTokens .failed {} "context_budget_exceeded"] }
  | .ready promptTokens toolTokens =>
    if cancelled 0 then
      { events := [broken promptTokens toolTokens .cancelled {} "cancelled"] }
    else consume promptTokens toolTokens stream.ending cancelled stream.chunks 1 {}

end Knoa.Models
