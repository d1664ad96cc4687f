import Knoa.Automation.Triggers
import Knoa.Tasks.EventDefinitions
import Knoa.Library.Json
import Knoa.Library.Loops

/-!
# Resources that trigger Tasks

`MCPResourceTaskBridge` for one provider: a reconciliation hands the Resources that match an
event definition to the trigger of that definition. What it reads is drawn with it.
-/
namespace Knoa.Extensions
open Knoa.Automation Knoa.Tasks Relational
open Loops (untilStop)

/-- `_CanonicalURI` -/
structure CanonicalUri where
  text : String
  scheme : String
  authority : String
  segments : List String
  deriving DecidableEq

/-- `MCPResourceDefinition` -/
structure ResourceDefinition where
  uri : String
  name : String
  description : String
  mimeType : String
  deriving DecidableEq

/-- `MCPResourceContent` -/
structure ResourceContent where
  uri : String
  mimeType : String
  text : String
  encodedSize : Nat
  deriving DecidableEq

/-- What the bridge reads of a Task definition; of `source_config` the keys that it looks at. -/
structure EventDefinition where
  taskId : String
  principalId : String
  sessionHandle : String
  title : String
  goal : String
  toolsEnabled : Bool
  priority : Int
  launchKind : TaskLaunchKind
  eventSource : String
  resourceUriPrefix : Option String
  includeRoot : Bool := true
  includeDescendants : Bool := false
  deriving DecidableEq

structure BridgeEnv where
  triggers : TriggerEnv
  serverId : String
  /-- `_canonical_uri`, which may raise. -/
  canonicalUri : String → Option CanonicalUri
  /-- The first 48 digits of the hash of a server, a URI and a content. -/
  digest : String → String → List ResourceContent → String
  identified : ∀ server uri contents,
    IsIdentifier ("mcp-resource:" ++ digest server uri contents) 256

/-- `_within_scope` -/
def withinScope (root candidate : CanonicalUri) : Bool :=
  root.scheme == candidate.scheme && root.authority == candidate.authority &&
    candidate.segments.take root.segments.length == root.segments

/-- `_MAX_RESOURCE_EVENT_TEXT_CHARS` -/
def maxResourceEventTextChars : Nat := 24000

def contentJson (item : ResourceContent) (text : String) : Json :=
  .obj [("uri", .str item.uri), ("mime_type", .str item.mimeType), ("text", .str text),
    ("encoded_size", .int item.encodedSize)]

/-- The loop of `_resource_payload`. -/
def payloadContents : Nat → List ResourceContent → List Json
  | _, [] => []
  | remaining, item :: rest =>
    let text := takeChars item.text remaining
    contentJson item text ::
      if remaining ≤ text.length then [] else payloadContents (remaining - text.length) rest

namespace BridgeEnv

variable (env : BridgeEnv)

/-- `_resource_event_id` -/
def resourceEventId (uri : String) (contents : List ResourceContent) : String :=
  "mcp-resource:" ++ env.digest env.serverId uri contents

/-- `_resource_payload`, as the text that the inbox stores. -/
def resourcePayload (uri : String) (resource : ResourceDefinition)
    (contents : List ResourceContent) : String :=
  String.ofList <| Json.dumps (Json.compact false) <| Json.sorted <| .obj
    [("server_id", .str env.serverId), ("resource_uri", .str uri),
      ("resource_name", .str resource.name), ("resource_description", .str resource.description),
      ("contents", .arr (payloadContents maxResourceEventTextChars contents))]

/-- `_matches_definition` -/
def matchesDefinition (definition : EventDefinition) (candidate : CanonicalUri) : Bool :=
  definition.launchKind == .event && definition.eventSource == "mcp:" ++ env.serverId &&
    match definition.resourceUriPrefix.bind env.canonicalUri with
    | none => false
    | some root =>
      if root.text = candidate.text then definition.includeRoot
      else definition.includeDescendants && withinScope root candidate

end BridgeEnv

/-- `_trigger_needs_baseline` -/
def triggerNeedsBaseline (trigger : TriggerRow) : Bool :=
  trigger.lastEventAt.isNone && trigger.eventCount == 0

/-- What a reconciliation finds. A Resource is read once for every definition that it matches, and
then it has the content, or the read raises. -/
structure Round where
  now : Time
  triggerIds : String → Nat → String
  /-- `resource_capabilities().subscribe` -/
  subscribable : Bool
  /-- The provider is still the one of its server when the subscriptions are synchronized. -/
  attached : Bool
  resources : List ResourceDefinition
  definitions : Table EventDefinition.taskId
  /-- The Session of a definition is found. -/
  resolves : String → Bool
  content : String → String → List ResourceContent
  readable : String → String → Bool
  subscribes : String → Bool
  unsubscribes : String → Bool

inductive Handling
  /-- The definition has no event binding. -/
  | unbound
  | baselined
  /-- The inbox has had it. -/
  | known
  | delivered
  /-- Another caller's event. -/
  | foreign
  deriving DecidableEq

structure Observation where
  round : Nat
  taskId : String := ""
  uri : String := ""
  contents : List ResourceContent := []
  triggerId : String
  eventId : String
  handling : Handling
  deriving DecidableEq

/-- A Resource that a definition matched when its trigger was baselined. -/
structure Existing where
  taskId : String
  triggerId : String
  uri : String
  contents : List ResourceContent
  wasRead : Bool
  deriving DecidableEq

/-- What has ended a reconciliation. -/
inductive Stop
  | refused (error : AutomationError)
  | invalidUri (uri : String)
  | unread (uri taskId : String)
  deriving DecidableEq

/-- What a reconciliation had to do: the Resources to hand over, with the outcome of their read,
the baselines, and the subscriptions to change. -/
structure RoundReport where
  emissions : List (String × String × Bool) := []
  baselines : List String := []
  subscriptions : List String := []
  stop : Option Stop := none
  deriving DecidableEq

structure Bridge where
  triggers : TriggerStore
  bindings : List LaunchBindingRow
  subscribed : List String := []
  observed : List Observation := []
  existing : List Existing := []
  /-- The calls of `baseline` and of the subscriptions, with their round. -/
  baselineCalls : List (Nat × String) := []
  subscriptionCalls : List (Nat × String) := []
  rounds : List RoundReport := []

structure OwnedDefinition where
  definition : EventDefinition
  triggerId : String
  trigger : TriggerRow
  deriving DecidableEq

namespace Bridge

variable (s : Bridge)

/-- `launch_binding` -/
def bindingOf (taskId : String) : Option (String × String) :=
  (s.bindings.find? fun row => row.taskId == taskId).map LaunchBindingRow.key

/-- `unbind_launch` -/
def unbind (taskId : String) : Bridge :=
  { s with bindings := s.bindings.filter fun row => row.taskId != taskId }

/-- `bind_launch` of a Task without a binding. -/
def bindEvent (taskId triggerId : String) : Bridge :=
  let binding : LaunchBindingRow := { taskId, providerKind := "event", providerId := triggerId }
  { s with
    bindings :=
      if s.bindings.any fun row => row.key == binding.key then
        s.bindings.map fun row => if row.key == binding.key then binding else row
      else s.bindings ++ [binding] }

/-- `get` of the triggers. -/
def trigger (principalId triggerId : String) : Except AutomationError TriggerRow := do
  let principal ← identifier principalId "principal_id" 256
  let triggerId ← identifier triggerId "trigger_id" 128
  s.triggers.ownedTrigger principal triggerId

/-- The part of `_ensure_trigger_binding` that creates a trigger. A reconciliation is one step
here, so nobody removes the Task or binds it between the awaits, and `bind_launch` does not fail. -/
def repairBinding (round : Round) (definition : EventDefinition) :
    Except AutomationError (Option String) × Bridge :=
  match createTrigger round.now (round.triggerIds definition.taskId)
      { scope := ⟨definition.principalId, definition.sessionHandle⟩,
        clientRequestId := "mcp-event-binding:" ++ definition.taskId, name := definition.title,
        goal := definition.goal, toolsEnabled := definition.toolsEnabled,
        priority := definition.priority } s.triggers with
  | (.error error, triggers) => (.error error, { s with triggers })
  | (.ok (row, _), triggers) =>
    (.ok (some row.triggerId), { s with triggers }.bindEvent definition.taskId row.triggerId)

/-- `_ensure_trigger_binding` -/
def ensureTriggerBinding (round : Round) (definition : EventDefinition) :
    Except AutomationError (Option String) × Bridge :=
  match s.bindingOf definition.taskId with
  | none => s.repairBinding round definition
  | some (kind, providerId) =>
    if kind ≠ "event" then (.ok none, s)
    else match s.trigger definition.principalId providerId with
      | .ok _ => (.ok (some providerId), s)
      | .error (.notFound _) => (s.unbind definition.taskId).repairBinding round definition
      | .error error => (.error error, s)

/-- The events that other callers have stored, to the end of the log. -/
def notice (triggers : TriggerStore) : Bridge :=
  let fresh := (triggers.events.rows.map fun event => (event.triggerId, event.externalEventId)).filter
    fun key => !s.triggers.events.rows.any fun event =>
      (event.triggerId, event.externalEventId) == key
  { s with
    triggers, observed := s.observed ++ fresh.map fun key =>
      { round := s.rounds.length, triggerId := key.1, eventId := key.2, handling := .foreign } }

end Bridge

namespace BridgeEnv

variable (env : BridgeEnv) (round : Round)

/-- The Resources under their canonical texts, in the order of these; the last one counts. -/
def canonicalResources : List (String × ResourceDefinition) :=
  round.resources.filterMap fun resource =>
    (env.canonicalUri resource.uri).map fun canonical => (canonical.text, resource)

def uris : List String := ((env.canonicalResources round).map Prod.fst).dedup.insertionSort (· ≤ ·)

def resourceAt (uri : String) : Option ResourceDefinition :=
  ((env.canonicalResources round).reverse.find? fun entry => entry.1 == uri).map Prod.snd

def ownDefinitions : List EventDefinition → Bridge →
    Except AutomationError (List OwnedDefinition) × Bridge
  | [], s => (.ok [], s)
  | definition :: rest, s =>
    if round.resolves definition.taskId = false then ownDefinitions rest s
    else match s.ensureTriggerBinding round definition with
      | (.error error, s) => (.error error, s)
      | (.ok none, s) => ownDefinitions rest s
      | (.ok (some triggerId), s) =>
        match s.trigger definition.principalId triggerId with
        | .error (.notFound _) => ownDefinitions rest s
        | .error error => (.error error, s)
        | .ok trigger =>
          match ownDefinitions rest s with
          | (.error error, s) => (.error error, s)
          | (.ok owned, s) => (.ok (⟨definition, triggerId, trigger⟩ :: owned), s)

/-- What the loop over the Resources does next: a Resource for a definition, or a canonical text
that is not an URI. -/
inductive Work
  | invalid (uri : String)
  | resource (uri : String) (resource : ResourceDefinition) (owned : OwnedDefinition)

def workAt (owned : List OwnedDefinition) (uri : String) : List Work :=
  match env.canonicalUri uri, env.resourceAt round uri with
  | some candidate, some resource =>
    (owned.filter fun own => env.matchesDefinition own.definition candidate).map
      (.resource uri resource)
  | _, _ => [.invalid uri]

def worklist (owned : List OwnedDefinition) : List Work :=
  (env.uris round).flatMap (env.workAt round owned)

/-- `_emit_resource_event` -/
def emitResourceEvent (uri : String) (resource : ResourceDefinition)
    (definition : EventDefinition) (s : Bridge) : Option Stop × Bridge :=
  if round.readable uri definition.taskId = false then
    (some (.unread uri definition.taskId), s)
  else
    let contents := round.content uri definition.taskId
    match s.ensureTriggerBinding round definition with
    | (.error error, s) => (some (.refused error), s)
    | (.ok none, s) =>
      (none, { s with
        observed := s.observed ++
          [{ round := s.rounds.length, taskId := definition.taskId, uri, contents, triggerId := ""
             eventId := env.resourceEventId uri contents, handling := .unbound }] })
    | (.ok (some triggerId), s) =>
      match receive env.triggers round.now definition.principalId triggerId
          (env.resourceEventId uri contents) (env.resourcePayload uri resource contents)
          s.triggers with
      | .error error => (some (.refused error), s)
      | .ok ((event, created), triggers) =>
        (none, { s with
          triggers, observed := s.observed ++
            [{ round := s.rounds.length, taskId := definition.taskId, uri,
               contents, triggerId := event.triggerId, eventId := event.externalEventId,
               handling := if created then .delivered else .known }] })

/-- The body of the loop over the Resources. The reads for a baseline are in `inventory`. -/
def processWork : Work → Bridge → Option Stop × Bridge
  | .invalid uri, s => (some (.invalidUri uri), s)
  | .resource uri resource owned, s =>
    if triggerNeedsBaseline owned.trigger then (none, s)
    else env.emitResourceEvent round uri resource owned.definition s

def matching (definition : EventDefinition) : List (String × ResourceDefinition) :=
  (env.uris round).filterMap fun uri =>
    match env.canonicalUri uri, env.resourceAt round uri with
    | some candidate, some resource =>
      if env.matchesDefinition definition candidate then some (uri, resource) else none
    | _, _ => none

def inventory (definition : EventDefinition) : List (String × String) :=
  ((env.matching round definition).filter fun entry =>
    round.readable entry.1 definition.taskId).map fun entry =>
      let contents := round.content entry.1 definition.taskId
      (env.resourceEventId entry.1 contents, env.resourcePayload entry.1 entry.2 contents)

def baselineDefinition (s : Bridge) (owned : OwnedDefinition) : Bridge :=
  if triggerNeedsBaseline owned.trigger = false then s
  else
    let definition := owned.definition
    let called := { s with
      baselineCalls := s.baselineCalls ++ [(s.rounds.length, definition.taskId)] }
    match baseline env.triggers round.now definition.principalId owned.triggerId
        (env.inventory round definition) s.triggers with
    | .error _ => called
    | .ok (_, triggers) =>
      -- a trigger that has had an event is left as it is
      if (s.triggers.triggers.lookup (strip owned.triggerId)).all fun row =>
          row.lastEventAt.isSome then { called with triggers }
      else
        { called with
          triggers, observed := s.observed ++
            ((env.matching round definition).filter fun entry =>
              round.readable entry.1 definition.taskId).map fun entry =>
                { round := s.rounds.length, taskId := definition.taskId, uri := entry.1
                  contents := round.content entry.1 definition.taskId
                  triggerId := strip owned.triggerId
                  eventId := env.resourceEventId entry.1 (round.content entry.1 definition.taskId)
                  handling := .baselined }
          existing := s.existing ++ (env.matching round definition).map fun entry =>
            { taskId := definition.taskId, triggerId := strip owned.triggerId
              uri := entry.1, contents := round.content entry.1 definition.taskId
              wasRead := round.readable entry.1 definition.taskId } }

/-- `desired_subscriptions` -/
def desired (owned : List OwnedDefinition) : List String :=
  (env.uris round).filter fun uri => (env.canonicalUri uri).any fun candidate =>
    owned.any fun own => env.matchesDefinition own.definition candidate

def missingSubscriptions (owned : List OwnedDefinition) (s : Bridge) : List String :=
  (env.desired round owned).filter fun uri => !s.subscribed.contains uri

def staleSubscriptions (owned : List OwnedDefinition) (s : Bridge) : List String :=
  (s.subscribed.filter fun uri => !(env.desired round owned).contains uri).insertionSort (· ≤ ·)

end BridgeEnv

namespace Bridge

def subscribe (round : Round) (s : Bridge) (uri : String) : Bridge :=
  { s with
    subscribed := if round.subscribes uri then s.subscribed ++ [uri] else s.subscribed
    subscriptionCalls := s.subscriptionCalls ++ [(s.rounds.length, uri)] }

def unsubscribe (round : Round) (s : Bridge) (uri : String) : Bridge :=
  { s with
    subscribed := if round.unsubscribes uri then s.subscribed.filter (· != uri) else s.subscribed
    subscriptionCalls := s.subscriptionCalls ++ [(s.rounds.length, uri)] }

def close (s : Bridge) (report : RoundReport) : Bridge := { s with rounds := s.rounds ++ [report] }

end Bridge

namespace BridgeEnv

variable (env : BridgeEnv) (round : Round)

/-- `_sync_subscriptions` -/
def syncSubscriptions (owned : List OwnedDefinition) (s : Bridge) : Bridge :=
  let s := (env.missingSubscriptions round owned s).foldl (Bridge.subscribe round) s
  (env.staleSubscriptions round owned s).foldl (Bridge.unsubscribe round) s

def Work.emission (round : Round) : Work → Option (String × String × Bool)
  | .invalid _ => none
  | .resource uri _ own =>
    if triggerNeedsBaseline own.trigger then none
    else some (uri, own.definition.taskId, round.readable uri own.definition.taskId)

def report (owned : List OwnedDefinition) (s : Bridge) : RoundReport where
  emissions := (env.worklist round owned).filterMap (Work.emission round)
  baselines := (owned.filter fun own => triggerNeedsBaseline own.trigger).map
    fun own => own.definition.taskId
  subscriptions :=
    if round.subscribable && round.attached then
      env.missingSubscriptions round owned s ++ env.staleSubscriptions round owned s
    else []

/-- `_reconcile_provider`, from the list of the Resources on. -/
def reconcileProvider (s : Bridge) : Bridge :=
  match ownDefinitions round round.definitions.rows s with
  | (.error error, s) => s.close { stop := some (.refused error) }
  | (.ok owned, s) =>
    let report := env.report round owned s
    match untilStop (env.processWork round) (env.worklist round owned) s with
    | (some stop, s) => s.close { report with stop := some stop }
    | (none, s) =>
      let s := owned.foldl (env.baselineDefinition round) s
      let s :=
        if round.subscribable && round.attached then env.syncSubscriptions round owned s else s
      s.close report

end BridgeEnv

inductive BridgeAct
  | reconcile (round : Round)
  /-- Any call that another client makes of the trigger repository. -/
  | repository (op : TriggerOp)
  /-- Another client has changed the launch bindings. -/
  | rebind (bindings : List LaunchBindingRow)

def Bridge.step (env : BridgeEnv) (s : Bridge) : BridgeAct → Option Bridge
  | .reconcile round => some (env.reconcileProvider round s)
  | .repository op => (s.triggers.step env.triggers op).map s.notice
  | .rebind bindings => some { s with bindings }

def Bridge.initial (sessions : Table SessionRow.sessionHandle)
    (bindings : List LaunchBindingRow) : Bridge where
  triggers := .initial sessions
  bindings := bindings

end Knoa.Extensions
