import Mathlib.Data.Finset.Basic
import Mathlib.Data.Rat.Defs
import Knoa.Library.Transition
import Knoa.Library.Parties

/-!
# The capability gateway

Grants, their budgets and the calls under way. A step runs from one suspension of a coroutine to
the next.
-/
namespace Knoa.Capabilities

abbrev Time := Rat

inductive ToolEffect
  | readOnly
  | internalWrite
  | localWrite
  | externalSideEffect
  | desktopControl
  | unknown
  deriving DecidableEq, Repr

inductive ToolCapability
  | hostRead
  | hostWrite
  | shell
  | network
  | desktopObserve
  | desktopControl
  | memoryRead
  | memoryWrite
  | mcp
  | taskManagement
  deriving DecidableEq, Repr

inductive ToolRisk
  | low
  | medium
  | high
  deriving DecidableEq, Repr

structure ToolPolicy where
  effect : ToolEffect
  capabilities : Finset ToolCapability
  risk : ToolRisk
  deriving DecidableEq

def ToolPolicy.configured (policy : ToolPolicy) : Bool := policy.effect != .unknown

def ToolPolicy.requiresConfirmation (policy : ToolPolicy) : Bool :=
  !(policy.effect == .readOnly || policy.effect == .internalWrite) || policy.risk == .high

/-- Arguments of a call and schemas, each as its canonical text. -/
abbrev Arguments := String

/-- A registered tool; `object` tells one registration from another. -/
structure RegisteredTool where
  object : Nat
  policy : ToolPolicy
  policyFor : Arguments → ToolPolicy
  validationSchema : Option String
  fingerprint : String

/-- What the gateway asks of the rest of the process. -/
structure Env where
  /-- Whether a schema accepts the arguments. -/
  validates : String → Arguments → Bool
  /-- `ToolArgumentPolicy.normalize`; nothing where the path is empty. -/
  normalize : Finset ToolCapability → Arguments → Option Arguments

structure CapabilityGrant where
  token : String
  capabilities : Finset ToolCapability
  confirmation : Bool
  toolCommit : Bool
  expiresAt : Time
  toolNames : Finset String
  allowTools : Bool
  maxToolCalls : Nat
  toolDigests : String → Option String

structure IssueRequest where
  capabilities : Finset ToolCapability
  confirmation : Bool
  toolCommit : Bool
  toolNames : Finset String
  ttlSeconds : Time := 300
  allowTools : Bool := true
  maxToolCalls : Nat := 50
  maxArtifactBytes : Nat := 32 * 1024 * 1024
  artifactBytes : Nat := 0
  toolDigests : Option (String → Option String) := none

/-- Where a call stands. A call that has ended keeps its status and code. -/
inductive Phase
  | confirming (tool : RegisteredTool) (schema : String) (policy : ToolPolicy)
      (normalized : Arguments)
  | beginning (normalized : Arguments)
  | running
  | finishing (status : String)
  | ended (status code : String)

def Phase.isRunning : Phase → Bool
  | .running => true
  | _ => false

/-- A call that the gateway has let in; `ran` is set once its tool has been dispatched. -/
structure Call where
  grant : CapabilityGrant
  name : String
  arguments : Arguments
  phase : Phase
  ran : Bool

/-- What `ToolCommitPort.begin` returns. -/
inductive Begun
  | raised
  | prior
  | go
  deriving DecidableEq, Repr

structure World where
  now : Time
  tools : String → Option RegisteredTool := fun _ => none
  grants : List CapabilityGrant := []
  issued : List CapabilityGrant := []
  /-- The counter of the budget of a grant. -/
  toolCalls : String → Nat := fun _ => 0
  /-- The cancellation event of a grant. -/
  cancelled : String → Bool := fun _ => false
  calls : List Call := []

namespace World
variable (w : World)

def fingerprint (name : String) : String :=
  match w.tools name with
  | some tool => tool.fingerprint
  | none => ""

def purgeExpired : World := { w with grants := w.grants.filter fun grant => w.now < grant.expiresAt }

def revoke (token : String) : World :=
  { w with grants := w.grants.filter fun grant => grant.token ≠ token }

def digestsFor (request : IssueRequest) : String → Option String :=
  match request.toolDigests with
  | some digests => digests
  | none => fun name => if name ∈ request.toolNames then some (w.fingerprint name) else none

/-- A token is drawn at random and comes up once. -/
def issue (token : String) (request : IssueRequest) : Option World :=
  if token ∈ w.issued.map CapabilityGrant.token then none
  else if request.ttlSeconds ≤ 0 ∨ request.maxArtifactBytes < request.artifactBytes then some w
  else
    let grant : CapabilityGrant := {
      token
      capabilities := request.capabilities
      confirmation := request.confirmation
      toolCommit := request.toolCommit
      expiresAt := w.now + request.ttlSeconds
      toolNames := request.toolNames
      allowTools := request.allowTools
      maxToolCalls := request.maxToolCalls
      toolDigests := w.digestsFor request }
    let w := w.purgeExpired
    some { w with grants := w.grants ++ [grant], issued := w.issued ++ [grant] }

def resolve (token : String) : World × Option CapabilityGrant :=
  let w := w.purgeExpired
  (w, w.grants.find? fun grant => grant.token == token)

variable (env : Env)

/-- The tool has returned; its outcome is checkpointed where there is a commit port. -/
def settle (grant : CapabilityGrant) (status code : String) : Phase :=
  if grant.toolCommit = true then .finishing status else .ended status code

/-- `ToolRegistry._commit` -/
def dispatch (grant : CapabilityGrant) (name : String) : Phase :=
  match w.tools name with
  | some _ => .running
  | none => settle grant "failed" "tool_failed"

/-- From the last look at the cancellation to the commit port; `prepared` says whether the
environment could be prepared. -/
def commit (grant : CapabilityGrant) (name : String) (normalized : Arguments) (prepared : Bool) :
    Phase :=
  if w.cancelled grant.token = true then .ended "not_executed" "cancelled"
  else if prepared = false then .ended "failed" "execution_environment_unavailable"
  else if grant.toolCommit = true then .beginning normalized
  else w.dispatch grant name

/-- `ToolStep.execute` up to where it first waits. -/
def execute (grant : CapabilityGrant) (name : String) (arguments : Arguments) (prepared : Bool) :
    Phase :=
  match w.tools name with
  | none => .ended "rejected" "tool_not_found"
  | some tool =>
    if tool.policy.configured = false then .ended "rejected" "capability_denied"
    else
      match tool.validationSchema with
      | none => .ended "raised" ""
      | some schema =>
        if env.validates schema arguments = false then
          .ended "rejected" "tool_invalid_arguments"
        else
          let policy := tool.policyFor arguments
          if policy.configured = false ∨ ¬policy.capabilities ⊆ grant.capabilities then
            .ended "rejected" "capability_denied"
          else
            match env.normalize policy.capabilities arguments with
            | none => .ended "rejected" "tool_invalid_arguments"
            | some normalized =>
              if w.cancelled grant.token = true then .ended "not_executed" "cancelled"
              else if policy.requiresConfirmation = true then
                if grant.confirmation = true then .confirming tool schema policy normalized
                else .ended "rejected" "confirmation_required"
              else w.commit grant name normalized prepared

def stillApproved (grant : CapabilityGrant) (name : String) (arguments : Arguments)
    (tool : RegisteredTool) (schema : String) (policy : ToolPolicy) (normalized : Arguments) :
    Bool :=
  match w.tools name with
  | none => false
  | some current =>
    current.object == tool.object && current.validationSchema == some schema &&
      env.validates schema arguments && decide (current.policyFor arguments = policy) &&
      policy.configured && decide (policy.capabilities ⊆ grant.capabilities) &&
      env.normalize policy.capabilities arguments == some normalized

def confirmed (grant : CapabilityGrant) (name : String) (arguments : Arguments)
    (tool : RegisteredTool) (schema : String) (policy : ToolPolicy) (normalized : Arguments)
    (answer : Option Bool) (prepared : Bool) : Phase :=
  match answer with
  | none => .ended "rejected" "confirmation_failed"
  | some approved =>
    if w.cancelled grant.token = true then .ended "not_executed" "cancelled"
    else if approved = false then .ended "rejected" "confirmation_denied"
    else if w.stillApproved env grant name arguments tool schema policy normalized = false then
      .ended "rejected" "approval_stale"
    else w.commit grant name normalized prepared

def begun (grant : CapabilityGrant) (name : String) : Begun → Phase
  | .raised => .ended "raised" ""
  | .prior => .ended "prior" ""
  | .go => w.dispatch grant name

/-- `_call_tool` up to the budget. -/
def admits (grant : CapabilityGrant) (name : String) : Bool :=
  grant.allowTools && decide (name ∈ grant.toolNames) &&
    grant.toolDigests name == some (w.fingerprint name)

/-- `InvocationBudget.consume_tool_call` -/
def consumeToolCall (token : String) : World :=
  { w with toolCalls := Function.update w.toolCalls token (w.toolCalls token + 1) }

/-- `_call_tool`: the token is looked up, the budget charged, and the call entered. -/
def callTool (token name : String) (arguments : Arguments) (prepared : Bool) : World :=
  let (w, found) := w.resolve token
  match found with
  | none => w
  | some grant =>
    if w.admits grant name = false ∨ grant.maxToolCalls ≤ w.toolCalls token then w
    else
      let w := w.consumeToolCall token
      let phase := w.execute env grant name arguments prepared
      { w with calls := w.calls ++ [{ grant, name, arguments, phase, ran := phase.isRunning }] }

/-- A call goes on; it is noted when its tool is dispatched. -/
def proceed (i : Nat) (call : Call) (phase : Phase) : World :=
  { w with calls := w.calls.set i { call with phase, ran := call.ran || phase.isRunning } }

end World

inductive Act
  | issue (token : String) (request : IssueRequest)
  | revoke (token : String)
  /-- The clock is read anew. -/
  | tick (now : Time)
  /-- A tool is registered, replaced or taken away. -/
  | retool (name : String) (tool : Option RegisteredTool)
  | cancel (token : String)
  | list (token : String)
  | call (token name : String) (arguments : Arguments) (prepared : Bool)
  | confirmed (i : Nat) (answer : Option Bool) (prepared : Bool)
  | begun (i : Nat) (outcome : Begun)
  | returned (i : Nat) (status code : String)
  | finished (i : Nat) (stored : Bool)
  /-- The task of the call is cancelled while it waits. -/
  | dropped (i : Nat)

def step (env : Env) (w : World) : Act → Option World
  | .issue token request => w.issue token request
  | .revoke token => some (w.revoke token)
  | .tick now => some { w with now }
  | .retool name tool => some { w with tools := Function.update w.tools name tool }
  | .cancel token => some { w with cancelled := Function.update w.cancelled token true }
  | .list token => some (w.resolve token).1
  | .call token name arguments prepared => some (w.callTool env token name arguments prepared)
  | .confirmed i answer prepared =>
    match w.calls[i]? with
    | none => none
    | some call =>
      match call.phase with
      | .confirming tool schema policy normalized =>
        some (w.proceed i call (w.confirmed env call.grant call.name call.arguments tool
          schema policy normalized answer prepared))
      | _ => none
  | .begun i outcome =>
    match w.calls[i]? with
    | none => none
    | some call =>
      match call.phase with
      | .beginning _ => some (w.proceed i call (w.begun call.grant call.name outcome))
      | _ => none
  | .returned i status code =>
    match w.calls[i]? with
    | none => none
    | some call =>
      match call.phase with
      | .running => some (w.proceed i call (World.settle call.grant status code))
      | _ => none
  | .finished i stored =>
    match w.calls[i]? with
    | none => none
    | some call =>
      match call.phase with
      | .finishing status =>
        some (w.proceed i call (if stored = true then .ended status "" else .ended "raised" ""))
      | _ => none
  | .dropped i =>
    match w.calls[i]? with
    | none => none
    | some call =>
      match call.phase with
      | .ended _ _ => none
      | _ => some (w.proceed i call (.ended "raised" ""))

end Knoa.Capabilities
