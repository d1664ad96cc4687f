import Knoa.Configuration.ConfigurationService
import Knoa.Configuration.RevisionHistory
import Knoa.Extensions.CapabilityBundle

/-!
# The Capability installer

`CapabilityInstaller` beside the configuration service and its other clients. A step runs from
one await to the next.
-/
namespace Knoa.Extensions.Installs
open Knoa.Configuration
open Knoa.Capabilities (Time)
open Relational (Table)

variable {Settings : Type}

/-- What an operation was called for, with the plan or the record that it has read. -/
inductive Purpose
  | prepare (bundle : CapabilityBundle)
  | confirm (plan : CapabilityInstallPlan)
  | setEnabled (installation : CapabilityInstallation) (enabled : Bool)
  | rollback (installation : CapabilityInstallation)

/-- The revision and the control state that a call has returned, or it has raised. -/
abbrev Reply := Option (String × ConfigControlState)

inductive Call
  | publish (draftId : String) (expectedVersion : Nat)
  | rollback (revisionId : String)
  deriving DecidableEq

/-- What an operation awaits; `previous` is the revision that it remembers. -/
inductive Stage (Settings : Type)
  /-- `get_config_current` -/
  | reading
  /-- `create_config_draft` -/
  | drafting (previous : String)
  /-- `replace_config_draft` -/
  | editing (previous : String) (draft : ConfigDraft (ManagedConfig Settings))
  /-- The plan of the replaced draft is still to be stored. -/
  | edited (previous : String) (draft : ConfigDraft (ManagedConfig Settings))
  /-- `validate_config_draft` -/
  | validating
  /-- `publish_config_draft`, or the `rollback_config` of a `rollback` -/
  | calling (call : Call) (previous : String)
  | called (previous : String) (reply : Reply)
  /-- The `rollback_config` after a call that has not been applied. -/
  | restoring (previous : String)
  | restored (reply : Reply)

structure Operation (Settings : Type) where
  purpose : Purpose
  stage : Stage Settings

/-- A revision that was applied, with the operation whose call has applied it. -/
structure Change (Settings : Type) where
  cause : Option Purpose
  before : Option (ManagedConfig Settings)
  after : Option (ManagedConfig Settings)

structure CapabilityInstaller (Settings : Type) where
  configuration : ConfigurationService (ManagedConfig Settings)
  plans : Table CapabilityInstallPlan.operationId
  installations : Table CapabilityInstallation.capabilityId
  operations : Nat → Option (Operation Settings)
  /-- The operation whose call holds the lock of the service. -/
  holder : Option Nat
  /-- The plans that were confirmed and the revisions that were applied: for statements only. -/
  confirmed : List String
  changes : List (Change Settings)

/-- A normalizer as it works at the time of a call: it reads the packages of the Skills. -/
abbrev Normalizer (Settings : Type) := ManagedConfig Settings → ManagedConfig Settings

inductive InstallerAct (Settings : Type)
  | prepare (op : Nat) (bundle : CapabilityBundle)
  | confirm (op : Nat) (operationId planDigest : String)
  | setEnabled (op : Nat) (capabilityId : String) (enabled : Bool)
  | rollback (op : Nat) (capabilityId : String)
  | gotCurrent (op : Nat)
  | draftCreated (op : Nat) (now : Time) (draftId actor : String)
  | draftReplaced (op : Nat) (now : Time) (normalize : Normalizer Settings) (actor : String)
  /-- The declarative checks have passed and the plan is stored, under the ID that was drawn. -/
  | planned (op : Nat) (operationId : String)
  | validated (op : Nat) (valid : Bool)
  | publishBegins (op : Nat) (now : Time) (normalize : Normalizer Settings) (actor : String)
  | rollbackBegins (op : Nat) (now : Time) (normalize : Normalizer Settings) (newId actor : String)
  /-- The service goes on with the call that holds its lock, or another client calls it. -/
  | configured (act : ConfigAct (ManagedConfig Settings))
  | replied (op : Nat) (now : Time)
  /-- What the operation awaits raises. -/
  | raised (op : Nat)

namespace Purpose

def capabilityId : Purpose → String
  | .prepare bundle => bundle.capabilityId
  | .confirm plan => plan.capabilityId
  | .setEnabled installation _ => installation.capabilityId
  | .rollback installation => installation.capabilityId

/-- What the operation puts into its draft. -/
def edit (d : ManagedConfig Settings) : Purpose → Option (ManagedConfig Settings)
  | .prepare bundle => if bundle.missing = [] then some (bundle.install d) else none
  | .setEnabled installation enabled => some (d.setComponents installation.componentIds enabled)
  | _ => none

def publishSummary : Purpose → String
  | .confirm plan => "Install Capability " ++ plan.capabilityId ++ " " ++ plan.version
  | .setEnabled installation true => "Enable Capability " ++ installation.capabilityId
  | .setEnabled installation false => "Disable Capability " ++ installation.capabilityId
  | _ => ""

def rollbackSummary : Purpose → String
  | .confirm plan => "Rollback failed Capability " ++ plan.capabilityId ++ " install"
  | .setEnabled _ _ => "Restore Capability state"
  | .rollback installation => "Rollback Capability " ++ installation.capabilityId
  | _ => ""

/-- The test of a reply: `confirm` looks at the applied revision as well. -/
def accepts (reply : String × ConfigControlState) : Purpose → Bool
  | .confirm _ => reply.2.applyStatus == .idle && reply.2.appliedRevisionId == reply.1
  | _ => reply.2.applyStatus == .idle

end Purpose

/-- The revision of the `rollback_config` that is awaited. -/
def Stage.rollsBackTo : Stage Settings → Option String
  | .calling (.rollback revisionId) _ => some revisionId
  | .restoring previous => some previous
  | _ => none

/-- What the call that held the lock returns when a step has ended it. -/
def replyOf (act : ConfigAct (ManagedConfig Settings)) (call : ServiceCall (ManagedConfig Settings))
    (after : Registry (ManagedConfig Settings)) : Reply :=
  match act, call.target? with
  | .cancel, _ => none
  | .applierEnded _ .ok, some revision =>
    if after.state.appliedRevisionId = revision.revisionId then
      some (revision.revisionId, after.state)
    else none
  | _, some revision => some (revision.revisionId, after.state)
  | _, none => none

namespace CapabilityInstaller

variable (s : CapabilityInstaller Settings)

def inForce : Option (ManagedConfig Settings) := s.configuration.registry.inForce

/-- `operations[op] = operation`, or the operation has returned. -/
def setOperation (op : Nat) (operation : Option (Operation Settings)) :
    CapabilityInstaller Settings :=
  { s with operations := Function.update s.operations op operation }

def start (op : Nat) (purpose : Purpose) (stage : Stage Settings) :
    Option (CapabilityInstaller Settings) :=
  match s.operations op with
  | some _ => none
  | none => some (s.setOperation op (some ⟨purpose, stage⟩))

def putPlan (plan : CapabilityInstallPlan) : CapabilityInstaller Settings :=
  { s with plans := s.plans.upsert plan }

def putInstallation (installation : CapabilityInstallation) : CapabilityInstaller Settings :=
  { s with installations := s.installations.upsert installation }

/-- `confirm`, up to its first await. -/
def confirm (op : Nat) (operationId planDigest : String) : Option (CapabilityInstaller Settings) :=
  match s.plans.lookup operationId with
  | none => none
  | some plan =>
    if plan.state = .awaitingConfirmation ∧ plan.planDigest = planDigest then
      { s.putPlan { plan with state := .installing } with
        confirmed := s.confirmed ++ [operationId] }.start op (.confirm plan) .validating
    else none

def deliver (reply : Reply) : CapabilityInstaller Settings :=
  match s.holder with
  | none => s
  | some op =>
    match s.operations op with
    | some ⟨purpose, .calling _ previous⟩ =>
      { s.setOperation op (some ⟨purpose, .called previous reply⟩) with holder := none }
    | some ⟨purpose, .restoring _⟩ =>
      { s.setOperation op (some ⟨purpose, .restored reply⟩) with holder := none }
    | _ => { s with holder := none }

def cause : Option Purpose := (s.holder.bind s.operations).map Operation.purpose

def configure (act : ConfigAct (ManagedConfig Settings))
    (after : ConfigurationService (ManagedConfig Settings)) : CapabilityInstaller Settings :=
  { s with
    configuration := after
    changes :=
      match act with
      | .applierEnded _ .ok =>
        s.changes ++ [{ cause := s.cause, before := s.inForce, after := after.registry.inForce }]
      | _ => s.changes }

def configured (digest : ManagedConfig Settings → String)
    (act : ConfigAct (ManagedConfig Settings)) : Option (CapabilityInstaller Settings) :=
  match s.configuration.step digest act with
  | none => none
  | some after =>
    match s.configuration.call, after.call with
    | some call, none => some ((s.configure act after).deliver (replyOf act call after.registry))
    | _, _ => some (s.configure act after)

def settle (op : Nat) (now : Time) (purpose : Purpose) (previous : String)
    (reply : String × ConfigControlState) : CapabilityInstaller Settings :=
  if purpose.accepts reply then
    match purpose with
    | .confirm plan =>
      ((s.putInstallation (plan.installation now reply.1)).putPlan
        { plan with state := .installed }).setOperation op none
    | .setEnabled installation enabled =>
      (s.putInstallation { installation with
        activeRevisionId := reply.1, previousRevisionId := previous, enabled,
        health := if enabled then .healthy else .disabled, updatedAt := now }).setOperation op none
    | .rollback installation =>
      (s.putInstallation { installation with
        activeRevisionId := reply.1, enabled := false, health := .disabled,
        updatedAt := now }).setOperation op none
    | .prepare _ => s.setOperation op none
  else
    match purpose with
    | .confirm plan => s.setOperation op (some ⟨.confirm plan, .restoring previous⟩)
    | .setEnabled installation enabled =>
      s.setOperation op (some ⟨.setEnabled installation enabled, .restoring previous⟩)
    | _ => s.setOperation op none

/-- The rest of an operation after the reply to its `rollback_config`. -/
def giveUp (op : Nat) : Purpose → CapabilityInstaller Settings
  | .confirm plan => (s.putPlan { plan with state := .failed }).setOperation op none
  | _ => s.setOperation op none

def replied (op : Nat) (now : Time) : Option (CapabilityInstaller Settings) :=
  match s.operations op with
  | some ⟨purpose, .called previous reply⟩ =>
    match reply with
    | none => some (s.setOperation op none)
    | some reply => some (s.settle op now purpose previous reply)
  | some ⟨purpose, .restored reply⟩ =>
    match reply with
    | none => some (s.setOperation op none)
    | some _ => some (s.giveUp op purpose)
  | _ => none

/-- `replace_config_draft` of `prepare` and of `set_enabled`. -/
def draftReplaced (digest : ManagedConfig Settings → String) (op : Nat) (now : Time)
    (normalize : Normalizer Settings) (actor : String) : Option (CapabilityInstaller Settings) :=
  match s.operations op with
  | some ⟨purpose, .editing previous draft⟩ => do
    let document ← purpose.edit draft.document
    let after ← s.configuration.step digest
      (.replaceDraft now draft.draftId (some (normalize document)) draft.draftVersion actor)
    let draft ← after.registry.drafts.lookup draft.draftId
    match purpose with
    | .prepare _ =>
      some ({ s with configuration := after }.setOperation op
        (some ⟨purpose, .edited previous draft⟩))
    | _ =>
      some ({ s with configuration := after }.setOperation op
        (some ⟨purpose, .calling (.publish draft.draftId draft.draftVersion) previous⟩))
  | _ => none

def publishBegins (digest : ManagedConfig Settings → String) (op : Nat) (now : Time)
    (normalize : Normalizer Settings) (actor : String) : Option (CapabilityInstaller Settings) :=
  match s.operations op with
  | some ⟨purpose, .calling (.publish draftId version) _⟩ => do
    let draft ← s.configuration.registry.drafts.lookup draftId
    let after ← s.configuration.step digest
      (.publish now draftId (some (normalize draft.document)) version actor purpose.publishSummary)
    return { s with configuration := after, holder := some op }
  | _ => none

def rollbackBegins (digest : ManagedConfig Settings → String) (op : Nat) (now : Time)
    (normalize : Normalizer Settings) (newId actor : String) :
    Option (CapabilityInstaller Settings) := do
  let operation ← s.operations op
  let revisionId ← operation.stage.rollsBackTo
  let target ← s.configuration.registry.revisions.lookup revisionId
  let after ← s.configuration.step digest
    (.rollback now revisionId (some (normalize target.document)) newId actor
      operation.purpose.rollbackSummary)
  return { s with configuration := after, holder := some op }

def raised (op : Nat) : Option (CapabilityInstaller Settings) :=
  match s.operations op with
  | none => none
  | some _ =>
    some { s.setOperation op none with holder := if s.holder = some op then none else s.holder }

def step (digest : ManagedConfig Settings → String) (planDigest : CapabilityInstallPlan → String)
    (s : CapabilityInstaller Settings) :
    InstallerAct Settings → Option (CapabilityInstaller Settings)
  | .prepare op bundle => s.start op (.prepare bundle) .reading
  | .confirm op operationId planDigest => s.confirm op operationId planDigest
  | .setEnabled op capabilityId enabled =>
    match s.installations.lookup capabilityId with
    | none => none
    | some installation => s.start op (.setEnabled installation enabled) .reading
  | .rollback op capabilityId =>
    match s.installations.lookup capabilityId with
    | none => none
    | some installation =>
      s.start op (.rollback installation)
        (.calling (.rollback installation.previousRevisionId) installation.previousRevisionId)
  | .gotCurrent op =>
    match s.operations op, s.configuration.registry.current with
    | some ⟨purpose, .reading⟩, .ok current =>
      some (s.setOperation op (some ⟨purpose, .drafting current.revisionId⟩))
    | _, _ => none
  | .draftCreated op now draftId actor =>
    match s.operations op with
    | some ⟨purpose, .drafting previous⟩ => do
      let after ← s.configuration.step digest (.createDraft now draftId actor)
      let draft ← after.registry.drafts.lookup draftId
      return { s with configuration := after }.setOperation op
        (some ⟨purpose, .editing previous draft⟩)
    | _ => none
  | .draftReplaced op now normalize actor => s.draftReplaced digest op now normalize actor
  | .planned op operationId =>
    match s.operations op with
    | some ⟨.prepare bundle, .edited previous draft⟩ =>
      some ((s.putPlan (bundle.plan planDigest operationId draft.draftId draft.draftVersion
        previous)).setOperation op none)
    | _ => none
  | .validated op valid =>
    match s.operations op with
    | some ⟨.confirm plan, .validating⟩ =>
      if valid then
        match s.configuration.registry.drafts.lookup plan.draftId with
        | none => none
        | some _ =>
          some (s.setOperation op (some ⟨.confirm plan,
            .calling (.publish plan.draftId plan.draftVersion) plan.previousRevisionId⟩))
      else some (s.giveUp op (.confirm plan))
    | _ => none
  | .publishBegins op now normalize actor => s.publishBegins digest op now normalize actor
  | .rollbackBegins op now normalize newId actor =>
    s.rollbackBegins digest op now normalize newId actor
  | .configured act => s.configured digest act
  | .replied op now => s.replied op now
  | .raised op => s.raised op

end CapabilityInstaller

end Knoa.Extensions.Installs
