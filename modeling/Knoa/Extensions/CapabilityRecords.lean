import Knoa.Extensions.CapabilityInstaller

/-!
# Records and the configuration

What the records and the plans of the installer say about the revision in force.
-/
namespace Knoa.Extensions.Installs
open Knoa.Configuration
open Knoa.Capabilities (Time)
open Relational (Table)

variable {Settings : Type}

namespace Purpose

/-- The components that the operation is about, and what it makes of them. -/
def componentIds : Purpose → List ComponentId
  | .prepare bundle => bundle.componentPackages.map Prod.fst
  | .confirm plan => plan.componentIds
  | .setEnabled installation _ => installation.componentIds
  | .rollback installation => installation.componentIds

def enables : Purpose → Bool
  | .prepare _ => true
  | .confirm _ => true
  | .setEnabled _ enabled => enabled
  | .rollback _ => false

/-- A `prepare` leaves the records alone. -/
def writes : Purpose → Bool
  | .prepare _ => false
  | _ => true

end Purpose

structure Owned (owner : ComponentId → Option String) (capabilityId : String)
    (ids : List ComponentId) : Prop where
  nonempty : ids ≠ []
  owned : ∀ c ∈ ids, owner c = some capabilityId

/-- What a document may become through an operation. -/
structure Edits (owner : ComponentId → Option String) (purpose : Purpose)
    (d d' : ManagedConfig Settings) : Prop where
  only : ChangesOnly (fun c => owner c = some purpose.capabilityId) d d'
  flag : d'.AllEnabled purpose.componentIds ↔ purpose.enables = true

def Reply.idle (reply : Reply) : Prop := ∃ given, reply = some given ∧ given.2.applyStatus = .idle

/-- The call of the operation has been applied and its record is still to be written. -/
def Stage.Landed : Stage Settings → Prop
  | .called _ reply => reply.idle
  | _ => False

namespace CapabilityInstaller

variable (s : CapabilityInstaller Settings)

def Enabled (ids : List ComponentId) : Prop := ∃ d, s.inForce = some d ∧ d.AllEnabled ids

def AtRest (capabilityId : String) : Prop :=
  ∀ op o, s.operations op = some o → o.purpose.writes = true → o.purpose.capabilityId ≠ capabilityId

def Landed (capabilityId : String) : Prop :=
  ∃ op o, s.operations op = some o ∧ o.purpose.writes = true ∧
    o.purpose.capabilityId = capabilityId ∧ o.stage.Landed

def Quiet (operationId : String) : Prop :=
  ∀ change ∈ s.changes, ∀ plan, change.cause = some (.confirm plan) →
    plan.operationId = operationId → change.after = change.before

end CapabilityInstaller

structure Agree (owner : ComponentId → Option String) (s : CapabilityInstaller Settings) : Prop where
  /-- An operation has changed nothing but components of its own Capability. -/
  own : ∀ change ∈ s.changes, ∀ purpose, change.cause = some purpose →
    ∃ d d', change.before = some d ∧ change.after = some d' ∧
      ChangesOnly (fun c => owner c = some purpose.capabilityId) d d'
  /-- A record says what is in force, unless an operation on the Capability is under way. -/
  records : ∀ capabilityId installation, s.installations.lookup capabilityId = some installation →
    s.AtRest capabilityId → (installation.enabled = true ↔ s.Enabled installation.componentIds)
  /-- No plan is confirmed twice. -/
  once : s.confirmed.Nodup
  /-- A confirmed plan has a final state once its operation has returned. -/
  final : ∀ operationId ∈ s.confirmed,
    (∃ op plan stage, s.operations op = some ⟨.confirm plan, stage⟩ ∧
      plan.operationId = operationId) ∨
    ∃ plan, s.plans.lookup operationId = some plan ∧
      (plan.state = .installed ∨ plan.state = .failed)
  /-- A confirmation that has failed has left the configuration as it was. -/
  failed : ∀ operationId plan, s.plans.lookup operationId = some plan → plan.state = .failed →
    s.Quiet operationId

def Operation.Uses (o : Operation Settings) (draftId : String) : Prop :=
  (∃ plan, o.purpose = .confirm plan ∧ plan.draftId = draftId) ∨
    match o.stage with
    | .editing _ draft => draft.draftId = draftId
    | .edited _ draft => draft.draftId = draftId
    | .calling (.publish known _) _ => known = draftId
    | _ => False

def CapabilityInstaller.Unused (s : CapabilityInstaller Settings) (draftId : String) : Prop :=
  (∀ id plan, s.plans.lookup id = some plan → plan.draftId ≠ draftId) ∧
    ∀ op o, s.operations op = some o → ¬ o.Uses draftId

/-- The components are disjoint, the other clients do not touch them, and drawn IDs are new. -/
def Allowed (owner : ComponentId → Option String) (s : CapabilityInstaller Settings) :
    InstallerAct Settings → Prop
  | .prepare _ bundle => ∀ c ∈ bundle.components, owner c = some bundle.capabilityId
  | .draftCreated _ _ draftId _ => s.Unused draftId
  | .configured (.createDraft _ draftId _) => s.Unused draftId
  | .configured (.applierEnded _ .ok) => s.holder = none → ∀ revision preflighted,
      s.configuration.call = some (.applying revision preflighted) → ∀ d, s.inForce = some d →
        ∀ c, owner c ≠ none → d.Same revision.document c
  | .planned _ operationId => s.plans.lookup operationId = none
  | _ => True

/-- What a rollback may bring into force for an operation: the document that is in force, or for a
`rollback` of a Capability the one without its components. -/
def Restores (owner : ComponentId → Option String) (o : Operation Settings)
    (d d' : ManagedConfig Settings) : Prop :=
  match o.stage with
  | .restoring _ => d' = d
  | _ => Edits owner o.purpose d d'

/-- The condition. -/
def Steady (owner : ComponentId → Option String) (s : CapabilityInstaller Settings) :
    InstallerAct Settings → Prop
  -- Operations on one Capability do not overlap.
  | .confirm _ operationId _ =>
    ∀ plan, s.plans.lookup operationId = some plan → s.AtRest plan.capabilityId
  | .setEnabled _ capabilityId _ => s.AtRest capabilityId
  | .rollback _ capabilityId => s.AtRest capabilityId
  -- The normalizer finds the packages as they were, and what is enabled is there.
  | .draftReplaced op _ normalize _ => ∀ purpose previous draft,
      s.operations op = some ⟨purpose, .editing previous draft⟩ →
        (∀ d, purpose.edit draft.document = some d → normalize d = d) ∧
        ∀ installation, purpose = .setEnabled installation true →
          ∀ c ∈ installation.componentIds, draft.document.enabled? c ≠ none
  | .publishBegins op _ normalize _ => ∀ purpose draftId version previous draft,
      s.operations op = some ⟨purpose, .calling (.publish draftId version) previous⟩ →
        s.configuration.registry.drafts.lookup draftId = some draft →
          normalize draft.document = draft.document
  -- A rollback goes back to what is in force, the Capability that is rolled back apart.
  | .rollbackBegins op _ normalize _ _ => ∀ o revisionId target,
      s.operations op = some o → o.stage.rollsBackTo = some revisionId →
        s.configuration.registry.revisions.lookup revisionId = some target →
          normalize target.document = target.document ∧
          ∀ d, s.inForce = some d → Restores owner o d target.document
  -- A draft does not take along what another client has failed to apply.
  | .configured (.preflighted _ .ok _) => ∀ publish document, s.holder ≠ none →
      s.configuration.call = some (.preflighting publish document) →
        s.configuration.registry.document? s.configuration.registry.state.desiredRevisionId =
          s.inForce
  -- No call of a `confirm` raises, and no operation loses a call that has begun.
  | .replied op _ => ∀ plan previous, s.operations op ≠ some ⟨.confirm plan, .called previous none⟩ ∧
      s.operations op ≠ some ⟨.confirm plan, .restored none⟩
  | .raised op => s.holder ≠ some op ∧ ∀ o, s.operations op = some o →
      (∀ plan, o.purpose ≠ .confirm plan) ∧ ¬ o.stage.Landed
  | _ => True

def StageSound (owner : ComponentId → Option String) (r : Registry (ManagedConfig Settings))
    (purpose : Purpose) : Stage Settings → Prop
  | .reading => True
  | .drafting _ => True
  | .editing _ draft =>
    r.Prepared draft.draftId draft.draftVersion fun base _ => base = draft.document
  | .edited _ draft => r.Prepared draft.draftId draft.draftVersion (Edits owner purpose)
  | .validating => ∀ plan, purpose = .confirm plan →
      r.Prepared plan.draftId plan.draftVersion (Edits owner purpose)
  | .calling (.publish draftId version) _ =>
    purpose.writes = true ∧ r.Prepared draftId version (Edits owner purpose)
  | .calling (.rollback _) _ => purpose.writes = true
  | .called _ reply => purpose.writes = true ∧ ∀ given, reply = some given →
      given.2.applyStatus = .idle → given.2.appliedRevisionId = given.1 ∧
        ∃ d, r.inForce = some d ∧ (d.AllEnabled purpose.componentIds ↔ purpose.enables = true)
  | .restoring _ => purpose.writes = true
  | .restored _ => purpose.writes = true

structure Serves (owner : ComponentId → Option String) (r : Registry (ManagedConfig Settings))
    (o : Operation Settings) (call : ServiceCall (ManagedConfig Settings)) : Prop where
  awaits : match o.stage with
    | .calling (.publish draftId version) _ =>
      ∀ publish, call.publish? = some publish →
        publish.draftId = draftId ∧ publish.expectedVersion = version
    | .calling (.rollback _) _ => call.publish? = none
    | .restoring _ => call.publish? = none
    | _ => False
  brings : ∀ revision, call.target? = some revision → ∀ d, r.inForce = some d →
    Restores owner o d revision.document

structure OperationsSound (owner : ComponentId → Option String)
    (s : CapabilityInstaller Settings) : Prop where
  stands : ServiceStands s.configuration
  stages : ∀ op o, s.operations op = some o →
    StageSound owner s.configuration.registry o.purpose o.stage
  purposes : ∀ op o, s.operations op = some o →
    Owned owner o.purpose.capabilityId o.purpose.componentIds
  held : ∀ op, s.holder = some op → ∃ o call, s.operations op = some o ∧
    s.configuration.call = some call ∧ Serves owner s.configuration.registry o call
  exclusive : ∀ op op' o o', s.operations op = some o → s.operations op' = some o' →
    o.purpose.writes = true → o'.purpose.writes = true →
      o.purpose.capabilityId = o'.purpose.capabilityId → op = op'
  records : ∀ capabilityId installation, s.installations.lookup capabilityId = some installation →
    Owned owner capabilityId installation.componentIds ∧
      (¬ s.Landed capabilityId →
        (installation.enabled = true ↔ s.Enabled installation.componentIds))

/-- What holds of the plans and of what was applied. -/
structure PlansSound (owner : ComponentId → Option String)
    (s : CapabilityInstaller Settings) : Prop where
  confirming : ∀ op plan stage, s.operations op = some ⟨.confirm plan, stage⟩ →
    plan.operationId ∈ s.confirmed ∧
      s.plans.lookup plan.operationId = some { plan with state := .installing } ∧
      (¬ stage.Landed → s.Quiet plan.operationId)
  waiting : ∀ id plan, s.plans.lookup id = some plan → plan.state = .awaitingConfirmation →
    Owned owner plan.capabilityId plan.componentIds ∧
      s.configuration.registry.Prepared plan.draftId plan.draftVersion (Edits owner (.confirm plan))
  installing : ∀ id plan, s.plans.lookup id = some plan → plan.state = .installing →
    ∃ op plan' stage, s.operations op = some ⟨.confirm plan', stage⟩ ∧ plan'.operationId = id
  failed : ∀ id plan, s.plans.lookup id = some plan → plan.state = .failed → s.Quiet id
  confirmed : ∀ id ∈ s.confirmed, ∃ plan, s.plans.lookup id = some plan ∧
    plan.state ≠ .awaitingConfirmation
  once : s.confirmed.Nodup
  causes : ∀ change ∈ s.changes, ∀ plan, change.cause = some (.confirm plan) →
    plan.operationId ∈ s.confirmed
  own : ∀ change ∈ s.changes, ∀ purpose, change.cause = some purpose →
    ∃ d d', change.before = some d ∧ change.after = some d' ∧
      ChangesOnly (fun c => owner c = some purpose.capabilityId) d d'

structure Sound (owner : ComponentId → Option String) (s : CapabilityInstaller Settings) :
    Prop where
  operations : OperationsSound owner s
  plans : PlansSound owner s

theorem Sound.agree {owner : ComponentId → Option String} {s : CapabilityInstaller Settings}
    (sound : Sound owner s) : Agree owner s where
  own := sound.plans.own
  records := by
    intro capabilityId installation found rest
    refine (sound.operations.records capabilityId installation found).2 ?_
    rintro ⟨op, o, here, writes, same, -⟩
    exact rest op o here writes same
  once := sound.plans.once
  final := by
    intro operationId member
    obtain ⟨plan, found, begun⟩ := sound.plans.confirmed operationId member
    cases state : plan.state with
    | awaitingConfirmation => exact absurd state begun
    | installing => exact .inl (sound.plans.installing operationId plan found state)
    | installed => exact .inr ⟨plan, found, .inl state⟩
    | failed => exact .inr ⟨plan, found, .inr state⟩
  failed := sound.plans.failed

end Knoa.Extensions.Installs
