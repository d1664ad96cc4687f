import Knoa.Configuration.Registry
import Knoa.Library.Transition

/-!
# Publishing a configuration

`ConfigurationService` on its event loop: a step runs between two awaits.
-/
namespace Knoa.Configuration
open Knoa.Tasks (Time)

variable {Doc : Type}

/-- How the validator ends. -/
inductive Verdict
  | valid
  | invalid
  | raised
  deriving DecidableEq

/-- How the preflight or the applier ends; `failed` is a `ConfigApplyError`. -/
inductive Outcome
  | ok
  | failed (code : String)
  | raised
  deriving DecidableEq

/-- A `publish` with what it has seen: the normalizer's document and the one it has validated. -/
structure PublishCall (Doc : Type) where
  draftId : String
  expectedVersion : Nat
  actor : String
  summary : String
  normalized : Doc
  validated : Doc
  deriving DecidableEq

/-- What the call that holds the lock awaits. -/
inductive ServiceCall (Doc : Type)
  | validating (publish : PublishCall Doc)
  | preflighting (publish : PublishCall Doc) (document : Doc)
  | rollingBack (revision : ConfigRevision Doc)
  | applying (revision : ConfigRevision Doc) (preflighted : Doc)
  deriving DecidableEq

/-- A revision that a publish has made the desired one, with what the call has checked, the version
of the draft and the revision that was desired before. -/
structure Published (Doc : Type) where
  revision : ConfigRevision Doc
  normalized : Doc
  validated : Doc
  preflighted : Doc
  expectedVersion : Nat
  draftVersion : Option Nat
  base : String
  desired : String
  deriving DecidableEq

structure Applied (Doc : Type) where
  revision : ConfigRevision Doc
  preflighted : Doc
  applier : Outcome
  deriving DecidableEq

structure Edit where
  draftId : String
  expectedVersion : Nat
  replaced : Option Nat
  deriving DecidableEq

structure ConfigurationService (Doc : Type) where
  registry : Registry Doc
  /-- The call that holds the lock. -/
  call : Option (ServiceCall Doc) := none
  published : List (Published Doc) := []
  applied : List (Applied Doc) := []
  edits : List Edit := []

inductive ConfigAct (Doc : Type)
  | createDraft (now : Time) (draftId actor : String)
  /-- The normalizer returns a document, or it raises. -/
  | replaceDraft (now : Time) (draftId : String) (normalized : Option Doc) (expectedVersion : Nat)
      (actor : String)
  | publish (now : Time) (draftId : String) (normalized : Option Doc) (expectedVersion : Nat)
      (actor summary : String)
  | validated (verdict : Verdict)
  /-- The preflight ends; a publish draws a revision ID. -/
  | preflighted (now : Time) (outcome : Outcome) (revisionId : String)
  | applierEnded (now : Time) (outcome : Outcome)
  | rollback (now : Time) (revisionId : String) (normalized : Option Doc)
      (newId actor summary : String)
  /-- The call that holds the lock is cancelled. -/
  | cancel

namespace ConfigurationService

variable (s : ConfigurationService Doc)

def version? (draftId : String) : Option Nat :=
  (s.registry.drafts.lookup draftId).map ConfigDraft.draftVersion

/-- `replace_draft`, with a record of the write. -/
def editDraft (now : Time) (draftId : String) (document : Doc) (expectedVersion : Nat)
    (actor : String) : Option (ConfigurationService Doc) :=
  match replaceDraft now draftId document expectedVersion actor s.registry with
  | .error _ => none
  | .ok (_, registry) =>
    some { s with
      registry, edits := s.edits ++ [{ draftId, expectedVersion, replaced := s.version? draftId }] }

/-- The first part of a publish, up to the validator. -/
def beginPublish (digest : Doc → String) (now : Time) (draftId : String) (normalized : Doc)
    (expectedVersion : Nat) (actor summary : String) : Option (ConfigurationService Doc) := do
  let draft ← s.registry.drafts.lookup draftId
  let (s, expectedVersion) ←
    if digest normalized = digest draft.document then some (s, expectedVersion)
    else (s.editDraft now draftId normalized expectedVersion actor).map fun s =>
      (s, expectedVersion + 1)
  let draft ← s.registry.drafts.lookup draftId
  return { s with
    call := some (.validating
      { draftId, expectedVersion, actor, summary, normalized, validated := draft.document }) }

/-- The part of a publish between the preflight and the applier. -/
def desire (digest : Doc → String) (now : Time) (revisionId : String) (publish : PublishCall Doc)
    (document : Doc) : ConfigurationService Doc :=
  match s.registry.current, publishDraft digest now publish.draftId publish.expectedVersion
      revisionId publish.actor publish.summary s.registry with
  | .ok _, .ok (revision, registry) =>
    { s with
      registry, call := some (.applying revision document), published := s.published ++
        [{ revision, normalized := publish.normalized, validated := publish.validated,
           preflighted := document, expectedVersion := publish.expectedVersion,
           draftVersion := s.version? publish.draftId, base := revision.parentRevisionId,
           desired := s.registry.state.desiredRevisionId }] }
  | _, _ => { s with call := none }

def fail (now : Time) (revisionId errorCode : String) : ConfigurationService Doc :=
  { s with registry := markFailed s.registry now revisionId errorCode, call := none }

def succeed (now : Time) (revision : ConfigRevision Doc) (preflighted : Doc) (applier : Outcome) :
    ConfigurationService Doc :=
  match markApplied now revision.revisionId s.registry with
  | .error _ => { s with call := none }
  | .ok (_, registry) =>
    { s with
      registry, call := none, applied := s.applied ++
        [{ revision := revision, preflighted, applier }] }

def step (digest : Doc → String) (s : ConfigurationService Doc) :
    ConfigAct Doc → Option (ConfigurationService Doc)
  | .createDraft now draftId actor =>
    match createDraft now draftId actor s.registry with
    | .error _ => none
    | .ok (_, registry) => some { s with registry }
  | .replaceDraft now draftId normalized expectedVersion actor =>
    normalized.bind fun document => s.editDraft now draftId document expectedVersion actor
  | .publish now draftId normalized expectedVersion actor summary =>
    match s.call with
    | some _ => none
    | none => normalized.bind fun normalized =>
      s.beginPublish digest now draftId normalized expectedVersion actor summary
  | .validated verdict =>
    match s.call with
    | some (.validating publish) =>
      match verdict with
      | .valid =>
        match s.registry.draft publish.draftId with
        | .error _ => some { s with call := none }
        | .ok draft => some { s with call := some (.preflighting publish draft.document) }
      | _ => some { s with call := none }
    | _ => none
  | .preflighted now outcome revisionId =>
    match s.call with
    | some (.preflighting publish document) =>
      match outcome with
      | .ok => some (s.desire digest now revisionId publish document)
      | _ => some { s with call := none }
    | some (.rollingBack revision) =>
      match outcome with
      | .ok => some { s with call := some (.applying revision revision.document) }
      | .failed code => some (s.fail now revision.revisionId code)
      | .raised => some (s.fail now revision.revisionId "apply_failed")
    | _ => none
  | .applierEnded now outcome =>
    match s.call with
    | some (.applying revision preflighted) =>
      match outcome with
      | .ok => some (s.succeed now revision preflighted outcome)
      | .failed code => some (s.fail now revision.revisionId code)
      | .raised => some (s.fail now revision.revisionId "apply_failed")
    | _ => none
  | .rollback now revisionId normalized newId actor summary =>
    match s.call with
    | some _ => none
    | none => normalized.bind fun document =>
      match s.registry.current, rollbackTo digest now revisionId document newId actor summary
          s.registry with
      | .ok _, .ok (revision, registry) =>
        some { s with registry, call := some (.rollingBack revision) }
      | _, _ => none
  | .cancel => some { s with call := none }

end ConfigurationService

end Knoa.Configuration
