import Knoa.Tasks.Repository

/-!
# The Config Registry

`ConfigRegistry`: immutable revisions, drafts with versions, and the desired and the applied
revision.
-/
namespace Knoa.Configuration
open Knoa.Tasks Relational Transaction

inductive ConfigError
  /-- `ConfigConflictError` -/
  | conflict (message : String)
  | notFound (message : String)
  deriving DecidableEq

structure ConfigRevision (Doc : Type) where
  revisionId : String
  parentRevisionId : String
  document : Doc
  configDigest : String
  changeSummary : String
  createdBy : String
  createdAt : Time
  deriving DecidableEq

structure ConfigDraft (Doc : Type) where
  draftId : String
  baseRevisionId : String
  document : Doc
  draftVersion : Nat
  updatedBy : String
  updatedAt : Time
  deriving DecidableEq

inductive ApplyStatus
  | idle
  | applying
  | failed
  deriving DecidableEq

structure ConfigControlState where
  desiredRevisionId : String
  appliedRevisionId : String
  applyStatus : ApplyStatus
  applyErrorCode : String
  updatedAt : Time
  deriving DecidableEq

structure Registry (Doc : Type) where
  revisions : Table (@ConfigRevision.revisionId Doc)
  drafts : Table (@ConfigDraft.draftId Doc)
  state : ConfigControlState

variable {Doc : Type}

def newRevision (digest : Doc → String) (now : Time) (revisionId : String) (document : Doc)
    (parent actor summary : String) : ConfigRevision Doc where
  revisionId := revisionId
  parentRevisionId := parent
  document := document
  configDigest := digest document
  changeSummary := takeChars (strip summary) 2000
  createdBy := actor
  createdAt := now

namespace Registry

def current (s : Registry Doc) : Except ConfigError (ConfigRevision Doc) :=
  orRaise (s.revisions.lookup s.state.appliedRevisionId)
    (.notFound "Configuration revision not found")

def desired (s : Registry Doc) : Except ConfigError (ConfigRevision Doc) :=
  orRaise (s.revisions.lookup s.state.desiredRevisionId)
    (.notFound "Configuration revision not found")

def draft (s : Registry Doc) (draftId : String) : Except ConfigError (ConfigDraft Doc) :=
  orRaise (s.drafts.lookup draftId) (.notFound "Configuration draft not found")

def insertRevision (s : Registry Doc) (revision : ConfigRevision Doc) :
    Except ConfigError (Registry Doc) := do
  let revisions ← orRaise (s.revisions.insert revision)
    (.conflict "Configuration revision already exists")
  return { s with revisions }

def target (s : Registry Doc) (now : Time) (revisionId : String) : Registry Doc :=
  { s with
    state := { s.state with
      desiredRevisionId := revisionId, applyStatus := .applying, applyErrorCode := "",
      updatedAt := now } }

def dropDraft (s : Registry Doc) (draftId : String) : Registry Doc :=
  { s with drafts := s.drafts.delete fun draft => draft.draftId == draftId }

end Registry

/-- `create_draft`, with the ID that was drawn. -/
def createDraft (now : Time) (draftId actor : String) :
    Body (Registry Doc) ConfigError (ConfigDraft Doc) := fun s => do
  let desired ← s.desired
  let draft : ConfigDraft Doc :=
    { draftId, baseRevisionId := desired.revisionId, document := desired.document,
      draftVersion := 1, updatedBy := actor, updatedAt := now }
  let drafts ← orRaise (s.drafts.insert draft) (.conflict "UNIQUE constraint failed")
  return (draft, { s with drafts })

/-- `replace_draft` -/
def replaceDraft (now : Time) (draftId : String) (document : Doc) (expectedVersion : Nat)
    (actor : String) : Body (Registry Doc) ConfigError (ConfigDraft Doc) := fun s => do
  let draft ← s.draft draftId
  require (draft.draftVersion = expectedVersion)
    (.conflict "Configuration draft was changed elsewhere")
  let s := { s with
    drafts := s.drafts.update (fun draft => draft.draftId == draftId)
      (fun draft =>
        { draft with
          document, draftVersion := expectedVersion + 1, updatedBy := actor,
          updatedAt := now }) (fun _ => rfl) }
  return (← s.draft draftId, s)

/-- `publish_draft`, with the revision ID that was drawn. -/
def publishDraft (digest : Doc → String) (now : Time) (draftId : String) (expectedVersion : Nat)
    (revisionId actor summary : String) : Body (Registry Doc) ConfigError (ConfigRevision Doc) :=
  fun s => do
    let draft ← s.draft draftId
    require (draft.draftVersion = expectedVersion)
      (.conflict "Configuration draft was changed elsewhere")
    require (draft.baseRevisionId = s.state.desiredRevisionId)
      (.conflict "Configuration draft is based on an old revision")
    let revision := newRevision digest now revisionId draft.document draft.baseRevisionId actor summary
    let s ← s.insertRevision revision
    return (revision, (s.target now revision.revisionId).dropDraft draftId)

/-- `mark_applied` -/
def markApplied (now : Time) (revisionId : String) : Body (Registry Doc) ConfigError Unit :=
  fun s => do
    require (s.state.desiredRevisionId = revisionId)
      (.conflict "Applied revision is no longer desired")
    return ((), { s with
      state := { s.state with
        appliedRevisionId := revisionId, applyStatus := .idle, applyErrorCode := "",
        updatedAt := now } })

/-- `mark_failed` -/
def markFailed (s : Registry Doc) (now : Time) (revisionId errorCode : String) : Registry Doc :=
  if s.state.desiredRevisionId = revisionId then
    { s with
      state := { s.state with
        applyStatus := .failed, applyErrorCode := takeChars errorCode 128, updatedAt := now } }
  else s

/-- `rollback` of the registry, with the revision ID that was drawn. -/
def rollbackTo (digest : Doc → String) (now : Time) (revisionId : String) (document : Doc)
    (newId actor summary : String) : Body (Registry Doc) ConfigError (ConfigRevision Doc) :=
  fun s => do
    let _target ← orRaise (s.revisions.lookup revisionId)
      (.notFound "Configuration revision not found")
    let desired ← s.desired
    let revision := newRevision digest now newId document desired.revisionId actor summary
    let s ← s.insertRevision revision
    return (revision, s.target now revision.revisionId)

end Knoa.Configuration
