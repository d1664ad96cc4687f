import Knoa.Library.Transition
import Knoa.Tasks.Repository

/-!
# The checkpoint store

`ContextCheckpointRepository` of the Knoa Agent. A read before the first write of a
`with` block is a transaction of its own.
-/
namespace Knoa.Context
open Knoa.Tasks (JsonText Time strip)
open Relational (Table)

structure KnoaAgentSession where
  runtimeSessionRef : String
  operationId : String
  stateVersion : String
  createdAt : Time
  updatedAt : Time
  revision : Nat
  deriving DecidableEq

structure ContextCheckpoint where
  runtimeSessionRef : String
  stateVersion : String
  sourceCursor : Nat
  agentConfigDigest : String
  modelContextDigest : String
  payload : JsonText
  revision : Nat
  createdAt : Time
  updatedAt : Time
  deriving DecidableEq

inductive ContextError
  /-- `ContextCheckpointConflictError` -/
  | conflict
  | notFound
  | versionMismatch
  deriving DecidableEq

structure AgentStore where
  sessions : Table KnoaAgentSession.runtimeSessionRef
  checkpoints : Table ContextCheckpoint.runtimeSessionRef
  /-- `operation_id TEXT NOT NULL UNIQUE` -/
  operations : (sessions.rows.map KnoaAgentSession.operationId).Nodup

namespace AgentStore

def session? (s : AgentStore) (operationId : String) : Option KnoaAgentSession :=
  s.sessions.rows.find? fun session => session.operationId == operationId

theorem operations_append {s : AgentStore} {session : KnoaAgentSession}
    {sessions : Table KnoaAgentSession.runtimeSessionRef}
    (fresh : s.session? session.operationId = none)
    (inserted : s.sessions.insert session = some sessions) :
    (sessions.rows.map KnoaAgentSession.operationId).Nodup := by
  rw [Table.insert_rows inserted]
  refine Table.keyed_append s.operations fun known => ?_
  obtain ⟨other, member, same⟩ := List.mem_map.mp known
  have absent := List.find?_eq_none.mp fresh other member
  rw [same] at absent
  exact absent (beq_self_eq_true _)

/-- `INSERT INTO agent_sessions`; refused where the reference or the operation is known. -/
def insertSession (s : AgentStore) (session : KnoaAgentSession) : Option AgentStore :=
  if fresh : s.session? session.operationId = none then
    match inserted : s.sessions.insert session with
    | none => none
    | some sessions => some { s with
        sessions, operations := operations_append fresh inserted }
  else none

/-- `UPDATE agent_sessions SET updated_at, revision = revision + 1` -/
def touchSession (s : AgentStore) (ref : String) (now : Time) : AgentStore where
  sessions := s.sessions.update (fun session => session.runtimeSessionRef == ref)
    (fun session => { session with updatedAt := now, revision := session.revision + 1 })
    (fun _ => rfl)
  checkpoints := s.checkpoints
  operations := by
    have same : (s.sessions.update (fun session => session.runtimeSessionRef == ref)
        (fun session => { session with updatedAt := now, revision := session.revision + 1 })
        (fun _ => rfl)).rows.map KnoaAgentSession.operationId =
        s.sessions.rows.map KnoaAgentSession.operationId := by
      rw [Table.update_rows, List.map_map]
      refine List.map_congr_left fun session _ => ?_
      rw [Function.comp]
      split <;> rfl
    rw [same]
    exact s.operations

/-- The row that the upsert leaves: the time of the first one is kept. -/
def upserted (s : AgentStore) (checkpoint : ContextCheckpoint) : ContextCheckpoint :=
  match s.checkpoints.lookup checkpoint.runtimeSessionRef with
  | none => checkpoint
  | some stored => { checkpoint with createdAt := stored.createdAt }

/-- `INSERT .. ON CONFLICT(runtime_session_ref) DO UPDATE` -/
def upsert (s : AgentStore) (checkpoint : ContextCheckpoint) : AgentStore :=
  match s.checkpoints.insert checkpoint with
  | some checkpoints => { s with checkpoints }
  | none => { s with
      checkpoints := s.checkpoints.update
        (fun stored => stored.runtimeSessionRef == checkpoint.runtimeSessionRef)
        (fun stored =>
          { checkpoint with
            runtimeSessionRef := stored.runtimeSessionRef, createdAt := stored.createdAt })
        (fun _ => rfl) }

def revision? (s : AgentStore) (ref : String) : Option Nat :=
  (s.checkpoints.lookup ref).map ContextCheckpoint.revision

end AgentStore

inductive StoreCall
  | readSession (checkpoint : ContextCheckpoint) (expected : Option Nat)
  | readRevision (checkpoint : ContextCheckpoint) (expected : Option Nat)
  /-- The revision that was read is the expected one; `createdAt` was read with it. -/
  | write (checkpoint : ContextCheckpoint) (expected : Option Nat) (createdAt : Option Time)
  | insertSession (operationId stateVersion : String) (left : Nat)
  | ended
  deriving DecidableEq

/-- A `save_checkpoint` that has returned, with the revision that stood before its write and the
row after it. -/
structure Saved where
  expected : Option Nat
  isOver : Option Nat
  row : ContextCheckpoint
  deriving DecidableEq

/-- A `save_checkpoint` that has raised, with the session that it has read. -/
structure Refused where
  checkpoint : ContextCheckpoint
  expected : Option Nat
  session : Option KnoaAgentSession
  error : ContextError
  deriving DecidableEq

structure StoreRun where
  store : AgentStore
  calls : List StoreCall := []
  saved : List Saved := []
  refused : List Refused := []
  /-- What `create_session` has returned. -/
  created : List KnoaAgentSession := []
  /-- The operations for which `create_session` could not allocate a session. -/
  unallocated : List String := []

inductive StoreAct
  | createSession (operationId stateVersion : String)
  | saveCheckpoint (checkpoint : ContextCheckpoint) (expected : Option Nat)
  /-- The next statement of a call, with the reference that it draws. -/
  | advance (i : Nat) (now : Time) (drawn : String)

/-- `_MAX_CHECKPOINT_BYTES` -/
def maxCheckpointBytes : Nat := 8 * 1024 * 1024

namespace StoreRun

variable (s : StoreRun)

def start (call : StoreCall) : StoreRun := { s with calls := s.calls ++ [call] }

def refuse (checkpoint : ContextCheckpoint) (expected : Option Nat)
    (session : Option KnoaAgentSession) (error : ContextError) : StoreRun :=
  { s with
    refused := s.refused ++ [{ checkpoint := checkpoint, expected, session, error }] }

def stamped (checkpoint : ContextCheckpoint) (expected : Option Nat) (createdAt : Option Time)
    (now : Time) : ContextCheckpoint :=
  { checkpoint with
    revision := expected.getD 0 + 1, createdAt := createdAt.getD now, updatedAt := now }

def nextAttempt (operationId stateVersion : String) : Nat → StoreRun × StoreCall
  | left + 2 => (s, .insertSession operationId stateVersion (left + 1))
  | _ => ({ s with unallocated := s.unallocated ++ [operationId] }, .ended)

/-- The next transaction of a call. -/
def perform (now : Time) (drawn : String) : StoreCall → StoreRun × StoreCall
  | .readSession checkpoint expected =>
    match s.store.sessions.lookup checkpoint.runtimeSessionRef with
    | none => (s.refuse checkpoint expected none .notFound, .ended)
    | some session =>
      if session.stateVersion = checkpoint.stateVersion then
        (s, .readRevision checkpoint expected)
      else
        (s.refuse checkpoint expected (some session) .versionMismatch, .ended)
  | .readRevision checkpoint expected =>
    if s.store.revision? checkpoint.runtimeSessionRef = expected then
      (s, .write checkpoint expected ((s.store.checkpoints.lookup
        checkpoint.runtimeSessionRef).map ContextCheckpoint.createdAt))
    else
      (s.refuse checkpoint expected (s.store.sessions.lookup checkpoint.runtimeSessionRef)
        .conflict, .ended)
  | .write checkpoint expected createdAt =>
    let row := stamped checkpoint expected createdAt now
    ({ s with
        store := (s.store.upsert row).touchSession checkpoint.runtimeSessionRef now
        saved := s.saved ++
          [{ expected, isOver := s.store.revision? checkpoint.runtimeSessionRef,
             row := s.store.upserted row }] }, .ended)
  | .insertSession operationId stateVersion left =>
    let session : KnoaAgentSession :=
      { runtimeSessionRef := strip drawn, operationId, stateVersion,
        createdAt := now, updatedAt := now, revision := 1 }
    if strip drawn = "" then s.nextAttempt operationId stateVersion left
    else
      match s.store.insertSession session with
      | none => s.nextAttempt operationId stateVersion left
      | some store => ({ s with store, created := s.created ++ [session] }, .ended)
  | .ended => (s, .ended)

def step (s : StoreRun) : StoreAct → Option StoreRun
  | .createSession operationId stateVersion =>
    if strip operationId = "" ∨ strip stateVersion = "" then none
    else
      match s.store.session? (strip operationId) with
      | some existing => some { s with created := s.created ++ [existing] }
      | none => some (s.start (.insertSession (strip operationId) (strip stateVersion) 5))
  | .saveCheckpoint checkpoint expected =>
    if maxCheckpointBytes < checkpoint.payload.bytes then none
    else some (s.start (.readSession checkpoint expected))
  | .advance i now drawn =>
    match s.calls[i]? with
    | none => none
    | some call =>
      let (after, next) := s.perform now drawn call
      some { after with calls := s.calls.set i next }

end StoreRun

end Knoa.Context
