import Knoa.Tasks.Invariants

/-!
# Repeating a create request

The request id of a Task names it for ever, and the columns `create` compares are
never rewritten, with one exception: `phase`.
-/
namespace Knoa.Tasks
open Relational Transaction
open Transition (final)

section Existing

variable {s : Store}

/-- The immutable columns agree with the request. -/
structure Matches (id : TaskIdentity) (selectedAgent : String) (request : CreateRequest)
    (fields : CreateFields) : Prop where
  principal : id.principalId = request.scope.principalId
  requestId : id.clientRequestId = fields.requestId
  session : id.sessionHandle = request.scope.sessionHandle
  agent : id.agentId = selectedAgent
  goal : id.goal = fields.goal
  attachments : id.attachments = request.attachments
  tools : id.toolsEnabled = request.toolsEnabled
  priority : id.priority = request.priority
  origin : id.origin = request.origin
  parent : id.parentTaskId.getD "" = fields.parentTaskId

variable {row : TaskRow}

theorem Matches.sameRequest_iff {selectedAgent : String} {request : CreateRequest}
    {fields : CreateFields} (h : Matches row.identity selectedAgent request fields) :
    sameRequest row selectedAgent request fields = true ↔ row.phase = fields.phase := by
  obtain ⟨-, -, session, agent, goal, attachments, tools, priority, origin, parent⟩ := h
  simp only [TaskRow.identity] at session agent goal attachments tools priority origin parent
  simp [sameRequest, session, agent, goal, attachments, tools, priority, origin, parent]

theorem sameRequest_matches {selectedAgent : String} {request : CreateRequest}
    {fields : CreateFields} (principal : row.principalId = request.scope.principalId)
    (requestId : row.clientRequestId = fields.requestId)
    (h : sameRequest row selectedAgent request fields = true) :
    Matches row.identity selectedAgent request fields := by
  unfold sameRequest at h
  simp only [Bool.and_eq_true, beq_iff_eq] at h
  obtain ⟨⟨⟨⟨⟨⟨⟨⟨session, agent⟩, goal⟩, attachments⟩, tools⟩, priority⟩, origin⟩, parent⟩, -⟩ := h
  exact ⟨principal, requestId, session, agent, goal, attachments, tools, priority, origin, parent⟩

theorem newTaskRow_matches (now : Time) (taskId selectedAgent : String) (request : CreateRequest)
    (fields : CreateFields) :
    Matches (newTaskRow now taskId selectedAgent request fields).identity selectedAgent request
      fields := by
  refine ⟨rfl, rfl, rfl, rfl, rfl, rfl, rfl, rfl, rfl, ?_⟩
  simp only [newTaskRow, TaskRow.identity]
  split
  · rename_i empty
    exact empty.symm
  · rfl

theorem existingRequest_some {principalId requestId : String}
    (h : existingRequest s principalId requestId = some row) :
    row ∈ s.tasks.rows ∧ row.principalId = principalId ∧ row.clientRequestId = requestId := by
  have selected := List.find?_some h
  simp only [Bool.and_eq_true, beq_iff_eq] at selected
  exact ⟨List.mem_of_find?_eq_some h, selected.1, selected.2⟩

theorem existingRequest_of_mem (unique : RequestsUnique s) (member : row ∈ s.tasks.rows) :
    existingRequest s row.principalId row.clientRequestId = some row := by
  have keyed : (s.tasks.rows.map (TaskIdentity.requestKey ∘ TaskRow.identity)).Nodup := by
    rw [← List.map_map]
    exact unique
  have found := Table.find?_of_keyed keyed member
  rw [← found]
  unfold existingRequest
  congr 1
  funext other
  simp only [Function.comp, TaskIdentity.requestKey, TaskRow.identity, Prod.mk.injEq,
    Bool.decide_and]
  rfl

end Existing

section Replay

variable {env : Env} {s : Store} {now : Time} {taskIds : Nat → String} {request : CreateRequest}

theorem create_ok {s' : Store} {result : TaskRecord × Bool}
    (h : create env now taskIds request s = (.ok result, s')) (sound : Sound s') :
    ∃ fields session, normalizeCreate request = .ok fields ∧
      ownedSession s request.scope = .ok session ∧
      request.agentId.all (fun agentId => session.agentId == agentId) = true ∧
      result.1 ∈ s'.tasks.rows ∧ Matches result.1.identity session.agentId request fields := by
  unfold create at h
  split at h
  · cases h
  · rename_i fields normal
    obtain ⟨body, member, once⟩ := retrying_ok h
    obtain ⟨i, -, rfl⟩ := List.mem_map.mp member
    obtain ⟨session, owned, _, agent, once⟩ := of_bind₂ once
    refine ⟨fields, session, normal, owned, require_ok_iff.mp agent, ?_⟩
    split at once
    · rename_i existing found
      obtain ⟨_, same, once⟩ := of_bind once
      cases once
      obtain ⟨present, principal, requestId⟩ := existingRequest_some found
      exact ⟨present, sameRequest_matches principal requestId (require_ok_iff.mp same)⟩
    · obtain ⟨taskId, tasks, store, -, stored, -, journaled, rfl, rfl⟩ := insertTask_ok once
      refine ⟨?_, newTaskRow_matches now taskId session.agentId request fields⟩
      dsimp only [Store.updateTask]
      rw [Table.update_rows, journaled.tasks, Table.insert_rows stored, List.map_append]
      apply List.mem_append_right
      simp [newTaskRow]

theorem createOnce_existing {fields : CreateFields} {session : SessionRow} {stored : TaskRow}
    {candidate : String} (owned : ownedSession s request.scope = .ok session)
    (agent : request.agentId.all (fun agentId => session.agentId == agentId) = true)
    (found : existingRequest s request.scope.principalId fields.requestId = some stored)
    (same : Matches stored.identity session.agentId request fields) :
    createOnce env now request fields candidate s =
      if stored.phase = fields.phase then .ok ((stored, false), s)
      else .error (.idempotencyConflict
        "client_request_id already belongs to another Task request") := by
  unfold createOnce
  rw [owned, ok_bind, require_of agent, ok_bind, found]
  dsimp only
  split
  · rename_i phase
    rw [require_of (same.sameRequest_iff.mpr phase)]
    rfl
  · rename_i phase
    rw [require_of_not (fun equal => phase (same.sameRequest_iff.mp equal))]
    rfl

theorem create_existing {fields : CreateFields} {session : SessionRow} {stored : TaskRow}
    (unique : RequestsUnique s) (normal : normalizeCreate request = .ok fields)
    (owned : ownedSession s request.scope = .ok session)
    (agent : request.agentId.all (fun agentId => session.agentId == agentId) = true)
    (present : stored ∈ s.tasks.rows)
    (same : Matches stored.identity session.agentId request fields) :
    create env now taskIds request s =
      if stored.phase = fields.phase then (.ok (stored, false), s)
      else (.error (.idempotencyConflict
        "client_request_id already belongs to another Task request"), s) := by
  have found : existingRequest s request.scope.principalId fields.requestId = some stored := by
    rw [← same.principal, ← same.requestId]
    exact existingRequest_of_mem unique present
  have once : createOnce env now request fields (taskIds 0) s = _ :=
    createOnce_existing owned agent found same
  have five : List.range 5 = 0 :: [1, 2, 3, 4] := rfl
  unfold create
  rw [normal]
  dsimp only
  rw [five, List.map_cons, Transaction.retrying, Transaction.commit, once]
  by_cases phase : stored.phase = fields.phase
  · rw [if_pos phase, if_pos phase]
  · rw [if_neg phase, if_neg phase]
    rfl

end Replay

/-- Repeating the request returns the Task and writes nothing. -/
def Replays (env : Env) (now : Time) (taskIds : Nat → String) (request : CreateRequest)
    (taskId : String) (s : Store) : Prop :=
  ∃ stored, stored.taskId = taskId ∧ create env now taskIds request s = (.ok (stored, false), s)

def InitialPhase (request : CreateRequest) (taskId : String) (s : Store) : Prop :=
  ∀ stored ∈ s.tasks.rows, stored.taskId = taskId → stored.phase = strip request.initialPhase

theorem normalizeCreate_requestId {request : CreateRequest} {fields : CreateFields}
    (h : normalizeCreate request = .ok fields) :
    fields.requestId = strip request.clientRequestId := by
  obtain ⟨requestId, named, -, -, -, -, h⟩ := of_bind₃ h
  obtain ⟨-, -, -, -, h⟩ := of_bind₂ h
  cases h
  exact normalizeIdentifier_ok named

theorem normalizeCreate_phase {request : CreateRequest} {fields : CreateFields}
    (h : normalizeCreate request = .ok fields) : fields.phase = strip request.initialPhase := by
  obtain ⟨requestId, -, -, -, -, -, h⟩ := of_bind₃ h
  obtain ⟨-, -, -, -, h⟩ := of_bind₂ h
  cases h
  rfl

theorem identity_persists {env : Env} {s : Store} {id : TaskIdentity} (sound : Sound s)
    (member : id ∈ s.tasks.rows.map TaskRow.identity) (ops : List Op) :
    Sound (final (step env) s ops) ∧ (final (step env) s ops).sessions = s.sessions ∧
      id ∈ (final (step env) s ops).tasks.rows.map TaskRow.identity := by
  have kept : ∀ t op t', (Sound t ∧ t.sessions = s.sessions ∧
      id ∈ t.tasks.rows.map TaskRow.identity) → step env t op = some t' →
      (Sound t' ∧ t'.sessions = s.sessions ∧ id ∈ t'.tasks.rows.map TaskRow.identity) := by
    rintro t op t' ⟨sound, sessions, present⟩ taken
    have refines := step_refines sound.rooted taken
    refine ⟨sound.kept taken, refines.sessions.trans sessions, ?_⟩
    rcases refines.identities with same | ⟨born, appended, -⟩
    · rw [same]
      exact present
    · rw [appended]
      exact List.mem_append_left _ present
  exact Transition.final_invariant kept ⟨sound, rfl, member⟩ ops

theorem create_sound {env : Env} {s s' : Store} {now : Time} {taskIds : Nat → String}
    {request : CreateRequest} {result : TaskRecord × Bool} (sound : Sound s)
    (h : create env now taskIds request s = (.ok result, s')) :
    Sound s' ∧ s'.sessions = s.sessions := by
  have called : (Op.create now taskIds request).call env s = (.ok ⟨⟩, s') := by
    change outcome (create env now taskIds request s) = _
    rw [h]
    rfl
  have taken : step env s (.create now taskIds request) = some s' := by
    unfold step
    rw [called]
  exact ⟨sound.kept taken, (step_refines sound.rooted taken).sessions⟩

theorem create_replays_iff (env : Env) (sessions : Table SessionRow.sessionHandle)
    (definitions : Table DefinitionRow.taskId) (executions : Table ExecutionRow.executionId)
    (before after : List Op) (now now' : Time) (taskIds taskIds' : Nat → String)
    (request : CreateRequest) (record : TaskRecord) (fresh : Bool) (s : Store)
    (returned : create env now taskIds request
      (final (step env) (Store.initial sessions definitions executions) before) =
        (.ok (record, fresh), s)) :
    (Replays env now' taskIds' request record.taskId (final (step env) s after) ↔
        InitialPhase request record.taskId (final (step env) s after)) ∧
      (¬ InitialPhase request record.taskId (final (step env) s after) →
        create env now' taskIds' request (final (step env) s after) =
          (.error (.idempotencyConflict
            "client_request_id already belongs to another Task request"),
            final (step env) s after)) := by
  have start : Sound (final (step env) (Store.initial sessions definitions executions) before) :=
    final_sound sessions definitions executions before
  obtain ⟨sound, same_sessions⟩ := create_sound start returned
  obtain ⟨fields, session, normal, owned, agent, present, same⟩ := create_ok returned sound
  obtain ⟨last, later_sessions, persists⟩ :=
    identity_persists sound (List.mem_map_of_mem present) after
  obtain ⟨stored, known, columns⟩ := List.mem_map.mp persists
  have key : stored.taskId = record.taskId := identity_taskId columns
  have later_owned : ownedSession (final (step env) s after) request.scope = .ok session := by
    unfold ownedSession at owned ⊢
    rw [later_sessions, same_sessions]
    exact owned
  have later_same : Matches stored.identity session.agentId request fields := by
    rw [columns]
    exact same
  have answer : create env now' taskIds' request (final (step env) s after) =
      if stored.phase = fields.phase then (.ok (stored, false), final (step env) s after)
      else (.error (.idempotencyConflict
        "client_request_id already belongs to another Task request"), final (step env) s after) :=
    create_existing last.requests normal later_owned agent known later_same
  have initial : InitialPhase request record.taskId (final (step env) s after) ↔
      stored.phase = fields.phase := by
    rw [normalizeCreate_phase normal]
    constructor
    · intro phase
      exact phase stored known key
    · intro phase other member same_key
      rw [Table.mem_unique member known (same_key.trans key.symm)]
      exact phase
  refine ⟨?_, ?_⟩
  · rw [initial]
    constructor
    · rintro ⟨other, -, replayed⟩
      rw [answer] at replayed
      apply Decidable.byContradiction
      intro phase
      rw [if_neg phase] at replayed
      cases replayed
    · intro phase
      exact ⟨stored, key, answer.trans (if_pos phase)⟩
  · intro phase
    rw [initial] at phase
    exact answer.trans (if_neg phase)

def stagedRequest : CreateRequest := { sampleRequest "r" with initialPhase := "delegation_staged" }

def stagedStore : Store := (create sampleEnv 0 (fun _ => "t") stagedRequest sampleStore).2

theorem create_replays_iff_staged : (Replays sampleEnv 2 (fun _ => "u") stagedRequest "t"
        (final (step sampleEnv) stagedStore [.claimNext 1 "w" 60 ""]) ↔
      InitialPhase stagedRequest "t"
        (final (step sampleEnv) stagedStore [.claimNext 1 "w" 60 ""])) := by
  have returned : create sampleEnv 0 (fun _ => "t") stagedRequest
      (final (step sampleEnv) (Store.initial sampleSessions .empty .empty) []) =
        (.ok _, stagedStore) := rfl
  exact (create_replays_iff sampleEnv sampleSessions .empty .empty [] [.claimNext 1 "w" 60 ""] 0 2
    (fun _ => "t") (fun _ => "u") stagedRequest _ _ stagedStore returned).1

theorem activated_delegation_conflicts : ¬ Replays sampleEnv 2 (fun _ => "u") stagedRequest "t"
      (final (step sampleEnv) stagedStore [.activateStaged 1 "p" "t"]) := by
  rintro ⟨stored, -, replayed⟩
  have conflict : ((create sampleEnv 2 (fun _ => "u") stagedRequest
      (final (step sampleEnv) stagedStore [.activateStaged 1 "p" "t"])).1.toOption).isNone := by
    decide +kernel
  rw [replayed] at conflict
  cases conflict

end Knoa.Tasks
