import Knoa.Tasks.Finality
import Knoa.Tasks.Idempotency
import Mathlib.Data.List.Perm.Subperm

/-!
# Capacity

Only `create` adds a live Task, and it counts before it inserts; a Task leaves the live ones
for good.
-/
namespace Knoa.Tasks
open Relational Transaction
open Transition (final trace)

variable {env : Env} {s s' : Store} {op : Op}

def liveIds (s : Store) (p : String → Bool) : List String :=
  (s.tasks.rows.filter fun row => p row.principalId && !row.state.isTerminal).map TaskRow.taskId

theorem liveIds_length (s : Store) (p : String → Bool) :
    (liveIds s p).length = countActive s fun row => p row.principalId :=
  List.length_map _

theorem liveIds_nodup (s : Store) (p : String → Bool) : (liveIds s p).Nodup :=
  (List.filter_sublist.map TaskRow.taskId).nodup s.tasks.keyed

theorem mem_liveIds {p : String → Bool} {taskId : String} :
    taskId ∈ liveIds s p ↔ ∃ v, s.view taskId = some v ∧ p v.row.principalId = true ∧
      v.row.state.isTerminal = false := by
  simp only [liveIds, List.mem_map, List.mem_filter, Bool.and_eq_true, Bool.not_eq_true']
  constructor
  · rintro ⟨row, ⟨member, counted, live⟩, rfl⟩
    obtain ⟨v, seen, rfl⟩ := view_of_mem member
    exact ⟨v, seen, counted, live⟩
  · rintro ⟨v, seen, counted, live⟩
    have found := (view_eq_some_iff.mp seen).1
    exact ⟨v.row, ⟨Table.lookup_mem found, counted, live⟩, Table.lookup_key found⟩

theorem Refines.live_before (refines : Refines s op s') {p : String → Bool} {taskId : String}
    (live : taskId ∈ liveIds s' p) : taskId ∈ liveIds s p ∨
      s.view taskId = none ∧ ∃ now taskIds request, op = .create now taskIds request ∧
        p request.scope.principalId = true := by
  obtain ⟨v, seen, counted, state⟩ := mem_liveIds.mp live
  cases refines.changed taskId with
  | same slice => exact .inl (mem_liveIds.mpr ⟨v, by rw [← view_of_slice slice, seen], counted, state⟩)
  | moved before after move =>
    rename_i old new
    rw [seen] at after
    cases after
    refine .inl (mem_liveIds.mpr ⟨old, before, ?_, ?_⟩)
    · rw [← identity_principal move.identity]
      exact counted
    · by_contra ended
      rw [Bool.not_eq_false] at ended
      rw [(move.of_terminal ended).1, ended] at state
      cases state
  | created absent key _ _ change after _ _ requested =>
    rw [seen] at after
    cases after
    obtain ⟨taskIds, request, label, principal⟩ := requested
    refine .inr ⟨absent, _, taskIds, request, label, ?_⟩
    rw [← principal, ← identity_principal change.identity]
    exact counted

theorem Refines.born_unique (refines : Refines s op s') {first second : String}
    {p q : TaskView → Prop} (absent : s.view first = none) (alsoAbsent : s.view second = none)
    (born : ∃ v, s'.view first = some v ∧ p v) (alsoBorn : ∃ v, s'.view second = some v ∧ q v) :
    second = first := by
  obtain ⟨v, seen, -⟩ := born
  obtain ⟨w, alsoSeen, -⟩ := alsoBorn
  have new : ∀ {taskId : String} {v : TaskView}, s.view taskId = none →
      s'.view taskId = some v → v.row.identity ∉ s.tasks.rows.map TaskRow.identity := by
    intro taskId v absent seen member
    obtain ⟨row, stored, same⟩ := List.mem_map.mp member
    obtain ⟨old, here, -⟩ := view_of_mem stored
    rw [identity_taskId same, view_taskId seen, absent] at here
    cases here
  have first_new := new absent seen
  have second_new := new alsoAbsent alsoSeen
  have first_in := identity_mem seen
  have second_in := identity_mem alsoSeen
  rcases refines.identities with same | ⟨identity, appended, -⟩
  · rw [same] at first_in
    exact absurd first_in first_new
  · rw [appended, List.mem_append, List.mem_singleton] at first_in second_in
    have equal : v.row.identity = w.row.identity :=
      (first_in.resolve_left first_new).trans (second_in.resolve_left second_new).symm
    rw [← view_taskId seen, ← view_taskId alsoSeen, identity_taskId equal]

theorem Refines.liveIds_length (refines : Refines s op s') (p : String → Bool) :
    (liveIds s' p).length ≤ (liveIds s p).length ∨
      (liveIds s' p).length ≤ (liveIds s p).length + 1 ∧ ∃ now taskIds request,
        op = .create now taskIds request ∧ p request.scope.principalId = true ∧ s' ≠ s := by
  by_cases known : ∀ taskId ∈ liveIds s' p, taskId ∈ liveIds s p
  · exact .inl (List.subperm_of_subset (liveIds_nodup s' p) known).length_le
  · simp only [not_forall] at known
    obtain ⟨born, live, absent⟩ := known
    obtain ⟨unseen, now, taskIds, request, label, counted⟩ :=
      (refines.live_before live).resolve_left absent
    have changed : s' ≠ s := by
      rintro rfl
      exact absent live
    refine .inr ⟨?_, now, taskIds, request, label, counted, changed⟩
    have within : ∀ taskId ∈ liveIds s' p, taskId ∈ born :: liveIds s p := by
      intro taskId member
      rcases refines.live_before member with old | ⟨alsoUnseen, -⟩
      · exact List.mem_cons_of_mem born old
      · rw [refines.born_unique unseen alsoUnseen (mem_liveIds.mp live) (mem_liveIds.mp member)]
        exact List.mem_cons_self
    exact (List.subperm_of_subset (liveIds_nodup s' p) within).length_le

variable {now : Time} {request : CreateRequest} {fields : CreateFields}

theorem insertTask_room {selectedAgent : String} {candidate : String} {result : TaskRecord × Bool}
    (h : insertTask env now selectedAgent request fields candidate s = .ok (result, s')) :
    countActive s (fun _ => true) < env.maxActiveTasks ∧
      countActive s (fun row => row.principalId == request.scope.principalId) <
        env.maxActiveTasksPerPrincipal := by
  obtain ⟨_, everybody, h⟩ := of_bind h
  obtain ⟨_, principal, -⟩ := of_bind h
  exact ⟨require_ok_iff.mp everybody, require_ok_iff.mp principal⟩

variable {taskIds : Nat → String}

theorem create_room {result : TaskRecord × Bool}
    (h : create env now taskIds request s = (.ok result, s')) (changed : s' ≠ s) :
    countActive s (fun _ => true) < env.maxActiveTasks ∧
      countActive s (fun row => row.principalId == request.scope.principalId) <
        env.maxActiveTasksPerPrincipal := by
  unfold create at h
  split at h
  · cases h
  · obtain ⟨body, member, once⟩ := retrying_ok h
    obtain ⟨i, -, rfl⟩ := List.mem_map.mp member
    obtain ⟨session, -, -, -, once⟩ := of_bind₂ once
    split at once
    · obtain ⟨-, -, once⟩ := of_bind once
      cases once
      exact absurd rfl changed
    · exact insertTask_room once

/-- The live Tasks stay within both bounds. -/
structure WithinCapacity (env : Env) (s : Store) : Prop where
  everybody : countActive s (fun _ => true) ≤ env.maxActiveTasks
  principal : ∀ principalId, countActive s (fun row => row.principalId == principalId) ≤
    env.maxActiveTasksPerPrincipal

theorem WithinCapacity.kept (within : WithinCapacity env s) (sound : Sound s)
    (taken : step env s op = some s') : WithinCapacity env s' := by
  have refines := step_refines sound.rooted taken
  have room : ∀ now taskIds request, op = .create now taskIds request → s' ≠ s →
      countActive s (fun _ => true) < env.maxActiveTasks ∧
        countActive s (fun row => row.principalId == request.scope.principalId) <
          env.maxActiveTasksPerPrincipal := by
    rintro now taskIds request rfl changed
    obtain ⟨result, returned⟩ := outcome_ok (step_eq_some taken)
    exact create_room returned changed
  constructor
  · have counts := refines.liveIds_length fun _ => true
    rw [liveIds_length, liveIds_length] at counts
    have before := within.everybody
    rcases counts with fewer | ⟨more, now, taskIds, request, label, -, changed⟩
    · exact fewer.trans before
    · have free := (room now taskIds request label changed).1
      omega
  · intro principalId
    have counts := refines.liveIds_length fun other => other == principalId
    rw [liveIds_length, liveIds_length] at counts
    have before := within.principal principalId
    rcases counts with fewer | ⟨more, now, taskIds, request, label, counted, changed⟩
    · exact fewer.trans before
    · have free := (room now taskIds request label changed).2
      rw [beq_iff_eq.mp counted] at free
      omega

/-- The error of a full repository. -/
def TaskError.isCapacity : TaskError → Bool
  | .capacity _ => true
  | _ => false

def Answered (result : Except TaskError (TaskRecord × Bool) × Store) : Prop :=
  ∀ e, result.1 = .error e → e.isCapacity = false

variable {e : TaskError}

theorem normalizeIdentifier_error {value label : String} {limit : Nat}
    (h : normalizeIdentifier value label limit = .error e) : e.isCapacity = false := by
  obtain ⟨message, rfl⟩ := stripped_error h
  rfl

theorem require_error {c : Prop} [Decidable c] {e' : TaskError} {x : PUnit → Except TaskError α}
    (h : (Transaction.require c e >>= x) = .error e') : e' = e ∨ c ∧ x ⟨⟩ = .error e' := by
  by_cases holds : c
  · rw [require_of holds] at h
    exact .inr ⟨holds, h⟩
  · rw [require_of_not holds] at h
    cases h
    exact .inl rfl

theorem normalizeCreate_error (h : normalizeCreate request = .error e) : e.isCapacity = false := by
  unfold normalizeCreate at h
  cases named : normalizeIdentifier request.clientRequestId "client_request_id" 128 with
  | error refusal =>
    rw [named] at h
    cases h
    exact normalizeIdentifier_error named
  | ok requestId =>
    rw [named] at h
    rcases require_error h with rfl | ⟨-, h⟩
    · rfl
    rcases require_error h with rfl | ⟨-, h⟩
    · rfl
    rcases require_error h with rfl | ⟨-, h⟩
    · rfl
    rcases require_error h with rfl | ⟨-, h⟩
    · rfl
    cases h

theorem createOnce_known {candidate : String} {stored : TaskRow}
    (known : existingRequest s request.scope.principalId fields.requestId = some stored)
    (h : createOnce env now request fields candidate s = .error e) :
    e.isCapacity = false ∧ retryTaskId e = false := by
  unfold createOnce at h
  cases owned : ownedSession s request.scope with
  | error refusal =>
    rw [owned] at h
    cases h
    unfold ownedSession Transaction.orRaise at owned
    split at owned <;> cases owned
    exact ⟨rfl, rfl⟩
  | ok session =>
    rw [owned] at h
    rcases require_error h with rfl | ⟨-, h⟩
    · exact ⟨rfl, rfl⟩
    rw [known] at h
    rcases require_error h with rfl | ⟨-, h⟩
    · exact ⟨rfl, rfl⟩
    cases h

theorem create_known {stored : TaskRow}
    (known : existingRequest s request.scope.principalId (strip request.clientRequestId) =
      some stored) :
    Answered (create env now taskIds request s) := by
  intro e failed
  unfold create at failed
  cases normal : normalizeCreate request with
  | error refusal =>
    rw [normal] at failed
    cases failed
    exact normalizeCreate_error normal
  | ok fields =>
    rw [normal] at failed
    rw [← normalizeCreate_requestId normal] at known
    have five : List.range 5 = 0 :: [1, 2, 3, 4] := rfl
    rw [five] at failed
    simp only [List.map_cons, Transaction.retrying, Transaction.commit] at failed
    cases once : createOnce env now request fields (taskIds 0) s with
    | ok result =>
      rw [once] at failed
      cases failed
    | error refusal =>
      obtain ⟨roomy, final⟩ := createOnce_known known once
      rw [once] at failed
      simp only [final, Bool.false_eq_true, if_false] at failed
      cases failed
      exact roomy

theorem existingRequest_later {record : TaskRecord} {fresh : Bool} (sound : Sound s)
    (returned : create env now taskIds request s = (.ok (record, fresh), s')) (later : List Op) :
    ∃ stored, existingRequest (final (step env) s' later) request.scope.principalId
      (strip request.clientRequestId) = some stored := by
  obtain ⟨still, -⟩ := create_sound sound returned
  obtain ⟨fields, session, normal, -, -, present, same⟩ := create_ok returned still
  obtain ⟨last, -, persists⟩ := identity_persists still (List.mem_map_of_mem present) later
  obtain ⟨stored, known, columns⟩ := List.mem_map.mp persists
  have found := existingRequest_of_mem last.requests known
  have principal : stored.principalId = request.scope.principalId :=
    (identity_principal columns).trans same.principal
  have requestId : stored.clientRequestId = strip request.clientRequestId := by
    rw [← normalizeCreate_requestId normal, ← same.requestId]
    exact congrArg TaskIdentity.clientRequestId columns
  rw [principal, requestId] at found
  exact ⟨stored, found⟩

/-- In every state of every run the live Tasks stay within both bounds, and a request id that has
had its Task created is never refused for lack of room. -/
theorem capacity_kept (env : Env) (sessions : Table SessionRow.sessionHandle)
    (definitions : Table DefinitionRow.taskId) (executions : Table ExecutionRow.executionId)
    (ops : List Op) : (∀ s ∈ trace (step env) (Store.initial sessions definitions executions) ops,
        WithinCapacity env s) ∧
      ∀ now taskIds request record fresh s,
        create env now taskIds request
            (final (step env) (Store.initial sessions definitions executions) ops) =
          (.ok (record, fresh), s) →
        ∀ later now' taskIds' repeated, repeated.scope.principalId = request.scope.principalId →
          strip repeated.clientRequestId = strip request.clientRequestId →
            Answered (create env now' taskIds' repeated (final (step env) s later)) := by
  constructor
  · have start : Sound (Store.initial sessions definitions executions) ∧
        WithinCapacity env (Store.initial sessions definitions executions) :=
      ⟨initial_sound sessions definitions executions, Nat.zero_le _, fun _ => Nat.zero_le _⟩
    have kept : ∀ s op s', Sound s ∧ WithinCapacity env s → step env s op = some s' →
        Sound s' ∧ WithinCapacity env s' := fun s op s' both taken =>
      ⟨both.1.kept taken, both.2.kept both.1 taken⟩
    intro s member
    exact (Transition.trace_invariant kept start ops s member).2
  · intro now taskIds request record fresh s returned later now' taskIds' repeated principal key
    obtain ⟨stored, known⟩ := existingRequest_later (final_sound sessions definitions executions ops)
      returned later
    rw [← principal, ← key] at known
    exact create_known known

end Knoa.Tasks
