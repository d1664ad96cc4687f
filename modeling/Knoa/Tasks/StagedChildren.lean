import Knoa.Tasks.Finality
import Knoa.Tasks.Idempotency
import Knoa.Tasks.Staging

/-!
# Calls about a staged child

What the calls of a delegation do to the Task they name, and what the others leave of
a Task that waits for its activation.
-/
namespace Knoa.Tasks
open Relational Transaction

/-- Queued and not activated yet. -/
structure Waits (v : TaskView) : Prop where
  queued : v.row.state = .queued
  staged : v.row.phase = "delegation_staged"

/-- A call that would take a waiting Task elsewhere than to its cancellation. -/
def Op.steers (op : Op) (taskId : String) : Prop :=
  match op with
  | .requestPause _ _ named _ => strip named = taskId
  | .transition _ _ named _ _ => strip named = taskId
  | .activateStaged _ _ named => strip named = taskId
  | _ => False

def Op.cancels (op : Op) (taskId : String) : Prop :=
  match op with
  | .requestCancel _ _ named _ => strip named = taskId
  | _ => False

def Op.creates (op : Op) (sessionHandle requestId : String) : Prop :=
  match op with
  | .create _ _ request => request.scope.sessionHandle = sessionHandle ∧
      strip request.clientRequestId = strip requestId
  | _ => False

def Op.stages (op : Op) : Prop :=
  match op with
  | .transition _ _ _ _ metadata => strip metadata.phase = "delegation_staged"
  | _ => False

instance (op : Op) (taskId : String) : Decidable (op.steers taskId) := by
  apply op.casesOn (motive := fun op => Decidable (op.steers taskId)) <;> intros <;>
    unfold Op.steers <;> infer_instance

instance (op : Op) (taskId : String) : Decidable (op.cancels taskId) := by
  apply op.casesOn (motive := fun op => Decidable (op.cancels taskId)) <;> intros <;>
    unfold Op.cancels <;> infer_instance

instance (op : Op) (sessionHandle requestId : String) :
    Decidable (op.creates sessionHandle requestId) := by
  apply op.casesOn (motive := fun op => Decidable (op.creates sessionHandle requestId)) <;> intros <;>
    unfold Op.creates <;> infer_instance

instance (op : Op) : Decidable op.stages := by
  apply op.casesOn (motive := fun op => Decidable (op.stages)) <;> intros <;>
    unfold Op.stages <;> infer_instance

section Moves

variable {s s' : Store} {op : Op} {taskId : String} {v v' : TaskView}

theorem Waits.keep (h : Waits v) (state : v'.row.state = v.row.state)
    (control : v'.row.control = v.row.control) : Waits v' :=
  ⟨state.trans h.queued, (congrArg Control.phase control).trans h.staged⟩

theorem Move.waits (move : Move s op v v') (h : Waits v) (apart : ¬ op.steers v.row.taskId) :
    Waits v' ∨ (v'.row.state = .cancelled ∧ op.cancels v.row.taskId) := by
  have other : ∀ {state}, v.row.state = state → state = .queued := fun same => same.symm.trans h.queued
  cases move with
  | touch live row touched =>
    cases op with
    | activateStaged now principalId named => exact absurd touched.1.symm apart
    | renewLease => exact absurd (other touched.2.1) (by decide)
    | _ => exact touched.elim
  | append _ row control => exact Or.inl (h.keep row.state control)
  | note running | expire running | restartRunning running | unknown running | ask running =>
    exact absurd (other running) (by decide)
  | cancel _ _ row _ named => exact Or.inr ⟨row.state, named.symm⟩
  | cancelWaiting waiting | pauseWaiting waiting | restartWaiting waiting | resolve waiting
  | resolveQueued waiting => exact absurd (other waiting) (by decide)
  | pause _ _ _ named | transit _ named => exact absurd named.symm apart
  | resume paused => exact absurd (other paused) (by decide)
  | claim _ _ next => exact absurd h.staged (claimable_unstaged (nextClaim_some next).2)
  | restart | annotate | beginStep | finishStep | saveTrace => exact Or.inl (h.keep rfl rfl)

theorem restartPhase_ne (v : TaskView) : restartPhase v ≠ "delegation_staged" := by
  unfold restartPhase
  split
  · decide
  · split <;> decide

theorem Move.unstaged (move : Move s op v v') (h : v.row.phase ≠ "delegation_staged")
    (honest : ¬ op.stages) : v'.row.phase ≠ "delegation_staged" := by
  have kept : ∀ {row : TaskRow}, row.control = v.row.control → row.phase ≠ "delegation_staged" := by
    intro row control
    rw [show row.phase = v.row.phase from congrArg Control.phase control]
    exact h
  have phased : ∀ {row : TaskRow} {c : Control}, row.control = c → c.phase ≠ "delegation_staged" →
      row.phase ≠ "delegation_staged" := by
    rintro row c rfl apart
    exact apart
  cases move with
  | touch _ _ touched =>
    cases op with
    | activateStaged => exact phased touched.2.2.2 (by simp)
    | renewLease => exact phased touched.2.2.2 h
    | _ => exact touched.elim
  | append _ _ control | ask _ _ _ _ _ _ _ control | resolve _ _ _ _ _ control => exact kept control
  | note _ _ noted =>
    cases op with
    | requestCancel => exact phased noted.2 h
    | requestPause => exact phased noted.2 (by simp)
    | _ => exact noted.elim
  | cancel _ _ _ control | cancelWaiting _ _ _ _ control | claim _ _ _ _ _ _ control
  | restartWaiting _ _ control | resolveQueued _ _ _ _ _ control => exact phased control h
  | pause _ _ control | pauseWaiting _ _ _ control | resume _ _ _ _ control
  | expire _ _ _ control | unknown _ _ _ control => exact phased control (by simp)
  | transit _ _ _ _ control =>
    refine phased control ?_
    unfold transitionPhase
    split
    · exact h
    · exact honest
  | restart | annotate | beginStep | finishStep | saveTrace => exact h
  | restartRunning _ _ control => exact phased control (restartPhase_ne _)

end Moves

section Calls

variable {env : Env} {s s' : Store} {op : Op} {now : Time} {principalId named reason : String}
  {v : TaskView}

variable {taskId : String}

theorem view_persists (sound : Sound s) (h : step env s op = some s')
    (seen : s.view taskId = some v) :
    ∃ v', s'.view taskId = some v' ∧ (v' = v ∨ Move s op v v') := by
  cases (step_refines sound.rooted h).changed taskId with
  | same slice => exact ⟨v, (view_of_slice slice).trans seen, Or.inl rfl⟩
  | moved before after move =>
    rw [seen] at before
    cases before
    exact ⟨_, after, Or.inr move⟩
  | created absent =>
    rw [seen] at absent
    cases absent

variable {other : String}

theorem Refines.view_frame (refines : Refines s op s')
    (names : ∀ v v', Move s op v v' → v.row.taskId = taskId)
    (births : ∀ now taskIds request, op ≠ .create now taskIds request) (apart : other ≠ taskId) :
    s'.view other = s.view other := by
  cases refines.changed other with
  | same slice => exact view_of_slice slice
  | moved before _ move => exact absurd ((view_taskId before).symm.trans (names _ _ move)) apart
  | created _ _ _ _ _ _ _ _ requested =>
    obtain ⟨taskIds, request, same, -⟩ := requested
    exact absurd same (births _ _ _)

theorem requestCancel_frame (rooted : Rooted s)
    (h : step env s (.requestCancel now principalId named reason) = some s')
    (apart : other ≠ strip named) : s'.view other = s.view other := by
  refine (step_refines rooted h).view_frame ?_ (fun _ _ _ same => by cases same) apart
  intro v v' move
  cases move with
  | touch _ _ touched => exact touched.elim
  | note _ _ noted => exact noted.1
  | cancel _ _ _ _ named | cancelWaiting _ named => exact named

theorem activateStaged_frame (rooted : Rooted s)
    (h : step env s (.activateStaged now principalId named) = some s')
    (apart : other ≠ strip named) :
    s'.view other = s.view other := by
  refine (step_refines rooted h).view_frame ?_ (fun _ _ _ same => by cases same) apart
  intro v v' move
  cases move with
  | touch _ _ touched => exact touched.1
  | note _ _ noted => exact noted.elim

theorem view_updateTask {f : TaskRow → TaskRow} {row : TaskRow}
    (keep : ∀ row, (f row).taskId = row.taskId) (found : s.tasks.lookup taskId = some row) :
    ∃ v, (s.updateTask taskId f keep).view taskId = some v ∧ v.row = f row := by
  apply view_of_lookup
  dsimp only [Store.updateTask]
  rw [Table.lookup_update, found]
  simp [Table.lookup_key found]

theorem requestCancel_queued {result : TaskCancelResult × Option TaskEvent}
    (h : requestCancel env now principalId named reason s = .ok (result, s'))
    (names : strip named = taskId) (seen : s.view taskId = some v) (queued : v.row.state = .queued) :
    ∃ v', s'.view taskId = some v' ∧ v'.row.state = .cancelled := by
  obtain ⟨principal, -, task, normal, h⟩ := of_bind₂ h
  obtain rfl : task = taskId := (normalizeIdentifier_ok normal).trans names
  obtain ⟨-, -, row, owned, h⟩ := of_bind₂ h
  obtain ⟨w, found, rfl, key⟩ := ownedTask_view owned
  rw [seen] at found
  cases found
  rw [queued] at h
  obtain ⟨⟨appended, store⟩, journal, h⟩ := of_bind h
  cases h
  obtain ⟨-, journaled⟩ := appendEvent_ok journal
  obtain ⟨v', seen', state⟩ := view_updateTask (f := fun task => { task with
    state := .cancelled, cancelRequested := true, leaseOwner := "", leaseExpiresAt := none,
    updatedAt := now, finishedAt := some now, nextEventSeq := appended.eventSeq + 1,
    revision := task.revision + 1 }) (fun _ => rfl) (s := store)
    ((congrArg (fun tasks => tasks.lookup task) journaled.tasks).trans (view_eq_some_iff.mp seen).1)
  exact ⟨v', seen', by rw [state]⟩

theorem activateStaged_ok {task : TaskRecord}
    (h : activateStaged now principalId named s = .ok (task, s')) (names : strip named = taskId) :
    task.taskId = taskId ∧ (∃ v, s.view taskId = some v ∧ Waits v) ∧
      ∃ v', s'.view taskId = some v' ∧ v'.row.state = .queued ∧ v'.row.phase = "" := by
  obtain ⟨principal, -, id, normal, h⟩ := of_bind₂ h
  obtain rfl : id = taskId := (normalizeIdentifier_ok normal).trans names
  obtain ⟨row, owned, _, queued, _, staged, updated, returned, h⟩ := of_bind₄ h
  cases h
  obtain ⟨v, seen, rfl, key⟩ := ownedTask_view owned
  rw [require_ok_iff] at queued staged
  refine ⟨Table.lookup_key (ownedTask_ok_iff.mp returned).1, ⟨v, seen, queued, staged⟩, ?_⟩
  obtain ⟨v', seen', row⟩ := view_updateTask (f := fun task => { task with
    phase := "", updatedAt := now, revision := task.revision + 1 }) (fun _ => rfl)
    (view_eq_some_iff.mp seen).1
  exact ⟨v', seen', by rw [row]; exact queued, by rw [row]⟩

theorem activateStaged_waits {principal : String}
    (principal_normal : normalizeIdentifier principalId "principal_id" 256 = .ok principal)
    (named_normal : normalizeIdentifier named "task_id" 128 = .ok taskId)
    (seen : s.view taskId = some v) (owner : v.row.principalId = principal) (waits : Waits v) :
    ∃ task s', activateStaged now principalId named s = .ok (task, s') ∧ task.taskId = taskId := by
  have owned : ownedTask s principal taskId = .ok v.row :=
    ownedTask_ok_iff.mpr ⟨(view_eq_some_iff.mp seen).1, owner⟩
  unfold activateStaged
  rw [principal_normal, ok_bind, named_normal, ok_bind, owned, ok_bind, require_of waits.queued,
    ok_bind, require_of waits.staged, ok_bind]
  obtain ⟨w, written, row⟩ := view_updateTask (f := fun task => { task with
    phase := "", updatedAt := now, revision := task.revision + 1 }) (fun _ => rfl)
    (view_eq_some_iff.mp seen).1
  have updated := ownedTask_ok_iff.mpr ⟨(view_eq_some_iff.mp written).1,
    show w.row.principalId = principal by rw [row]; exact owner⟩
  dsimp only
  rw [updated, ok_bind]
  exact ⟨w.row, _, rfl, view_taskId written⟩

theorem getTask_of_view {principal : String}
    (principal_normal : normalizeIdentifier principalId "principal_id" 256 = .ok principal)
    (named_normal : normalizeIdentifier named "task_id" 128 = .ok taskId)
    (seen : s.view taskId = some v) (owner : v.row.principalId = principal) :
    getTask s principalId named = .ok v.row := by
  unfold getTask
  rw [principal_normal, ok_bind, named_normal, ok_bind]
  exact ownedTask_ok_iff.mpr ⟨(view_eq_some_iff.mp seen).1, owner⟩

theorem requestCancel_ended {result : TaskCancelResult × Option TaskEvent}
    (h : requestCancel env now principalId named reason s = .ok (result, s'))
    (names : strip named = taskId) (seen : s.view taskId = some v)
    (ended : v.row.state.isTerminal = true) : s' = s := by
  obtain ⟨principal, -, task, normal, h⟩ := of_bind₂ h
  obtain rfl : task = taskId := (normalizeIdentifier_ok normal).trans names
  obtain ⟨-, -, row, owned, h⟩ := of_bind₂ h
  obtain ⟨w, found, rfl, key⟩ := ownedTask_view owned
  rw [seen] at found
  cases found
  rw [if_pos ended] at h
  cases h
  rfl

theorem getTask_missing {t : Store} {error : String}
    (h : getTask s principalId named = .error (.notFound error))
    (absent : t.tasks.lookup (strip named) = none) :
    ∃ error, getTask t principalId named = .error (.notFound error) := by
  unfold getTask at h ⊢
  cases principal : normalizeIdentifier principalId "principal_id" 256 with
  | error e =>
    rw [principal] at h
    obtain ⟨message, rfl⟩ := stripped_error principal
    cases h
  | ok id =>
    rw [principal, ok_bind] at h
    rw [ok_bind]
    cases task : normalizeIdentifier named "task_id" 128 with
    | error e =>
      rw [task] at h
      obtain ⟨message, rfl⟩ := stripped_error task
      cases h
    | ok taskId =>
      rw [ok_bind, normalizeIdentifier_ok task, ownedTask, absent]
      exact ⟨_, rfl⟩

variable {request : CreateRequest}

def Unrequested (s : Store) (sessionHandle requestId : String) : Prop :=
  ∀ id ∈ s.tasks.rows.map TaskRow.identity, id.sessionHandle = sessionHandle →
    id.clientRequestId ≠ strip requestId

theorem create_born {taskIds : Nat → String} {child : TaskRecord} {born : Bool}
    (h : create env now taskIds request s = (.ok (child, born), s'))
    (unrequested : Unrequested s request.scope.sessionHandle request.clientRequestId) :
    s.view child.taskId = none ∧ (strip child.taskId = child.taskId ∧ child.taskId ≠ "" ∧
      child.taskId.length ≤ 128) ∧ child.state = .queued ∧
        child.phase = strip request.initialPhase ∧
          child.principalId = request.scope.principalId ∧
            ∃ v, s'.view child.taskId = some v ∧ v.row = child := by
  unfold create at h
  split at h
  · cases h
  · rename_i fields normal
    obtain ⟨body, member, once⟩ := retrying_ok h
    obtain ⟨i, -, rfl⟩ := List.mem_map.mp member
    obtain ⟨session, owned, _, agent, once⟩ := of_bind₂ once
    split at once
    · rename_i existing found
      obtain ⟨_, same, once⟩ := of_bind once
      obtain ⟨present, principal, requestId⟩ := existingRequest_some found
      have alike := sameRequest_matches principal requestId (require_ok_iff.mp same)
      have requested := alike.requestId.trans (normalizeCreate_requestId normal)
      exact absurd requested (unrequested _ (List.mem_map_of_mem present) alike.session)
    · obtain ⟨taskId, tasks, store, trimmed, stored, -, journaled, rfl, same⟩ := insertTask_ok once
      cases same
      have fresh : s.tasks.lookup taskId = none :=
        Table.lookup_eq_none_iff.mpr (Table.insert_fresh stored)
      have inserted : store.tasks.lookup taskId =
          some (newTaskRow now taskId session.agentId request fields) := by
        rw [journaled.tasks, Table.lookup_insert stored]
        exact if_pos rfl
      refine ⟨view_none_iff.mpr fresh, trimmed, rfl, normalizeCreate_phase normal, rfl, ?_⟩
      exact view_updateTask (f := fun task => { task with nextEventSeq := 2 }) (fun _ => rfl)
        inserted

theorem create_adds {taskIds : Nat → String} {result : TaskRecord × Bool}
    (h : create env now taskIds request s = (.ok result, s')) {id : TaskIdentity}
    (member : id ∈ s'.tasks.rows.map TaskRow.identity) : id ∈ s.tasks.rows.map TaskRow.identity ∨
      (id.sessionHandle = request.scope.sessionHandle ∧
        id.clientRequestId = strip request.clientRequestId ∧
          (s.sessions.lookup id.sessionHandle).isSome = true) := by
  unfold create at h
  split at h
  · cases h
  · rename_i fields normal
    obtain ⟨body, listed, once⟩ := retrying_ok h
    obtain ⟨i, -, rfl⟩ := List.mem_map.mp listed
    obtain ⟨session, owned, -, -, once⟩ := of_bind₂ once
    split at once
    · obtain ⟨-, -, once⟩ := of_bind once
      cases once
      exact Or.inl member
    · obtain ⟨taskId, tasks, store, -, stored, -, journaled, rfl, -⟩ := insertTask_ok once
      rw [updateTask_identities (f := fun task => { task with nextEventSeq := 2 }) (fun _ => rfl)
        (fun _ => rfl), journaled.tasks, Table.insert_rows stored, List.map_append] at member
      rcases List.mem_concat.mp member with old | new
      · exact Or.inl old
      · rw [new]
        exact Or.inr ⟨rfl, normalizeCreate_requestId normal,
          Option.isSome_iff_exists.mpr ⟨session, (ownedSession_ok_iff.mp owned).1⟩⟩

def Housed (s : Store) : Prop :=
  ∀ id ∈ s.tasks.rows.map TaskRow.identity, (s.sessions.lookup id.sessionHandle).isSome = true

theorem step_identities (sound : Sound s) (h : step env s op = some s')
    (other : ∀ now taskIds request, op ≠ .create now taskIds request) :
    s'.tasks.rows.map TaskRow.identity = s.tasks.rows.map TaskRow.identity := by
  have refines := step_refines sound.rooted h
  rcases refines.identities with same | ⟨born, grown, fresh⟩
  · exact same
  · exfalso
    have listed : born ∈ s'.tasks.rows.map TaskRow.identity := by
      rw [grown]
      exact List.mem_concat_self
    obtain ⟨row, present, rfl⟩ := List.mem_map.mp listed
    obtain ⟨v, seen, rfl⟩ := view_of_mem present
    -- the Task was there before, under the same request
    have before : ∃ w, s.view v.row.taskId = some w ∧ v.row.identity = w.row.identity := by
      cases refines.changed v.row.taskId with
      | same slice => exact ⟨v, (view_of_slice slice).symm.trans seen, rfl⟩
      | moved before after move =>
        rw [seen] at after
        cases after
        exact ⟨_, before, move.identity⟩
      | created _ _ _ _ _ _ _ _ requested =>
        obtain ⟨taskIds, request, same, -⟩ := requested
        exact absurd same (other _ _ _)
    obtain ⟨w, seen_before, same⟩ := before
    have old := identity_mem seen_before
    rw [← same] at old
    exact fresh _ old ⟨rfl, rfl⟩

theorem step_housed (sound : Sound s) (h : step env s op = some s') (housed : Housed s) :
    Housed s' := by
  by_cases births : ∃ now taskIds request, op = .create now taskIds request
  · obtain ⟨now, taskIds, request, rfl⟩ := births
    obtain ⟨result, made⟩ := outcome_ok (step_eq_some h)
    intro id member
    rw [(step_refines sound.rooted h).sessions]
    rcases create_adds made member with old | ⟨-, -, known⟩
    · exact housed id old
    · exact known
  · have same := step_identities sound h (fun now taskIds request equal =>
      births ⟨now, taskIds, request, equal⟩)
    intro id member
    rw [same] at member
    rw [(step_refines sound.rooted h).sessions]
    exact housed id member

theorem step_unrequested {sessionHandle requestId : String} (sound : Sound s)
    (h : step env s op = some s') (apart : ¬ op.creates sessionHandle requestId)
    (unrequested : Unrequested s sessionHandle requestId) :
    Unrequested s' sessionHandle requestId := by
  intro id member
  by_cases births : ∃ now taskIds request, op = .create now taskIds request
  · obtain ⟨now, taskIds, request, rfl⟩ := births
    obtain ⟨result, made⟩ := outcome_ok (step_eq_some h)
    rcases create_adds made member with old | ⟨session, requested, -⟩
    · exact unrequested id old
    · intro here same
      exact apart ⟨session.symm.trans here, requested.symm.trans same⟩
  · rw [step_identities sound h (fun now taskIds request equal =>
      births ⟨now, taskIds, request, equal⟩)] at member
    exact unrequested id member

end Calls

end Knoa.Tasks
