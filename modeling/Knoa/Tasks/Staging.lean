import Knoa.Tasks.Invariants

/-!
# Staged Tasks

A delegation child is created staged and claimed only once it is activated, unless
it is paused and resumed in between: `resume` clears the phase that stages it.
-/
namespace Knoa.Tasks
open Relational Transaction Transition

def createdStaged (s s' : Store) : List String :=
  (s'.tasks.rows.filter (fun row => row.phase == "delegation_staged" &&
    (s.tasks.lookup row.taskId).isNone)).map TaskRow.taskId

def noteStaged (s : Store) (op : Op) (s' : Store) (staged : List String) : List String :=
  match op with
  | .create .. => staged ++ createdStaged s s'
  | .activateStaged _ _ named => staged.filter (fun taskId => taskId != strip named)
  | _ => staged

def stagingStep (env : Env) : Store × List String → Op → Option (Store × List String) :=
  recording (step env) noteStaged

def ClaimsActivated (env : Env) (s : Store × List String) (op : Op) : Prop :=
  match op with
  | .claimNext now workerId leaseSeconds principalId =>
    match commit (claimNext env now workerId leaseSeconds principalId) s.1 with
    | (.ok (some task), _) => task.taskId ∉ s.2
    | _ => True
  | _ => True

instance (env : Env) (s : Store × List String) (op : Op) : Decidable (ClaimsActivated env s op) := by
  apply op.casesOn (motive := fun op => Decidable (ClaimsActivated env s op)) <;> intros <;>
    unfold ClaimsActivated <;> try infer_instance
  dsimp only
  split <;> infer_instance

/-- No Task that is still staged is resumed, or taken to QUEUED or RUNNING by a
generic transition. -/
def KeepsStaged (s : Store × List String) (op : Op) : Prop :=
  match op with
  | .resume _ _ named _ _ => strip named ∉ s.2
  | .transition _ _ named target _ => strip named ∈ s.2 → target ≠ .queued ∧ target ≠ .running
  | _ => True

instance (s : Store × List String) (op : Op) : Decidable (KeepsStaged s op) := by
  apply op.casesOn (motive := fun op => Decidable (KeepsStaged s op)) <;> intros <;>
    unfold KeepsStaged <;> infer_instance

structure Unclaimed (v : TaskView) : Prop where
  inactive : v.row.state.isActive = false
  staged : v.row.state = .queued → v.row.phase = "delegation_staged"

section Views

variable {s s' : Store} {op : Op} {taskId : String} {v v' : TaskView} {staged : List String}

theorem Unclaimed.stopped (inactive : v.row.state.isActive = false)
    (unqueued : v.row.state ≠ .queued) : Unclaimed v :=
  ⟨inactive, fun queued => absurd queued unqueued⟩

theorem Unclaimed.keep (h : Unclaimed v) (state : v'.row.state = v.row.state)
    (control : v'.row.control = v.row.control) : Unclaimed v' := by
  refine ⟨state ▸ h.inactive, ?_⟩
  intro queued
  exact (congrArg Control.phase control).trans (h.staged (state ▸ queued))

theorem Unclaimed.not_active (h : Unclaimed v) {state : TaskState} (active : state.isActive = true) :
    v.row.state ≠ state := by
  intro same
  have inactive := h.inactive
  rw [same, active] at inactive
  cases inactive

theorem claimable_unstaged {principal : String} {row : TaskRow}
    (h : claimable s principal row = true) : row.phase ≠ "delegation_staged" := by
  unfold claimable at h
  simp only [Bool.and_eq_true, bne_iff_ne] at h
  exact h.1.2

theorem inactive_target {state target : TaskState} (allowed : target ∈ state.transitions)
    (inactive : state.isActive = false) (unqueued : target ≠ .queued)
    (unrunning : target ≠ .running) : target.isActive = false := by
  cases state <;> cases target <;> simp_all [TaskState.transitions, TaskState.isActive]

theorem Move.unclaimed (move : Move s op v v') (seen : s.view taskId = some v)
    (member : taskId ∈ staged) (clean : KeepsStaged (s, staged) op)
    (waits : ∀ now principalId named, op = .activateStaged now principalId named →
      taskId ≠ strip named) (h : Unclaimed v) : Unclaimed v' := by
  have key := view_taskId seen
  have unrun : v.row.state ≠ .running := h.not_active rfl
  have unasked : v.row.state ≠ .waitingApproval := h.not_active rfl
  cases move with
  | touch live row touched =>
    cases op with
    | activateStaged now principalId named =>
      exact absurd (key.symm.trans touched.1) (waits now principalId named rfl)
    | renewLease => exact absurd touched.2.1 unrun
    | _ => exact touched.elim
  | append _ row control => exact h.keep row.state control
  | note running | expire running | restartRunning running | unknown running | ask running =>
    exact absurd running unrun
  | cancel _ _ row | pause _ row => exact .stopped (by rw [row.state]; rfl) (by simp [row.state])
  | cancelWaiting waiting | pauseWaiting waiting | restartWaiting waiting | resolve waiting
  | resolveQueued waiting => exact absurd waiting unasked
  | resume _ _ named =>
    refine absurd ?_ clean
    rwa [← named, key]
  | transit allowed named _ row =>
    obtain ⟨unqueued, unrunning⟩ := clean (by rwa [← named, key])
    refine .stopped ?_ (by rwa [row.state])
    rw [row.state]
    exact inactive_target allowed h.inactive unqueued unrunning
  | claim queued _ next =>
    exact absurd (h.staged queued) (claimable_unstaged (nextClaim_some next).2)
  | restart | annotate | beginStep | finishStep | saveTrace => exact h.keep rfl rfl

end Views

section Runs

variable {env : Env}

structure StagedHeld (s : Store × List String) : Prop where
  sound : Sound s.1
  held : ∀ taskId ∈ s.2, ∃ v, s.1.view taskId = some v ∧ Unclaimed v

theorem mem_createdStaged {s s' : Store} {taskId : String} (h : taskId ∈ createdStaged s s') :
    s.view taskId = none ∧ ∃ v, s'.view taskId = some v ∧ v.row.phase = "delegation_staged" := by
  obtain ⟨row, member, rfl⟩ := List.mem_map.mp h
  rw [List.mem_filter, Bool.and_eq_true, beq_iff_eq, Option.isNone_iff_eq_none] at member
  obtain ⟨listed, staged, absent⟩ := member
  obtain ⟨v, seen, rfl⟩ := view_of_mem listed
  exact ⟨view_none_iff.mpr absent, v, seen, staged⟩

theorem mem_noteStaged {s s' : Store} {op : Op} {staged : List String} {taskId : String}
    (h : taskId ∈ noteStaged s op s' staged) :
    taskId ∈ staged ∧ (∀ now principalId named, op = .activateStaged now principalId named →
        taskId ≠ strip named) ∨
      taskId ∈ createdStaged s s' := by
  cases op with
  | create =>
    rcases List.mem_append.mp h with old | new
    · exact Or.inl ⟨old, by simp⟩
    · exact Or.inr new
  | activateStaged now principalId named =>
    obtain ⟨old, apart⟩ := List.mem_filter.mp h
    refine Or.inl ⟨old, ?_⟩
    rintro _ _ _ ⟨⟩
    simpa using apart
  | _ => exact Or.inl ⟨h, by simp⟩

theorem StagedHeld.kept {s s' : Store × List String} {op : Op} (h : StagedHeld s)
    (clean : KeepsStaged s op) (taken : stagingStep env s op = some s') : StagedHeld s' := by
  obtain ⟨accepted, noted⟩ := recording_eq_some_iff.mp taken
  have refines := step_refines h.sound.rooted accepted
  refine ⟨h.sound.kept accepted, ?_⟩
  intro taskId member
  rw [noted] at member
  rcases mem_noteStaged member with ⟨old, waits⟩ | new
  · obtain ⟨v, seen, unclaimed⟩ := h.held taskId old
    cases refines.changed taskId with
    | same slice => exact ⟨v, (view_of_slice slice).trans seen, unclaimed⟩
    | moved before after move =>
      rw [seen] at before
      cases before
      exact ⟨_, after, move.unclaimed seen old clean waits unclaimed⟩
    | created absent =>
      rw [seen] at absent
      cases absent
  · obtain ⟨absent, v, seen, staged⟩ := mem_createdStaged new
    refine ⟨v, seen, ?_⟩
    cases refines.changed taskId with
    | same slice =>
      rw [view_of_slice slice, absent] at seen
      cases seen
    | moved before =>
      rw [absent] at before
      cases before
    | created _ _ _ _ change after =>
      rw [after] at seen
      cases seen
      exact ⟨by rw [change.state]; rfl, fun _ => staged⟩

theorem StagedHeld.claims {s : Store × List String} (h : StagedHeld s) (op : Op) :
    ClaimsActivated env s op := by
  cases op with
  | claimNext now workerId leaseSeconds principalId =>
    unfold ClaimsActivated
    dsimp only
    split
    case h_2 => trivial
    rename_i task s' claim
    intro staged
    obtain ⟨principal, v, -, -, -, next, seen, change, -⟩ :=
      claimNext_effect (commit_ok_iff.mp claim)
    have able := (nextClaim_some next).2
    have key : task.taskId = v.row.taskId := identity_taskId change.identity
    obtain ⟨w, seen', unclaimed⟩ := h.held task.taskId staged
    rw [key, seen, Option.some.injEq] at seen'
    subst seen'
    exact claimable_unstaged able (unclaimed.staged (claimable_queued able).1)
  | _ => trivial

theorem staged_never_claimed (env : Env) (sessions : Table SessionRow.sessionHandle)
    (definitions : Table DefinitionRow.taskId) (executions : Table ExecutionRow.executionId)
    (ops : List Op) (clean : ∀ taken ∈ accepted (stagingStep env)
      (Store.initial sessions definitions executions, []) ops, KeepsStaged taken.1 taken.2) :
    ∀ taken ∈ accepted (stagingStep env)
      (Store.initial sessions definitions executions, []) ops,
      ClaimsActivated env taken.1 taken.2 := by
  have start : StagedHeld (Store.initial sessions definitions executions, []) :=
    ⟨initial_sound sessions definitions executions, nofun⟩
  exact Transition.accepted_of_clean (fun _ _ _ held clean taken => held.kept clean taken)
    (fun _ op _ held _ _ => held.claims op) start clean

end Runs

section Sample

def sampleStaged : Op :=
  .create 0 (fun _ => "t") { sampleRequest "t" with initialPhase := "delegation_staged" }

def activatedChild : List Op :=
  [sampleStaged, .claimNext 1 "w" 60 "", .activateStaged 2 "p" "t", .claimNext 3 "w" 60 ""]

theorem staged_never_claimed_activated :
    Transition.Along (fun taken => ClaimsActivated sampleEnv taken.1 taken.2)
      (accepted (stagingStep sampleEnv) (sampleStore, []) activatedChild) :=
  staged_never_claimed sampleEnv sampleSessions .empty .empty activatedChild (by decide +kernel)

def resumedChild : List Op :=
  [sampleStaged, .requestPause 1 "p" "t" "", .resume 2 "p" "t" "" false, .claimNext 3 "w" 60 ""]

theorem resumed_child_claimed_unactivated :
    ¬ ∀ taken ∈ accepted (stagingStep sampleEnv) (sampleStore, []) resumedChild,
      ClaimsActivated sampleEnv taken.1 taken.2 := by
  decide +kernel

end Sample

end Knoa.Tasks
