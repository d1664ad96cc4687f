import Knoa.Tasks.Invariants
import Mathlib.Data.Fintype.Defs

/-!
# Unknown outcomes and their acknowledgement

The phase of a paused Task is the gate of `resume`; the record beside the store says
which Tasks have an outcome that is unknown and not acknowledged.
-/
namespace Knoa.Tasks
open Relational Transition

def markedUnknown (s s' : Store) : List String :=
  (s'.steps.rows.filter (fun step => step.state == .outcomeUnknown &&
    s.steps.rows.any (fun old => old.toolStepId == step.toolStepId &&
      old.taskId == step.taskId && old.state == .committing))).map ToolStepRow.taskId

def lostCommitting (s : Store) (now : Time) : List String :=
  (s.tasks.rows.filter (fun row => leaseExpired now row &&
    s.steps.rows.any (fun step => step.taskId == row.taskId && step.state == .committing))).map
    TaskRow.taskId

/-- The Tasks with a step whose outcome became unknown since the last acknowledgement. -/
def noteUnknown (s : Store) (op : Op) (s' : Store) (unknown : List String) : List String :=
  match op with
  | .resume _ _ named _ acknowledge =>
    if acknowledge then unknown.filter (fun taskId => taskId != strip named) else unknown
  | .recoverExpiredLeases now => unknown ++ lostCommitting s now
  | _ => unknown ++ markedUnknown s s'

def unknownStep (env : Env) : Store × List String → Op → Option (Store × List String) :=
  recording (step env) noteUnknown

/-- A resume without acknowledgement is of a Task with no unknown outcome, and
recovery reports an unknown outcome only where there is one. -/
def AsksForUnknown (env : Env) (s : Store × List String) (op : Op) : Prop :=
  match op with
  | .resume _ _ named _ acknowledge => acknowledge = false → strip named ∉ s.2
  | .recoverInterrupted _ | .recoverExpiredLeases _ =>
    ∀ row ∈ s.1.tasks.rows, row.state = .running →
      ∀ row' ∈ (next (unknownStep env) s op).1.tasks.rows, row'.taskId = row.taskId →
        row'.state = .paused → row'.phase = "outcome_unknown" →
          row.taskId ∈ (next (unknownStep env) s op).2
  | _ => True

def CommitsWatched (s : Store) : Prop :=
  ∀ step ∈ s.steps.rows, step.state = .committing → ∀ row ∈ s.tasks.rows,
    row.taskId = step.taskId → row.state = .running ∨ row.state.isTerminal = true

/-- A running Task with an unknown outcome has one that is not acknowledged, or a
step that commits. -/
def UnknownOpen (s : Store) (unknown : List String) : Prop :=
  ∀ step ∈ s.steps.rows, step.state = .outcomeUnknown → ∀ row ∈ s.tasks.rows,
    row.taskId = step.taskId → row.state = .running →
      row.taskId ∈ unknown ∨ ∃ other ∈ s.steps.rows,
        other.taskId = row.taskId ∧ other.state = .committing

/-- Lease recovery pauses no Task with a committing step; restart recovery finds those
only in running or finished Tasks, and no running Task all of whose unknown outcomes are
acknowledged; no transition requeues an unacknowledged Task. -/
def KeepsAcknowledgement (s : Store × List String) (op : Op) : Prop :=
  match op with
  | .recoverExpiredLeases now => lostCommitting s.1 now = []
  | .recoverInterrupted _ => CommitsWatched s.1 ∧ UnknownOpen s.1 s.2
  | .transition _ _ named target _ => strip named ∈ s.2 → target ≠ .queued
  | _ => True

instance (env : Env) (s : Store × List String) (op : Op) : Decidable (AsksForUnknown env s op) := by
  apply op.casesOn (motive := fun op => Decidable (AsksForUnknown env s op)) <;> intros <;>
    unfold AsksForUnknown <;> infer_instance

instance (s : Store) : Decidable (CommitsWatched s) := by
  unfold CommitsWatched
  infer_instance

instance (s : Store) (unknown : List String) : Decidable (UnknownOpen s unknown) := by
  unfold UnknownOpen
  infer_instance

instance (s : Store × List String) (op : Op) : Decidable (KeepsAcknowledgement s op) := by
  apply op.casesOn (motive := fun op => Decidable (KeepsAcknowledgement s op)) <;> intros <;>
    dsimp only [KeepsAcknowledgement] <;> infer_instance

/-- A Task that waits for its acknowledgement, or is over. -/
def Quarantined (v : TaskView) : Prop :=
  v.row.state = .paused ∧ v.row.phase = "outcome_unknown" ∨ v.row.state.isTerminal = true

section Views

variable {s s' : Store} {op : Op} {taskId : String} {v v' : TaskView} {unknown : List String}

def Marks (v v' : TaskView) : Prop :=
  ∃ old ∈ v.steps, old.state = .committing ∧
    ∃ step ∈ v'.steps, step.toolStepId = old.toolStepId ∧ step.state = .outcomeUnknown

theorem view_of_step (rooted : Rooted s) {step : ToolStepRow} (member : step ∈ s.steps.rows) :
    ∃ v, s.view step.taskId = some v ∧ step ∈ v.steps := by
  have present : step ∈ s.stepsOf step.taskId := mem_stepsOf.mpr ⟨member, rfl⟩
  cases seen : s.view step.taskId with
  | none =>
    have empty : s.stepsOf step.taskId = [] := congrArg TaskSlice.steps (rooted _ seen)
    rw [empty] at present
    cases present
  | some v => exact ⟨v, rfl, by rwa [view_steps seen]⟩

theorem mem_markedUnknown (rooted : Rooted s) (rooted' : Rooted s')
    (h : taskId ∈ markedUnknown s s') :
    ∃ v v', s.view taskId = some v ∧ s'.view taskId = some v' ∧ Marks v v' := by
  obtain ⟨step, member, rfl⟩ := List.mem_map.mp h
  simp only [List.mem_filter, Bool.and_eq_true, beq_iff_eq, List.any_eq_true] at member
  obtain ⟨listed, lost, old, known, ⟨same, owner⟩, committing⟩ := member
  obtain ⟨v, seen, before⟩ := view_of_step rooted known
  obtain ⟨v', seen', after⟩ := view_of_step rooted' listed
  rw [owner] at seen
  exact ⟨v, v', seen, seen', old, before, committing, step, after, same.symm, lost⟩

theorem markedUnknown_of_marks (seen : s.view taskId = some v) (seen' : s'.view taskId = some v')
    (h : Marks v v') : taskId ∈ markedUnknown s s' := by
  obtain ⟨old, known, committing, step, listed, same, lost⟩ := h
  rw [view_steps seen] at known
  rw [view_steps seen'] at listed
  obtain ⟨stored, owner⟩ := mem_stepsOf.mp known
  obtain ⟨stored', owner'⟩ := mem_stepsOf.mp listed
  refine List.mem_map.mpr ⟨step, List.mem_filter.mpr ⟨stored', ?_⟩, owner'⟩
  simp only [Bool.and_eq_true, beq_iff_eq, List.any_eq_true]
  exact ⟨lost, old, stored, ⟨same.symm, owner.trans owner'.symm⟩, committing⟩

theorem step_unique {a b : ToolStepRow} (seen : s.view taskId = some v) (ha : a ∈ v.steps)
    (hb : b ∈ v.steps) (same : a.toolStepId = b.toolStepId) : a = b := by
  rw [view_steps seen] at ha hb
  exact Table.mem_unique (mem_stepsOf.mp ha).1 (mem_stepsOf.mp hb).1 same

theorem Marks.changed (seen : s.view taskId = some v) (h : Marks v v') : v'.steps ≠ v.steps := by
  obtain ⟨old, known, committing, step, listed, same, lost⟩ := h
  intro kept
  rw [kept] at listed
  rw [step_unique seen listed known same, committing] at lost
  cases lost

theorem Quarantined.keep (h : Quarantined v) (state : v'.row.state = v.row.state)
    (control : v'.row.control = v.row.control) : Quarantined v' := by
  have phase : v'.row.phase = v.row.phase := congrArg Control.phase control
  unfold Quarantined
  rw [state, phase]
  exact h

theorem Quarantined.not_live (h : Quarantined v) {state : TaskState} (unpaused : state ≠ .paused)
    (live : state.isTerminal = false) : v.row.state ≠ state := by
  rintro rfl
  rcases h with ⟨paused, -⟩ | terminal
  · exact unpaused paused
  · rw [live] at terminal
    cases terminal

theorem Move.quarantined (move : Move s op v v') (seen : s.view taskId = some v)
    (member : taskId ∈ unknown) (clean : KeepsAcknowledgement (s, unknown) op)
    (unasked : ∀ now principalId named reason,
      op = .resume now principalId named reason true → taskId ≠ strip named)
    (h : Quarantined v) : Quarantined v' := by
  have key := view_taskId seen
  have unqueued : v.row.state ≠ .queued := h.not_live (by decide) rfl
  have unrun : v.row.state ≠ .running := h.not_live (by decide) rfl
  have unwaiting : v.row.state ≠ .waitingApproval := h.not_live (by decide) rfl
  cases move with
  | touch live row touched =>
    cases op with
    | activateStaged => exact absurd touched.2.1 unqueued
    | renewLease => exact absurd touched.2.1 unrun
    | _ => exact touched.elim
  | append _ row control => exact h.keep row.state control
  | note running | expire running | restartRunning running | unknown running | ask running =>
    exact absurd running unrun
  | cancel _ _ row => exact Or.inr (by rw [row.state]; rfl)
  | cancelWaiting waiting | pauseWaiting waiting | restartWaiting waiting | resolve waiting
  | resolveQueued waiting => exact absurd waiting unwaiting
  | pause queued | claim queued => exact absurd queued unqueued
  | resume paused _ named acknowledged =>
    rcases h with ⟨-, phase⟩ | terminal
    · rename_i acknowledge _ _
      have asked := acknowledged phase
      exact absurd (key.symm.trans named) (unasked _ _ _ _ (by rw [asked]))
    · rw [paused] at terminal
      cases terminal
  | transit allowed named _ row =>
    have aimed := clean (by rwa [← named, key])
    rcases h with ⟨paused, -⟩ | terminal
    · refine Or.inr ?_
      rw [row.state]
      rw [paused] at allowed
      simp only [TaskState.transitions, List.mem_cons, List.not_mem_nil, or_false] at allowed
      rcases allowed with rfl | rfl | rfl
      · exact absurd rfl aimed
      · rfl
      · rfl
    · rw [TaskState.transitions_of_terminal terminal] at allowed
      cases allowed
  | restart | annotate | beginStep | finishStep | saveTrace => exact h.keep rfl rfl

theorem Move.marks (move : Move s op v v') (seen : s.view taskId = some v)
    (clean : KeepsAcknowledgement (s, unknown) op) (marks : Marks v v') : Quarantined v' := by
  have kept := marks.changed seen
  obtain ⟨old, known, committing, step, listed, same, lost⟩ := marks
  have key := view_taskId seen
  have unmarked : step ∉ v.steps := by
    intro before
    rw [step_unique seen before known same, committing] at lost
    cases lost
  have watched : CommitsWatched s → v.row.state = .running ∨ v.row.state.isTerminal = true := by
    intro watched
    rw [view_steps seen] at known
    obtain ⟨stored, owner⟩ := mem_stepsOf.mp known
    exact watched old stored committing v.row (view_mem seen) (key.trans owner.symm)
  cases move with
  | unknown _ row _ control => exact Or.inl ⟨row.state, congrArg Control.phase control⟩
  | restartRunning _ row control =>
    refine Or.inl ⟨row.state, (congrArg Control.phase control).trans (if_pos ?_)⟩
    exact List.any_eq_true.mpr ⟨step, listed, by simp [lost]⟩
  | restart idle =>
    rcases watched clean.1 with running | terminal
    · rw [running] at idle
      cases idle
    · exact Or.inr terminal
  | restartWaiting waiting =>
    rcases watched clean.1 with running | terminal
    · rw [running] at waiting
      cases waiting
    · rw [waiting] at terminal
      cases terminal
  | beginStep _ _ fresh =>
    rcases List.mem_concat.mp listed with before | new
    · exact absurd before unmarked
    · rw [new, fresh] at lost
      cases lost
  | finishStep terminal =>
    obtain ⟨before, member, rfl⟩ := List.mem_map.mp listed
    split at lost
    · rcases terminal with rfl | rfl <;> cases lost
    · rename_i unfinished
      rw [if_neg unfinished] at unmarked
      exact absurd member unmarked
  | _ => exact absurd rfl kept

theorem restartPhase_unknown (h : restartPhase v = "outcome_unknown") :
    ∃ step ∈ v.steps, step.state = .outcomeUnknown := by
  unfold restartPhase at h
  split at h
  · rename_i lost
    obtain ⟨step, member, unknown⟩ := List.any_eq_true.mp lost
    exact ⟨step, member, by simpa using unknown⟩
  · split at h <;> exact absurd h (by decide)

theorem marks_of_quarantine {now : Time} (quarantined : v'.steps = quarantine now v.steps)
    {step : ToolStepRow} (member : step ∈ v.steps) (committing : step.state = .committing) :
    Marks v v' := by
  refine ⟨step, member, committing, { step with state := .outcomeUnknown, updatedAt := now },
    ?_, rfl, rfl⟩
  rw [quarantined]
  exact List.mem_map.mpr ⟨step, member, if_pos committing⟩

/-- Recovery pauses a running Task for an unknown outcome only if a step of it is
unknown, or was committing. -/
theorem Move.reports (move : Move s op v v') (running : v.row.state = .running)
    (paused : v'.row.state = .paused) (phase : v'.row.phase = "outcome_unknown")
    (recovery : ∃ now, op = .recoverInterrupted now ∨ op = .recoverExpiredLeases now) :
    ∃ now, op = .recoverInterrupted now ∧ v'.steps = quarantine now v.steps ∧
      ∃ step ∈ v.steps, step.state = .outcomeUnknown ∨ step.state = .committing := by
  obtain ⟨now, rfl | rfl⟩ := recovery
  · refine ⟨now, rfl, ?_⟩
    cases move with
    | touch _ _ touched => exact touched.elim
    | note _ _ noted => exact noted.elim
    | restart =>
      rw [running] at paused
      cases paused
    | restartWaiting _ row =>
      rw [row.state] at paused
      cases paused
    | restartRunning _ _ control =>
      obtain ⟨step, member, lost⟩ := restartPhase_unknown
        ((congrArg Control.phase control).symm.trans phase)
      obtain ⟨old, known, rfl⟩ := List.mem_map.mp member
      refine ⟨rfl, old, known, ?_⟩
      by_cases committing : old.state = .committing
      · exact Or.inr committing
      · rw [if_neg committing] at lost
        exact Or.inl lost
  · cases move with
    | touch _ _ touched => exact touched.elim
    | note _ _ noted => exact noted.elim
    | expire _ _ _ control =>
      have recorded : "lease_expired" = "outcome_unknown" :=
        (congrArg Control.phase control).symm.trans phase
      exact absurd recorded (by decide)

end Views

section Runs

variable {env : Env}

structure UnknownHeld (s : Store × List String) : Prop where
  sound : Sound s.1
  held : ∀ taskId ∈ s.2, ∃ v, s.1.view taskId = some v ∧ Quarantined v

variable {op : Op}

theorem mem_noteUnknown {s s' : Store} {unknown : List String} {taskId : String}
    (clean : KeepsAcknowledgement (s, unknown) op) (h : taskId ∈ noteUnknown s op s' unknown) :
    taskId ∈ unknown ∧ (∀ now principalId named reason,
        op = .resume now principalId named reason true → taskId ≠ strip named) ∨
      taskId ∈ markedUnknown s s' := by
  cases op with
  | resume now principalId named reason acknowledge =>
    cases acknowledge with
    | true =>
      obtain ⟨old, apart⟩ := List.mem_filter.mp h
      refine Or.inl ⟨old, ?_⟩
      rintro _ _ _ _ ⟨⟩
      simpa using apart
    | false => exact Or.inl ⟨h, by simp⟩
  | recoverExpiredLeases now =>
    have none : lostCommitting s now = [] := clean
    rw [noteUnknown, none, List.append_nil] at h
    exact Or.inl ⟨h, by simp⟩
  | _ =>
    rcases List.mem_append.mp h with old | new
    · exact Or.inl ⟨old, by simp⟩
    · exact Or.inr new

variable {s s' : Store × List String}

theorem UnknownHeld.kept (h : UnknownHeld s) (clean : KeepsAcknowledgement s op)
    (taken : unknownStep env s op = some s') : UnknownHeld s' := by
  obtain ⟨accepted, noted⟩ := recording_eq_some_iff.mp taken
  have refines := step_refines h.sound.rooted accepted
  refine ⟨h.sound.kept accepted, ?_⟩
  intro taskId member
  rw [noted] at member
  rcases mem_noteUnknown clean member with ⟨old, unasked⟩ | new
  · obtain ⟨v, seen, quarantined⟩ := h.held taskId old
    cases refines.changed taskId with
    | same slice => exact ⟨v, (view_of_slice slice).trans seen, quarantined⟩
    | moved before after move =>
      rw [seen] at before
      cases before
      exact ⟨_, after, move.quarantined seen old clean unasked quarantined⟩
    | created absent =>
      rw [seen] at absent
      cases absent
  · have rooted' : Rooted s'.1 := refines.rooted h.sound.rooted
    obtain ⟨v, v', seen, seen', marks⟩ := mem_markedUnknown h.sound.rooted rooted' new
    refine ⟨v', seen', ?_⟩
    cases refines.changed taskId with
    | same slice =>
      rw [view_of_slice slice, seen, Option.some.injEq] at seen'
      subst seen'
      exact absurd rfl (marks.changed seen)
    | moved before after move =>
      rw [seen, Option.some.injEq] at before
      rw [seen', Option.some.injEq] at after
      subst before after
      exact move.marks seen clean marks
    | created absent =>
      rw [seen] at absent
      cases absent

theorem resume_taken {s s' : Store} {now : Time} {principalId named reason : String}
    {acknowledge : Bool}
    (taken : step env s (.resume now principalId named reason acknowledge) = some s') :
    ∃ v, s.view (strip named) = some v ∧ v.row.state = .paused ∧
      (v.row.phase = "outcome_unknown" → acknowledge = true) := by
  obtain ⟨result, h⟩ := commit_returned (step_eq_some taken)
  obtain ⟨principal, -, h⟩ := Transaction.of_bind h
  obtain ⟨task, normal, h⟩ := Transaction.of_bind h
  obtain ⟨-, -, h⟩ := Transaction.of_bind h
  obtain ⟨row, owned, h⟩ := Transaction.of_bind h
  obtain ⟨_, paused, h⟩ := Transaction.of_bind h
  obtain ⟨_, acknowledged, h⟩ := Transaction.of_bind h
  obtain ⟨v, seen, rfl, -⟩ := ownedTask_view owned
  rw [normalizeIdentifier_ok normal] at seen
  exact ⟨v, seen, Transaction.require_ok_iff.mp paused, Transaction.require_ok_iff.mp acknowledged⟩

theorem UnknownHeld.reports (h : UnknownHeld s) (clean : KeepsAcknowledgement s op)
    (taken : unknownStep env s op = some s')
    (recovery : ∃ now, op = .recoverInterrupted now ∨ op = .recoverExpiredLeases now)
    {row row' : TaskRow} (member : row ∈ s.1.tasks.rows) (running : row.state = .running)
    (member' : row' ∈ s'.1.tasks.rows) (same : row'.taskId = row.taskId)
    (paused : row'.state = .paused) (phase : row'.phase = "outcome_unknown") :
    row.taskId ∈ s'.2 := by
  obtain ⟨accepted, noted⟩ := recording_eq_some_iff.mp taken
  obtain ⟨v, seen, rfl⟩ := view_of_mem member
  obtain ⟨v', seen', rfl⟩ := view_of_mem member'
  rw [same] at seen'
  cases (step_refines h.sound.rooted accepted).changed v.row.taskId with
  | same slice =>
    rw [view_of_slice slice, seen, Option.some.injEq] at seen'
    subst seen'
    rw [running] at paused
    cases paused
  | moved before after move =>
    rw [seen, Option.some.injEq] at before
    rw [seen', Option.some.injEq] at after
    subst before after
    obtain ⟨now, rfl, quarantined, step, listed, lost⟩ := move.reports running paused phase recovery
    have marked : ∀ other ∈ v.steps, other.state = .committing → v.row.taskId ∈ s'.2 := by
      intro other known committing
      rw [noted]
      exact List.mem_append_right _ (markedUnknown_of_marks seen seen'
        (marks_of_quarantine quarantined known committing))
    rcases lost with unknown | committing
    · rw [view_steps seen] at listed
      obtain ⟨stored, owner⟩ := mem_stepsOf.mp listed
      rcases clean.2 step stored unknown v.row member owner.symm running with old | other
      · rw [noted]
        exact List.mem_append_left _ old
      · obtain ⟨other, stored, owner, committing⟩ := other
        apply marked other _ committing
        rw [view_steps seen]
        exact mem_stepsOf.mpr ⟨stored, owner⟩
    · exact marked step listed committing
  | created absent =>
    rw [seen] at absent
    cases absent

theorem UnknownHeld.asks (h : UnknownHeld s) (clean : KeepsAcknowledgement s op)
    (taken : unknownStep env s op = some s') : AsksForUnknown env s op := by
  obtain ⟨accepted, noted⟩ := recording_eq_some_iff.mp taken
  have reports (recovery : ∃ now, op = .recoverInterrupted now ∨ op = .recoverExpiredLeases now) :
      ∀ row ∈ s.1.tasks.rows, row.state = .running →
        ∀ row' ∈ (next (unknownStep env) s op).1.tasks.rows, row'.taskId = row.taskId →
          row'.state = .paused → row'.phase = "outcome_unknown" →
            row.taskId ∈ (next (unknownStep env) s op).2 := by
    rw [Transition.next_of_some taken]
    intro row member running row' member' same paused phase
    exact h.reports clean taken recovery member running member' same paused phase
  cases op with
  | resume now principalId named reason acknowledge =>
    rintro rfl unknown
    obtain ⟨v, seen, paused, acknowledged⟩ := resume_taken accepted
    obtain ⟨w, seen', quarantined⟩ := h.held _ unknown
    rw [seen, Option.some.injEq] at seen'
    subst seen'
    rcases quarantined with ⟨-, phase⟩ | terminal
    · cases acknowledged phase
    · rw [paused] at terminal
      cases terminal
  | recoverInterrupted now => exact reports ⟨now, Or.inl rfl⟩
  | recoverExpiredLeases now => exact reports ⟨now, Or.inr rfl⟩
  | _ => trivial

end Runs

section Sample

def sampleCommit (toolStepId : String) : Op :=
  .beginToolStep 1 "p" "t"
    { toolStepId, toolCallId := "c", toolName := "write", arguments := .emptyObject
      effect := "local_write", risk := "low" }

def acknowledgedCrash : List Op :=
  [sampleCreate "t", .claimNext 0 "w" 60 "", sampleCommit "k", .recoverInterrupted 2,
    .resume 3 "p" "t" "" false, .resume 4 "p" "t" "" true, .claimNext 5 "w" 60 ""]

/-- A lease that runs out during a commit: the Task is resumed with nothing said. -/
def leaseLostAndResumed : List Op :=
  [sampleCreate "t", .claimNext 0 "w" 60 "", sampleCommit "k", .recoverExpiredLeases 100,
    .resume 101 "p" "t" "" false]

/-- A restart long after an acknowledged one, with nothing committing. -/
example : ¬ ∀ taken ∈ accepted (unknownStep sampleEnv) (sampleStore, [])
    (acknowledgedCrash ++ [.recoverInterrupted 6]), AsksForUnknown sampleEnv taken.1 taken.2 := by
  decide +kernel

end Sample

end Knoa.Tasks
