import Knoa.Tasks.Finality
import Knoa.Library.Transition

/-!
# The history of a Task

Along every run the state of a Task follows the transition table with two more edges, and what is
recorded of the Task stays: its journal grows at its end, and an attempt, a tool step or an approval
that is closed is never written again. A run has neither deletions nor compactions in it.
-/
namespace Knoa.Tasks
open Relational (Table)
open Transition

/-- `_TRANSITIONS`, with the edges of `request_pause` and of `resolve_approval`. -/
def TaskState.leadsTo (state next : TaskState) : Prop :=
  next = state ∨ next ∈ state.transitions ∨ state = .queued ∧ next = .paused ∨
    state = .waitingApproval ∧ next = .queued

/-- What `v` has recorded is found in `v'`, review notes apart. -/
structure HistoryKept (v v' : TaskView) : Prop where
  identity : v'.row.identity = v.row.identity
  journal : v.events.map EventRow.withoutReview <+: v'.events.map EventRow.withoutReview
  attempts : ∀ attempt ∈ v.attempts, attempt.state ≠ .running → attempt ∈ v'.attempts
  steps : ∀ step ∈ v.steps, step.state ≠ .committing → step ∈ v'.steps
  approvals : ∀ approval ∈ v.approvals, approval.state ≠ .pending → approval ∈ v'.approvals

def HistoriesKept (s s' : Store) : Prop :=
  ∀ taskId v, s.view taskId = some v → ∃ v', s'.view taskId = some v' ∧ HistoryKept v v'

/-- What one call does to the state of each Task. -/
def LifecycleFollowed (s s' : Store) : Prop :=
  ∀ taskId, match s.view taskId, s'.view taskId with
    | some v, some v' => v.row.state.leadsTo v'.row.state
    | none, some v' => v'.row.state = .queued
    | some _, none => False
    | none, none => True

theorem HistoryKept.refl (v : TaskView) : HistoryKept v v :=
  ⟨rfl, List.prefix_rfl, fun _ member _ => member, fun _ member _ => member, fun _ member _ => member⟩

theorem HistoryKept.trans {v v' v'' : TaskView} (h : HistoryKept v v') (h' : HistoryKept v' v'') :
    HistoryKept v v'' where
  identity := h'.identity.trans h.identity
  journal := h.journal.trans h'.journal
  attempts attempt member ended := h'.attempts attempt (h.attempts attempt member ended) ended
  steps step member ended := h'.steps step (h.steps step member ended) ended
  approvals approval member ended := h'.approvals approval (h.approvals approval member ended) ended

theorem mem_map_spared {ρ : Type} {rows : List ρ} {p : ρ → Prop} [DecidablePred p] {f : ρ → ρ}
    {a : ρ}
    (member : a ∈ rows) (spared : ¬ p a) : a ∈ rows.map (fun row => if p row then f row else row) :=
  List.mem_map.mpr ⟨a, member, if_neg spared⟩

section Moves

variable {s : Store} {op : Op} {v v' : TaskView}

theorem Move.journal_grows (move : Move s op v v') (requested : RequestsJournaled v) :
    v.events.map EventRow.withoutReview <+: v'.events.map EventRow.withoutReview := by
  rcases move.events with ⟨-, same | ⟨text, approval, known, noted⟩⟩ | ⟨event, added, -⟩
  · simp [same]
  · simp [noted, annotateEvents_withoutReview (requested approval known).2]
  · rw [added, List.map_append]
    exact List.prefix_append _ _

theorem Move.attempts_kept (move : Move s op v v') {attempt : AttemptRow}
    (member : attempt ∈ v.attempts) (ended : attempt.state ≠ .running) : attempt ∈ v'.attempts := by
  cases move with
  | claim => exact List.mem_append_left _ member
  | transit =>
    dsimp only [finishRunningFor]
    split
    · exact mem_map_spared member ended
    · exact member
  | cancelWaiting | pauseWaiting | expire | restartWaiting | restartRunning | unknown
  | resolveQueued => exact mem_map_spared member ended
  | _ => exact member

theorem Move.steps_kept (move : Move s op v v') {step : ToolStepRow} (member : step ∈ v.steps)
    (ended : step.state ≠ .committing) : step ∈ v'.steps := by
  cases move with
  | beginStep => exact List.mem_append_left _ member
  | restart | restartWaiting | restartRunning => exact mem_map_spared member ended
  | finishStep | unknown => exact mem_map_spared member (fun both => ended both.2)
  | _ => exact member

theorem Move.approvals_kept (move : Move s op v v') {approval : ApprovalRow}
    (unique : ∀ other ∈ v.approvals, approval.approvalId = other.approvalId → approval = other)
    (member : approval ∈ v.approvals) (decided : approval.state ≠ .pending) :
    approval ∈ v'.approvals := by
  cases move with
  | ask => exact List.mem_append_left _ member
  | cancelWaiting | pauseWaiting => exact mem_map_spared member decided
  | resolve | resolveQueued => exact mem_map_spared member (fun both => decided both.2)
  | annotate known pending =>
    refine mem_map_spared member fun same => decided ?_
    rw [unique _ known same, pending]
  | _ => exact member

theorem Move.leadsTo (move : Move s op v v') : v.row.state.leadsTo v'.row.state := by
  have edge : ∀ {a b : TaskState}, v.row.state = a → v'.row.state = b → a.leadsTo b →
      v.row.state.leadsTo v'.row.state := by
    rintro _ _ rfl rfl edge
    exact edge
  cases move with
  | restart | annotate | beginStep | finishStep | saveTrace => exact Or.inl rfl
  | touch _ row | append _ row => exact Or.inl row.state
  | note running row => exact Or.inl (row.state.trans running.symm)
  | restartWaiting waiting row => exact Or.inl (row.state.trans waiting.symm)
  | cancel stopped _ row =>
    rcases stopped with queued | paused
    · exact edge queued row.state (Or.inr (Or.inl (by decide)))
    · exact edge paused row.state (Or.inr (Or.inl (by decide)))
  | cancelWaiting from_ _ _ row | claim from_ _ _ _ _ row | expire from_ _ row
  | restartRunning from_ row | unknown from_ row | ask from_ _ _ _ row | resolve from_ _ _ _ row
  | pauseWaiting from_ _ row | resume from_ row =>
    exact edge from_ row.state (Or.inr (Or.inl (by decide)))
  | pause queued row => exact Or.inr (Or.inr (Or.inl ⟨queued, row.state⟩))
  | resolveQueued waiting _ _ _ row => exact Or.inr (Or.inr (Or.inr ⟨waiting, row.state⟩))
  | transit allowed _ _ row =>
    rw [row.state]
    exact Or.inr (Or.inl allowed)

end Moves

section Steps

variable {env : Env} {s s' : Store} {op : Op}

theorem histories_step (h : Journaled s) (taken : step env s op = some s') : HistoriesKept s s' := by
  intro taskId v seen
  cases (step_refines h.sound.rooted taken).changed taskId with
  | same slice => exact ⟨v, (view_of_slice slice).trans seen, .refl v⟩
  | @moved _ v' before after move =>
    rw [seen] at before
    cases before
    have approvals := view_approvals seen
    have stored : ∀ {approval}, approval ∈ v.approvals → approval ∈ s.approvals.rows := by
      intro approval member
      rw [approvals] at member
      exact (mem_approvalsOf.mp member).1
    exact ⟨v', after, move.identity, move.journal_grows (h.requests _ _ seen),
      fun _ member => move.attempts_kept member, fun _ member => move.steps_kept member,
      fun _ member => move.approvals_kept
        (fun _ other same => Table.mem_unique (stored member) (stored other) same) member⟩
  | created absent =>
    rw [seen] at absent
    cases absent

theorem lifecycle_step (h : Sound s) (taken : step env s op = some s') : LifecycleFollowed s s' := by
  intro taskId
  cases (step_refines h.rooted taken).changed taskId with
  | same slice =>
    rw [view_of_slice slice]
    cases s.view taskId with
    | none => trivial
    | some v => exact Or.inl rfl
  | moved before after move =>
    rw [before, after]
    exact move.leadsTo
  | created absent _ _ _ change after =>
    rw [absent, after]
    exact change.state

end Steps

variable (env : Env) (sessions : Table SessionRow.sessionHandle)
  (definitions : Table DefinitionRow.taskId) (executions : Table ExecutionRow.executionId)
  (ops : List Op)

theorem histories_kept :
    (trace (step env) (.initial sessions definitions executions) ops).Pairwise HistoriesKept := by
  refine trace_pairwise_of_clean (fun s taskId v seen => ⟨v, seen, .refl v⟩) ?_
    (fun _ _ _ journaled taken => histories_step journaled taken) (fun taken member =>
      trace_invariant (fun _ _ _ h taken => Journaled.kept h taken)
        (initial_journaled sessions definitions executions) ops _ (accepted_mem_trace member).1)
  intro s t u h h' taskId v seen
  obtain ⟨v', seen', kept⟩ := h taskId v seen
  obtain ⟨v'', seen'', kept'⟩ := h' taskId v' seen'
  exact ⟨v'', seen'', kept.trans kept'⟩

theorem lifecycle_followed (op : Op) :
    let s := final (step env) (.initial sessions definitions executions) ops
    LifecycleFollowed s (next (step env) s op) := by
  intro s
  cases stepped : step env s op with
  | none =>
    rw [next_of_none stepped]
    intro taskId
    cases s.view taskId with
    | none => trivial
    | some v => exact Or.inl rfl
  | some s' =>
    rw [next_of_some stepped]
    exact lifecycle_step (final_sound sessions definitions executions ops) stepped

end Knoa.Tasks
