import Knoa.Tasks.ToolRefinement

/-!
# Invariants of every run

A property of one Task that every birth has and every move keeps holds of every Task in every
reachable store. The unconditional invariants are collected in `Sound`.
-/
namespace Knoa.Tasks
open Relational (Table)

/-- Every Task of the store satisfies `P`. -/
def Everywhere (P : TaskView → Prop) (s : Store) : Prop := ∀ taskId v, s.view taskId = some v → P v

/-- A Task as `create` leaves it. -/
def bornView (now : Time) (row row' : TaskRow) : TaskView where
  row := row'
  events := [row.event .taskCreated { state := some .queued } now]
  attempts := []
  steps := []
  approvals := []
  trace := none

section Lifting

variable {s s' : Store} {op : Op} {P : TaskView → Prop}

theorem Refines.everywhere (refines : Refines s op s')
    (born : ∀ now row row', row.attemptCount = 0 → row.nextEventSeq = 1 →
      RowChange row row' .queued 1 0 → P (bornView now row row'))
    (moves : ∀ v v', Move s op v v' → P v → P v') (h : Everywhere P s) : Everywhere P s' := by
  intro taskId v after
  cases refines.changed taskId with
  | same slice => exact h taskId v (by rw [← view_of_slice slice, after])
  | moved before now_seen move =>
    rw [now_seen] at after
    cases after
    exact moves _ _ move (h taskId _ before)
  | created _ _ unclaimed first change now_seen =>
    rw [now_seen] at after
    cases after
    exact born _ _ _ unclaimed first change

end Lifting

section Moves

variable {s : Store} {op : Op} {v v' : TaskView}

theorem annotateEvents_seqs (eventSeq : Nat) (reason : String) (events : List EventRow) :
    (annotateEvents eventSeq reason events).map EventRow.eventSeq =
      events.map EventRow.eventSeq := by
  unfold annotateEvents
  rw [List.map_map]
  apply List.map_congr_left
  intro event _
  simp only [Function.comp]
  split <;> rfl

/-- A move adds one event under the row's counter, or leaves the journal, or notes a
review in it. -/
theorem Move.events (move : Move s op v v') :
    (v'.row.nextEventSeq = v.row.nextEventSeq ∧ (v'.events = v.events ∨
        ∃ text, ∃ approval ∈ v.approvals,
          v'.events = annotateEvents approval.requestEventSeq text v.events)) ∨
      (∃ event : EventRow, v'.events = v.events ++ [event] ∧
        event.eventSeq = v.row.nextEventSeq ∧ v'.row.nextEventSeq = v.row.nextEventSeq + 1) := by
  cases move with
  | touch _ row => exact Or.inl ⟨row.nextEventSeq, Or.inl rfl⟩
  | restart | beginStep | finishStep | saveTrace => exact Or.inl ⟨rfl, Or.inl rfl⟩
  | annotate known => exact Or.inl ⟨rfl, Or.inr ⟨_, _, known, rfl⟩⟩
  | append _ row | note _ row | cancel _ _ row | cancelWaiting _ _ _ row | pause _ row
  | pauseWaiting _ _ row | resume _ row | transit _ _ _ row | claim _ _ _ _ _ row
  | expire _ _ row | restartWaiting _ row | restartRunning _ row | unknown _ row
  | ask _ _ _ _ row | resolve _ _ _ _ row | resolveQueued _ _ _ _ row =>
    exact Or.inr ⟨_, rfl, rfl, row.nextEventSeq⟩

theorem Move.journal (move : Move s op v v') :
    (v'.events.map EventRow.eventSeq = v.events.map EventRow.eventSeq ∧
        v'.row.nextEventSeq = v.row.nextEventSeq) ∨
      (∃ event : EventRow, v'.events = v.events ++ [event] ∧
        event.eventSeq = v.row.nextEventSeq ∧ v'.row.nextEventSeq = v.row.nextEventSeq + 1) := by
  rcases move.events with ⟨counter, same | ⟨text, approval, -, annotated⟩⟩ | added
  · exact Or.inl ⟨congrArg _ same, counter⟩
  · rw [annotated]
    exact Or.inl ⟨annotateEvents_seqs _ _ _, counter⟩
  · exact Or.inr added

theorem Move.identity (move : Move s op v v') : v'.row.identity = v.row.identity := by
  cases move with
  | restart | beginStep | finishStep | saveTrace | annotate => rfl
  | touch _ row | append _ row | note _ row | cancel _ _ row | cancelWaiting _ _ _ row
  | pause _ row | pauseWaiting _ _ row | resume _ row | transit _ _ _ row | claim _ _ _ _ _ row
  | expire _ _ row | restartWaiting _ row | restartRunning _ row | unknown _ row
  | ask _ _ _ _ row | resolve _ _ _ _ row | resolveQueued _ _ _ _ row => exact row.identity

variable {row row' : TaskRow}

theorem identity_principal (h : row'.identity = row.identity) :
    row'.principalId = row.principalId := congrArg TaskIdentity.principalId h

theorem identity_session (h : row'.identity = row.identity) :
    row'.sessionHandle = row.sessionHandle := congrArg TaskIdentity.sessionHandle h

theorem identity_taskId (h : row'.identity = row.identity) :
    row'.taskId = row.taskId := congrArg TaskIdentity.taskId h

end Moves

def Numbered (v : TaskView) : Prop :=
  1 ≤ v.row.nextEventSeq ∧ v.events.map EventRow.eventSeq = List.range' 1 (v.row.nextEventSeq - 1)

variable {s : Store}

theorem Move.numbered {op : Op} {v v' : TaskView} (move : Move s op v v') (h : Numbered v) :
    Numbered v' := by
  obtain ⟨positive, numbers⟩ := h
  rcases move.journal with ⟨same, counter⟩ | ⟨event, appended, seq, counter⟩
  · rw [Numbered, same, counter]
    exact ⟨positive, numbers⟩
  · refine ⟨by omega, ?_⟩
    have longer : v.row.nextEventSeq + 1 - 1 = (v.row.nextEventSeq - 1) + 1 := by omega
    have last : 1 + (v.row.nextEventSeq - 1) = v.row.nextEventSeq := by omega
    rw [appended, List.map_append, numbers, counter, longer, List.range'_1_concat, last,
      List.map_singleton, seq]

def StepsOwned (v : TaskView) : Prop := ∀ step ∈ v.steps, step.principalId = v.row.principalId

theorem Move.stepsOwned {op : Op} {v v' : TaskView} (move : Move s op v v') (h : StepsOwned v) :
    StepsOwned v' := by
  have owner := identity_principal move.identity
  have mapped : ∀ {f : ToolStepRow → ToolStepRow}, (∀ row, (f row).principalId = row.principalId) →
      ∀ step ∈ v.steps.map f, step.principalId = v.row.principalId := by
    intro f keep step member
    obtain ⟨row, present, rfl⟩ := List.mem_map.mp member
    rw [keep]
    exact h row present
  intro step member
  rw [owner]
  cases move with
  | beginStep _ mine _ =>
    rcases List.mem_concat.mp member with old | new
    · exact h step old
    · rw [new]
      exact mine
  | restart | restartWaiting | restartRunning | unknown | finishStep =>
    exact mapped (by intro row; split <;> rfl) step member
  | _ => exact h step member

/-- The feed ids increase with insertion, below the counter. -/
structure FeedSound (s : Store) : Prop where
  increasing : (s.feed.rows.map FeedRow.feedEventId).Pairwise (· < ·)
  bounded : ∀ row ∈ s.feed.rows, row.feedEventId ≤ s.feedSequence

theorem FeedGrows.sound {s' : Store} (grows : FeedGrows s s') (h : FeedSound s) : FeedSound s' := by
  obtain ⟨added, rows, sorted, bound⟩ := grows.rows
  have counter := grows.counter
  constructor
  · rw [rows, List.map_append, List.pairwise_append]
    refine ⟨h.increasing, sorted, ?_⟩
    intro a member b other
    obtain ⟨row, present, rfl⟩ := List.mem_map.mp member
    obtain ⟨row', new, rfl⟩ := List.mem_map.mp other
    have upper := h.bounded row present
    have lower := (bound row' new).1
    omega
  · intro row member
    rw [rows] at member
    rcases List.mem_append.mp member with old | new
    · have upper := h.bounded row old
      omega
    · exact (bound row new).2

def TaskIdentity.requestKey (id : TaskIdentity) : String × String :=
  (id.principalId, id.clientRequestId)

def RequestsUnique (s : Store) : Prop :=
  ((s.tasks.rows.map TaskRow.identity).map TaskIdentity.requestKey).Nodup

theorem IdentitiesGrow.requestsUnique {s' : Store} (grow : IdentitiesGrow s s')
    (h : RequestsUnique s) : RequestsUnique s' := by
  unfold RequestsUnique at h ⊢
  rcases grow with same | ⟨born, appended, fresh⟩
  · rw [same]
    exact h
  · rw [appended]
    apply Table.keyed_append h
    intro member
    obtain ⟨old, present, same⟩ := List.mem_map.mp member
    exact fresh old present (by simpa [TaskIdentity.requestKey] using same)

structure Sound (s : Store) : Prop where
  rooted : Rooted s
  numbered : Everywhere Numbered s
  stepsOwned : Everywhere StepsOwned s
  feed : FeedSound s
  requests : RequestsUnique s

section Runs

variable {env : Env} {s s' : Store} {op : Op}
  (sessions : Table SessionRow.sessionHandle) (definitions : Table DefinitionRow.taskId)
  (executions : Table ExecutionRow.executionId)

theorem initial_everywhere (P : TaskView → Prop) :
    Everywhere P (Store.initial sessions definitions executions) := by
  intro taskId v seen
  cases seen

theorem initial_sound : Sound (Store.initial sessions definitions executions) where
  rooted _ _ := rfl
  numbered := initial_everywhere sessions definitions executions Numbered
  stepsOwned := initial_everywhere sessions definitions executions StepsOwned
  feed := ⟨List.Pairwise.nil, by intro row member; cases member⟩
  requests := List.nodup_nil

theorem Sound.kept (sound : Sound s) (h : step env s op = some s') : Sound s' := by
  have refines := step_refines sound.rooted h
  refine ⟨refines.rooted sound.rooted, ?_, ?_, refines.feed.sound sound.feed,
    refines.identities.requestsUnique sound.requests⟩
  · apply refines.everywhere _ (fun _ _ move => move.numbered) sound.numbered
    intro now row row' _ first change
    have counter := change.nextEventSeq
    rw [first] at counter
    refine ⟨by rw [bornView, counter]; omega, ?_⟩
    rw [bornView, counter]
    simp [TaskRow.event, first]
  · apply refines.everywhere _ (fun _ _ move => move.stepsOwned) sound.stepsOwned
    intro now row row' _ _ _ step member
    cases member

theorem final_sound (ops : List Op) :
    Sound (Transition.final (step env) (Store.initial sessions definitions executions) ops) :=
  Transition.final_invariant (fun _ _ _ sound taken => sound.kept taken)
    (initial_sound sessions definitions executions) ops

end Runs

end Knoa.Tasks
