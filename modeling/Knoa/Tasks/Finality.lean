import Knoa.Tasks.Invariants

/-!
# Terminal finality

A terminal Task is left alone by every call except a review note, which rewrites
the reason inside the request it reviews. Its journal ends with the event of its state.
-/
namespace Knoa.Tasks
open Relational (Table)
open Transition (final)

/-- The call does not journal a terminal event of its caller's choice. -/
def ReservesTerminal : Op → Prop
  | .appendEvent _ _ _ eventType _ => eventType.isTerminal = false
  | _ => True

/-- The call does not rewrite a review note. -/
def KeepsReviews : Op → Prop
  | .annotateApprovalReview .. => False
  | _ => True

def EventRow.withoutReview (event : EventRow) : EventRow :=
  if event.eventType = .approvalRequested then
    { event with payload := { event.payload with reason := "" } }
  else event

def terminalEvents (events : List EventRow) : List EventRow :=
  events.filter (fun event => event.eventType.isTerminal)

section Reviews

def RequestsJournaled (v : TaskView) : Prop :=
  ∀ approval ∈ v.approvals, approval.requestEventSeq < v.row.nextEventSeq ∧
    ∀ event ∈ v.events, event.eventSeq = approval.requestEventSeq →
      event.eventType = .approvalRequested

variable {s : Store} {op : Op} {v v' : TaskView}

theorem RequestsJournaled.carried (h : RequestsJournaled v) {approval old : ApprovalRow}
    (known : old ∈ v.approvals) (same : approval.requestEventSeq = old.requestEventSeq)
    (counter : v.row.nextEventSeq ≤ v'.row.nextEventSeq)
    (events : ∀ event ∈ v'.events, v.row.nextEventSeq ≤ event.eventSeq ∨
      ∃ old ∈ v.events, event.eventSeq = old.eventSeq ∧ event.eventType = old.eventType) :
    approval.requestEventSeq < v'.row.nextEventSeq ∧
      ∀ event ∈ v'.events, event.eventSeq = approval.requestEventSeq →
        event.eventType = .approvalRequested := by
  obtain ⟨below, requested⟩ := h old known
  refine ⟨by omega, ?_⟩
  intro event present seq
  rcases events event present with later | ⟨before, listed, number, type⟩
  · omega
  · rw [type]
    exact requested before listed (by omega)

theorem RequestsJournaled.mapped (h : RequestsJournaled v)
    (approvals : ∀ approval ∈ v'.approvals, ∃ old ∈ v.approvals,
      approval.requestEventSeq = old.requestEventSeq)
    (counter : v.row.nextEventSeq ≤ v'.row.nextEventSeq)
    (events : ∀ event ∈ v'.events, v.row.nextEventSeq ≤ event.eventSeq ∨
      ∃ old ∈ v.events, event.eventSeq = old.eventSeq ∧ event.eventType = old.eventType) :
    RequestsJournaled v' := by
  intro approval member
  obtain ⟨old, known, same⟩ := approvals approval member
  exact h.carried known same counter events

theorem kept_seqs {f : ApprovalRow → ApprovalRow} {approvals : List ApprovalRow}
    (keep : ∀ row, (f row).requestEventSeq = row.requestEventSeq) :
    ∀ approval ∈ approvals.map f, ∃ old ∈ approvals,
      approval.requestEventSeq = old.requestEventSeq := by
  intro approval member
  obtain ⟨old, known, rfl⟩ := List.mem_map.mp member
  exact ⟨old, known, keep old⟩

theorem kept_events {events : List EventRow} (bound : Nat) :
    ∀ event ∈ events, bound ≤ event.eventSeq ∨
      ∃ old ∈ events, event.eventSeq = old.eventSeq ∧ event.eventType = old.eventType :=
  fun event member => Or.inr ⟨event, member, rfl, rfl⟩

theorem appended_events {events : List EventRow} {new : EventRow} {bound : Nat}
    (number : bound ≤ new.eventSeq) : ∀ event ∈ events ++ [new], bound ≤ event.eventSeq ∨
      ∃ old ∈ events, event.eventSeq = old.eventSeq ∧ event.eventType = old.eventType := by
  intro event member
  rcases List.mem_concat.mp member with old | last
  · exact kept_events bound event old
  · rw [last]
    exact Or.inl number

theorem numbered_below (h : Numbered v) :
    ∀ event ∈ v.events, event.eventSeq < v.row.nextEventSeq := by
  intro event member
  have listed : event.eventSeq ∈ v.events.map EventRow.eventSeq := List.mem_map_of_mem member
  rw [h.2, List.mem_range'_1] at listed
  omega

theorem Move.requestsJournaled (move : Move s op v v') (numbered : Numbered v)
    (h : RequestsJournaled v) : RequestsJournaled v' := by
  have same : ∀ approval ∈ v.approvals, ∃ old ∈ v.approvals,
      approval.requestEventSeq = old.requestEventSeq :=
    fun approval member => ⟨approval, member, rfl⟩
  have counter : v.row.nextEventSeq ≤ v'.row.nextEventSeq := by
    rcases move.journal with ⟨-, number⟩ | ⟨-, -, -, number⟩ <;> omega
  have next : ∀ (type : TaskEventType) (payload : TaskEventPayload) (now : Time),
      v.row.nextEventSeq ≤ (v.row.event type payload now).eventSeq :=
    fun _ _ _ => Nat.le_refl _
  cases move with
  | touch | restart | beginStep | finishStep | saveTrace =>
    exact h.mapped same counter (kept_events _)
  | cancelWaiting | pauseWaiting | resolve | resolveQueued =>
    exact h.mapped (kept_seqs (by intro row; split <;> rfl)) counter (appended_events (next _ _ _))
  | annotate =>
    refine h.mapped (kept_seqs (by intro row; split <;> rfl)) counter ?_
    intro event member
    obtain ⟨old, known, rfl⟩ := List.mem_map.mp member
    exact Or.inr ⟨old, known, by split <;> rfl, by split <;> rfl⟩
  | ask _ _ _ _ row number =>
    intro approval member
    rcases List.mem_concat.mp member with old | new
    · exact h.carried old rfl counter (appended_events (next _ _ _))
    · rw [new]
      refine ⟨by rw [number, row.nextEventSeq]; omega, ?_⟩
      intro event present seq
      rcases List.mem_concat.mp present with earlier | last
      · have below := numbered_below numbered event earlier
        omega
      · rw [last]
        rfl
  | _ => exact h.mapped same counter (appended_events (next _ _ _))

end Reviews

section Settled

variable {s : Store} {op : Op} {v v' : TaskView}

/-- On a terminal Task only tool steps, the trace and review notes are written. -/
theorem Move.of_terminal (move : Move s op v v') (terminal : v.row.state.isTerminal = true) :
    v'.row = v.row ∧ (v'.events = v.events ∨
      ∃ principalId approvalId reason text approval,
        op = .annotateApprovalReview principalId approvalId reason ∧ approval ∈ v.approvals ∧
          v'.events = annotateEvents approval.requestEventSeq text v.events) := by
  have live : ∀ state, v.row.state = state → state.isTerminal = false → False := by
    intro state same nonterminal
    rw [same, nonterminal] at terminal
    cases terminal
  cases move with
  | restart | beginStep | finishStep | saveTrace => exact ⟨rfl, Or.inl rfl⟩
  | annotate known => exact ⟨rfl, Or.inr ⟨_, _, _, _, _, rfl, known, rfl⟩⟩
  | touch nonterminal | append nonterminal => exact (live _ rfl nonterminal).elim
  | note running | expire running | restartRunning running | unknown running | ask running =>
    exact (live _ running rfl).elim
  | cancel stopped =>
    rcases stopped with state | state <;> exact (live _ state rfl).elim
  | cancelWaiting waiting | pauseWaiting waiting | restartWaiting waiting | resolve waiting
  | resolveQueued waiting => exact (live _ waiting rfl).elim
  | pause queued | claim queued => exact (live _ queued rfl).elim
  | resume paused => exact (live _ paused rfl).elim
  | transit allowed =>
    rw [TaskState.transitions_of_terminal terminal] at allowed
    cases allowed

theorem annotateEvents_withoutReview {eventSeq : Nat} {text : String} {events : List EventRow}
    (requested : ∀ event ∈ events, event.eventSeq = eventSeq →
      event.eventType = .approvalRequested) :
    (annotateEvents eventSeq text events).map EventRow.withoutReview =
      events.map EventRow.withoutReview := by
  unfold annotateEvents
  rw [List.map_map]
  apply List.map_congr_left
  intro event member
  simp only [Function.comp]
  split
  · rename_i seq
    have type := requested event member seq
    simp only [EventRow.withoutReview, type, if_true]
  · rfl

/-- `v'` is the Task `v`, review notes apart. -/
structure Unchanged (v v' : TaskView) : Prop where
  row : v'.row = v.row
  journal : v'.events.map EventRow.withoutReview = v.events.map EventRow.withoutReview

theorem Move.unchanged (move : Move s op v v') (terminal : v.row.state.isTerminal = true)
    (journaled : RequestsJournaled v) :
    Unchanged v v' ∧ (KeepsReviews op → v'.events = v.events) := by
  obtain ⟨row, same | annotated⟩ := move.of_terminal terminal
  · exact ⟨⟨row, congrArg _ same⟩, fun _ => same⟩
  · obtain ⟨_, _, _, text, approval, rfl, known, events⟩ := annotated
    refine ⟨⟨row, ?_⟩, False.elim⟩
    rw [events]
    exact annotateEvents_withoutReview (journaled approval known).2

end Settled

section Endings

variable {s : Store} {op : Op} {v v' : TaskView}

def EndsNamed (v : TaskView) : Prop :=
  v.row.state.isTerminal = true →
    ∃ earlier last, v.events = earlier ++ [last] ∧ last.eventType = v.row.state.eventType ∧
      last.payload.state = some v.row.state

def EndsOnce (v : TaskView) : Prop :=
  (terminalEvents v.events).length = if v.row.state.isTerminal then 1 else 0

theorem terminalEvents_append (events : List EventRow) (event : EventRow) :
    (terminalEvents (events ++ [event])).length =
      (terminalEvents events).length + if event.eventType.isTerminal then 1 else 0 := by
  unfold terminalEvents
  rw [List.filter_append, List.length_append]
  cases type : event.eventType.isTerminal <;> simp [type]

theorem terminalEvents_annotate (eventSeq : Nat) (text : String) (events : List EventRow) :
    (terminalEvents (annotateEvents eventSeq text events)).length =
      (terminalEvents events).length := by
  unfold terminalEvents annotateEvents
  rw [List.filter_map, List.length_map]
  congr 1
  apply List.filter_congr
  intro event _
  simp only [Function.comp]
  split <;> rfl

theorem EndsOnce.kept (h : EndsOnce v) (row : v'.row = v.row)
    (events : (terminalEvents v'.events).length = (terminalEvents v.events).length) :
    EndsOnce v' := by
  rw [EndsOnce, events, row]
  exact h

theorem EndsOnce.appended {event : EventRow} (h : EndsOnce v)
    (live : v.row.state.isTerminal = false) (events : v'.events = v.events ++ [event])
    (agrees : event.eventType.isTerminal = v'.row.state.isTerminal) : EndsOnce v' := by
  have none : (terminalEvents v.events).length = 0 := by
    rw [EndsOnce, live] at h
    exact h
  rw [EndsOnce, events, terminalEvents_append, none, agrees, Nat.zero_add]

theorem Move.endsOnce (move : Move s op v v') (reserved : ReservesTerminal op)
    (h : EndsOnce v) : EndsOnce v' := by
  have appended : ∀ {state state' : TaskState} {event : EventRow}, v.row.state = state →
      state.isTerminal = false → v'.events = v.events ++ [event] → v'.row.state = state' →
        event.eventType.isTerminal = state'.isTerminal → EndsOnce v' := by
    intro state state' event before live events after agrees
    exact h.appended (by rw [before, live]) events (by rw [after, agrees])
  cases move with
  | touch _ row => rw [EndsOnce, row.state]; exact h
  | restart | beginStep | finishStep | saveTrace => exact h
  | annotate => exact h.kept rfl (terminalEvents_annotate _ _ _)
  | append live row => exact h.appended live rfl (reserved.trans (row.state ▸ live).symm)
  | note running row | expire running _ row | restartRunning running row | unknown running row
  | ask running _ _ _ row => exact appended running rfl rfl row.state rfl
  | cancel stopped _ row =>
    rcases stopped with queued | paused
    · exact appended queued rfl rfl row.state rfl
    · exact appended paused rfl rfl row.state rfl
  | cancelWaiting waiting _ _ row | pauseWaiting waiting _ row | restartWaiting waiting row
  | resolve waiting _ _ _ row | resolveQueued waiting _ _ _ row =>
    exact appended waiting rfl rfl row.state rfl
  | pause queued row | claim queued _ _ _ _ row => exact appended queued rfl rfl row.state rfl
  | resume paused row => exact appended paused rfl rfl row.state rfl
  | transit allowed _ _ row =>
    have live : v.row.state.isTerminal = false := by
      apply Bool.eq_false_iff.mpr
      intro terminal
      rw [TaskState.transitions_of_terminal terminal] at allowed
      cases allowed
    exact appended rfl live rfl row.state (TaskState.eventType_isTerminal _)

theorem annotateEvents_append (eventSeq : Nat) (text : String) (earlier : List EventRow)
    (last : EventRow) : ∃ last', annotateEvents eventSeq text (earlier ++ [last]) =
        annotateEvents eventSeq text earlier ++ [last'] ∧
      last'.eventType = last.eventType ∧ last'.payload.state = last.payload.state := by
  unfold annotateEvents
  rw [List.map_append]
  refine ⟨_, rfl, ?_, ?_⟩
  · dsimp only
    split <;> rfl
  · dsimp only
    split <;> rfl

theorem Move.endsNamed (move : Move s op v v') (h : EndsNamed v) : EndsNamed v' := by
  have live : ∀ {state : TaskState}, v'.row.state = state → state.isTerminal = false →
      EndsNamed v' := by
    intro state same nonterminal terminal
    rw [same, nonterminal] at terminal
    cases terminal
  cases move with
  | touch nonterminal row | append nonterminal row => exact live row.state nonterminal
  | restart | beginStep | finishStep | saveTrace => exact h
  | annotate =>
    intro terminal
    obtain ⟨earlier, last, events, type, state⟩ := h terminal
    obtain ⟨last', annotated, type', state'⟩ := annotateEvents_append _ _ earlier last
    rw [← events] at annotated
    exact ⟨_, last', annotated, type'.trans type, state'.trans state⟩
  | note _ row | pause _ row | pauseWaiting _ _ row | resume _ row | claim _ _ _ _ _ row
  | expire _ _ row | restartWaiting _ row | restartRunning _ row | unknown _ row
  | ask _ _ _ _ row | resolve _ _ _ _ row | resolveQueued _ _ _ _ row => exact live row.state rfl
  | cancel _ names row | cancelWaiting _ _ names row | transit _ _ names row =>
    intro _
    exact ⟨v.events, _, rfl, by rw [row.state]; rfl, by rw [row.state]; exact names⟩

end Endings

def EndingsNamed (s : Store) : Prop :=
  ∀ row ∈ s.tasks.rows, row.state.isTerminal = true →
    ∃ earlier last, s.eventsOf row.taskId = earlier ++ [last] ∧
      last.eventType = row.state.eventType ∧ last.payload.state = some row.state

def OneEnding (s : Store) : Prop :=
  ∀ row ∈ s.tasks.rows,
    (terminalEvents (s.eventsOf row.taskId)).length = if row.state.isTerminal then 1 else 0

instance (s : Store) : Decidable (OneEnding s) := by
  unfold OneEnding
  infer_instance

/-- The terminal Tasks of `s` stand in `s'`, review notes apart. -/
def TerminalKept (s s' : Store) : Prop :=
  ∀ row ∈ s.tasks.rows, row.state.isTerminal = true →
    row ∈ s'.tasks.rows ∧
      (s'.eventsOf row.taskId).map EventRow.withoutReview =
        (s.eventsOf row.taskId).map EventRow.withoutReview

/-- The journals of the terminal Tasks of `s` stand in `s'` to the letter. -/
def JournalsKept (s s' : Store) : Prop :=
  ∀ row ∈ s.tasks.rows, row.state.isTerminal = true → s'.eventsOf row.taskId = s.eventsOf row.taskId

section Runs

variable {env : Env} {s s' : Store} {op : Op}

structure Journaled (s : Store) : Prop where
  sound : Sound s
  requests : Everywhere RequestsJournaled s
  named : Everywhere EndsNamed s

theorem Journaled.kept (h : Journaled s) (taken : step env s op = some s') : Journaled s' := by
  have refines := step_refines h.sound.rooted taken
  refine ⟨h.sound.kept taken, ?_, ?_⟩
  · intro taskId v' after
    cases refines.changed taskId with
    | same slice => exact h.requests taskId v' (by rw [← view_of_slice slice, after])
    | moved before now_seen move =>
      rw [now_seen] at after
      cases after
      exact move.requestsJournaled (h.sound.numbered _ _ before) (h.requests _ _ before)
    | created _ _ _ _ _ now_seen =>
      rw [now_seen] at after
      cases after
      intro approval member
      cases member
  · refine refines.everywhere ?_ (fun _ _ move => move.endsNamed) h.named
    intro now row row' _ _ change terminal
    rw [bornView, change.state] at terminal
    cases terminal

theorem initial_journaled (sessions : Table SessionRow.sessionHandle)
    (definitions : Table DefinitionRow.taskId) (executions : Table ExecutionRow.executionId) :
    Journaled (Store.initial sessions definitions executions) where
  sound := initial_sound sessions definitions executions
  requests := initial_everywhere sessions definitions executions _
  named := initial_everywhere sessions definitions executions _

theorem endsOnce_kept (sound : Sound s) (h : Everywhere EndsOnce s) (reserved : ReservesTerminal op)
    (taken : step env s op = some s') : Everywhere EndsOnce s' := by
  have refines := step_refines sound.rooted taken
  refine refines.everywhere ?_ (fun _ _ move => move.endsOnce reserved) h
  intro now row row' _ _ change
  rw [EndsOnce, bornView, change.state]
  rfl

variable {taskId : String} {v : TaskView}

theorem terminal_kept (h : Journaled s) (taken : step env s op = some s')
    (seen : s.view taskId = some v) (terminal : v.row.state.isTerminal = true) :
    ∃ v', s'.view taskId = some v' ∧ Unchanged v v' ∧ (KeepsReviews op → v'.events = v.events) := by
  cases (step_refines h.sound.rooted taken).changed taskId with
  | same slice => exact ⟨v, (view_of_slice slice).trans seen, ⟨rfl, rfl⟩, fun _ => rfl⟩
  | moved before after move =>
    rw [seen] at before
    cases before
    exact ⟨_, after, move.unchanged terminal (h.requests _ _ seen)⟩
  | created absent =>
    rw [seen] at absent
    cases absent

theorem final_terminal (h : Journaled s) (seen : s.view taskId = some v)
    (terminal : v.row.state.isTerminal = true) (ops : List Op) :
    ∃ v', (final (step env) s ops).view taskId = some v' ∧ Unchanged v v' := by
  have kept : ∀ t op t', (Journaled t ∧ ∃ w, t.view taskId = some w ∧ Unchanged v w) →
      step env t op = some t' → Journaled t' ∧ ∃ w, t'.view taskId = some w ∧ Unchanged v w := by
    rintro t op t' ⟨journaled, w, found, unchanged⟩ taken
    have ended : w.row.state.isTerminal = true := by
      rw [unchanged.row]
      exact terminal
    obtain ⟨w', found', again, -⟩ := terminal_kept journaled taken found ended
    exact ⟨journaled.kept taken, w', found', again.row.trans unchanged.row,
      again.journal.trans unchanged.journal⟩
  exact (Transition.final_invariant kept ⟨h, v, seen, rfl, rfl⟩ ops).2

theorem final_terminal_journal (h : Journaled s) (seen : s.view taskId = some v)
    (terminal : v.row.state.isTerminal = true) {ops : List Op}
    (quiet : ∀ op ∈ ops, KeepsReviews op) :
    (final (step env) s ops).eventsOf taskId = v.events := by
  have kept : ∀ t op t', (Journaled t ∧ ∃ w, t.view taskId = some w ∧ w.row = v.row ∧
        w.events = v.events) → KeepsReviews op → step env t op = some t' →
      Journaled t' ∧ ∃ w, t'.view taskId = some w ∧ w.row = v.row ∧ w.events = v.events := by
    rintro t op t' ⟨journaled, w, found, row, events⟩ silent taken
    have ended : w.row.state.isTerminal = true := by
      rw [row]
      exact terminal
    obtain ⟨w', found', again, same⟩ := terminal_kept journaled taken found ended
    exact ⟨journaled.kept taken, w', found', again.row.trans row, (same silent).trans events⟩
  obtain ⟨-, w, found, -, events⟩ :=
    Transition.final_safe_of_allowed kept ⟨h, v, seen, rfl, rfl⟩ quiet
  rw [← view_events found]
  exact events

end Runs

theorem terminal_tasks_final (env : Env) (sessions : Table SessionRow.sessionHandle)
    (definitions : Table DefinitionRow.taskId) (executions : Table ExecutionRow.executionId)
    (ops later : List Op) (s : Store)
    (reached : s = final (step env) (Store.initial sessions definitions executions) ops) :
    TerminalKept s (final (step env) s later) ∧
      ((∀ op ∈ later, KeepsReviews op) → JournalsKept s (final (step env) s later)) ∧
      EndingsNamed s ∧
      ((∀ op ∈ ops, ReservesTerminal op) → OneEnding s) := by
  have start := initial_journaled sessions definitions executions
  have journaled : Journaled s := by
    rw [reached]
    exact Transition.final_invariant (fun _ _ _ h taken => h.kept taken) start ops
  refine ⟨?_, ?_, ?_, ?_⟩
  · intro row member terminal
    obtain ⟨v, seen, rfl⟩ := view_of_mem member
    obtain ⟨v', found, unchanged⟩ := final_terminal journaled seen terminal later
    have present := view_mem found
    rw [unchanged.row] at present
    rw [← view_events found, ← view_events seen]
    exact ⟨present, unchanged.journal⟩
  · intro quiet row member terminal
    obtain ⟨v, seen, rfl⟩ := view_of_mem member
    rw [final_terminal_journal journaled seen terminal quiet, view_events seen]
  · intro row member terminal
    obtain ⟨v, seen, rfl⟩ := view_of_mem member
    rw [← view_events seen]
    exact journaled.named _ v seen terminal
  · intro reserved row member
    have once : Everywhere EndsOnce s := by
      have kept : ∀ t op t', (Sound t ∧ Everywhere EndsOnce t) → ReservesTerminal op →
          step env t op = some t' → Sound t' ∧ Everywhere EndsOnce t' :=
        fun t op t' h allowed taken => ⟨h.1.kept taken, endsOnce_kept h.1 h.2 allowed taken⟩
      rw [reached]
      exact (Transition.final_safe_of_allowed kept
        ⟨start.sound, initial_everywhere sessions definitions executions _⟩ reserved).2
    obtain ⟨v, seen, rfl⟩ := view_of_mem member
    rw [← view_events seen]
    exact once _ v seen

/-- A Task runs to its end, and is asked to stop once more. -/
def completedTask : List Op :=
  [sampleCreate "t", .claimNext 0 "w" 60 "",
    .transition 1 "p" "t" .completed { finalSummary := "done" }]

theorem terminal_tasks_final_completed :
    TerminalKept (final (step sampleEnv) sampleStore completedTask)
      (final (step sampleEnv) (final (step sampleEnv) sampleStore completedTask)
        [.requestCancel 2 "p" "t" ""]) ∧
      JournalsKept (final (step sampleEnv) sampleStore completedTask)
        (final (step sampleEnv) (final (step sampleEnv) sampleStore completedTask)
          [.requestCancel 2 "p" "t" ""]) ∧
      OneEnding (final (step sampleEnv) sampleStore completedTask) := by
  obtain ⟨kept, journals, -, once⟩ := terminal_tasks_final sampleEnv sampleSessions .empty .empty
    completedTask [.requestCancel 2 "p" "t" ""] (final (step sampleEnv) sampleStore completedTask) rfl
  refine ⟨kept, journals ?_, once ?_⟩
  · intro op member
    rw [List.mem_singleton.mp member]
    exact True.intro
  · intro op member
    simp only [completedTask, List.mem_cons, List.not_mem_nil, or_false] at member
    rcases member with rfl | rfl | rfl <;> exact True.intro

/-- A caller journals "completed" for a Task that runs on. -/
def announcedCompletion : List Op :=
  [sampleCreate "t", .claimNext 0 "w" 60 "", .appendEvent 1 "p" "t" .completed {}]

theorem running_task_announces_completion :
    ¬ ∀ s ∈ Transition.trace (step sampleEnv) sampleStore announcedCompletion, OneEnding s := by
  intro along
  have last := along _ (Transition.mem_trace_final _ _)
  revert last
  decide +kernel

end Knoa.Tasks
