import Knoa.Library.Cursor
import Knoa.Tasks.Finality

/-!
# Following one Task

`events` replays the journal page by page, looks whether the Task is terminal, and then follows the
hub.
-/
namespace Knoa.Tasks
open Relational Transaction
open Transition (trace accepted)
open Cursor (after taken)

def listEvents (s : Store) (principalId taskId : String) (afterSeq : Int) (limit : Nat) :
    Except TaskError (List TaskEvent) := do
  require (0 ≤ afterSeq) (.value "after_seq must not be negative")
  require (1 ≤ limit ∧ limit ≤ 1000) (.value "Task event limit must be between 1 and 1000")
  let task ← getTask s principalId taskId
  let rows := (s.eventsOf task.taskId).filter (fun event => decide (afterSeq < event.eventSeq))
  return (rows.insertionSort (fun a b => a.eventSeq ≤ b.eventSeq)).take limit

inductive QueueItem
  | event (event : TaskEvent)
  | overflow (lastEventSeq : Int)
  deriving DecidableEq, Repr

/-- A `TaskEventSubscription`; the hub knows it while it is `listed`. -/
structure EventSubscription where
  taskId : String
  queue : List QueueItem := []
  listed : Bool := true
  deriving DecidableEq, Repr

/-- `publish`, for one subscription. -/
def EventSubscription.offer (capacity : Nat) (subscription : EventSubscription)
    (event : TaskEvent) : EventSubscription :=
  if subscription.listed ∧ event.taskId = subscription.taskId then
    if subscription.queue.length < capacity then
      { subscription with queue := subscription.queue ++ [.event event] }
    else { subscription with queue := [.overflow ((event.eventSeq : Int) - 1)], listed := false }
  else subscription

/-- What `events` does after the events it has at hand. -/
inductive StreamRead
  | page
  | check
  | receive
  deriving DecidableEq, Repr

inductive StreamPhase
  | opening
  | subscribing
  | reading (read : StreamRead)
  | yielding (page : List TaskEvent) (read : StreamRead)
  | filling (event : TaskEvent)
  | ended
  | raised (error : TaskError)
  | overflowed (lastEventSeq : Int)
  deriving DecidableEq

/-- One call of `events` with its local variables, and what it has yielded. `pagedAt`
is the Task's `next_event_seq` as of the last page. -/
structure EventStream where
  principalId : String
  taskId : String
  subscription : Option EventSubscription := none
  lastSeq : Int
  phase : StreamPhase := .opening
  yielded : List TaskEvent := []
  pagedAt : Nat := 0
  deriving DecidableEq

structure Streaming where
  store : Store
  stream : EventStream

inductive StreamAct
  | repository (op : Op)
  | publish (event : TaskEvent)
  | enter
  | subscribe
  | page
  | next
  | check
  | receive
  | fill

/-- The Task's `next_event_seq`. -/
def Store.nextEventSeq (s : Store) (taskId : String) : Nat :=
  ((s.tasks.lookup taskId).map TaskRow.nextEventSeq).getD 0

def Store.journal (s : Store) (taskId : String) : List TaskEvent :=
  (s.eventsOf taskId).map EventRow.withoutReview

namespace Streaming

def goTo (s : Streaming) (phase : StreamPhase) : Streaming :=
  { s with stream := { s.stream with phase } }

/-- `get` at the start of the call. -/
def enter (s : Streaming) : Streaming :=
  match getTask s.store s.stream.principalId s.stream.taskId with
  | .error e => s.goTo (.raised e)
  | .ok task => { s with stream := { s.stream with taskId := task.taskId, phase := .subscribing } }

def subscribe (s : Streaming) : Streaming :=
  if strip s.stream.taskId = "" then s.goTo (.raised (.value "task_id must not be empty"))
  else
    { s with stream :=
      { s.stream with
        subscription := some { taskId := strip s.stream.taskId }, phase := .reading .page } }

def nextEventSeq (s : Streaming) : Nat := s.store.nextEventSeq s.stream.taskId

def journal (s : Streaming) : List TaskEvent := s.store.journal s.stream.taskId

def page (s : Streaming) : Streaming :=
  match listEvents s.store s.stream.principalId s.stream.taskId s.stream.lastSeq 200 with
  | .error e => s.goTo (.raised e)
  | .ok [] =>
    { s with stream := { s.stream with phase := .reading .check, pagedAt := s.nextEventSeq } }
  | .ok page =>
    { s with stream :=
      { s.stream with
        phase := .yielding page (if page.length < 200 then .check else .page)
        pagedAt := s.nextEventSeq } }

/-- The consumer takes the next event at hand. -/
def yieldNext (s : Streaming) (event : TaskEvent) (rest : List TaskEvent) (read : StreamRead) :
    Streaming :=
  { s with stream :=
    { s.stream with
      lastSeq := event.eventSeq
      yielded := s.stream.yielded ++ [event]
      phase :=
        if event.eventType.isTerminal then .ended
        else if rest = [] then .reading read
        else .yielding rest read } }

def check (s : Streaming) : Streaming :=
  match getTask s.store s.stream.principalId s.stream.taskId with
  | .error e => s.goTo (.raised e)
  | .ok current => if current.state.isTerminal then s.goTo .ended else s.goTo (.reading .receive)

/-- `subscription.receive()` returns the first item of the queue. -/
def receive (s : Streaming) (subscription : EventSubscription) (item : QueueItem)
    (queue : List QueueItem) : Streaming :=
  let left : Streaming :=
    { s with stream := { s.stream with subscription := some { subscription with queue } } }
  match item with
  | .overflow lastEventSeq => left.goTo (.overflowed lastEventSeq)
  | .event event =>
    if event.eventSeq ≤ s.stream.lastSeq then left
    else if s.stream.lastSeq + 1 < event.eventSeq then left.goTo (.filling event)
    else left.goTo (.yielding [event] .receive)

def fill (s : Streaming) (event : TaskEvent) : Streaming :=
  match listEvents s.store s.stream.principalId s.stream.taskId s.stream.lastSeq
      (min 1000 ((event.eventSeq : Int) - s.stream.lastSeq).toNat) with
  | .error e => s.goTo (.raised e)
  | .ok missing =>
    match missing.takeWhile (fun persisted => persisted.eventSeq ≤ event.eventSeq) with
    | [] => s.goTo (.reading .receive)
    | first :: rest => s.goTo (.yielding (first :: rest) .receive)

def step (env : Env) (capacity : Nat) (s : Streaming) : StreamAct → Option Streaming
  | .repository op => (Tasks.step env s.store op).map (fun store => { s with store })
  | .publish event =>
    if event.withoutReview ∈ s.store.events.rows.map EventRow.withoutReview then
      some { s with stream :=
        { s.stream with
          subscription := s.stream.subscription.map (fun subscription =>
            subscription.offer capacity event) } }
    else none
  | .enter => if s.stream.phase = .opening then some s.enter else none
  | .subscribe => if s.stream.phase = .subscribing then some s.subscribe else none
  | .page => if s.stream.phase = .reading .page then some s.page else none
  | .next =>
    match s.stream.phase with
    | .yielding (event :: rest) read => some (s.yieldNext event rest read)
    | _ => none
  | .check => if s.stream.phase = .reading .check then some s.check else none
  | .receive =>
    if s.stream.phase = .reading .receive then
      match s.stream.subscription with
      | some subscription =>
        match subscription.queue with
        | item :: queue => some (s.receive subscription item queue)
        | [] => none
      | none => none
    else none
  | .fill =>
    match s.stream.phase with
    | .filling event => some (s.fill event)
    | _ => none

/-- A call of `events` that is about to start, over an empty repository. -/
def initial (sessions : Table SessionRow.sessionHandle) (definitions : Table DefinitionRow.taskId)
    (executions : Table ExecutionRow.executionId) (principalId taskId : String) (afterSeq : Int) :
    Streaming where
  store := .initial sessions definitions executions
  stream := { principalId, taskId, lastSeq := afterSeq }

end Streaming

def EventRow.number (event : EventRow) : Int := event.eventSeq

/-- What a subscriber has received: a part of the journal without gap or repetition,
and all of it once the call has ended normally, the terminal event included. -/
structure Delivered (start : Int) (s : Streaming) : Prop where
  inOrder : s.stream.yielded.map EventRow.withoutReview =
    taken EventRow.number s.journal start s.stream.lastSeq
  complete : s.stream.phase = .ended →
    s.stream.yielded.map EventRow.withoutReview = after EventRow.number s.journal start ∧
      ∃ row ∈ s.store.tasks.rows, row.taskId = s.stream.taskId ∧ row.state.isTerminal = true ∧
        ∃ last ∈ s.journal, last.eventType = row.state.eventType ∧
          (start < last.number → last ∈ s.stream.yielded.map EventRow.withoutReview)

/-- The Task is terminal, and nothing was appended to it since the last page was read. -/
def PageCurrent (s : Streaming) : Prop :=
  ∀ row ∈ s.store.tasks.rows, row.taskId = s.stream.taskId → row.state.isTerminal = true →
    row.nextEventSeq = s.stream.pagedAt

/-- No caller journals a terminal event, and no check finds a Task that ended after
the last page was read. -/
def EndsOnPage (s : Streaming) (act : StreamAct) : Prop :=
  match act with
  | .repository op => ReservesTerminal op
  | .check => PageCurrent s
  | _ => True

instance (op : Op) : Decidable (ReservesTerminal op) := by
  apply op.casesOn (motive := fun op => Decidable (ReservesTerminal op)) <;> intros <;>
    dsimp only [ReservesTerminal] <;> infer_instance

instance (s : Streaming) : Decidable (PageCurrent s) := by
  unfold PageCurrent
  infer_instance

instance (s : Streaming) (act : StreamAct) : Decidable (EndsOnPage s act) := by
  cases act <;> dsimp only [EndsOnPage] <;> infer_instance

section Journals

variable {env : Env} {s s' : Store} {op : Op} {taskId : String}

@[simp] theorem withoutReview_eventType (event : EventRow) :
    event.withoutReview.eventType = event.eventType := by
  unfold EventRow.withoutReview
  split <;> rfl

@[simp] theorem withoutReview_taskId (event : EventRow) :
    event.withoutReview.taskId = event.taskId := by
  unfold EventRow.withoutReview
  split <;> rfl

@[simp] theorem withoutReview_number (event : EventRow) :
    event.withoutReview.number = event.eventSeq := by
  unfold EventRow.withoutReview
  split <;> rfl

theorem journal_of_view {v : TaskView} (seen : s.view taskId = some v) :
    s.journal taskId = v.events.map EventRow.withoutReview ∧
      s.nextEventSeq taskId = v.row.nextEventSeq := by
  refine ⟨by rw [Store.journal, view_events seen], ?_⟩
  rw [Store.nextEventSeq, (view_eq_some_iff.mp seen).1]
  rfl

theorem journal_of_absent (rooted : Rooted s) (absent : s.view taskId = none) :
    s.journal taskId = [] ∧ s.nextEventSeq taskId = 0 := by
  have events : s.eventsOf taskId = [] := congrArg TaskSlice.events (rooted taskId absent)
  refine ⟨by rw [Store.journal, events]; rfl, ?_⟩
  rw [Store.nextEventSeq, view_none_iff.mp absent]
  rfl

theorem journal_numbers (sound : Sound s) (taskId : String) :
    (s.journal taskId).Pairwise (fun a b => a.number < b.number) ∧
      ∀ event ∈ s.journal taskId, event.number < s.nextEventSeq taskId := by
  cases seen : s.view taskId with
  | none =>
    obtain ⟨empty, -⟩ := journal_of_absent sound.rooted seen
    rw [empty]
    exact ⟨List.Pairwise.nil, fun event member => by cases member⟩
  | some v =>
    obtain ⟨journal, counter⟩ := journal_of_view seen
    have numbered := sound.numbered taskId v seen
    rw [journal, counter]
    constructor
    · have ordered : (v.events.map EventRow.eventSeq).Pairwise (· < ·) := by
        rw [numbered.2]
        exact List.pairwise_lt_range'
      rw [List.pairwise_map] at ordered ⊢
      refine ordered.imp ?_
      intro a b less
      rw [withoutReview_number, withoutReview_number]
      exact Int.ofNat_lt.mpr less
    · intro event member
      obtain ⟨stored, present, rfl⟩ := List.mem_map.mp member
      rw [withoutReview_number]
      exact Int.ofNat_lt.mpr (numbered_below numbered stored present)

theorem journal_extends (h : Journaled s) (taken : step env s op = some s') (taskId : String) :
    s.nextEventSeq taskId ≤ s'.nextEventSeq taskId ∧
      ∃ added, s'.journal taskId = s.journal taskId ++ added ∧
        ∀ event ∈ added, (s.nextEventSeq taskId : Int) ≤ event.number := by
  cases (step_refines h.sound.rooted taken).changed taskId with
  | same slice =>
    have events : s'.eventsOf taskId = s.eventsOf taskId := congrArg TaskSlice.events slice
    have row : s'.tasks.lookup taskId = s.tasks.lookup taskId := congrArg TaskSlice.row slice
    rw [Store.nextEventSeq, Store.nextEventSeq, Store.journal, Store.journal, events, row]
    exact ⟨le_refl _, [], (List.append_nil _).symm, fun event member => by cases member⟩
  | @moved v v' before after move =>
    obtain ⟨old, counter⟩ := journal_of_view before
    obtain ⟨new, counter'⟩ := journal_of_view after
    rw [old, counter, new, counter']
    rcases move.events with ⟨same, events⟩ | ⟨event, appended, seq, next⟩
    · refine ⟨same.ge, [], ?_, fun event member => by cases member⟩
      rw [List.append_nil]
      rcases events with kept | ⟨text, approval, known, annotated⟩
      · rw [kept]
      · rw [annotated]
        exact annotateEvents_withoutReview (h.requests taskId _ before approval known).2
    · refine ⟨by omega, [event.withoutReview], ?_, ?_⟩
      · rw [appended, List.map_append, List.map_singleton]
      · intro other member
        rw [List.mem_singleton.mp member, withoutReview_number, seq]
  | created absent =>
    obtain ⟨empty, zero⟩ := journal_of_absent h.sound.rooted absent
    rw [empty, zero]
    exact ⟨Nat.zero_le _, s'.journal taskId, rfl, fun event _ => Int.natCast_nonneg _⟩

theorem terminal_last (h : Journaled s) (once : Everywhere EndsOnce s) {event : TaskEvent}
    (member : event ∈ s.journal taskId) (terminal : event.eventType.isTerminal = true) :
    (∃ v, s.view taskId = some v ∧ v.row.state.isTerminal = true) ∧
      after EventRow.number (s.journal taskId) event.number = [] := by
  cases seen : s.view taskId with
  | none =>
    rw [(journal_of_absent h.sound.rooted seen).1] at member
    cases member
  | some v =>
    have journal := (journal_of_view seen).1
    rw [journal] at member
    obtain ⟨stored, present, rfl⟩ := List.mem_map.mp member
    rw [withoutReview_eventType] at terminal
    have listed : stored ∈ terminalEvents v.events := List.mem_filter.mpr ⟨present, terminal⟩
    have ended : v.row.state.isTerminal = true := by
      by_contra live
      have count := once taskId v seen
      rw [EndsOnce, if_neg live] at count
      rw [List.length_eq_zero_iff.mp count] at listed
      cases listed
    refine ⟨⟨v, rfl, ended⟩, ?_⟩
    obtain ⟨earlier, last, events, type, -⟩ := h.named taskId v seen ended
    have only : stored = last := by
      have count := once taskId v seen
      rw [EndsOnce, if_pos ended, events, terminalEvents_append, type,
        TaskState.eventType_isTerminal, ended, if_pos rfl] at count
      have none_earlier : terminalEvents earlier = [] := List.length_eq_zero_iff.mp (by omega)
      rw [events] at present
      rcases List.mem_concat.mp present with before | final
      · have kept : stored ∈ terminalEvents earlier := List.mem_filter.mpr ⟨before, terminal⟩
        rw [none_earlier] at kept
        cases kept
      · exact final
    have sorted := (journal_numbers h.sound taskId).1
    rw [after, List.filter_eq_nil_iff, journal]
    rw [journal, events, List.map_append, List.pairwise_append] at sorted
    intro other listed
    rw [decide_eq_true_eq, not_lt, only]
    rw [events, List.map_append] at listed
    rcases List.mem_concat.mp listed with before | final
    · exact (sorted.2.2 other before _ (List.mem_singleton.mpr rfl)).le
    · rw [final]

theorem getTask_ok {principalId : String} {task : TaskRecord}
    (h : getTask s principalId taskId = .ok task) :
    task.taskId = strip taskId ∧ s.tasks.lookup (strip taskId) = some task := by
  obtain ⟨principal, -, id, named, h⟩ := of_bind₂ h
  rw [normalizeIdentifier_ok named] at h
  have found := (ownedTask_ok_iff.mp h).1
  exact ⟨Table.lookup_key found, found⟩

theorem listEvents_page (sound : Sound s) {principalId : String} {afterSeq : Int} {limit : Nat}
    {page : List TaskEvent} (normal : strip taskId = taskId)
    (h : listEvents s principalId taskId afterSeq limit = .ok page) :
    1 ≤ limit ∧ page.map EventRow.withoutReview =
      (after EventRow.number (s.journal taskId) afterSeq).take limit := by
  obtain ⟨-, -, _, bound, task, found, h⟩ := of_bind₃ h
  cases h
  refine ⟨(require_ok_iff.mp bound).1, ?_⟩
  rw [(getTask_ok found).1, normal]
  have sorted : (s.eventsOf taskId).Pairwise (fun a b => a.eventSeq ≤ b.eventSeq) := by
    have ordered := (journal_numbers sound taskId).1
    rw [Store.journal, List.pairwise_map] at ordered
    refine ordered.imp ?_
    intro a b less
    rw [withoutReview_number, withoutReview_number] at less
    exact (Int.ofNat_lt.mp less).le
  rw [List.Pairwise.insertionSort_eq (sorted.filter _), List.map_take]
  congr 1
  rw [Store.journal, after, List.filter_map]
  congr 1
  apply List.filter_congr
  intro event _
  simp

end Journals

/-- The Task has been found, under its stored id. -/
def StreamPhase.named : StreamPhase → Bool
  | .opening | .raised _ => false
  | _ => true

/-- The events at hand, where a look at the Task comes after them. -/
def StreamPhase.beforeCheck : StreamPhase → Option (List TaskEvent)
  | .reading .check => some []
  | .yielding page .check => some page
  | _ => none

/-- The phases that hold no events and follow on no page. -/
def StreamPhase.idle : StreamPhase → Bool
  | .subscribing | .reading .page | .reading .receive | .filling _ | .raised _ | .overflowed _ => true
  | _ => false

theorem idle_beforeCheck {phase : StreamPhase} (idle : phase.idle = true) :
    phase.beforeCheck = none := by
  cases phase with
  | reading read =>
    cases read with
    | check => cases idle
    | page | receive => rfl
  | yielding => cases idle
  | _ => rfl

section Following

variable {env : Env} {capacity : Nat} {start : Int} {s s' : Streaming} {store : Store} {op : Op}

/-- A subscriber at work. What the journal held when the last page was read, it has
taken or has at hand. -/
structure FollowsTask (start : Int) (s : Streaming) : Prop where
  journaled : Journaled s.store
  once : Everywhere EndsOnce s.store
  normal : s.stream.phase.named = true → strip s.stream.taskId = s.stream.taskId
  fresh : s.stream.phase = .opening → s.stream.lastSeq = start ∧ s.stream.subscription = none
  begun : start ≤ s.stream.lastSeq
  bounded : s.stream.lastSeq = start ∨ s.stream.lastSeq < s.nextEventSeq
  inOrder : s.stream.yielded.map EventRow.withoutReview =
    taken EventRow.number s.journal start s.stream.lastSeq
  ahead : ∀ page read, s.stream.phase = .yielding page read →
    page.map EventRow.withoutReview <+: after EventRow.number s.journal s.stream.lastSeq
  paged : ∀ page, s.stream.phase.beforeCheck = some page → s.stream.pagedAt ≤ s.nextEventSeq ∧
    ∀ event ∈ s.journal, event.number < s.stream.pagedAt →
      event.number ≤ s.stream.lastSeq ∨ event ∈ page.map EventRow.withoutReview
  queued : ∀ subscription, s.stream.subscription = some subscription →
    subscription.taskId = s.stream.taskId ∧
      ∀ event, .event event ∈ subscription.queue → event.withoutReview ∈ s.journal
  finished : s.stream.phase = .ended →
    (∃ v, s.store.view s.stream.taskId = some v ∧ v.row.state.isTerminal = true) ∧
      after EventRow.number s.journal s.stream.lastSeq = []

section
variable (h : FollowsTask start s)
include h

theorem FollowsTask.repository (reserved : ReservesTerminal op)
    (called : Tasks.step env s.store op = some store) : FollowsTask start { s with store } := by
  obtain ⟨counter, added, grown, behind⟩ := journal_extends h.journaled called s.stream.taskId
  have kept : taken EventRow.number (store.journal s.stream.taskId) start s.stream.lastSeq =
      taken EventRow.number s.journal start s.stream.lastSeq := by
    rw [grown]
    rcases h.bounded with here | low
    · rw [here, Cursor.taken_self, Cursor.taken_self]
    · exact Cursor.taken_append (fun event member => low.trans_le (behind event member))
  refine ⟨h.journaled.kept called, endsOnce_kept h.journaled.sound h.once reserved called, h.normal,
    h.fresh, h.begun, ?_, h.inOrder.trans kept.symm, ?_, ?_, ?_, ?_⟩
  · exact h.bounded.imp_right (fun low => low.trans_le (Int.ofNat_le.mpr counter))
  · intro page read phase
    change _ <+: after EventRow.number (store.journal s.stream.taskId) s.stream.lastSeq
    rw [grown]
    exact Cursor.prefix_after_append (h.ahead page read phase)
  · intro page phase
    obtain ⟨bound, covered⟩ := h.paged page phase
    refine ⟨bound.trans counter, ?_⟩
    intro event member early
    change event ∈ store.journal s.stream.taskId at member
    rw [grown] at member
    rcases List.mem_append.mp member with old | new
    · exact covered event old early
    · have late := behind event new
      have bound : s.stream.pagedAt ≤ s.store.nextEventSeq s.stream.taskId := bound
      dsimp only at early
      omega
  · intro subscription subscribed
    obtain ⟨named, stored⟩ := h.queued subscription subscribed
    refine ⟨named, ?_⟩
    intro event member
    change event.withoutReview ∈ store.journal s.stream.taskId
    rw [grown]
    exact List.mem_append_left _ (stored event member)
  · intro phase
    obtain ⟨⟨v, seen, terminal⟩, none_left⟩ := h.finished phase
    obtain ⟨v', found, unchanged, -⟩ := terminal_kept h.journaled called seen terminal
    refine ⟨⟨v', found, by rw [unchanged.row]; exact terminal⟩, ?_⟩
    have same : store.journal s.stream.taskId = s.journal := by
      rw [(journal_of_view found).1, unchanged.journal]
      exact (journal_of_view seen).1.symm
    change after EventRow.number (store.journal s.stream.taskId) s.stream.lastSeq = []
    rw [same]
    exact none_left

theorem FollowsTask.publish {event : TaskEvent}
    (stored : event.withoutReview ∈ s.store.events.rows.map EventRow.withoutReview) :
    FollowsTask start { s with stream :=
      { s.stream with
        subscription := s.stream.subscription.map (fun subscription =>
          subscription.offer capacity event) } } := by
  refine ⟨h.journaled, h.once, h.normal, ?_, h.begun, h.bounded, h.inOrder, h.ahead, h.paged, ?_,
    h.finished⟩
  · intro phase
    obtain ⟨cursor, unsubscribed⟩ := h.fresh phase
    refine ⟨cursor, ?_⟩
    rw [unsubscribed]
    rfl
  · intro offered subscribed
    obtain ⟨subscription, before, rfl⟩ := Option.map_eq_some_iff.mp subscribed
    obtain ⟨named, queued⟩ := h.queued subscription before
    unfold EventSubscription.offer
    split
    · rename_i addressed
      split
      · refine ⟨named, ?_⟩
        intro other member
        rcases List.mem_append.mp member with old | new
        · exact queued other old
        · rw [List.mem_singleton, QueueItem.event.injEq] at new
          rw [new]
          obtain ⟨row, present, same⟩ := List.mem_map.mp stored
          have owner : row.taskId = event.taskId := by
            have taskIds := congrArg EventRow.taskId same
            rwa [withoutReview_taskId, withoutReview_taskId] at taskIds
          refine List.mem_map.mpr ⟨row, Table.mem_owned.mpr ⟨present, ?_⟩, same⟩
          rw [owner, addressed.2, named]
      · refine ⟨named, ?_⟩
        intro other member
        rw [List.mem_singleton] at member
        cases member
    · exact ⟨named, queued⟩

theorem FollowsTask.goTo {phase : StreamPhase} (idle : phase.idle = true)
    (normal : phase.named = true → strip s.stream.taskId = s.stream.taskId) :
    FollowsTask start (s.goTo phase) := by
  refine ⟨h.journaled, h.once, normal, ?_, h.begun, h.bounded, h.inOrder, ?_, ?_, h.queued, ?_⟩
  · rintro rfl
    cases idle
  · rintro page read rfl
    cases idle
  · intro page before
    change phase.beforeCheck = some page at before
    rw [idle_beforeCheck idle] at before
    cases before
  · rintro rfl
    cases idle

theorem FollowsTask.yielding {page : List TaskEvent} {read : StreamRead}
    {pagedAt : Nat} (normal : strip s.stream.taskId = s.stream.taskId)
    (ahead : page.map EventRow.withoutReview <+: after EventRow.number s.journal s.stream.lastSeq)
    (paged : read = .check → pagedAt ≤ s.nextEventSeq ∧ page.map EventRow.withoutReview =
      after EventRow.number s.journal s.stream.lastSeq) : FollowsTask start { s with stream :=
      { s.stream with phase := .yielding page read, pagedAt } } := by
  refine ⟨h.journaled, h.once, fun _ => normal, by simp, h.begun, h.bounded, h.inOrder, ?_, ?_,
    h.queued, by simp⟩
  · rintro _ _ ⟨⟩
    exact ahead
  · intro held before
    cases read with
    | page | receive => cases before
    | check =>
      cases before
      obtain ⟨bound, whole⟩ := paged rfl
      refine ⟨bound, ?_⟩
      intro event member _
      rw [whole]
      by_cases seen : event.number ≤ s.stream.lastSeq
      · exact Or.inl seen
      · exact Or.inr (Cursor.mem_after.mpr ⟨member, not_le.mp seen⟩)

theorem FollowsTask.page
    (normal : strip s.stream.taskId = s.stream.taskId) : FollowsTask start s.page := by
  unfold Streaming.page
  split
  · exact h.goTo rfl (by simp [StreamPhase.named])
  · rename_i listed
    obtain ⟨-, empty⟩ := listEvents_page h.journaled.sound normal listed
    refine ⟨h.journaled, h.once, fun _ => normal, by simp, h.begun, h.bounded, h.inOrder, by simp,
      ?_, h.queued, by simp⟩
    rintro _ ⟨⟩
    refine ⟨le_refl _, ?_⟩
    intro event member _
    refine Or.inl (not_lt.mp ?_)
    intro unseen
    have left : event ∈ after EventRow.number s.journal s.stream.lastSeq :=
      Cursor.mem_after.mpr ⟨member, unseen⟩
    rw [List.map_nil] at empty
    rw [Streaming.journal, (List.take_eq_nil_iff.mp empty.symm).resolve_left (by omega)] at left
    cases left
  · rename_i page _ listed
    obtain ⟨-, next⟩ := listEvents_page h.journaled.sound normal listed
    refine h.yielding normal (by rw [next]; exact List.take_prefix _ _) ?_
    intro last
    refine ⟨le_refl _, ?_⟩
    have short : page.length < 200 := by
      by_contra full
      rw [if_neg full] at last
      cases last
    have size := congrArg List.length next
    rw [List.length_map, List.length_take] at size
    rw [next, List.take_of_length_le (by omega)]
    rfl

theorem FollowsTask.yieldNext {event : TaskEvent} {rest : List TaskEvent} {read : StreamRead}
    (phase : s.stream.phase = .yielding (event :: rest) read) :
    FollowsTask start (s.yieldNext event rest read) := by
  have sorted := journal_numbers h.journaled.sound s.stream.taskId
  have page := h.ahead _ _ phase
  rw [List.map_cons] at page
  obtain ⟨took, left⟩ := Cursor.taken_prefix sorted.1 h.begun page
  obtain ⟨member, unseen⟩ := Cursor.mem_after.mp (page.subset List.mem_cons_self)
  have below := sorted.2 _ member
  rw [withoutReview_number] at took left unseen below
  have later : s.stream.lastSeq ≤ event.eventSeq := unseen.le
  have normal : strip s.stream.taskId = s.stream.taskId := h.normal (by rw [phase]; rfl)
  refine ⟨h.journaled, h.once, fun _ => normal, ?_, h.begun.trans later, Or.inr below, ?_, ?_, ?_,
    h.queued, ?_⟩
  · intro opening
    dsimp only [Streaming.yieldNext] at opening
    split at opening
    · cases opening
    · split at opening <;> cases opening
  · change (s.stream.yielded ++ [event]).map EventRow.withoutReview = _
    rw [List.map_append, h.inOrder, List.map_singleton]
    exact took.symm
  · intro held next again
    dsimp only [Streaming.yieldNext] at again
    split at again
    · cases again
    · split at again <;> cases again
      exact left
  · intro held before
    have same : StreamPhase.beforeCheck (.yielding (event :: rest) read) = some (event :: rest) ∧
        held = rest := by
      dsimp only [Streaming.yieldNext] at before
      split at before
      · cases before
      · split at before
        · rename_i empty
          cases read <;> cases before
          exact ⟨rfl, empty.symm⟩
        · cases read <;> cases before
          exact ⟨rfl, rfl⟩
    rw [← phase] at same
    obtain ⟨bound, covered⟩ := h.paged _ same.1
    refine ⟨bound, ?_⟩
    intro other listed early
    rw [same.2]
    rcases covered other listed early with old | held
    · exact Or.inl (old.trans later)
    · rw [List.map_cons] at held
      rcases List.mem_cons.mp held with rfl | rest
      · exact Or.inl (withoutReview_number event).le
      · exact Or.inr rest
  · intro ended
    dsimp only [Streaming.yieldNext] at ended
    split at ended
    · rename_i terminal
      have last := terminal_last h.journaled h.once member (by simpa using terminal)
      rwa [withoutReview_number] at last
    · split at ended <;> cases ended

theorem FollowsTask.check (phase : s.stream.phase = .reading .check)
    (current : PageCurrent s) : FollowsTask start s.check := by
  have normal : strip s.stream.taskId = s.stream.taskId := h.normal (by rw [phase]; rfl)
  unfold Streaming.check
  split
  · exact h.goTo rfl (by simp [StreamPhase.named])
  · rename_i task found
    obtain ⟨named, stored⟩ := getTask_ok found
    rw [normal] at named stored
    split
    · rename_i terminal
      refine ⟨h.journaled, h.once, fun _ => normal, by simp [Streaming.goTo], h.begun, h.bounded,
        h.inOrder, by simp [Streaming.goTo], ?_, h.queued, ?_⟩
      · nofun
      · intro _
        obtain ⟨v, seen, rfl⟩ := view_of_lookup stored
        refine ⟨⟨v, seen, terminal⟩, ?_⟩
        have counter : s.nextEventSeq = s.stream.pagedAt :=
          (journal_of_view seen).2.trans (current v.row (Table.lookup_mem stored) named terminal)
        obtain ⟨-, covered⟩ := h.paged [] (by rw [phase]; rfl)
        rw [after, List.filter_eq_nil_iff]
        intro event member
        have below := (journal_numbers h.journaled.sound s.stream.taskId).2 event member
        have seen := covered event member (by rw [← counter]; exact below)
        rw [decide_eq_true_eq, not_lt]
        exact seen.resolve_right (by simp)
    · exact h.goTo rfl (fun _ => normal)

theorem FollowsTask.receive (phase : s.stream.phase = .reading .receive)
    {subscription : EventSubscription} {item : QueueItem} {queue : List QueueItem}
    (subscribed : s.stream.subscription = some subscription)
    (items : subscription.queue = item :: queue) :
    FollowsTask start (s.receive subscription item queue) := by
  have normal : strip s.stream.taskId = s.stream.taskId := h.normal (by rw [phase]; rfl)
  obtain ⟨named, stored⟩ := h.queued subscription subscribed
  have left : FollowsTask start { s with stream :=
      { s.stream with subscription := some { subscription with queue } } } := by
    refine ⟨h.journaled, h.once, h.normal, ?_, h.begun, h.bounded, h.inOrder, h.ahead, h.paged, ?_,
      h.finished⟩
    · intro opening
      rw [phase] at opening
      cases opening
    · rintro _ ⟨⟩
      refine ⟨named, ?_⟩
      intro event member
      exact stored event (by rw [items]; exact List.mem_cons_of_mem _ member)
  unfold Streaming.receive
  split
  · exact left.goTo rfl (fun _ => normal)
  · rename_i event
    have member := stored event (by rw [items]; exact List.mem_cons_self)
    split
    · exact left
    · rename_i unseen
      split
      · exact left.goTo rfl (fun _ => normal)
      · apply left.yielding normal
        · refine Cursor.next_prefix (journal_numbers h.journaled.sound s.stream.taskId).1
            (Cursor.mem_after.mpr ⟨member, ?_⟩) ?_
          · rw [withoutReview_number]
            exact not_le.mp unseen
          · intro other _ later
            rw [withoutReview_number]
            have next : s.stream.lastSeq < other.number := later
            omega
        · nofun

theorem FollowsTask.fill {event : TaskEvent}
    (phase : s.stream.phase = .filling event) : FollowsTask start (s.fill event) := by
  have normal : strip s.stream.taskId = s.stream.taskId := h.normal (by rw [phase]; rfl)
  unfold Streaming.fill
  split
  · exact h.goTo rfl (by simp [StreamPhase.named])
  · rename_i missing listed
    obtain ⟨-, next⟩ := listEvents_page h.journaled.sound normal listed
    have ahead : missing.map EventRow.withoutReview <+:
        after EventRow.number s.journal s.stream.lastSeq := by
      rw [next]
      exact List.take_prefix _ _
    split
    · exact h.goTo rfl (fun _ => normal)
    · rename_i first rest split
      apply h.yielding normal
      · rw [← split]
        exact ((List.takeWhile_prefix _).map _).trans ahead
      · nofun

theorem FollowsTask.enter (phase : s.stream.phase = .opening) : FollowsTask start s.enter := by
  obtain ⟨cursor, unsubscribed⟩ := h.fresh phase
  unfold Streaming.enter
  split
  · exact h.goTo rfl (by simp [StreamPhase.named])
  · rename_i task found
    have none_yielded : s.stream.yielded.map EventRow.withoutReview = [] := by
      rw [h.inOrder, cursor, Cursor.taken_self]
    refine ⟨h.journaled, h.once, fun _ => ?_, by simp, h.begun, Or.inl cursor, ?_, by simp, ?_, ?_,
      by simp⟩
    · rw [(getTask_ok found).1, strip_strip]
    · rw [none_yielded, cursor, Cursor.taken_self]
    · nofun
    · intro subscription subscribed
      rw [unsubscribed] at subscribed
      cases subscribed

theorem FollowsTask.subscribe (phase : s.stream.phase = .subscribing) :
    FollowsTask start s.subscribe := by
  have normal : strip s.stream.taskId = s.stream.taskId := h.normal (by rw [phase]; rfl)
  unfold Streaming.subscribe
  split
  · exact h.goTo rfl (by simp [StreamPhase.named])
  · refine ⟨h.journaled, h.once, fun _ => normal, by simp, h.begun, h.bounded, h.inOrder, by simp,
      ?_, ?_, by simp⟩
    · nofun
    · rintro _ ⟨⟩
      refine ⟨normal, ?_⟩
      intro event member
      cases member

theorem FollowsTask.kept {act : StreamAct} (clean : EndsOnPage s act)
    (taken : s.step env capacity act = some s') : FollowsTask start s' := by
  cases act with
  | repository op =>
    obtain ⟨store, called, rfl⟩ := Option.map_eq_some_iff.mp taken
    exact h.repository clean called
  | publish event =>
    obtain ⟨stored, ⟨⟩⟩ := Option.ite_none_right_eq_some.mp taken
    exact h.publish stored
  | enter =>
    obtain ⟨phase, ⟨⟩⟩ := Option.ite_none_right_eq_some.mp taken
    exact h.enter phase
  | subscribe =>
    obtain ⟨phase, ⟨⟩⟩ := Option.ite_none_right_eq_some.mp taken
    exact h.subscribe phase
  | page =>
    obtain ⟨phase, ⟨⟩⟩ := Option.ite_none_right_eq_some.mp taken
    exact h.page (h.normal (by rw [phase]; rfl))
  | next =>
    unfold Streaming.step at taken
    dsimp only at taken
    split at taken <;> cases taken
    rename_i event rest read phase
    exact h.yieldNext phase
  | check =>
    obtain ⟨phase, ⟨⟩⟩ := Option.ite_none_right_eq_some.mp taken
    exact h.check phase clean
  | receive =>
    obtain ⟨phase, taken⟩ := Option.ite_none_right_eq_some.mp taken
    split at taken
    · rename_i subscription subscribed
      split at taken <;> cases taken
      rename_i item queue items
      exact h.receive phase subscribed items
    · cases taken
  | fill =>
    unfold Streaming.step at taken
    dsimp only at taken
    split at taken <;> cases taken
    rename_i event phase
    exact h.fill phase

theorem FollowsTask.delivered : Delivered start s := by
  refine ⟨h.inOrder, ?_⟩
  intro ended
  obtain ⟨⟨v, seen, terminal⟩, none_left⟩ := h.finished ended
  have all : s.stream.yielded.map EventRow.withoutReview =
      after EventRow.number s.journal start := h.inOrder.trans (Cursor.taken_eq_after none_left)
  refine ⟨all, v.row, view_mem seen, view_taskId seen, terminal, ?_⟩
  obtain ⟨earlier, last, events, type, -⟩ := h.journaled.named _ v seen terminal
  have listed : last.withoutReview ∈ s.journal := by
    rw [Streaming.journal, (journal_of_view seen).1, events]
    exact List.mem_map_of_mem (List.mem_concat_self)
  refine ⟨last.withoutReview, listed, by rw [withoutReview_eventType, type], ?_⟩
  intro wanted
  rw [all]
  exact Cursor.mem_after.mpr ⟨listed, wanted⟩

end

end Following

section Runs

theorem stream_delivers_journal (env : Env) (capacity : Nat)
    (sessions : Table SessionRow.sessionHandle) (definitions : Table DefinitionRow.taskId)
    (executions : Table ExecutionRow.executionId) (principalId taskId : String) (afterSeq : Int)
    (acts : List StreamAct) (clean : ∀ taken ∈ accepted (Streaming.step env capacity)
      (.initial sessions definitions executions principalId taskId afterSeq) acts,
      EndsOnPage taken.1 taken.2) : ∀ s ∈ trace (Streaming.step env capacity)
        (.initial sessions definitions executions principalId taskId afterSeq) acts,
      Delivered afterSeq s := by
  have opened : FollowsTask afterSeq
      (.initial sessions definitions executions principalId taskId afterSeq) :=
    { journaled := initial_journaled sessions definitions executions,
      once := initial_everywhere sessions definitions executions _, normal := nofun,
      fresh := fun _ => ⟨rfl, rfl⟩, begun := le_refl _, bounded := Or.inl rfl,
      inOrder := Cursor.taken_self.symm, ahead := nofun, paged := nofun, queued := nofun,
      finished := nofun }
  have kept : ∀ s act s', FollowsTask afterSeq s → EndsOnPage s act →
      Streaming.step env capacity s act = some s' → FollowsTask afterSeq s' :=
    fun _ _ _ follows clean taken => follows.kept clean taken
  intro s reached
  exact (Transition.trace_safe_of_clean kept opened clean s reached).delivered

end Runs

section Sample

/-- A subscriber to a Task of the sample repository. -/
def sampleStream : Streaming := .initial sampleSessions .empty .empty "p" "t" 0

/-- The Task ends before the page is read that turns out to be the last. -/
def endedBeforePage : List StreamAct :=
  [.repository (sampleCreate "t"), .enter, .subscribe, .repository (.claimNext 0 "w" 60 ""),
    .repository (.transition 1 "p" "t" .completed { finalSummary := "done" }), .page, .next, .next,
    .next]

theorem stream_delivers_journal_ended : Transition.Along (Delivered 0)
      (trace (Streaming.step sampleEnv 256) sampleStream endedBeforePage) :=
  stream_delivers_journal sampleEnv 256 sampleSessions .empty .empty "p" "t" 0 endedBeforePage
    (by decide +kernel)

/-- The Task ends after the last page was read, before the look at the Task. -/
def endedAfterPage : List StreamAct :=
  [.repository (sampleCreate "t"), .repository (.claimNext 0 "w" 60 ""), .enter, .subscribe, .page,
    .next, .next, .repository (.transition 1 "p" "t" .completed { finalSummary := "done" }), .check]

theorem stream_misses_terminal_event :
    ¬ ∀ s ∈ trace (Streaming.step sampleEnv 256) sampleStream endedAfterPage, Delivered 0 s := by
  intro delivered
  have last := delivered _ (Transition.mem_trace_final _ _)
  have ended : (Transition.final (Streaming.step sampleEnv 256) sampleStream
      endedAfterPage).stream.phase = .ended := by decide +kernel
  have all := (last.complete ended).1
  revert all
  decide +kernel

end Sample

end Knoa.Tasks
