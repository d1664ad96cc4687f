import Knoa.Library.Json
import Knoa.Library.Parties
import Knoa.Library.Transition

/-!
# The offline task queue

`storage/offlineTaskQueue.ts`: one file, read and written again by calls that do not wait for one
another.
-/
namespace Knoa.Mobile

def property (key : String) : Json → Option Json
  | .obj fields => (fields.find? fun field => field.1 == key).map Prod.snd
  | _ => none

def isString : Option Json → Bool
  | some (.str _) => true
  | _ => false

def isNumber : Option Json → Bool
  | some (.int _) => true
  | some (.float _) => true
  | _ => false

def isQueuedTask (item : Json) : Bool :=
  isString (property "queueId" item) && isNumber (property "createdAt" item) &&
    isString (property "goal" item) && isString (property "clientRequestId" item)

structure QueuedTask where
  item : Json
  valid : isQueuedTask item = true

def QueuedTask.queueId (task : QueuedTask) : String :=
  match property "queueId" task.item with
  | some (.str id) => id
  | _ => ""

def asQueuedTask (item : Json) : Option QueuedTask :=
  if valid : isQueuedTask item = true then some ⟨item, valid⟩ else none

/-- `slice(-20)` -/
def lastTwenty (items : List QueuedTask) : List QueuedTask := items.drop (items.length - 20)

/-- `loadOfflineTasks` over what `JSON.parse` makes of the file; `none` where there is no file or
no JSON in it. -/
def loadOfflineTasks : Option Json → List QueuedTask
  | some (.arr items) => lastTwenty (items.filterMap asQueuedTask)
  | _ => []

def written (items : List QueuedTask) : Option Json := some (.arr (items.map QueuedTask.item))

inductive Operation
  | load
  | enqueue (task : QueuedTask)
  | remove (queueId : String)

def Operation.isLoad : Operation → Bool
  | .load => true
  | _ => false

/-- A call, with what its `loadOfflineTasks` has returned. -/
structure QueueCall where
  operation : Operation
  loaded : Option (List QueuedTask) := none
  settled : Bool := false

def QueueCall.read (call : QueueCall) (items : List QueuedTask) : QueueCall :=
  { call with loaded := some items }

def QueueCall.settle (call : QueueCall) : QueueCall := { call with settled := true }

structure QueueState where
  file : Option Json := none
  calls : List QueueCall := []

inductive QueueLabel
  | call (operation : Operation)
  | read (call : Nat) (fails : Bool)
  | write (call : Nat) (fails : Bool)

/-- What a call that has read `loaded` leaves in the file. -/
def rewrite (loaded : List QueuedTask) (file : Option Json) : Operation → Option Json
  | .load => file
  | .enqueue queued => written (lastTwenty (loaded ++ [queued]))
  | .remove queueId =>
    let remaining := loaded.filter fun item => item.queueId != queueId
    if remaining.isEmpty then none else written remaining

def queueStep (s : QueueState) : QueueLabel → Option QueueState
  | .call operation => some { s with calls := s.calls ++ [{ operation := operation }] }
  | .read i fails => do
    let call ← s.calls[i]?
    guard (call.loaded.isNone)
    let items := if fails then [] else loadOfflineTasks s.file
    return { s with calls := s.calls.set i (call.read items) }
  | .write i fails => do
    let call ← s.calls[i]?
    let loaded ← call.loaded
    guard (!call.settled)
    return { file := if fails then s.file else rewrite loaded s.file call.operation
             calls := s.calls.set i call.settle }

/-- A record beside the run: the tasks that were enqueued and that no `removeOfflineTask` was
called for, the ids of those calls, what every load returned, with the tasks enqueued then, how
many enqueues have written, and how many had when a call read the file without an error. -/
structure Enqueued where
  tasks : List QueuedTask := []
  removed : List String := []
  loads : List (List QueuedTask × List QueuedTask) := []
  writes : Nat := 0
  readAt : Nat → Option Nat := fun _ => none

def Enqueued.remove (r : Enqueued) (queueId : String) : Enqueued :=
  { r with
    tasks := r.tasks.filter fun task => task.queueId != queueId, removed := queueId :: r.removed }

def Enqueued.add (r : Enqueued) (task : QueuedTask) : Enqueued :=
  if task.queueId ∈ r.removed then { r with writes := r.writes + 1 }
  else { r with tasks := r.tasks ++ [task], writes := r.writes + 1 }

def Enqueued.called (r : Enqueued) : Operation → Enqueued
  | .remove queueId => r.remove queueId
  | _ => r

def Enqueued.saw (r : Enqueued) (i : Nat) (fails : Bool) : Enqueued :=
  { r with readAt := Function.update r.readAt i (if fails then none else some r.writes) }

def Enqueued.read (r : Enqueued) (items : List QueuedTask) : Operation → Enqueued
  | .load => { r with loads := (items, r.tasks) :: r.loads }
  | _ => r

def Enqueued.wrote (r : Enqueued) : Operation → Enqueued
  | .enqueue task => r.add task
  | _ => r

def enqueuedNote (s : QueueState) (l : QueueLabel) (_ : QueueState) (r : Enqueued) : Enqueued :=
  match l with
  | .call operation => r.called operation
  | .read i fails =>
    match s.calls[i]? with
    | some call =>
      (r.saw i fails).read (if fails then [] else loadOfflineTasks s.file) call.operation
    | none => r
  | .write i fails =>
    match s.calls[i]? with
    | some call => if fails then r else r.wrote call.operation
    | none => r

def queueRun := Transition.recording queueStep enqueuedNote

/-- Every load has returned what was enqueued, and one that succeeds now would. -/
structure KeepsTasks (s : QueueState × Enqueued) : Prop where
  loads : ∀ load ∈ s.2.loads, ∀ task ∈ load.2, task ∈ load.1
  file : ∀ task ∈ s.2.tasks, task ∈ loadOfflineTasks s.1.file

/-- The read of the call has not failed, and no enqueue has written the file since. -/
def Current (r : Enqueued) (i : Nat) : Prop := r.readAt i = some r.writes

def Writable (r : Enqueued) (i : Nat) (loaded : List QueuedTask) : Operation → Prop
  | .load => True
  | .enqueue _ => Current r i ∧ loaded.length < 20
  | .remove _ => Current r i

/-- The condition on a step, where tasks are enqueued: the read of a load does not fail; a removal
that writes has a current read; so has an enqueue, which has read fewer than twenty tasks. -/
def QueueClean (s : QueueState × Enqueued) : QueueLabel → Prop
  | .call _ => True
  | .read i fails =>
    s.2.tasks ≠ [] → ∀ call ∈ s.1.calls[i]?, call.operation.isLoad = true → fails = false
  | .write i fails =>
    s.2.tasks ≠ [] → fails = false → ∀ call ∈ s.1.calls[i]?, ∀ loaded ∈ call.loaded,
      Writable s.2 i loaded call.operation

theorem asQueuedTask_item (task : QueuedTask) : asQueuedTask task.item = some task := by
  unfold asQueuedTask
  rw [dif_pos task.valid]

theorem filterMap_items (items : List QueuedTask) :
    (items.map QueuedTask.item).filterMap asQueuedTask = items := by
  induction items with
  | nil => rfl
  | cons task rest ih =>
    rw [List.map_cons, List.filterMap_cons, asQueuedTask_item, ih]

theorem length_lastTwenty (items : List QueuedTask) : (lastTwenty items).length ≤ 20 := by
  unfold lastTwenty
  rw [List.length_drop]
  omega

variable {items : List QueuedTask}

theorem lastTwenty_short (short : items.length ≤ 20) : lastTwenty items = items := by
  unfold lastTwenty
  rw [Nat.sub_eq_zero_of_le short, List.drop_zero]

theorem load_written (short : items.length ≤ 20) : loadOfflineTasks (written items) = items := by
  unfold loadOfflineTasks written
  dsimp only
  rw [filterMap_items, lastTwenty_short short]

theorem length_load (file : Option Json) : (loadOfflineTasks file).length ≤ 20 := by
  unfold loadOfflineTasks
  split
  · exact length_lastTwenty _
  · exact Nat.zero_le _

theorem mem_lastTwenty_last (items : List QueuedTask) (queued : QueuedTask) :
    queued ∈ lastTwenty (items ++ [queued]) := by
  unfold lastTwenty
  have kept : (items ++ [queued]).length - 20 ≤ items.length := by
    rw [List.length_append, List.length_singleton]
    omega
  rw [List.drop_append_of_le_length kept]
  exact List.mem_concat_self

theorem load_rewrite {loaded : List QueuedTask} (short : loaded.length ≤ 20) (file : Option Json) :
    ∀ operation : Operation, loadOfflineTasks (rewrite loaded file operation) =
      match operation with
      | .load => loadOfflineTasks file
      | .enqueue queued => lastTwenty (loaded ++ [queued])
      | .remove queueId => loaded.filter fun item => item.queueId != queueId
  | .load => rfl
  | .enqueue queued => load_written (length_lastTwenty _)
  | .remove queueId => by
    unfold rewrite
    dsimp only
    split
    next empty =>
      rw [List.isEmpty_iff.mp empty]
      rfl
    next =>
      have fewer := List.length_filter_le (fun item => item.queueId != queueId) loaded
      exact load_written (fewer.trans short)

variable {task : QueuedTask}

theorem mem_remove {r : Enqueued} {queueId : String} :
    task ∈ (r.remove queueId).tasks ↔ task ∈ r.tasks ∧ task.queueId ≠ queueId := by
  unfold Enqueued.remove
  rw [List.mem_filter, bne_iff_ne]

theorem mem_add {r : Enqueued} {added : QueuedTask} :
    task ∈ (r.add added).tasks ↔ task ∈ r.tasks ∨ task = added ∧ added.queueId ∉ r.removed := by
  unfold Enqueued.add
  split
  next called => simp [called]
  next open_ => simp [open_]

theorem add_kept (r : Enqueued) (added : QueuedTask) :
    (r.add added).removed = r.removed ∧ (r.add added).loads = r.loads ∧
      (r.add added).writes = r.writes + 1 ∧ (r.add added).readAt = r.readAt := by
  unfold Enqueued.add
  split <;> exact ⟨rfl, rfl, rfl, rfl⟩

/-- The invariant of clean runs: a call with a current read has read every enqueued task. -/
structure QueueInv (s : QueueState × Enqueued) : Prop extends KeepsTasks s where
  short : ∀ call ∈ s.1.calls, ∀ loaded ∈ call.loaded, loaded.length ≤ 20
  called : ∀ call ∈ s.1.calls, ∀ queueId, call.operation = .remove queueId → queueId ∈ s.2.removed
  open_ : ∀ task ∈ s.2.tasks, task.queueId ∉ s.2.removed
  past : ∀ i n, s.2.readAt i = some n → n ≤ s.2.writes
  covers : ∀ i, Current s.2 i → ∀ call ∈ s.1.calls[i]?, ∀ loaded ∈ call.loaded,
    ∀ task ∈ s.2.tasks, task ∈ loaded

section Steps

variable {s s' : QueueState} {r : Enqueued} {i : Nat} {fails : Bool}
  {loaded : List QueuedTask}

theorem read_inv (taken : queueStep s (.read i fails) = some s') :
    ∃ call, s.calls[i]? = some call ∧ s' =
      { s with
        calls := s.calls.set i (call.read (if fails then [] else loadOfflineTasks s.file)) } := by
  simp only [queueStep, Option.bind_eq_bind, Option.bind_eq_some_iff] at taken
  obtain ⟨call, stands, _, -, result⟩ := taken
  exact ⟨call, stands, (Option.some.inj result).symm⟩

theorem write_inv (taken : queueStep s (.write i fails) = some s') :
    ∃ call loaded, s.calls[i]? = some call ∧ call.loaded = some loaded ∧ s' =
      { file := if fails then s.file else rewrite loaded s.file call.operation
        calls := s.calls.set i call.settle } := by
  simp only [queueStep, Option.bind_eq_bind, Option.bind_eq_some_iff] at taken
  obtain ⟨call, stands, loaded, has, _, -, result⟩ := taken
  exact ⟨call, loaded, stands, has, (Option.some.inj result).symm⟩

theorem QueueInv.call (operation : Operation) (inv : QueueInv (s, r)) :
    QueueInv ({ s with calls := s.calls ++ [{ operation := operation }] }, r.called operation) := by
  have short := Parties.forall_append inv.short (b := { operation := operation }) nofun
  have read : ∀ (i : Nat) (call : QueueCall),
      (s.calls ++ [{ operation := operation }])[i]? = some call →
      call.loaded = none ∨ s.calls[i]? = some call := by
    intro i call there
    rcases Parties.getElem?_append_cases there with ⟨-, rfl⟩ | old
    · exact Or.inl rfl
    · exact Or.inr old
  have covers : ∀ i, Current r i →
      ∀ call ∈ (s.calls ++ [({ operation := operation } : QueueCall)])[i]?,
        ∀ loaded ∈ call.loaded, ∀ task ∈ r.tasks, task ∈ loaded := by
    intro i current call there loaded has
    rcases read i call there with unread | old
    · rw [unread] at has
      cases has
    · exact inv.covers i current call old loaded has
  cases operation with
  | load | enqueue task =>
    refine ⟨⟨inv.loads, inv.file⟩, short, Parties.forall_append inv.called ?_, inv.open_, inv.past,
      covers⟩
    intro _ other
    cases other
  | remove queueId =>
    have fewer : ∀ task ∈ (r.remove queueId).tasks, task ∈ r.tasks ∧ task.queueId ≠ queueId :=
      fun _ => mem_remove.mp
    refine ⟨⟨inv.loads, fun task member => inv.file task (fewer task member).1⟩, short,
      Parties.forall_append ?_ ?_, fun task member => ?_, inv.past,
      fun i current call there loaded has task member => ?_⟩
    · intro call member id operation
      exact List.mem_cons_of_mem _ (inv.called call member id operation)
    · intro id operation
      cases operation
      exact List.mem_cons_self
    · obtain ⟨old, other⟩ := fewer task member
      exact List.not_mem_cons_of_ne_of_not_mem other (inv.open_ task old)
    · exact covers i current call there loaded has task (fewer task member).1

variable {call : QueueCall}

theorem QueueInv.read (inv : QueueInv (s, r)) (stands : s.calls[i]? = some call)
    (clean : QueueClean (s, r) (.read i fails)) :
    QueueInv ({ s with
        calls := s.calls.set i (call.read (if fails then [] else loadOfflineTasks s.file)) },
      (r.saw i fails).read (if fails then [] else loadOfflineTasks s.file) call.operation) := by
  have seen : QueueInv ({ s with
      calls := s.calls.set i (call.read (if fails then [] else loadOfflineTasks s.file)) },
      r.saw i fails) := by
    refine ⟨⟨inv.loads, inv.file⟩, Parties.forall_set inv.short ?_, Parties.forall_set inv.called
      (inv.called call (List.mem_of_getElem? stands)), inv.open_, fun j n sees => ?_,
      fun j current other there loaded has task member => ?_⟩
    · rintro loaded ⟨⟩
      split
      · exact Nat.zero_le _
      · exact length_load s.file
    · by_cases same : j = i
      · subst same
        cases fails <;> simp_all [Enqueued.saw]
      · refine inv.past j n ?_
        simpa [Enqueued.saw, same] using sees
    · rcases Parties.getElem?_set_cases there with ⟨rfl, rfl⟩ | ⟨apart, old⟩
      · cases fails with
        | true => simp [Current, Enqueued.saw] at current
        | false =>
          cases has
          exact inv.file task member
      · refine inv.covers j ?_ other old loaded has task member
        simpa [Current, Enqueued.saw, Ne.symm apart] using current
  cases operation : call.operation with
  | enqueue task | remove queueId => exact seen
  | load =>
    refine ⟨⟨fun load member => ?_, seen.file⟩, seen.short, seen.called, seen.open_, seen.past,
      seen.covers⟩
    rcases List.mem_cons.mp member with rfl | old
    · intro task enqueued
      have nonempty : r.tasks ≠ [] := List.ne_nil_of_mem enqueued
      rw [clean nonempty call stands (by rw [operation]; rfl)]
      exact inv.file task enqueued
    · exact inv.loads load old

theorem QueueInv.settle (inv : QueueInv (s, r)) (stands : s.calls[i]? = some call) :
    QueueInv ({ s with calls := s.calls.set i call.settle }, r) := by
  have member := List.mem_of_getElem? stands
  refine ⟨⟨inv.loads, inv.file⟩, Parties.forall_set inv.short (inv.short call member),
    Parties.forall_set inv.called (inv.called call member), inv.open_, inv.past,
    fun j current other there => ?_⟩
  rcases Parties.getElem?_set_cases there with ⟨rfl, rfl⟩ | ⟨_, old⟩
  · exact inv.covers i current call stands
  · exact inv.covers j current other old

/-- What one enqueue leaves in the file: its own task, and the enqueued ones it has read. -/
theorem QueueInv.enqueue (inv : QueueInv (s, r)) (task : QueuedTask) (short : loaded.length ≤ 20)
    (keeps : ∀ other ∈ r.tasks, other ∈ lastTwenty (loaded ++ [task])) :
    QueueInv ({ s with file := rewrite loaded s.file (.enqueue task) }, r.add task) := by
  obtain ⟨removed, loads, writes, readAt⟩ := add_kept r task
  refine ⟨⟨?_, fun other member => ?_⟩, inv.short, ?_, fun other member => ?_, fun j n sees => ?_,
    fun j current => ?_⟩
  · exact loads ▸ inv.loads
  · rw [load_rewrite short]
    rcases mem_add.mp member with old | ⟨rfl, -⟩
    · exact keeps other old
    · exact mem_lastTwenty_last loaded other
  · exact removed ▸ inv.called
  · rw [removed]
    rcases mem_add.mp member with old | ⟨rfl, new⟩
    · exact inv.open_ other old
    · exact new
  · rw [writes]
    exact Nat.le_succ_of_le (inv.past j n (readAt ▸ sees))
  · -- a read made before this write is not current any more
    unfold Current at current
    rw [readAt, writes] at current
    exact absurd (inv.past j _ current) (Nat.not_succ_le_self _)

theorem queueInv_kept (s : QueueState × Enqueued) (l : QueueLabel) (s' : QueueState × Enqueued)
    (inv : QueueInv s) (clean : QueueClean s l) (taken : queueRun s l = some s') : QueueInv s' := by
  obtain ⟨q, r⟩ := s
  obtain ⟨q', r'⟩ := s'
  obtain ⟨stepped, noted⟩ := Transition.recording_eq_some_iff.mp taken
  dsimp only at stepped noted
  cases l with
  | call operation =>
    cases stepped
    rw [noted]
    exact inv.call operation
  | read i fails =>
    obtain ⟨call, stands, rfl⟩ := read_inv stepped
    simp only [enqueuedNote, stands] at noted
    rw [noted]
    exact inv.read stands clean
  | write i fails =>
    obtain ⟨call, loaded, stands, has, rfl⟩ := write_inv stepped
    simp only [enqueuedNote, stands] at noted
    rw [noted]
    have settled := inv.settle stands
    have short := inv.short call (List.mem_of_getElem? stands) loaded has
    cases fails with
    | true => exact settled
    | false =>
      have causes : r.tasks ≠ [] → _ := fun some_ => clean some_ rfl call stands loaded has
      simp only [Bool.false_eq_true, if_false]
      cases operation : call.operation with
      | load => exact settled
      | enqueue task =>
        rw [operation] at causes
        refine settled.enqueue task short fun other member => ?_
        obtain ⟨current, room⟩ := causes (List.ne_nil_of_mem member)
        rw [lastTwenty_short (by rw [List.length_append, List.length_singleton]; omega)]
        exact List.mem_append_left _ (inv.covers i current call stands loaded has other member)
      | remove queueId =>
        rw [operation] at causes
        refine { settled with file := fun other member => ?_ }
        have current := causes (List.ne_nil_of_mem member)
        have named : queueId ∈ r.removed :=
          inv.called call (List.mem_of_getElem? stands) queueId operation
        rw [load_rewrite short, List.mem_filter, bne_iff_ne]
        refine ⟨inv.covers i current call stands loaded has other member, ?_⟩
        rintro rfl
        exact inv.open_ other member named

end Steps

/-- Any run, from any file, keeps the enqueued tasks where its reads and writes are clean. -/
theorem offline_tasks_kept (file : Option Json) (labels : List QueueLabel)
    (clean : ∀ taken ∈ Transition.accepted queueRun ({ file := file }, {}) labels,
      QueueClean taken.1 taken.2) :
    ∀ t ∈ Transition.trace queueRun ({ file := file }, {}) labels, KeepsTasks t := by
  have inv : QueueInv ({ file := file }, {}) := by
    refine ⟨⟨fun _ member => ?_, fun _ member => ?_⟩, fun _ member => ?_, fun _ member => ?_,
      fun _ member => ?_, fun _ _ sees => ?_, fun _ current => ?_⟩
    · cases member
    · cases member
    · cases member
    · cases member
    · cases member
    · cases sees
    · cases current
  intro t member
  exact (Transition.trace_safe_of_clean queueInv_kept inv clean t member).toKeepsTasks

section Sample

instance (r : Enqueued) (i : Nat) (loaded : List QueuedTask) (operation : Operation) :
    Decidable (Writable r i loaded operation) :=
  match operation with
  | .load => isTrue trivial
  | .enqueue _ => inferInstanceAs (Decidable (r.readAt i = some r.writes ∧ loaded.length < 20))
  | .remove _ => inferInstanceAs (Decidable (r.readAt i = some r.writes))

instance (s : QueueState × Enqueued) (l : QueueLabel) : Decidable (QueueClean s l) :=
  match l with
  | .call _ => isTrue trivial
  | .read i fails => inferInstanceAs (Decidable (s.2.tasks ≠ [] →
      ∀ call ∈ s.1.calls[i]?, call.operation.isLoad = true → fails = false))
  | .write i fails => inferInstanceAs (Decidable (s.2.tasks ≠ [] → fails = false →
      ∀ call ∈ s.1.calls[i]?, ∀ loaded ∈ call.loaded, Writable s.2 i loaded call.operation))

def sampleTask (id : String) : QueuedTask where
  item := .obj [("queueId", .str id), ("createdAt", .int 0), ("goal", .str "goal"),
    ("clientRequestId", .str id)]
  valid := by rfl

def keptLabels : List QueueLabel :=
  [.call (.enqueue (sampleTask "a")), .call (.enqueue (sampleTask "b")), .call .load, .read 0 false,
    .write 0 false, .read 1 false, .read 2 false, .write 1 false, .call (.remove "a"), .call .load,
    .read 3 true, .write 3 true, .call (.remove "a"), .read 5 false, .read 4 false, .write 5 false]

/-- Two enqueues, a load between them, a removal that fails and is tried again. -/
theorem offline_tasks_kept_sample :
    let run := Transition.trace queueRun ({}, {}) keptLabels
    (∀ t ∈ run, KeepsTasks t) ∧
      run.getLast?.map (fun t => (t.2.loads.map fun load => load.1.map QueuedTask.queueId,
        (loadOfflineTasks t.1.file).map QueuedTask.queueId)) =
          some ([["a", "b"], ["a"]], ["b"]) :=
  ⟨offline_tasks_kept none keptLabels (by decide +kernel), by decide +kernel⟩

/-- Two tasks that are enqueued at one time: the second write has not read the first. -/
theorem enqueued_task_lost :
    let labels : List QueueLabel :=
      [.call (.enqueue (sampleTask "a")), .call (.enqueue (sampleTask "b")), .read 0 false,
        .read 1 false, .write 0 false, .write 1 false]
    let last := Transition.final queueRun ({}, {}) labels
    last.2.tasks.map QueuedTask.queueId = ["a", "b"] ∧
      (loadOfflineTasks last.1.file).map QueuedTask.queueId = ["b"] ∧ ¬KeepsTasks last := by
  intro labels last
  have run : last.2.tasks.map QueuedTask.queueId = ["a", "b"] ∧
      (loadOfflineTasks last.1.file).map QueuedTask.queueId = ["b"] := by decide +kernel
  refine ⟨run.1, run.2, fun keeps => ?_⟩
  have first : "a" ∈ last.2.tasks.map QueuedTask.queueId := run.1 ▸ List.mem_cons_self
  obtain ⟨task, enqueued, id⟩ := List.mem_map.mp first
  have there := List.mem_map_of_mem (f := QueuedTask.queueId) (keeps.file task enqueued)
  rw [run.2, id, List.mem_singleton] at there
  revert there
  decide

end Sample

end Knoa.Mobile
