import Knoa.Hub.WorkProjections

/-!
# When the projections of the work converge

A complete round writes every row that it may replace and prunes every row that it does not name.
-/
namespace Knoa.Hub

open Knoa.Tasks (Time JsonText)
open Relational (Table)
open Transition (final next_of_some)

section Rows

variable {rows : WorkTable} {nodeId : String} {now : Time}

def written (rows : WorkTable) (nodeId : String) (now : Time) (item : Projection) : WorkRow :=
  ((rows.lookup item.key).filter fun row =>
    decide (item.projectionSeq ≤ row.item.projectionSeq)).getD { nodeId, item, projectedAt := now }

theorem lookup_put (item : Projection) (key : WorkKind × String) :
    (putWorkProjection rows nodeId item now).lookup key =
      if item.key = key then some (written rows nodeId now item) else rows.lookup key := by
  unfold putWorkProjection written
  cases found : rows.lookup item.key with
  | none =>
    rw [Table.lookup_upsert]
    rfl
  | some existing =>
    dsimp only
    by_cases behind : item.projectionSeq ≤ existing.item.projectionSeq
    · rw [if_pos behind, Option.filter_some, if_pos (decide_eq_true behind), Option.getD_some]
      split
      next same => rw [← same, found]
      next => rfl
    · have ahead : ¬decide (item.projectionSeq ≤ existing.item.projectionSeq) = true := by
        simpa using behind
      rw [if_neg behind, Table.lookup_upsert, Option.filter_some, if_neg ahead, Option.getD_none]
      rfl

def putRequests (rows : WorkTable) (nodeId : String) (now : Time) (requests : List WorkRequest) :
    WorkTable :=
  requests.foldl (fun rows request => putRequest rows nodeId now request) rows

variable {items : List Projection}

theorem lookup_putRequests_other {key : WorkKind × String}
    (absent : key ∉ items.map Projection.key) :
    (putRequests rows nodeId now (items.map .publish)).lookup key = rows.lookup key := by
  induction items generalizing rows with
  | nil => rfl
  | cons item rest ih =>
    rw [List.map_cons, List.mem_cons, not_or] at absent
    have first : (putWorkProjection rows nodeId item now).lookup key = rows.lookup key := by
      rw [lookup_put, if_neg (Ne.symm absent.1)]
    exact (ih absent.2).trans first

theorem lookup_putRequests (distinct : (items.map Projection.key).Nodup) {item : Projection}
    (member : item ∈ items) : (putRequests rows nodeId now (items.map .publish)).lookup item.key =
      some (written rows nodeId now item) := by
  induction items generalizing rows with
  | nil => cases member
  | cons first rest ih =>
    rw [List.map_cons, List.nodup_cons] at distinct
    change (putRequests (putWorkProjection rows nodeId first now) nodeId now
      (rest.map .publish)).lookup item.key = _
    rcases List.mem_cons.mp member with rfl | later
    · rw [lookup_putRequests_other distinct.1, lookup_put, if_pos rfl]
    · have apart : first.key ≠ item.key := fun same =>
        distinct.1 (same ▸ List.mem_map_of_mem later)
      rw [ih distinct.2 later]
      unfold written
      rw [lookup_put, if_neg apart]

theorem mem_activeIds {key : WorkKind × String} :
    key.2 ∈ activeIds key.1 items ↔ key ∈ items.map Projection.key := by
  unfold activeIds
  rw [List.mem_map, List.mem_map]
  constructor
  · rintro ⟨item, member, same⟩
    obtain ⟨member, kind⟩ := List.mem_filter.mp member
    exact ⟨item, member, Prod.ext (beq_iff_eq.mp kind) same⟩
  · rintro ⟨item, member, rfl⟩
    exact ⟨item, List.mem_filter.mpr ⟨member, beq_self_eq_true _⟩, rfl⟩

def stale (nodeId principalId : String) (items : List Projection) (row : WorkRow) : Bool :=
  row.nodeId == nodeId && row.item.principalId == principalId &&
    !decide (row.key ∈ items.map Projection.key)

theorem lookup_workRequests (principalId : String) (items : List Projection)
    (key : WorkKind × String) :
    (putRequests rows nodeId now (workRequests principalId items)).lookup key =
      ((putRequests rows nodeId now (items.map .publish)).lookup key).filter
        fun row => !stale nodeId principalId items row := by
  have split : putRequests rows nodeId now (workRequests principalId items) =
      pruneWorkProjections (pruneWorkProjections (putRequests rows nodeId now
        (items.map .publish)) nodeId .conversation principalId (activeIds .conversation items))
          nodeId .task principalId (activeIds .task items) := by
    unfold putRequests workRequests
    rw [List.foldl_append]
    rfl
  rw [split]
  unfold pruneWorkProjections
  rw [Table.lookup_delete, Table.lookup_delete, Option.filter_filter]
  congr 1
  funext row
  have named := @mem_activeIds items row.key
  unfold stale
  cases kind : row.item.entityKind with
  | conversation =>
    have names : row.item.entityId ∈ activeIds .conversation items ↔
        row.key ∈ items.map Projection.key := by
      rw [← named, ← kind]
      rfl
    simp [names]
  | task =>
    have names : row.item.entityId ∈ activeIds .task items ↔
        row.key ∈ items.map Projection.key := by
      rw [← named, ← kind]
      rfl
    simp [names]

end Rows

section Listing

variable {launchKind : JsonText → String} {node : WorkNode} {principalId : String}

/-- What a round publishes. -/
def workItems (launchKind : JsonText → String) (node : WorkNode) (principalId : String) :
    List Projection :=
  conversationItems node principalId ++ taskItems launchKind node principalId

theorem listing_nodup {ρ κ : Type} {key : ρ → κ} {t : Table key} {p q : ρ → Bool}
    {newer : ρ → ρ → Prop} [DecidableRel newer] {limit : Nat} :
    (((((t.rows.filter p).insertionSort newer).take limit).filter q).map key).Nodup := by
  have sorted : (((t.rows.filter p).insertionSort newer).map key).Nodup :=
    ((List.perm_insertionSort newer _).map key).nodup_iff.mpr
      (t.keyed.sublist (List.filter_sublist.map key))
  exact sorted.sublist ((List.filter_sublist.trans (List.take_sublist _ _)).map key)

theorem mem_listing {ρ κ : Type} {key : ρ → κ} {t : Table key} {p q : ρ → Bool}
    {newer : ρ → ρ → Prop} [DecidableRel newer] {limit : Nat} {row : ρ}
    (member : row ∈ (((t.rows.filter p).insertionSort newer).take limit).filter q) :
    row ∈ t.rows ∧ (p row && q row) = true := by
  obtain ⟨listed, kept⟩ := List.mem_filter.mp member
  have sorted := List.mem_of_mem_take listed
  rw [List.mem_insertionSort, List.mem_filter] at sorted
  exact ⟨sorted.1, Bool.and_eq_true_iff.mpr ⟨sorted.2, kept⟩⟩

theorem workItems_nodup : ((workItems launchKind node principalId).map Projection.key).Nodup := by
  unfold workItems conversationItems taskItems
  rw [List.map_append, List.map_map, List.map_map, List.nodup_append]
  refine ⟨?_, ?_, ?_⟩
  · have keys : Projection.key ∘ conversationProjection node principalId =
        Prod.mk .conversation ∘ fun row => row.sessionHandle := rfl
    rw [keys, ← List.map_map]
    exact listing_nodup.map fun _ _ same => (Prod.mk.inj same).2
  · have keys : Projection.key ∘ taskProjection launchKind node principalId =
        Prod.mk .task ∘ fun row => row.taskId := rfl
    rw [keys, ← List.map_map]
    exact listing_nodup.map fun _ _ same => (Prod.mk.inj same).2
  · rintro _ first _ second rfl
    obtain ⟨conversation, -, named⟩ := List.mem_map.mp first
    obtain ⟨task, -, same⟩ := List.mem_map.mp second
    cases named.trans same.symm

theorem currentWork_key {key : WorkKind × String} {item : Projection}
    (current : currentWork launchKind node principalId key = some item) : item.key = key := by
  obtain ⟨kind, id⟩ := key
  cases kind with
  | conversation | task =>
    obtain ⟨row, found, rfl⟩ := Option.map_eq_some_iff.mp current
    have named := Table.lookup_key (Option.filter_eq_some_iff.mp found).1
    exact Prod.ext rfl named

theorem currentWork_of_listed {item : Projection}
    (member : item ∈ workItems launchKind node principalId) :
    currentWork launchKind node principalId item.key = some item ∧
      item.principalId = principalId := by
  rcases List.mem_append.mp member with listed | listed
  · obtain ⟨row, page, rfl⟩ := List.mem_map.mp listed
    obtain ⟨stands, kept⟩ := mem_listing page
    refine ⟨Option.map_eq_some_iff.mpr ⟨row, ?_, rfl⟩, rfl⟩
    exact Option.filter_eq_some_iff.mpr ⟨Table.lookup_of_mem stands, kept⟩
  · obtain ⟨row, page, rfl⟩ := List.mem_map.mp listed
    obtain ⟨stands, kept⟩ := mem_listing page
    refine ⟨Option.map_eq_some_iff.mpr ⟨row, ?_, rfl⟩, rfl⟩
    exact Option.filter_eq_some_iff.mpr ⟨Table.lookup_of_mem stands, kept⟩

end Listing

section Round

variable {launchKind : JsonText → String} {nodeId principalId : String} {s : WorkSystem}

theorem final_sends {rest : List WorkRequest} (sending : rest ≠ [] → s.round = .sending rest) :
    (final (workStep launchKind nodeId principalId) s
        (List.replicate rest.length (.send s.now .answered))).rows =
          putRequests s.rows nodeId s.now rest ∧
      (final (workStep launchKind nodeId principalId) s
        (List.replicate rest.length (.send s.now .answered))).node = s.node := by
  induction rest generalizing s with
  | nil => exact ⟨rfl, rfl⟩
  | cons next rest ih =>
    have here := sending (List.cons_ne_nil _ _)
    have received : receiveWork s.rows nodeId s.now s.now next =
        some (putRequest s.rows nodeId s.now next) := by
      unfold receiveWork
      rw [sub_self, abs_zero, if_neg (by norm_num)]
    have taken : workStep launchKind nodeId principalId s (.send s.now .answered) = some { s with
        rows := putRequest s.rows nodeId s.now next, sent := s.sent ++ [(s.now, next)],
        round := if rest.isEmpty then .idle else .sending rest } := by
      simp only [workStep, here, received]
    rw [List.length_cons, List.replicate_succ, final, next_of_some taken]
    refine ih fun more => if_neg ?_
    rw [List.isEmpty_iff]
    exact more

theorem completeRound_eq (idle : s.round = .idle) :
    (completeRound launchKind nodeId principalId s).rows =
        putRequests s.rows nodeId s.now
          (workRequests principalId (workItems launchKind s.node principalId)) ∧
      (completeRound launchKind nodeId principalId s).node = s.node := by
  have listed : workStep launchKind nodeId principalId s .listConversations =
      some { s with round := .listed (conversationItems s.node principalId) } := by
    simp only [workStep, idle]
  have sending : workStep launchKind nodeId principalId
      { s with round := .listed (conversationItems s.node principalId) } .listTasks = some { s with
        round := .sending (workRequests principalId (workItems launchKind s.node principalId)) } :=
    rfl
  unfold completeRound completeRoundLabels
  rw [List.cons_append, List.cons_append, List.nil_append, final, next_of_some listed, final,
    next_of_some sending]
  exact @final_sends launchKind nodeId principalId { s with
    round := .sending (workRequests principalId (workItems launchKind s.node principalId)) }
    (workRequests principalId (workItems launchKind s.node principalId)) fun _ => rfl

theorem hubWork_published (idle : s.round = .idle) {item : Projection}
    (member : item ∈ workItems launchKind s.node principalId) :
    hubWork nodeId principalId (completeRound launchKind nodeId principalId s).rows item.key =
      (Option.guard (fun row => row.nodeId == nodeId && row.item.principalId == principalId)
        (written s.rows nodeId s.now item)).map WorkRow.item := by
  have named : (written s.rows nodeId s.now item).key = item.key := by
    unfold written
    cases found : (s.rows.lookup item.key).filter fun row =>
        decide (item.projectionSeq ≤ row.item.projectionSeq) with
    | none => rfl
    | some row => exact Table.lookup_key (Option.filter_eq_some_iff.mp found).1
  have kept : stale nodeId principalId (workItems launchKind s.node principalId)
      (written s.rows nodeId s.now item) = false := by
    unfold stale
    rw [named, decide_eq_true (List.mem_map_of_mem member), Bool.not_true, Bool.and_false]
  unfold hubWork
  rw [(completeRound_eq idle).1, lookup_workRequests, lookup_putRequests workItems_nodup member,
    Option.filter_some, kept, Bool.not_false, if_pos rfl, Option.filter_some]
  rfl

theorem hubWork_unpublished (idle : s.round = .idle) {key : WorkKind × String}
    (absent : key ∉ (workItems launchKind s.node principalId).map Projection.key) :
    hubWork nodeId principalId (completeRound launchKind nodeId principalId s).rows key = none := by
  unfold hubWork
  rw [(completeRound_eq idle).1, lookup_workRequests, lookup_putRequests_other absent,
    Option.filter_filter, Option.map_eq_none_iff, Option.filter_eq_none_iff]
  intro row found
  have named := Table.lookup_key found
  unfold stale
  rw [named, decide_eq_false absent]
  cases row.nodeId == nodeId && row.item.principalId == principalId
  all_goals simp

end Round

/-- After a complete round the Hub has exactly the current work if and only if all of it is on the
two pages and every row that is not replaced already says the same. -/
theorem work_converges_iff (launchKind : JsonText → String) (nodeId principalId : String)
    (s : WorkSystem) (idle : s.round = .idle) :
    Converged launchKind nodeId principalId (completeRound launchKind nodeId principalId s) ↔
      Publishable launchKind nodeId principalId s := by
  have shownOf : ∀ item ∈ workItems launchKind s.node principalId,
      ((hubWork nodeId principalId (completeRound launchKind nodeId principalId s).rows
          item.key).map Projection.shown = some item.shown ↔
        ∀ row, s.rows.lookup item.key = some row → item.projectionSeq ≤ row.item.projectionSeq →
          row.nodeId = nodeId ∧ row.item.principalId = principalId ∧
            row.item.shown = item.shown) := by
    intro item member
    rw [hubWork_published idle member]
    have own := (currentWork_of_listed member).2
    unfold written
    cases found : s.rows.lookup item.key with
    | none => simp [Option.guard, own]
    | some row =>
      by_cases behind : item.projectionSeq ≤ row.item.projectionSeq
      · have blocked : ((some row).filter fun row =>
            decide (item.projectionSeq ≤ row.item.projectionSeq)) = some row :=
          if_pos (decide_eq_true behind)
        rw [blocked]
        simp [Option.guard, behind, and_assoc]
      · have free : ((some row).filter fun row =>
            decide (item.projectionSeq ≤ row.item.projectionSeq)) = none :=
          if_neg (by simpa using behind)
        rw [free]
        simp [Option.guard, behind, own]
  unfold Converged
  rw [(completeRound_eq idle).2]
  constructor
  · intro converged
    refine ⟨fun key item current => ?_, fun item member => ?_⟩
    · by_contra absent
      have unpublished : key ∉ (workItems launchKind s.node principalId).map Projection.key := by
        intro published
        obtain ⟨other, listed, same⟩ := List.mem_map.mp published
        have here := (currentWork_of_listed listed).1
        rw [same, current] at here
        exact absent (Option.some.inj here ▸ listed)
      have none_ := converged key
      rw [hubWork_unpublished idle unpublished, current] at none_
      cases none_
    · refine (shownOf item member).mp ?_
      rw [converged item.key, (currentWork_of_listed member).1, Option.map_some]
  · rintro publishable key
    by_cases published : key ∈ (workItems launchKind s.node principalId).map Projection.key
    · obtain ⟨item, member, rfl⟩ := List.mem_map.mp published
      rw [(currentWork_of_listed member).1, Option.map_some]
      exact (shownOf item member).mpr (publishable.advanced item member)
    · rw [hubWork_unpublished idle published]
      cases current : currentWork launchKind s.node principalId key with
      | none => rfl
      | some item =>
        have listed := List.mem_map_of_mem (f := Projection.key)
          (publishable.listed key item current)
        rw [currentWork_key current] at listed
        exact absurd listed published

section Sample

open Knoa.Tasks

def sampleWorkTask : TaskDefinitionRow where
  taskId := "t"
  principalId := "p"
  sessionHandle := "s"
  agentId := "a"
  title := "old"
  goal := "goal"
  attachments := []
  toolsEnabled := true
  priority := 0
  launchPolicy := ⟨"{}"⟩
  notificationPolicy := []
  state := .active
  revision := 1
  latestExecutionId := some "e"
  updatedAt := 1

def sampleExecution : TaskRow where
  taskId := "e"
  principalId := "p"
  sessionHandle := "s"
  agentId := "a"
  clientRequestId := "r"
  origin := .user
  parentTaskId := none
  goal := "goal"
  attachments := []
  toolsEnabled := true
  priority := 0
  state := .completed
  phase := ""
  attemptCount := 1
  cancelRequested := false
  finalSummary := "done"
  failureCode := ""
  leaseOwner := ""
  leaseExpiresAt := none
  createdAt := 1
  updatedAt := 1
  startedAt := some 1
  finishedAt := some 1
  nextEventSeq := 2
  revision := 1

def sampleWork : LaunchStore where
  runtime := { Store.initial .empty .empty .empty with tasks := ⟨[sampleExecution], by decide⟩ }
  saved := ⟨[sampleWorkTask], by decide⟩
  links :=
    ⟨[{ executionId := "e", taskId := "t", taskRevision := 1, agentIdSnapshot := "a"
        launchReason := .manual, goalSnapshot := "goal", attachments := [], policySnapshot := ⟨"{}"⟩
        createdAt := 1 }], by decide⟩
  bindings := .empty

def sampleSystem : WorkSystem where
  node := { chats := { sessions := .empty }, tasks := sampleWork }

/-- A Task is published, renamed, and published again: the sequence is the time of its execution,
and the Hub keeps the old title. -/
theorem renamed_task_stale :
    ∃ renamed row, updateTaskDefinition 2 "p" "t" { title := some "new" } sampleWork =
        .ok (row, renamed) ∧
      let published := completeRound JsonText.text "n" "p" sampleSystem
      let s := final (workStep JsonText.text "n" "p") published
        [.clock 2, .work { published.node with tasks := renamed }]
      ¬Converged JsonText.text "n" "p" (completeRound JsonText.text "n" "p" s) := by
  have edited : ∃ renamed row, updateTaskDefinition 2 "p" "t" { title := some "new" } sampleWork =
        .ok (row, renamed) ∧
      let published := completeRound JsonText.text "n" "p" sampleSystem
      let s := final (workStep JsonText.text "n" "p") published
        [.clock 2, .work { published.node with tasks := renamed }]
      let last := completeRound JsonText.text "n" "p" s
      (hubWork "n" "p" last.rows (.task, "t")).map Projection.title = some "old" ∧
        (currentWork JsonText.text last.node "p" (.task, "t")).map Projection.title =
          some "new" := ⟨_, _, rfl, by decide +kernel⟩
  obtain ⟨renamed, row, ran, stays, current⟩ := edited
  refine ⟨renamed, row, ran, fun converged => ?_⟩
  have titles := congrArg (Option.map Prod.fst) (converged (.task, "t"))
  rw [Option.map_map, Option.map_map] at titles
  change (hubWork _ _ _ _).map Projection.title = (currentWork _ _ _ _).map Projection.title
    at titles
  rw [stays, current] at titles
  revert titles
  decide

theorem work_converges_sample : sampleSystem.round = .idle ∧
      (Converged JsonText.text "n" "p" (completeRound JsonText.text "n" "p" sampleSystem) ↔
        Publishable JsonText.text "n" "p" sampleSystem) :=
  ⟨rfl, work_converges_iff JsonText.text "n" "p" sampleSystem rfl⟩

end Sample

end Knoa.Hub
