import Knoa.Hub.WebhookRelay
import Mathlib.Data.List.TakeDrop

/-!
# Rounds of a Node that nothing disturbs

A round fires the oldest fifty events and acknowledges them together; an event that fails ends it.
-/
namespace Knoa.Hub

open Knoa.Tasks (Time)
open Knoa.Automation Relational Transition

section Definitions

variable (env : TriggerEnv) (nodeId : String) (fireAt : Time)

/-- What the Node pulls, in the order of the ids. -/
def deliveries (hub : WebhookHub) : List Delivery :=
  (hub.pending nodeId).filterMap (hub.delivery nodeId)

def roundLabels (now : Time) : List WebhookLabel :=
  [.clock now, .pull .answered] ++ List.replicate 50 (.fire fireAt) ++ [.acknowledge .answered]

def nextRound (s : WebhookSystem) : WebhookSystem :=
  final (webhookStep env nodeId) s (roundLabels fireAt (s.now + 30))

def rounds : Nat → WebhookSystem → WebhookSystem
  | 0, s => s
  | k + 1, s => rounds k (nextRound env nodeId fireAt s)

def fireAll : List Delivery → TriggerStore → Option TriggerStore
  | [], store => some store
  | delivery :: rest, store => (fireTrigger env fireAt delivery store).bind (fireAll rest)

def Acknowledged (hub : WebhookHub) (ingressId : Nat) : Prop :=
  ∃ row ∈ hub.outbox.rows, row.ingressId = ingressId ∧ row.acknowledgedAt ≠ none

def Progresses (s : WebhookSystem) : Prop :=
  ∃ enough, ∀ k, enough ≤ k → ∀ delivery ∈ deliveries nodeId s.hub,
    fireTrigger env fireAt delivery (rounds env nodeId fireAt k s).store ≠ none →
      Acknowledged (rounds env nodeId fireAt k s).hub delivery.ingressId

def Unblocked (s : WebhookSystem) : Prop :=
  ∃ batches store, fireAll env fireAt ((deliveries nodeId s.hub).take (50 * batches)) s.store =
      some store ∧
    ∀ delivery ∈ (deliveries nodeId s.hub).drop (50 * batches),
      fireTrigger env fireAt delivery store = none

/-- The store that a round leaves: it fires its events up to the first that fails. -/
def fireUntil : List Delivery → TriggerStore → TriggerStore
  | [], store => store
  | delivery :: rest, store =>
    match fireTrigger env fireAt delivery store with
    | some store => fireUntil rest store
    | none => store

end Definitions

section Batches

variable {env : TriggerEnv} {fireAt : Time} {store store' : TriggerStore}

variable {events : List Delivery}

theorem fireAll_append {later : List Delivery} : fireAll env fireAt (events ++ later) store =
      (fireAll env fireAt events store).bind (fireAll env fireAt later) := by
  induction events generalizing store with
  | nil => rfl
  | cons delivery rest ih =>
    rw [List.cons_append, fireAll, fireAll, Option.bind_assoc]
    exact Option.bind_congr fun store _ => ih

theorem fireUntil_stands {delivery : Delivery} (stands : Stands store delivery) :
    Stands (fireUntil env fireAt events store) delivery := by
  induction events generalizing store with
  | nil => exact stands
  | cons other rest ih =>
    rw [fireUntil]
    split
    next middle fired => exact ih (stands.kept fired)
    next => exact stands

theorem fireUntil_again (fails : fireAll env fireAt events store = none) :
    fireAll env fireAt events (fireUntil env fireAt events store) = none ∧
      fireUntil env fireAt events (fireUntil env fireAt events store) =
        fireUntil env fireAt events store := by
  induction events generalizing store with
  | nil => cases fails
  | cons delivery rest ih =>
    cases first : fireTrigger env fireAt delivery store with
    | none =>
      have same : fireUntil env fireAt (delivery :: rest) store = store := by
        rw [fireUntil, first]
      rw [same]
      exact ⟨fails, same⟩
    | some middle =>
      have same : fireUntil env fireAt (delivery :: rest) store =
          fireUntil env fireAt rest middle := by
        rw [fireUntil, first]
      rw [fireAll, first, Option.bind_some] at fails
      obtain ⟨again, stays⟩ := ih fails
      have fires : fireTrigger env fireAt delivery (fireUntil env fireAt rest middle) =
          some (fireUntil env fireAt rest middle) :=
        (fireUntil_stands (fireTrigger_stands first)).fires env fireAt
      rw [same, fireAll, fires, Option.bind_some]
      refine ⟨again, ?_⟩
      rw [fireUntil, fires]
      exact stays

end Batches

section Outbox

variable {hub : WebhookHub} {nodeId : String} {now later : Time} {delivery : Delivery}

def openDelivery (hub : WebhookHub) (nodeId : String) (row : IngressRow) : Option Delivery :=
  if row.acknowledgedAt.isNone then hub.delivery nodeId row else none

theorem delivery_isSome {row : IngressRow} :
    (hub.delivery nodeId row).isSome = (hub.activeRoute nodeId row).isSome := by
  unfold WebhookHub.delivery
  rw [Option.isSome_map]

theorem deliveries_eq :
    deliveries nodeId hub = hub.outbox.rows.filterMap (openDelivery hub nodeId) := by
  unfold deliveries WebhookHub.pending openDelivery
  rw [List.filterMap_filter]
  apply List.filterMap_congr
  intro row _
  cases active : hub.activeRoute nodeId row with
  | none =>
    have none_ : hub.delivery nodeId row = none := by rw [WebhookHub.delivery, active]; rfl
    rw [none_]
    simp
  | some route => simp

theorem mem_deliveries_iff : delivery ∈ deliveries nodeId hub ↔
    ∃ row ∈ hub.outbox.rows, row.acknowledgedAt = none ∧
      hub.delivery nodeId row = some delivery := by
  rw [deliveries_eq, List.mem_filterMap]
  refine exists_congr fun row => and_congr_right fun _ => ?_
  unfold openDelivery
  cases row.acknowledgedAt with
  | none | some time => simp

theorem delivery_id {row : IngressRow} (made : hub.delivery nodeId row = some delivery) :
    delivery.ingressId = row.ingressId := by
  obtain ⟨route, -, rfl⟩ := Option.map_eq_some_iff.mp made
  rfl

theorem deliveries_ascending (ordered : Ordered hub now) :
    (deliveries nodeId hub).Pairwise fun a b => a.ingressId < b.ingressId := by
  unfold deliveries
  rw [List.pairwise_filterMap]
  refine (ordered.ascending.sublist List.filter_sublist).imp ?_
  intro a b less first made second made'
  rw [delivery_id made, delivery_id made']
  exact less

theorem not_acknowledged (waits : delivery ∈ deliveries nodeId hub) :
    ¬Acknowledged hub delivery.ingressId := by
  rintro ⟨row, stands, same, seen⟩
  obtain ⟨old, there, unseen, made⟩ := mem_deliveries_iff.mp waits
  rw [delivery_id made] at same
  rw [Table.mem_unique stands there same] at seen
  exact seen unseen

theorem filterMap_take {α β : Type} {f : α → Option β} {l : List α} (n : Nat)
    (all : ∀ a ∈ l, (f a).isSome) : (l.take n).filterMap f = (l.filterMap f).take n := by
  induction l generalizing n with
  | nil => simp
  | cons a rest ih =>
    obtain ⟨b, made⟩ := Option.isSome_iff_exists.mp (all a List.mem_cons_self)
    have others := fun c member => all c (List.mem_cons_of_mem a member)
    cases n with
    | zero => rfl
    | succ n =>
      rw [List.take_succ_cons, List.filterMap_cons_some made, List.filterMap_cons_some made,
        List.take_succ_cons, ih n others]

theorem pulled_eq (ordered : Ordered hub now) (rested : now + 15 ≤ later) :
    hub.pulled nodeId 50 later = (hub.pending nodeId).take 50 := by
  have due : (hub.pending nodeId).filter (fun row =>
      row.lastDeliveredAt.all (· ≤ later - 15)) = hub.pending nodeId := by
    rw [List.filter_eq_self]
    intro row member
    have before := ordered.delivered row (List.mem_filter.mp member).1
    cases at' : row.lastDeliveredAt with
    | none => rfl
    | some time =>
      rw [at'] at before
      exact decide_eq_true ((of_decide_eq_true before).trans (by linarith))
  have sorted : (hub.pending nodeId).Pairwise WebhookHub.ingressLe :=
    (ordered.ascending.sublist List.filter_sublist).imp fun less => Nat.le_of_lt less
  unfold WebhookHub.pulled
  rw [due, sorted.insertionSort_eq]
  rfl

theorem pull_events (ordered : Ordered hub now) (rested : now + 15 ≤ later) :
    (hub.pullWebhookEvents nodeId 50 later).1 = (deliveries nodeId hub).take 50 := by
  unfold WebhookHub.pullWebhookEvents deliveries
  rw [pulled_eq ordered rested]
  refine filterMap_take 50 fun row member => ?_
  rw [delivery_isSome]
  exact ((Bool.and_eq_true _ _).mp (List.mem_filter.mp member).2).1

theorem deliveries_deliver (ids : List Nat) :
    deliveries nodeId (hub.deliver ids later) = deliveries nodeId hub := by
  rw [deliveries_eq, deliveries_eq, WebhookHub.deliver, Table.update_rows, List.filterMap_map]
  apply List.filterMap_congr
  intro row _
  dsimp only [Function.comp]
  split
  all_goals rfl

theorem deliveries_acknowledge (ids : List Nat) :
    deliveries nodeId (hub.acknowledgeWebhookEvents nodeId ids later) =
      (deliveries nodeId hub).filter fun delivery => decide (delivery.ingressId ∉ ids) := by
  rw [deliveries_eq, deliveries_eq, WebhookHub.acknowledgeWebhookEvents, Table.update_rows,
    List.filterMap_map, List.filter_filterMap]
  apply List.filterMap_congr
  intro row _
  change openDelivery hub nodeId _ = _
  dsimp only [Function.comp]
  cases made : openDelivery hub nodeId row with
  | none =>
    split
    next =>
      unfold openDelivery at made ⊢
      cases seen : row.acknowledgedAt with
      | none =>
        rw [Option.none_or]
        rfl
      | some time => rfl
    next => rw [made]; rfl
  | some delivery =>
    have waits : row.acknowledgedAt = none ∧ hub.delivery nodeId row = some delivery := by
      unfold openDelivery at made
      split at made
      next unseen => exact ⟨Option.isNone_iff_eq_none.mp unseen, made⟩
      next => cases made
    obtain ⟨route, active, -⟩ := Option.map_eq_some_iff.mp waits.2
    obtain ⟨read, owns⟩ := Option.filter_eq_some_iff.mp active
    have own : ((hub.routes.lookup row.routeId).any fun route => route.nodeId == nodeId) = true := by
      rw [read]
      exact ((Bool.and_eq_true _ _).mp owns).1
    rw [own, Bool.and_true, Option.filter_some, delivery_id waits.2]
    by_cases listed : row.ingressId ∈ ids
    · rw [if_pos (decide_eq_true listed), if_neg (by simpa using listed)]
      rw [waits.1, Option.none_or]
      rfl
    · rw [if_neg (by simpa using listed), if_pos (by simpa using listed)]
      exact made

end Outbox

section Rounds

variable {env : TriggerEnv} {nodeId : String} {fireAt : Time} {s : WebhookSystem}

/-- A Node between two rounds. -/
structure Ready (s : WebhookSystem) : Prop where
  idle : s.round = .idle
  ordered : Ordered s.hub s.now

theorem final_idle (idle : s.round = .idle) (n : Nat) :
    final (webhookStep env nodeId) s (List.replicate n (.fire fireAt)) = s := by
  induction n with
  | zero => rfl
  | succ n ih =>
    have refused : webhookStep env nodeId s (.fire fireAt) = none := by
      simp only [webhookStep, idle]
    rw [List.replicate_succ, final, next_of_none refused]
    exact ih

theorem final_fires {events : List Delivery} {ids : List Nat} {n : Nat}
    (firing : s.round = .firing events ids) (enough : events.length ≤ n) :
    final (webhookStep env nodeId) s (List.replicate n (.fire fireAt)) =
      match fireAll env fireAt events s.store with
      | some store => { s with store, round := .firing [] (ids ++ events.map Delivery.ingressId) }
      | none => { s with store := fireUntil env fireAt events s.store, round := .idle } := by
  induction n generalizing s events ids with
  | zero =>
    obtain rfl := List.length_eq_zero_iff.mp (Nat.le_zero.mp enough)
    rw [fireAll, List.map_nil, List.append_nil, ← firing]
    rfl
  | succ n ih =>
    rw [List.replicate_succ, final]
    cases events with
    | nil =>
      have refused : webhookStep env nodeId s (.fire fireAt) = none := by
        simp only [webhookStep, firing]
      rw [next_of_none refused]
      exact ih firing (Nat.zero_le n)
    | cons delivery rest =>
      cases fired : fireTrigger env fireAt delivery s.store with
      | none =>
        have taken : webhookStep env nodeId s (.fire fireAt) =
            some { s with round := .idle } := by
          simp only [webhookStep, firing, fired]
        rw [next_of_some taken, final_idle rfl, fireAll, fireUntil, fired]
        rfl
      | some store =>
        have taken : webhookStep env nodeId s (.fire fireAt) = some { s with
            store, round := .firing rest (ids ++ [delivery.ingressId]) } := by
          simp only [webhookStep, firing, fired]
        rw [next_of_some taken, ih rfl (Nat.le_of_succ_le_succ enough), fireAll, fireUntil, fired]
        simp only [Option.bind_some, List.map_cons, List.append_assoc, List.cons_append,
          List.nil_append]

/-- The outbox after the pull of a round. -/
def pulledHub (nodeId : String) (s : WebhookSystem) : WebhookHub :=
  (s.hub.pullWebhookEvents nodeId 50 (s.now + 30)).2

theorem final_pull (ready : Ready s) :
    final (webhookStep env nodeId) s [.clock (s.now + 30), .pull .answered] =
      { s with
        now := s.now + 30, hub := pulledHub nodeId s,
        round := .firing ((deliveries nodeId s.hub).take 50) [] } := by
  have later : s.now ≤ s.now + 30 := by linarith
  have clock : webhookStep env nodeId s (.clock (s.now + 30)) =
      some { s with now := s.now + 30 } := if_pos later
  rw [final, next_of_some clock, final]
  have pull : webhookStep env nodeId { s with now := s.now + 30 } (.pull .answered) = some { s with
      now := s.now + 30, hub := pulledHub nodeId s,
      round := .firing ((deliveries nodeId s.hub).take 50) [] } := by
    simp only [webhookStep, ready.idle]
    rw [pull_events ready.ordered (by linarith)]
    rfl
  rw [next_of_some pull]
  rfl

variable {store : TriggerStore}

theorem nextRound_fires (ready : Ready s)
    (fired : fireAll env fireAt ((deliveries nodeId s.hub).take 50) s.store = some store) :
    nextRound env nodeId fireAt s =
      let ids := ((deliveries nodeId s.hub).take 50).map Delivery.ingressId
      { s with
        now := s.now + 30, store, hub := if ids = [] then pulledHub nodeId s
          else (pulledHub nodeId s).acknowledgeWebhookEvents nodeId ids (s.now + 30) } := by
  unfold nextRound roundLabels
  rw [final_append, final_append, final_pull ready, final_fires rfl (List.length_take_le 50 _)]
  rw [fired]
  have taken : ∀ (t : WebhookSystem) (ids : List Nat), t.round = .firing [] ids →
      webhookStep env nodeId t (.acknowledge .answered) = some { t with
        hub := if ids = [] then t.hub else t.hub.acknowledgeWebhookEvents nodeId ids t.now
        round := .idle } := by
    intro t ids firing
    simp only [webhookStep, firing, reduceCtorEq, or_false]
  rw [final, next_of_some (taken _ _ rfl), final, List.nil_append, ready.idle]

theorem nextRound_fails (ready : Ready s)
    (fails : fireAll env fireAt ((deliveries nodeId s.hub).take 50) s.store = none) :
    nextRound env nodeId fireAt s =
      { s with
        now := s.now + 30
        store := fireUntil env fireAt ((deliveries nodeId s.hub).take 50) s.store
        hub := pulledHub nodeId s } := by
  unfold nextRound roundLabels
  rw [final_append, final_append, final_pull ready, final_fires rfl (List.length_take_le 50 _)]
  rw [fails]
  have refused : webhookStep env nodeId
      { s with
        now := s.now + 30,
        store := fireUntil env fireAt ((deliveries nodeId s.hub).take 50) s.store,
        hub := pulledHub nodeId s, round := .idle } (.acknowledge .answered) = none := rfl
  rw [final, next_of_none refused, final, ready.idle]

theorem pulledHub_ordered (ready : Ready s) : Ordered (pulledHub nodeId s) (s.now + 30) :=
  (ready.ordered.later (by linarith)).update fun _ _ => decide_eq_true le_rfl

theorem deliveries_pulledHub :
    deliveries nodeId (pulledHub nodeId s) = deliveries nodeId s.hub := deliveries_deliver _

theorem nextRound_hub (ready : Ready s) :
    ∃ ids, (nextRound env nodeId fireAt s).hub = pulledHub nodeId s ∨
      (nextRound env nodeId fireAt s).hub =
        (pulledHub nodeId s).acknowledgeWebhookEvents nodeId ids (s.now + 30) := by
  cases fired : fireAll env fireAt ((deliveries nodeId s.hub).take 50) s.store with
  | none => exact ⟨[], .inl (by rw [nextRound_fails ready fired])⟩
  | some store =>
    refine ⟨((deliveries nodeId s.hub).take 50).map Delivery.ingressId, ?_⟩
    rw [nextRound_fires ready fired]
    dsimp only
    split
    · exact .inl rfl
    · exact .inr rfl

theorem Ready.next (ready : Ready s) : Ready (nextRound env nodeId fireAt s) := by
  have now : (nextRound env nodeId fireAt s).now = s.now + 30 ∧
      (nextRound env nodeId fireAt s).round = .idle := by
    cases fired : fireAll env fireAt ((deliveries nodeId s.hub).take 50) s.store with
    | none => rw [nextRound_fails ready fired]; exact ⟨rfl, ready.idle⟩
    | some store => rw [nextRound_fires ready fired]; exact ⟨rfl, ready.idle⟩
  refine ⟨now.2, ?_⟩
  have ordered := @pulledHub_ordered nodeId s ready
  rw [now.1]
  obtain ⟨ids, same | same⟩ := @nextRound_hub env nodeId fireAt s ready
  · rw [same]
    exact ordered
  · rw [same]
    exact ordered.update ordered.delivered

variable {id : Nat}

theorem Acknowledged.update {hub : WebhookHub} {p : IngressRow → Bool} {f : IngressRow → IngressRow}
    {keep : ∀ row, (f row).ingressId = row.ingressId} (acknowledged : Acknowledged hub id)
    (kept : ∀ row, row.acknowledgedAt ≠ none → (f row).acknowledgedAt ≠ none) :
    Acknowledged { hub with outbox := hub.outbox.update p f keep } id := by
  obtain ⟨row, stands, same, seen⟩ := acknowledged
  refine ⟨_, List.mem_map_of_mem stands, ?_⟩
  split
  · exact ⟨(keep row).trans same, kept row seen⟩
  · exact ⟨same, seen⟩

theorem Acknowledged.next (ready : Ready s) (acknowledged : Acknowledged s.hub id) :
    Acknowledged (nextRound env nodeId fireAt s).hub id := by
  have pulled : Acknowledged (pulledHub nodeId s) id := acknowledged.update fun _ seen => seen
  obtain ⟨ids, same | same⟩ := @nextRound_hub env nodeId fireAt s ready
  · rw [same]
    exact pulled
  · rw [same]
    refine pulled.update fun row seen => ?_
    cases at' : row.acknowledgedAt with
    | none => exact absurd at' seen
    | some time =>
      intro lost
      cases lost

theorem filter_drop {events : List Delivery}
    (ascending : events.Pairwise fun a b => a.ingressId < b.ingressId) (n : Nat) :
    events.filter (fun delivery => decide (delivery.ingressId ∉
      (events.take n).map Delivery.ingressId)) = events.drop n := by
  rw [← List.take_append_drop n events, List.pairwise_append] at ascending
  have before : (events.take n).filter (fun delivery => decide (delivery.ingressId ∉
      (events.take n).map Delivery.ingressId)) = [] := by
    rw [List.filter_eq_nil_iff]
    intro delivery member absent
    exact of_decide_eq_true absent (List.mem_map_of_mem member)
  have after : (events.drop n).filter (fun delivery => decide (delivery.ingressId ∉
      (events.take n).map Delivery.ingressId)) = events.drop n := by
    rw [List.filter_eq_self]
    intro delivery member
    refine decide_eq_true fun listed => ?_
    obtain ⟨first, taken, same⟩ := List.mem_map.mp listed
    exact absurd same (Nat.ne_of_lt (ascending.2.2 first taken delivery member))
  calc events.filter _ = (events.take n ++ events.drop n).filter _ := by
        rw [List.take_append_drop]
    _ = events.drop n := by rw [List.filter_append, before, after, List.nil_append]

theorem deliveries_fires (ready : Ready s)
    (fired : fireAll env fireAt ((deliveries nodeId s.hub).take 50) s.store = some store) :
    deliveries nodeId (nextRound env nodeId fireAt s).hub = (deliveries nodeId s.hub).drop 50 := by
  rw [nextRound_fires ready fired, ← filter_drop (deliveries_ascending ready.ordered) 50]
  dsimp only
  split
  next empty =>
    rw [deliveries_pulledHub, empty]
    symm
    rw [List.filter_eq_self]
    intro delivery _
    exact decide_eq_true List.not_mem_nil
  next => rw [deliveries_acknowledge, deliveries_pulledHub]

theorem deliveries_fails (ready : Ready s)
    (fails : fireAll env fireAt ((deliveries nodeId s.hub).take 50) s.store = none) :
    deliveries nodeId (nextRound env nodeId fireAt s).hub = deliveries nodeId s.hub := by
  rw [nextRound_fails ready fails]
  exact deliveries_pulledHub

theorem acknowledged_fires (ready : Ready s)
    (fired : fireAll env fireAt ((deliveries nodeId s.hub).take 50) s.store = some store)
    {delivery : Delivery} (member : delivery ∈ (deliveries nodeId s.hub).take 50) :
    Acknowledged (nextRound env nodeId fireAt s).hub delivery.ingressId := by
  have listed := List.mem_map_of_mem (f := Delivery.ingressId) member
  have waits : delivery ∈ deliveries nodeId (pulledHub nodeId s) := by
    rw [deliveries_pulledHub]
    exact List.mem_of_mem_take member
  obtain ⟨row, stands, unseen, made⟩ := mem_deliveries_iff.mp waits
  obtain ⟨route, active, rfl⟩ := Option.map_eq_some_iff.mp made
  obtain ⟨read, owns⟩ := Option.filter_eq_some_iff.mp active
  rw [nextRound_fires ready fired]
  dsimp only
  rw [if_neg (List.ne_nil_of_mem listed)]
  refine ⟨_, List.mem_map_of_mem stands, ?_⟩
  rw [if_pos]
  · refine ⟨rfl, ?_⟩
    dsimp only
    rw [unseen, Option.none_or]
    intro lost
    cases lost
  · rw [Bool.and_eq_true, decide_eq_true_eq, read]
    exact ⟨listed, ((Bool.and_eq_true _ _).mp owns).1⟩

theorem rounds_add (m k : Nat) : rounds env nodeId fireAt (m + k) s =
      rounds env nodeId fireAt k (rounds env nodeId fireAt m s) := by
  induction m generalizing s with
  | zero => rw [Nat.zero_add, rounds]
  | succ m ih =>
    rw [Nat.succ_add, rounds, rounds]
    exact ih

section
variable (ready : Ready s)
include ready

theorem Ready.rounds (k : Nat) : Ready (rounds env nodeId fireAt k s) := by
  induction k generalizing s with
  | zero => exact ready
  | succ k ih => exact ih ready.next

theorem Acknowledged.rounds (acknowledged : Acknowledged s.hub id) (k : Nat) :
    Acknowledged (rounds env nodeId fireAt k s).hub id := by
  induction k generalizing s with
  | zero => exact acknowledged
  | succ k ih => exact ih ready.next (acknowledged.next ready)

theorem rounds_fire {m : Nat}
    (fired : fireAll env fireAt ((deliveries nodeId s.hub).take (50 * m)) s.store = some store) :
    deliveries nodeId (rounds env nodeId fireAt m s).hub =
        (deliveries nodeId s.hub).drop (50 * m) ∧
      (rounds env nodeId fireAt m s).store = store ∧
      ∀ delivery ∈ (deliveries nodeId s.hub).take (50 * m),
        Acknowledged (rounds env nodeId fireAt m s).hub delivery.ingressId := by
  induction m generalizing s with
  | zero =>
    rw [Nat.mul_zero, List.take_zero] at fired
    refine ⟨rfl, Option.some.inj fired, fun delivery member => ?_⟩
    rw [Nat.mul_zero, List.take_zero] at member
    cases member
  | succ m ih =>
    have batches : (deliveries nodeId s.hub).take (50 * (m + 1)) =
        (deliveries nodeId s.hub).take 50 ++ ((deliveries nodeId s.hub).drop 50).take (50 * m) := by
      rw [Nat.mul_succ, Nat.add_comm, List.take_add]
    rw [batches, fireAll_append] at fired
    obtain ⟨middle, first, others⟩ := Option.bind_eq_some_iff.mp fired
    have left := deliveries_fires ready first
    have kept : (nextRound env nodeId fireAt s).store = middle := by
      rw [nextRound_fires ready first]
    rw [← left, ← kept] at others
    obtain ⟨rest, stored, acknowledged⟩ := ih ready.next others
    refine ⟨?_, stored, fun delivery member => ?_⟩
    · have count : 50 * (m + 1) = 50 + 50 * m := by omega
      rw [rounds, rest, left, List.drop_drop, count]
    · rw [batches] at member
      rcases List.mem_append.mp member with here | later
      · exact (acknowledged_fires ready first here).rounds ready.next m
      · exact acknowledged delivery (left.symm ▸ later)

theorem rounds_fail
    (fails : fireAll env fireAt ((deliveries nodeId s.hub).take 50) s.store = none) (k : Nat) :
    deliveries nodeId (rounds env nodeId fireAt k s).hub = deliveries nodeId s.hub ∧
      (k ≠ 0 → (rounds env nodeId fireAt k s).store =
        fireUntil env fireAt ((deliveries nodeId s.hub).take 50) s.store) := by
  induction k generalizing s with
  | zero => exact ⟨rfl, fun some => absurd rfl some⟩
  | succ k ih =>
    have same := deliveries_fails ready fails
    have store : (nextRound env nodeId fireAt s).store =
        fireUntil env fireAt ((deliveries nodeId s.hub).take 50) s.store := by
      rw [nextRound_fails ready fails]
    obtain ⟨again, stays⟩ := fireUntil_again fails
    have later := ih ready.next (by rw [same, store]; exact again)
    rw [same, store] at later
    refine ⟨later.1, fun _ => ?_⟩
    rw [rounds]
    cases k with
    | zero => exact store
    | succ k => exact (later.2 (Nat.succ_ne_zero k)).trans stays

theorem rounds_blocked {first : Delivery} {rest : List Delivery}
    (events : deliveries nodeId s.hub = first :: rest)
    (fails : fireTrigger env fireAt first s.store = none) (k : Nat) :
    deliveries nodeId (rounds env nodeId fireAt k s).hub = first :: rest ∧
      (rounds env nodeId fireAt k s).store = s.store := by
  have batch : fireAll env fireAt ((deliveries nodeId s.hub).take 50) s.store = none := by
    rw [events, List.take_succ_cons, fireAll, fails, Option.bind_none]
  obtain ⟨same, store⟩ := rounds_fail ready batch k
  rw [events] at same
  refine ⟨same, ?_⟩
  rw [events, List.take_succ_cons, fireUntil, fails] at store
  cases k with
  | zero => rfl
  | succ k => exact store (Nat.succ_ne_zero k)

theorem rounds_halted (halted : ∀ delivery ∈ deliveries nodeId s.hub,
      fireTrigger env fireAt delivery s.store = none) (k : Nat) :
    (rounds env nodeId fireAt k s).store = s.store := by
  cases events : deliveries nodeId s.hub with
  | nil =>
    have fired : fireAll env fireAt ((deliveries nodeId s.hub).take (50 * k)) s.store =
        some s.store := by
      rw [events, List.take_nil, fireAll]
    exact (rounds_fire ready fired).2.1
  | cons delivery rest =>
    rw [events] at halted
    exact (rounds_blocked ready events (halted delivery List.mem_cons_self) k).2

theorem progresses_of_unblocked (unblocked : Unblocked env nodeId fireAt s) :
    Progresses env nodeId fireAt s := by
  obtain ⟨m, store, fired, halted⟩ := unblocked
  obtain ⟨rest, stored, acknowledged⟩ := rounds_fire ready fired
  refine ⟨m, fun k enough delivery member fires => ?_⟩
  obtain ⟨k, rfl⟩ := Nat.exists_eq_add_of_le enough
  rw [rounds_add] at fires ⊢
  have later := @Ready.rounds env nodeId fireAt s ready m
  rw [← rest, ← stored] at halted
  rw [rounds_halted later halted, stored] at fires
  rw [← List.take_append_drop (50 * m) (deliveries nodeId s.hub), List.mem_append] at member
  rcases member with taken | left
  · exact (acknowledged delivery taken).rounds later k
  · rw [← rest] at left
    have fails := halted delivery left
    rw [stored] at fails
    exact absurd fails fires

end

theorem batches_cases (events : List Delivery) (store : TriggerStore) :
    (∃ m last, fireAll env fireAt (events.take (50 * m)) store = some last ∧
        events.drop (50 * m) = []) ∨
      ∃ m last, fireAll env fireAt (events.take (50 * m)) store = some last ∧
        fireAll env fireAt ((events.drop (50 * m)).take 50) last = none := by
  have batches : ∀ m, events.take (50 * (m + 1)) =
      events.take (50 * m) ++ (events.drop (50 * m)).take 50 := by
    intro m
    rw [Nat.mul_succ, List.take_add]
  have along : ∀ m, (∃ last, fireAll env fireAt (events.take (50 * m)) store = some last) ∨
      ∃ m last, fireAll env fireAt (events.take (50 * m)) store = some last ∧
        fireAll env fireAt ((events.drop (50 * m)).take 50) last = none := by
    intro m
    induction m with
    | zero => exact .inl ⟨store, rfl⟩
    | succ m ih =>
      rcases ih with ⟨last, fired⟩ | stopped
      · cases next : fireAll env fireAt ((events.drop (50 * m)).take 50) last with
        | none => exact .inr ⟨m, last, fired, next⟩
        | some after =>
          refine .inl ⟨after, ?_⟩
          rw [batches, fireAll_append, fired]
          exact next
      · exact .inr stopped
  rcases along events.length with ⟨last, fired⟩ | stopped
  · exact .inl ⟨events.length, last, fired, List.drop_eq_nil_of_le (by omega)⟩
  · exact .inr stopped

theorem unblocked_of_progresses (ready : Ready s) (progresses : Progresses env nodeId fireAt s) :
    Unblocked env nodeId fireAt s := by
  rcases @batches_cases env fireAt (deliveries nodeId s.hub) s.store with
    ⟨m, last, fired, none_⟩ | ⟨m, last, fired, fails⟩
  · refine ⟨m, last, fired, fun delivery member => ?_⟩
    rw [none_] at member
    cases member
  · obtain ⟨rest, stored, -⟩ := rounds_fire ready fired
    have later := @Ready.rounds env nodeId fireAt s ready m
    rw [← rest, ← stored] at fails
    obtain ⟨enough, acknowledged⟩ := progresses
    have waits := rounds_fail later fails (enough + 1)
    rw [← rounds_add, stored, rest] at waits
    have store := waits.2 (Nat.succ_ne_zero enough)
    -- what waits after those rounds does not fire
    have halted : ∀ delivery ∈ (deliveries nodeId s.hub).drop (50 * m),
        fireTrigger env fireAt delivery (fireUntil env fireAt
          (((deliveries nodeId s.hub).drop (50 * m)).take 50) last) = none := by
      intro delivery left
      by_contra fires
      rw [← store] at fires
      have seen := acknowledged (m + (enough + 1)) (by omega) delivery (List.mem_of_mem_drop left)
        fires
      exact not_acknowledged (waits.1.symm ▸ left) seen
    refine ⟨m, last, fired, ?_⟩
    rw [stored, rest] at fails
    cases events : (deliveries nodeId s.hub).drop (50 * m) with
    | nil =>
      intro delivery member
      cases member
    | cons first others =>
      rw [events, List.take_succ_cons] at halted
      have unchanged : fireTrigger env fireAt first last = none := by
        cases fires : fireTrigger env fireAt first last with
        | none => rfl
        | some after =>
          have again := halted first List.mem_cons_self
          rw [fireUntil, fires] at again
          rw [(fireUntil_stands (fireTrigger_stands fires)).fires env fireAt] at again
          cases again
      rw [fireUntil, unchanged] at halted
      exact halted

end Rounds

/-- The Hub and a Node before any event. -/
def emptyRelay (routes : Table WebhookRoute.routeId)
    (sessions : Table Knoa.Tasks.SessionRow.sessionHandle) : WebhookSystem × Fired :=
  ({ hub := { routes := routes }, store := .initial sessions }, {})

theorem relayInv_empty (routes : Table WebhookRoute.routeId)
    (sessions : Table Knoa.Tasks.SessionRow.sessionHandle) :
    RelayInv (emptyRelay routes sessions) where
  safe := { fired := nofun, named := nofun, stored := nofun, once := List.nodup_nil }
  ordered := { ascending := List.Pairwise.nil, fresh := nofun, delivered := nofun }
  accepted _ _ at' := by cases at'
  rest _ _ at' := by cases at'

/-- In every run nothing is acknowledged that was not fired, nor stored twice. From there on the
events whose triggers take them are acknowledged exactly when some number of batches fires and none
of the events left would. -/
theorem relay_progresses_iff (env : TriggerEnv) (nodeId : String) (fireAt : Time)
    (routes : Table WebhookRoute.routeId)
    (sessions : Table Knoa.Tasks.SessionRow.sessionHandle) (labels : List WebhookLabel) :
    let s := final (webhookRun env nodeId) (emptyRelay routes sessions) labels
    RelaySafe s ∧ (s.1.round = .idle →
      (Progresses env nodeId fireAt s.1 ↔ Unblocked env nodeId fireAt s.1)) := by
  intro s
  have inv : RelayInv s :=
    Transition.final_invariant relayInv_step (relayInv_empty routes sessions) labels
  refine ⟨inv.safe, fun idle => ?_⟩
  have ready : Ready s.1 := ⟨idle, inv.ordered⟩
  exact ⟨unblocked_of_progresses ready, progresses_of_unblocked ready⟩

section Sample

open Knoa.Automation

def sampleRoutes : Table WebhookRoute.routeId where
  rows :=
    [{ routeId := "x", nodeId := "n", principalId := "p", triggerId := "u" },
      { routeId := "y", nodeId := "n", principalId := "p", triggerId := "t" }]
  keyed := by decide

def PullRound.isIdle : PullRound → Bool
  | .idle => true
  | .firing _ _ => false

theorem PullRound.isIdle_iff {round : PullRound} : round.isIdle = true ↔ round = .idle := by
  cases round with
  | idle => exact ⟨fun _ => rfl, fun _ => rfl⟩
  | firing rest accepted => exact ⟨nofun, nofun⟩

def sampleSessions : Table Knoa.Tasks.SessionRow.sessionHandle :=
  .single { sessionHandle := "s", principalId := "p", agentId := "a" }

def createsTrigger : WebhookLabel :=
  .trigger (.create 0 (fun _ => "t")
    { scope := { principalId := "p", sessionHandle := "s" }, clientRequestId := "r", name := "name",
      goal := "goal" })

/-- An event whose trigger is gone keeps the one after it from being fired, in every round. -/
theorem deleted_trigger_blocks :
    let s := (final (webhookRun sampleTriggerEnv "n") (emptyRelay sampleRoutes sampleSessions)
      [createsTrigger, .accept "x" "1" "{}", .accept "y" "2" "{}"]).1
    ∃ delivery ∈ deliveries "n" s.hub, ∀ k,
      fireTrigger sampleTriggerEnv 0 delivery (rounds sampleTriggerEnv "n" 0 k s).store ≠ none ∧
        ¬Acknowledged (rounds sampleTriggerEnv "n" 0 k s).hub delivery.ingressId := by
  intro s
  have run : s.round.isIdle = true ∧
      (deliveries "n" s.hub).map (fun delivery =>
        (fireTrigger sampleTriggerEnv 0 delivery s.store).isSome) = [false, true] := by
    decide +kernel
  obtain ⟨idle, fires⟩ := run
  have inv : RelayInv (final (webhookRun sampleTriggerEnv "n")
      (emptyRelay sampleRoutes sampleSessions)
      [createsTrigger, .accept "x" "1" "{}", .accept "y" "2" "{}"]) :=
    Transition.final_invariant relayInv_step (relayInv_empty _ _) _
  have ready : Ready s := ⟨PullRound.isIdle_iff.mp idle, inv.ordered⟩
  obtain ⟨first, later, events, fails, fires⟩ := List.map_eq_cons_iff.mp fires
  obtain ⟨second, rest, rfl, fires, -⟩ := List.map_eq_cons_iff.mp fires
  have none_ : fireTrigger sampleTriggerEnv 0 first s.store = none :=
    Option.isSome_eq_false_iff.mp fails |> Option.isNone_iff_eq_none.mp
  refine ⟨second, ?_, fun k => ?_⟩
  · rw [events]
    exact List.mem_cons_of_mem _ List.mem_cons_self
  · obtain ⟨waits, store⟩ := rounds_blocked ready events none_ k
    rw [store]
    refine ⟨Option.isSome_iff_ne_none.mp fires, @not_acknowledged _ "n" _ ?_⟩
    rw [waits]
    exact List.mem_cons_of_mem _ List.mem_cons_self

/-- One trigger is there, and one event waits for it. -/
theorem relay_progresses_sample :
    let s := final (webhookRun sampleTriggerEnv "n") (emptyRelay sampleRoutes sampleSessions)
      [createsTrigger, .accept "y" "2" "{}"]
    s.1.round = .idle ∧
      (Progresses sampleTriggerEnv "n" 0 s.1 ↔ Unblocked sampleTriggerEnv "n" 0 s.1) := by
  intro s
  have idle : s.1.round = .idle := PullRound.isIdle_iff.mp (by decide +kernel)
  exact ⟨idle, (relay_progresses_iff sampleTriggerEnv "n" 0 sampleRoutes sampleSessions _).2 idle⟩

end Sample

end Knoa.Hub
