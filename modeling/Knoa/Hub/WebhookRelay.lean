import Knoa.Hub.WebhookOutbox

/-!
# The relay of webhook events

What holds along every run of the Hub and a Node, and what a round that nothing disturbs achieves.
-/
namespace Knoa.Hub

open Knoa.Tasks (Time strip)
open Knoa.Automation Relational Transaction

def TriggerKeys (store : TriggerStore) : List (String × String) :=
  store.events.rows.map TriggerEventRow.key

section Triggers

variable {env : TriggerEnv} {store store' : TriggerStore} {failed : List String}

variable {events : Table TriggerEventRow.triggerEventId} {now : Time} {delivery : Delivery}

theorem insert_keys {row : TriggerEventRow}
    (once : (TriggerKeys store).Nodup) (new : store.eventOf row.triggerId row.externalEventId = none)
    (inserted : store.events.insert row = some events) :
    (events.rows.map TriggerEventRow.key).Nodup := by
  rw [Table.insert_rows inserted]
  refine Table.keyed_append once fun member => ?_
  obtain ⟨event, stands, same⟩ := List.mem_map.mp member
  exact Knoa.Automation.eventOf_none_iff.mp new event stands same

theorem TriggerTaken.once (taken : TriggerTaken env store failed store')
    (once : (TriggerKeys store).Nodup) : (TriggerKeys store').Nodup := by
  have same : ∀ {id : String} {f : TriggerEventRow → TriggerEventRow}
      {keep : ∀ row, (f row).triggerEventId = row.triggerEventId},
      (∀ row, (f row).key = row.key) → (TriggerKeys (store.updateEvent id f keep)).Nodup := by
    intro id f keep keys
    unfold TriggerKeys
    rw [Knoa.Automation.map_updateEvent keys]
    exact once
  cases taken with
  | same | created | pausedSet => exact once
  | received found new inserted => exact insert_keys once new inserted
  | @baselined now trigger items inserted stored found unseen listed =>
    have loop : (TriggerKeys stored).Nodup :=
      Knoa.Automation.baselineItems_rule (P := fun t => (TriggerKeys t).Nodup)
        (fun _ _ _ _ keys new added => insert_keys keys new added) once listed
    exact loop
  | buried | claimed | delivered | failed | deferred => exact same fun _ => rfl

theorem TriggerTaken.keys (taken : TriggerTaken env store failed store') {key : String × String}
    (there : key ∈ TriggerKeys store) : key ∈ TriggerKeys store' := by
  obtain ⟨event, stands, rfl⟩ := List.mem_map.mp there
  rcases taken.event_kept stands with same | ⟨-, current, found, -, key, -⟩
  · exact List.mem_map_of_mem same
  · exact key ▸ List.mem_map_of_mem found

def Stands (store : TriggerStore) (delivery : Delivery) : Prop :=
  ∃ principal trigger externalId payload existing,
    identifier delivery.principalId "principal_id" 256 = .ok principal ∧
    identifier delivery.triggerId "trigger_id" 128 = .ok trigger.triggerId ∧
    identifier delivery.externalEventId "external_event_id" 256 = .ok externalId ∧
    payloadJson delivery.payload = .ok payload ∧
    store.ownedTrigger principal trigger.triggerId = .ok trigger ∧ trigger.state = .active ∧
    store.eventOf trigger.triggerId externalId = some existing ∧ existing.payloadJson = payload

theorem fireTrigger_eq : fireTrigger env now delivery store = some store' ↔ ∃ received,
      receive env now delivery.principalId delivery.triggerId delivery.externalEventId
        delivery.payload store = .ok (received, store') := by
  constructor
  · intro fired
    obtain ⟨received, run⟩ := Knoa.Automation.trigger_outcome_some fired
    exact ⟨received, commit_ok_iff.mp run⟩
  · rintro ⟨received, run⟩
    simp only [fireTrigger, TriggerStore.step, commit_ok_iff.mpr run, TriggerOp.outcome]

theorem fireTrigger_cases (fired : fireTrigger env now delivery store = some store') :
    ∃ principal trigger externalId payload,
      identifier delivery.principalId "principal_id" 256 = .ok principal ∧
      identifier delivery.triggerId "trigger_id" 128 = .ok trigger.triggerId ∧
      identifier delivery.externalEventId "external_event_id" 256 = .ok externalId ∧
      payloadJson delivery.payload = .ok payload ∧
      store.ownedTrigger principal trigger.triggerId = .ok trigger ∧ trigger.state = .active ∧
      ((∃ existing, store.eventOf trigger.triggerId externalId = some existing ∧
          existing.payloadJson = payload ∧ store' = store) ∨
        ∃ events, store.eventOf trigger.triggerId externalId = none ∧
          store.events.insert (newEvent env now trigger externalId payload .received "") =
            some events ∧
          store' = { store with events }.updateTrigger trigger.triggerId
            (fun trigger =>
              { trigger with
                eventCount := trigger.eventCount + 1, lastEventAt := some now,
                updatedAt := now })) := by
  obtain ⟨received, run⟩ := fireTrigger_eq.mp fired
  obtain ⟨principal, owner, named, given, externalId, external, run⟩ := of_bind₃ run
  obtain ⟨payload, fits, trigger, owned, run⟩ := of_bind₂ run
  obtain ⟨-, rfl⟩ := ownedTrigger_ok owned
  obtain ⟨_, active, run⟩ := of_bind run
  refine ⟨principal, trigger, externalId, payload, owner, given, external, fits, owned,
    require_ok_iff.mp active, ?_⟩
  split at run
  next existing found =>
    obtain ⟨_, same, run⟩ := of_bind run
    cases run
    exact .inl ⟨existing, found, require_ok_iff.mp same, rfl⟩
  next =>
    obtain ⟨events, inserted, _, -, run⟩ := of_bind₂ run
    cases run
    obtain ⟨new, inserted⟩ := insertEvent_ok (orRaise_ok_iff.mp inserted)
    exact .inr ⟨events, new, inserted, rfl⟩

theorem Stands.fires (stands : Stands store delivery) (env : TriggerEnv)
    (now : Time) : fireTrigger env now delivery store = some store := by
  obtain ⟨principal, trigger, externalId, payload, existing, owner, given, external, fits, owned,
    active, found, same⟩ := stands
  refine fireTrigger_eq.mpr ⟨(existing, false), ?_⟩
  refine bind_ok_iff.mpr ⟨_, owner, bind_ok_iff.mpr ⟨_, given, bind_ok_iff.mpr ⟨_, external,
    bind_ok_iff.mpr ⟨_, fits, bind_ok_iff.mpr ⟨_, owned, bind_ok_iff.mpr ⟨⟨⟩,
    require_ok_iff.mpr active, ?_⟩⟩⟩⟩⟩⟩
  rw [found]
  exact bind_ok_iff.mpr ⟨⟨⟩, require_ok_iff.mpr same, rfl⟩

theorem Stands.key (stands : Stands store delivery) : delivery.key ∈ TriggerKeys store := by
  obtain ⟨principal, trigger, externalId, payload, existing, -, given, external, -, -, -, found,
    -⟩ := stands
  obtain ⟨present, key⟩ := Knoa.Automation.eventOf_some found
  obtain ⟨named, -⟩ := Knoa.Automation.identifier_ok_iff.mp given
  obtain ⟨rfl, -⟩ := Knoa.Automation.identifier_ok_iff.mp external
  have same : delivery.key = existing.key := by rw [key, named, Delivery.key]
  rw [same]
  exact List.mem_map_of_mem present

theorem eventOf_append {triggerId externalId : String} {existing row : TriggerEventRow}
    (found : store.eventOf triggerId externalId = some existing)
    (rows : events.rows = store.events.rows ++ [row]) :
    ({ store with events } : TriggerStore).eventOf triggerId externalId = some existing := by
  unfold TriggerStore.eventOf at found ⊢
  rw [rows, List.find?_append, found]
  rfl

theorem ownedTrigger_counted {principalId triggerId other : String} {trigger : TriggerRow}
    (owned : store.ownedTrigger principalId triggerId = .ok trigger) :
    ∃ after, ({ store with events }.updateTrigger other (fun trigger =>
      { trigger with
        eventCount := trigger.eventCount + 1, lastEventAt := some now,
        updatedAt := now })).ownedTrigger principalId triggerId = .ok after ∧
      after.state = trigger.state := by
  obtain ⟨read, owns⟩ := Option.filter_eq_some_iff.mp (orRaise_ok_iff.mp owned)
  unfold TriggerStore.ownedTrigger TriggerStore.updateTrigger
  rw [Table.lookup_update, read, Option.map_some]
  split
  all_goals exact ⟨_, orRaise_ok_iff.mpr (Option.filter_eq_some_iff.mpr ⟨rfl, owns⟩), rfl⟩

theorem Stands.kept {other : Delivery} (stands : Stands store delivery)
    (fired : fireTrigger env now other store = some store') : Stands store' delivery := by
  obtain ⟨-, firing, externalId, payload, -, -, -, -, -, -, ⟨-, -, -, rfl⟩ |
    ⟨events, new, inserted, rfl⟩⟩ := fireTrigger_cases fired
  · exact stands
  · obtain ⟨principal, trigger, externalId, payload, existing, owner, given, external, fits, owned,
      active, found, same⟩ := stands
    obtain ⟨after, owns, state⟩ := ownedTrigger_counted owned
    have names := (ownedTrigger_ok owns).2
    refine ⟨principal, after, externalId, payload, existing, owner, names.symm ▸ given, external,
      fits, names.symm ▸ owns, state.trans active, ?_, same⟩
    rw [names]
    exact eventOf_append found (Table.insert_rows inserted)

theorem fireTrigger_stands
    (fired : fireTrigger env now delivery store = some store') : Stands store' delivery := by
  obtain ⟨principal, trigger, externalId, payload, owner, given, external, fits, owned, active,
    ⟨existing, found, same, rfl⟩ | ⟨events, new, inserted, rfl⟩⟩ := fireTrigger_cases fired
  · exact ⟨principal, trigger, externalId, payload, existing, owner, given, external, fits, owned,
      active, found, same⟩
  · obtain ⟨after, owns, state⟩ := ownedTrigger_counted owned
    have names := (ownedTrigger_ok owns).2
    refine ⟨principal, after, externalId, payload, newEvent env now trigger externalId payload
      .received "", owner, names.symm ▸ given, external, fits, names.symm ▸ owns,
      state.trans active, ?_, rfl⟩
    rw [names]
    unfold TriggerStore.eventOf at new ⊢
    change events.rows.find? _ = _
    rw [Table.insert_rows inserted, List.find?_append, new]
    simp [newEvent]

end Triggers

def Known (hub : WebhookHub) (id : Nat) (key : String × String) : Prop :=
  ∃ row ∈ hub.outbox.rows, row.ingressId = id ∧ hub.keyOf row = some key

/-- The rows are in the order of their ids, and none was delivered after `now`. -/
structure Ordered (hub : WebhookHub) (now : Time) : Prop where
  ascending : hub.outbox.rows.Pairwise fun a b => a.ingressId < b.ingressId
  fresh : ∀ row ∈ hub.outbox.rows, row.ingressId < hub.nextIngressId
  delivered : ∀ row ∈ hub.outbox.rows, row.lastDeliveredAt.all (· ≤ now) = true

section Outbox

variable {hub hub' : WebhookHub} {now : Time} {id : Nat} {key : String × String}

theorem acceptWebhook_cases {routeId externalEventId payload : String}
    (taken : hub.acceptWebhook routeId externalEventId payload now = some hub') :
    hub' = hub ∨ ∃ row outbox, hub.outbox.insert row = some outbox ∧
      row.ingressId = hub.nextIngressId ∧ row.lastDeliveredAt = none ∧
      row.acknowledgedAt = none ∧
      hub' = { hub with outbox, nextIngressId := hub.nextIngressId + 1 } := by
  simp only [WebhookHub.acceptWebhook, Option.bind_eq_bind, Option.bind_eq_some_iff] at taken
  obtain ⟨route, -, _, -, taken⟩ := taken
  split at taken
  next existing found =>
    obtain ⟨_, -, result⟩ := Option.bind_eq_some_iff.mp taken
    cases result
    exact .inl rfl
  next =>
    obtain ⟨_, -, taken⟩ := Option.bind_eq_some_iff.mp taken
    obtain ⟨outbox, inserted, result⟩ := Option.bind_eq_some_iff.mp taken
    cases result
    exact .inr ⟨_, outbox, inserted, rfl, rfl, rfl, rfl⟩

theorem Known.insert {row : IngressRow} {outbox : Table IngressRow.ingressId} {next : Nat}
    (known : Known hub id key) (inserted : hub.outbox.insert row = some outbox) :
    Known { hub with outbox, nextIngressId := next } id key := by
  obtain ⟨old, stands, same, keyed⟩ := known
  refine ⟨old, ?_, same, keyed⟩
  rw [Table.insert_rows inserted]
  exact List.mem_append_left _ stands

theorem Known.update {p : IngressRow → Bool} {f : IngressRow → IngressRow}
    {keep : ∀ row, (f row).ingressId = row.ingressId} (known : Known hub id key)
    (same : ∀ row, hub.keyOf (f row) = hub.keyOf row) :
    Known { hub with outbox := hub.outbox.update p f keep } id key := by
  obtain ⟨row, stands, named, keyed⟩ := known
  refine ⟨_, List.mem_map_of_mem stands, ?_⟩
  split
  · exact ⟨(keep row).trans named, (same row).trans keyed⟩
  · exact ⟨named, keyed⟩

theorem Known.deleteRoute {nodeId routeId : String} (known : Known hub id key) :
    Known (hub.deleteRoute nodeId routeId) id key := by
  obtain ⟨row, stands, named, keyed⟩ := known
  refine ⟨row, stands, named, ?_⟩
  obtain ⟨route, read, keyed⟩ := Option.map_eq_some_iff.mp keyed
  unfold WebhookHub.keyOf WebhookHub.deleteRoute
  rw [Table.lookup_update, read, Option.map_some, Option.map_some, ← keyed]
  split
  all_goals rfl

theorem Ordered.later {now' : Time} (ordered : Ordered hub now) (later : now ≤ now') :
    Ordered hub now' :=
  { ordered with
    delivered := fun row stands => by
      have before := ordered.delivered row stands
      cases at' : row.lastDeliveredAt with
      | none => rfl
      | some time =>
        rw [at'] at before
        exact decide_eq_true ((of_decide_eq_true before).trans later) }

theorem Ordered.insert {row : IngressRow} {outbox : Table IngressRow.ingressId}
    (ordered : Ordered hub now) (inserted : hub.outbox.insert row = some outbox)
    (next : row.ingressId = hub.nextIngressId) (never : row.lastDeliveredAt = none) :
    Ordered { hub with outbox, nextIngressId := hub.nextIngressId + 1 } now := by
  have rows := Table.insert_rows inserted
  have listed : ∀ {old}, old ∈ outbox.rows → old ∈ hub.outbox.rows ∨ old = row := by
    intro old member
    rw [rows] at member
    exact (List.mem_append.mp member).imp_right List.mem_singleton.mp
  refine ⟨?_, fun old member => ?_, fun old member => ?_⟩
  · rw [rows, List.pairwise_append]
    refine ⟨ordered.ascending, List.pairwise_singleton _ _, ?_⟩
    intro old stands added single
    rw [List.mem_singleton.mp single, next]
    exact ordered.fresh old stands
  · rcases listed member with stands | rfl
    · exact (ordered.fresh old stands).trans (Nat.lt_succ_self _)
    · exact next ▸ Nat.lt_succ_self _
  · rcases listed member with stands | rfl
    · exact ordered.delivered old stands
    · rw [never]
      rfl

theorem Ordered.update {p : IngressRow → Bool} {f : IngressRow → IngressRow}
    {keep : ∀ row, (f row).ingressId = row.ingressId} (ordered : Ordered hub now)
    (delivered : ∀ row ∈ hub.outbox.rows, (f row).lastDeliveredAt.all (· ≤ now) = true) :
    Ordered { hub with outbox := hub.outbox.update p f keep } now := by
  have ids : ∀ row, (if p row = true then f row else row).ingressId = row.ingressId := by
    intro row
    split
    · exact keep row
    · rfl
  refine ⟨?_, fun row member => ?_, fun row member => ?_⟩
  · change (hub.outbox.rows.map _).Pairwise _
    rw [List.pairwise_map]
    refine ordered.ascending.imp fun {a b} less => ?_
    rw [ids a, ids b]
    exact less
  · obtain ⟨old, stands, rfl⟩ := List.mem_map.mp member
    rw [ids]
    exact ordered.fresh old stands
  · obtain ⟨old, stands, rfl⟩ := List.mem_map.mp member
    split
    · exact delivered old stands
    · exact ordered.delivered old stands

end Outbox

structure RelayInv (s : WebhookSystem × Fired) : Prop where
  safe : RelaySafe s
  ordered : Ordered s.1.hub s.1.now
  accepted : ∀ rest ids, s.1.round = .firing rest ids → ∀ id ∈ ids, ∃ key, (id, key) ∈ s.2.all
  rest : ∀ rest ids, s.1.round = .firing rest ids →
    ∀ delivery ∈ rest, Known s.1.hub delivery.ingressId delivery.key

section Runs

variable {env : TriggerEnv} {nodeId : String} {s : WebhookSystem} {r : Fired}

section
variable (inv : RelayInv (s, r))
include inv

theorem RelayInv.hub {hub : WebhookHub} {round : PullRound}
    (ordered : Ordered hub s.now) (kept : ∀ id key, Known s.hub id key → Known hub id key)
    (acknowledged : ∀ row ∈ hub.outbox.rows, row.acknowledgedAt ≠ none →
      (∃ old ∈ s.hub.outbox.rows, old.ingressId = row.ingressId ∧ old.acknowledgedAt ≠ none) ∨
        ∃ key, (row.ingressId, key) ∈ r.all)
    (ids : ∀ rest ids, round = .firing rest ids → ∀ id ∈ ids, ∃ key, (id, key) ∈ r.all)
    (rest : ∀ rest ids, round = .firing rest ids →
      ∀ delivery ∈ rest, Known s.hub delivery.ingressId delivery.key) :
    RelayInv ({ s with hub, round }, r) where
  safe :=
    { fired := fun row stands seen => by
        rcases acknowledged row stands seen with ⟨old, there, same, before⟩ | fired
        · exact same ▸ inv.safe.fired old there before
        · exact fired, named := fun entry member => kept _ _ (inv.safe.named entry member),
      stored := inv.safe.stored, once := inv.safe.once }
  ordered := ordered
  accepted := ids
  rest remaining ids at' delivery member := kept _ _ (rest remaining ids at' delivery member)

theorem RelayInv.store {store : TriggerStore} (once : (TriggerKeys store).Nodup)
    (stored : ∀ key, key ∈ TriggerKeys s.store → key ∈ TriggerKeys store) :
    RelayInv ({ s with store }, r) :=
  { inv with
    safe :=
      { fired := inv.safe.fired, named := inv.safe.named,
        stored := fun entry member => stored _ (inv.safe.stored entry member), once } }

theorem RelayInv.clock {now : Time} (later : s.now ≤ now) : RelayInv ({ s with now }, r) :=
  { inv with
    safe := ⟨inv.safe.fired, inv.safe.named, inv.safe.stored, inv.safe.once⟩
    ordered := inv.ordered.later later }

theorem RelayInv.idle : RelayInv ({ s with round := .idle }, r) where
  safe := ⟨inv.safe.fired, inv.safe.named, inv.safe.stored, inv.safe.once⟩
  ordered := inv.ordered
  accepted rest ids at' := by cases at'
  rest rest ids at' := by cases at'

theorem RelayInv.accept {routeId externalEventId payload : String}
    {hub : WebhookHub} (taken : s.hub.acceptWebhook routeId externalEventId payload s.now = some hub) :
    RelayInv ({ s with hub }, r) := by
  rcases acceptWebhook_cases taken with rfl | ⟨row, outbox, inserted, next, never, unseen, rfl⟩
  · exact inv
  · refine inv.hub (inv.ordered.insert inserted next never) (fun _ _ known => known.insert inserted)
      (fun other stands seen => .inl ?_) inv.accepted inv.rest
    rw [Table.insert_rows inserted] at stands
    rcases List.mem_concat.mp stands with old | new
    · exact ⟨other, old, rfl, seen⟩
    · rw [new] at seen
      exact absurd unseen seen

end

theorem delivery_known {hub : WebhookHub} {row : IngressRow} {delivery : Delivery}
    (stands : row ∈ hub.outbox.rows) (made : hub.delivery nodeId row = some delivery) :
    Known hub delivery.ingressId delivery.key := by
  obtain ⟨route, active, rfl⟩ := Option.map_eq_some_iff.mp made
  have read := (Option.filter_eq_some_iff.mp active).1
  refine ⟨row, stands, rfl, ?_⟩
  unfold WebhookHub.keyOf
  rw [read]
  rfl

theorem mem_pulled {hub : WebhookHub} {limit : Nat} {now : Time} {row : IngressRow}
    (member : row ∈ hub.pulled nodeId limit now) : row ∈ hub.outbox.rows := by
  have listed := List.mem_of_mem_take member
  rw [List.mem_insertionSort, List.mem_filter] at listed
  exact (List.mem_filter.mp listed.1).1

theorem RelayInv.pull (inv : RelayInv (s, r)) {round : PullRound}
    (round_eq : round = .firing (s.hub.pullWebhookEvents nodeId 50 s.now).1 [] ∨ round = .idle) :
    RelayInv ({ s with hub := (s.hub.pullWebhookEvents nodeId 50 s.now).2, round }, r) := by
  refine inv.hub (inv.ordered.update fun row _ => decide_eq_true le_rfl)
    (fun _ _ known => known.update fun _ => rfl) (fun row stands seen => .inl ?_) ?_ ?_
  · obtain ⟨old, there, rfl⟩ := List.mem_map.mp stands
    refine ⟨old, there, ?_⟩
    split at seen
    all_goals
      rename_i selected
      first | rw [if_pos selected] | rw [if_neg selected]
      exact ⟨rfl, seen⟩
  · rintro rest ids at' id member
    rcases round_eq with rfl | rfl
    · cases at'
      cases member
    · cases at'
  · rintro rest ids at' delivery member
    rcases round_eq with rfl | rfl
    · cases at'
      obtain ⟨row, pulled, made⟩ := List.mem_filterMap.mp member
      exact delivery_known (mem_pulled pulled) made
    · cases at'

theorem RelayInv.fire (inv : RelayInv (s, r)) {now : Time} {delivery : Delivery}
    {rest : List Delivery} {ids : List Nat} {store : TriggerStore}
    (at' : s.round = .firing (delivery :: rest) ids)
    (fired : fireTrigger env now delivery s.store = some store) :
    RelayInv ({ s with store, round := .firing rest (ids ++ [delivery.ingressId]) },
      r.add delivery) := by
  have taken := Knoa.Automation.trigger_step_taken fired
  refine ⟨⟨fun row stands seen => ?_, fun entry member => ?_, fun entry member => ?_,
    TriggerTaken.once taken inv.safe.once⟩, inv.ordered, fun later accepted now' id member => ?_,
    fun later accepted now' other member => ?_⟩
  · obtain ⟨key, listed⟩ := inv.safe.fired row stands seen
    exact ⟨key, List.mem_cons_of_mem _ listed⟩
  · rcases List.mem_cons.mp member with rfl | before
    · exact inv.rest _ _ at' delivery List.mem_cons_self
    · exact inv.safe.named entry before
  · rcases List.mem_cons.mp member with rfl | before
    · exact (fireTrigger_stands fired).key
    · exact TriggerTaken.keys taken (inv.safe.stored entry before)
  · cases now'
    rcases List.mem_concat.mp member with before | here
    · obtain ⟨key, listed⟩ := inv.accepted _ _ at' id before
      exact ⟨key, List.mem_cons_of_mem _ listed⟩
    · rw [here]
      exact ⟨delivery.key, List.mem_cons_self⟩
  · cases now'
    exact inv.rest _ _ at' other (List.mem_cons_of_mem _ member)

theorem RelayInv.acknowledge (inv : RelayInv (s, r)) {ids : List Nat}
    (fired : ∀ id ∈ ids, ∃ key, (id, key) ∈ r.all) : RelayInv ({ s with
      hub := s.hub.acknowledgeWebhookEvents nodeId ids s.now, round := .idle }, r) := by
  refine inv.hub (inv.ordered.update inv.ordered.delivered)
    (fun _ _ known => known.update fun _ => rfl) (fun row stands seen => ?_)
    nofun nofun
  obtain ⟨old, there, rfl⟩ := List.mem_map.mp stands
  split at seen
  next selected =>
    rw [if_pos selected]
    rw [Bool.and_eq_true, decide_eq_true_eq] at selected
    exact .inr (fired _ selected.1)
  next other =>
    rw [if_neg other]
    exact .inl ⟨old, there, rfl, seen⟩

theorem RelayInv.deleteTrigger (inv : RelayInv (s, r)) {principalId triggerId : String}
    {store : TriggerStore} (taken : deleteTrigger s.store principalId triggerId = some store) :
    RelayInv ({ s with store }, r.delete triggerId) := by
  obtain ⟨row, -, rfl⟩ := Option.map_eq_some_iff.mp taken
  refine ⟨⟨inv.safe.fired, inv.safe.named, fun entry member => ?_, ?_⟩, inv.ordered, inv.accepted,
    inv.rest⟩
  · obtain ⟨member, other⟩ := List.mem_filter.mp member
    obtain ⟨event, stands, keyed⟩ := List.mem_map.mp (inv.safe.stored entry member)
    refine List.mem_map.mpr ⟨event, List.mem_filter.mpr ⟨stands, ?_⟩, keyed⟩
    rw [← keyed] at other
    simpa [TriggerEventRow.key] using other
  · exact inv.safe.once.sublist (List.filter_sublist.map _)

theorem relayInv_step (s : WebhookSystem × Fired) (l : WebhookLabel) (s' : WebhookSystem × Fired)
    (inv : RelayInv s) (ran : webhookRun env nodeId s l = some s') : RelayInv s' := by
  obtain ⟨s, r⟩ := s
  obtain ⟨s', r'⟩ := s'
  obtain ⟨taken, noted⟩ := Transition.recording_eq_some_iff.mp ran
  dsimp only at taken noted
  subst noted
  cases l with
  | clock now =>
    simp only [webhookStep] at taken
    split at taken
    next later =>
      cases taken
      exact inv.clock later
    next => cases taken
  | accept routeId externalEventId payload =>
    simp only [webhookStep, Option.bind_eq_bind, Option.bind_eq_some_iff] at taken
    obtain ⟨hub, accepted, result⟩ := taken
    cases result
    exact inv.accept accepted
  | deleteRoute routeId =>
    cases taken
    exact inv.hub ⟨inv.ordered.ascending, inv.ordered.fresh, inv.ordered.delivered⟩
      (fun _ _ known => known.deleteRoute) (fun row stands seen => .inl ⟨row, stands, rfl, seen⟩)
      inv.accepted inv.rest
  | pull request =>
    simp only [webhookStep] at taken
    split at taken
    next idle =>
      cases request with
      | answered =>
        cases taken
        exact inv.pull (.inl rfl)
      | answerLost =>
        cases taken
        rw [show s.round = .idle from idle]
        exact inv.pull (.inr rfl)
      | lost =>
        cases taken
        exact inv
    next => cases taken
  | fire now =>
    simp only [webhookStep] at taken
    split at taken
    next delivery rest ids firing =>
      split at taken
      next store fired =>
        cases taken
        have note : firedNote s (.fire now)
            { s with store, round := .firing rest (ids ++ [delivery.ingressId]) } r =
              r.add delivery := by
          simp only [firedNote, firing]
        rw [note]
        exact inv.fire firing fired
      next =>
        cases taken
        have note : firedNote s (.fire now) { s with round := .idle } r = r := by
          simp only [firedNote, firing]
        rw [note]
        exact inv.idle
    next => cases taken
  | acknowledge request =>
    simp only [webhookStep] at taken
    split at taken
    next ids firing =>
      cases taken
      split
      · exact inv.idle
      · exact inv.acknowledge (inv.accepted _ _ firing)
    next => cases taken
  | crash =>
    cases taken
    exact inv.idle
  | trigger op =>
    simp only [webhookStep, Option.bind_eq_bind, Option.bind_eq_some_iff] at taken
    obtain ⟨store, called, result⟩ := taken
    cases result
    have change := Knoa.Automation.trigger_step_taken called
    exact inv.store (TriggerTaken.once change inv.safe.once) fun _ there =>
      TriggerTaken.keys change there
  | deleteTrigger principalId triggerId =>
    simp only [webhookStep, Option.bind_eq_bind, Option.bind_eq_some_iff] at taken
    obtain ⟨store, deleted, result⟩ := taken
    cases result
    exact inv.deleteTrigger deleted

end Runs

end Knoa.Hub
