import Knoa.Hub.NodeControl

/-!
# Nodes leave each other's rows alone

Which requests of the Nodes keep the rows that other Nodes have created, and when a run of them
does.
-/
namespace Knoa.Hub.Control

open Relational Transaction

variable (digests : Digests)

structure Isolated (nodeId : String) (s s' : ControlStore) : Prop where
  resources : ∀ row ∈ s.resources.rows, ∀ other, other ≠ nodeId →
    row.createdBy = nodeCreator other → row ∈ s'.resources.rows
  deployments : ∀ row ∈ s.deployments.rows, row.targetNodeId ≠ nodeId → row ∈ s'.deployments.rows
  observations : ∀ row ∈ s.observations.rows, row.nodeId ≠ nodeId → row ∈ s'.observations.rows
  projections : ∀ row ∈ s.projections.rows, row.nodeId ≠ nodeId → row ∈ s'.projections.rows
  notifications : ∀ row ∈ s.notifications.rows, row.intent.nodeId ≠ nodeId →
    row ∈ s'.notifications.rows
  routes : ∀ row ∈ s.routes.rows, row.nodeId ≠ nodeId → row ∈ s'.routes.rows

def signer (s : ControlHub) : ControlStep → Option String
  | .beginShare _ nodeId _ | .beginProjection _ nodeId _ | .beginObservation _ nodeId _
  | .beginRotate _ nodeId _ | .reconcile nodeId _ _ _ | .notify nodeId _ _ _ | .provision nodeId _
  | .deleteRoute nodeId _ => some nodeId
  | .advance i _ _ | .fail i => (s.calls.lookup i).map Call.nodeId

def Isolates (s : ControlHub) (label : ControlStep) : Prop :=
  ∀ s' nodeId, s.step digests label = some s' → signer s label = some nodeId →
    Isolated nodeId s.store s'.store

def Stands {ρ : Type} (own : ρ → Prop) (now read : Option ρ) : Prop :=
  now = read ∨ ∀ row ∈ now, own row

def Work.Undisturbed (store : ControlStore) (nodeId : String) : Work → Prop
  | .share publication (.admitted _ read _ _) _ =>
    Stands (fun row : WorkspaceResource => row.createdBy = nodeCreator nodeId)
      (store.resources.lookup publication.resourceId) read
  | .share publication (.deploying deployment _ _) _ =>
    Stands (fun row : Deployment => row.targetNodeId = nodeId)
      (store.deployments.lookup publication.deploymentId) deployment
  | .projection item seen =>
    Stands (fun row : WorkRow => row.nodeId = nodeId)
      (store.projections.lookup item.key) seen
  | _ => True

/-- No projection of another Node is older than one that is published, and writes meet what was
read. -/
def Undisturbed (s : ControlHub) : ControlStep → Prop
  | .beginProjection _ nodeId item => ∀ row ∈ s.store.projections.lookup item.key,
      row.nodeId = nodeId ∨ item.projectionSeq ≤ row.item.projectionSeq
  | .advance i _ _ => ∀ call ∈ s.calls.lookup i, call.work.Undisturbed s.store call.nodeId
  | _ => True

theorem nodeCreator_inj {a b : String} (same : nodeCreator a = nodeCreator b) : a = b := by
  have lists := congrArg String.toList same
  unfold nodeCreator at lists
  rw [String.toList_append, String.toList_append] at lists
  exact String.toList_inj.mp (List.append_cancel_left lists)

section
variable {ρ κ : Type} {key : ρ → κ} [DecidableEq κ]

variable {t : Table key} {row : ρ}

theorem mem_upsert {item : ρ} (Other : ρ → Prop)
    (free : ∀ found ∈ t.lookup (key item), ¬Other found) (member : row ∈ t.rows)
    (other : Other row) :
    row ∈ (t.upsert item).rows := by
  have found := Table.lookup_of_mem member
  have different : key item ≠ key row := by
    intro same
    rw [← same] at found
    exact free row found other
  refine Table.lookup_mem (k := key row) ?_
  rw [Table.lookup_upsert, if_neg different]
  exact found

omit [DecidableEq κ] in
theorem mem_update {p : ρ → Bool} {f : ρ → ρ} (keep : ∀ row, key (f row) = key row)
    (member : row ∈ t.rows) (apart : p row = false) : row ∈ (t.update p f keep).rows := by
  rw [Table.update_rows]
  refine List.mem_map.mpr ⟨row, member, ?_⟩
  rw [apart]
  rfl

theorem mem_insert {u : Table key} {item : ρ} (inserted : t.insert item = some u)
    (member : row ∈ t.rows) : row ∈ u.rows := by
  rw [Table.insert_rows inserted]
  exact List.mem_append_left _ member

end

theorem Isolated.refl (nodeId : String) (s : ControlStore) : Isolated nodeId s s where
  resources := fun _ member _ _ _ => member
  deployments := fun _ member _ => member
  observations := fun _ member _ => member
  projections := fun _ member _ => member
  notifications := fun _ member _ => member
  routes := fun _ member _ => member

theorem Stands.own {ρ : Type} {own : ρ → Prop} {now read : Option ρ} (stands : Stands own now read)
    (mine : ∀ row ∈ read, own row) : ∀ row ∈ now, own row := by
  rcases stands with same | here
  · rw [same]
    exact mine
  · exact here

def ShareStage.Owned (nodeId : String) (publication : Publication) : ShareStage → Prop
  | .located deployment | .stored deployment _ | .resolved deployment _ _ =>
    ∀ row ∈ deployment, row.targetNodeId = nodeId
  | .resource deployment read item | .admitted deployment read item _ =>
    (∀ row ∈ deployment, row.targetNodeId = nodeId) ∧
      (∀ row ∈ read, row.createdBy = nodeCreator nodeId) ∧
      item.createdBy = nodeCreator nodeId ∧ item.resourceId = publication.resourceId
  | .matched deployment item | .deploying deployment item _ =>
    (∀ row ∈ deployment, row.targetNodeId = nodeId) ∧ item.targetNodeId = nodeId ∧
      item.deploymentId = publication.deploymentId
  | _ => True

def Work.Owned (store : ControlStore) (nodeId : String) : Work → Prop
  | .share publication stage _ => stage.Owned nodeId publication
  | .projection _ seen => ∀ row ∈ seen, row.nodeId = nodeId
  | .observation item => item.nodeId = nodeId ∧
      ∃ row ∈ store.deployments.lookup item.deploymentId, row.targetNodeId = nodeId
  | .rotate routeId => ∃ row ∈ store.routes.lookup routeId, row.nodeId = nodeId

structure Reached (s : ControlHub) : Prop where
  observed : ∀ row ∈ s.store.observations.rows,
    ∃ deployment ∈ s.store.deployments.lookup row.deploymentId, deployment.targetNodeId = row.nodeId
  calls : ∀ call ∈ s.calls.rows, call.work.Owned s.store call.nodeId

structure Settled (s s' : ControlStore) : Prop where
  deployments : ∀ id, ∀ row ∈ s.deployments.lookup id,
    ∃ row' ∈ s'.deployments.lookup id, row'.targetNodeId = row.targetNodeId
  routes : ∀ id, ∀ row ∈ s.routes.lookup id, ∃ row' ∈ s'.routes.lookup id, row'.nodeId = row.nodeId

theorem Settled.of_same {s s' : ControlStore} (deployments : s'.deployments = s.deployments)
    (routes : s'.routes = s.routes) : Settled s s' where
  deployments := by
    rw [deployments]
    exact fun _ row found => ⟨row, found, rfl⟩
  routes := by
    rw [routes]
    exact fun _ row found => ⟨row, found, rfl⟩

variable {nodeId : String} {work : Work}

theorem Work.Owned.settled {s s' : ControlStore} (owned : work.Owned s nodeId)
    (settled : Settled s s') : work.Owned s' nodeId := by
  cases work with
  | share publication stage overlapped | projection item seen => exact owned
  | observation item =>
    obtain ⟨node, row, found, target⟩ := owned
    obtain ⟨row', found', same⟩ := settled.deployments _ row found
    exact ⟨node, row', found', same.trans target⟩
  | rotate routeId =>
    obtain ⟨row, found, node⟩ := owned
    obtain ⟨row', found', same⟩ := settled.routes _ row found
    exact ⟨row', found', same.trans node⟩

theorem planResource_put {publication : Publication} {deployment : Option Deployment}
    {current : Option WorkspaceResource} {item : WorkspaceResource}
    (planned : planResource digests nodeId publication deployment current = .ok (.put item)) :
    (∀ row ∈ current, row.createdBy = nodeCreator nodeId) ∧
      item.createdBy = nodeCreator nodeId ∧ item.resourceId = publication.resourceId := by
  unfold planResource at planned
  split at planned
  · cases planned
    refine ⟨?_, rfl, rfl⟩
    intro row none
    cases none
  · split at planned
    · rename_i own
      cases planned
      refine ⟨?_, rfl, rfl⟩
      rintro row ⟨⟩
      exact own
    · split at planned <;> cases planned

variable {store : ControlStore}

theorem put_resource_isolated {item : WorkspaceResource}
    (own : ∀ row ∈ store.resources.lookup item.resourceId, row.createdBy = nodeCreator nodeId) :
    Isolated nodeId store { store with resources := store.resources.upsert item } :=
  { Isolated.refl nodeId store with
    resources := by
      intro row member other different created
      refine mem_upsert (fun row => row.createdBy = nodeCreator other) ?_ member created
      intro found known theirs
      exact different (nodeCreator_inj (theirs.symm.trans (own found known))) }

theorem put_deployment_isolated {item : Deployment}
    (own : ∀ row ∈ store.deployments.lookup item.deploymentId, row.targetNodeId = nodeId) :
    Isolated nodeId store { store with deployments := store.deployments.upsert item } :=
  { Isolated.refl nodeId store with
    deployments := by
      intro row member other
      refine mem_upsert (fun row => row.targetNodeId ≠ nodeId) ?_ member other
      intro found known theirs
      exact theirs (own found known) }

theorem put_deployment_settled {item : Deployment} (target : item.targetNodeId = nodeId)
    (own : ∀ row ∈ store.deployments.lookup item.deploymentId, row.targetNodeId = nodeId) :
    Settled store { store with deployments := store.deployments.upsert item } where
  deployments := by
    intro id row found
    by_cases same : item.deploymentId = id
    · subst same
      refine ⟨item, ?_, target.trans (own row found).symm⟩
      rw [Table.lookup_upsert, if_pos rfl]
      rfl
    · refine ⟨row, ?_, rfl⟩
      rw [Table.lookup_upsert, if_neg same]
      exact found
  routes := fun _ row found => ⟨row, found, rfl⟩

theorem shareStep_isolated {store' : ControlStore} {publication : Publication}
    {now : Knoa.Tasks.Time} {stage stage' : ShareStage} {overlapped : Bool}
    (owned : stage.Owned nodeId publication)
    (undisturbed : (Work.share publication stage overlapped).Undisturbed store nodeId)
    (stepped : ControlHub.shareStep digests store nodeId publication now stage =
      .ok (store', stage')) :
    Isolated nodeId store store' ∧ Settled store store' ∧
      store'.observations = store.observations ∧ stage'.Owned nodeId publication := by
  have still : ∀ {after : ShareStage}, after.Owned nodeId publication →
      Isolated nodeId store store ∧ Settled store store ∧
        store.observations = store.observations ∧ after.Owned nodeId publication :=
    fun owned => ⟨Isolated.refl nodeId store, Settled.of_same rfl rfl, rfl, owned⟩
  cases stage with
  | verified =>
    simp only [ControlHub.shareStep, bind_ok_iff, require_ok_iff] at stepped
    obtain ⟨_, own, stepped⟩ := stepped
    cases stepped
    exact still own
  | located deployment =>
    simp only [ControlHub.shareStep, bind_ok_iff] at stepped
    obtain ⟨plan, planned, stepped⟩ := stepped
    cases plan with
    | put item =>
      cases stepped
      exact still ⟨owned, planResource_put digests planned⟩
    | keep resource =>
      cases stepped
      exact still owned
  | resource deployment read item | stored deployment generation | matched deployment item =>
    simp only [ControlHub.shareStep, bind_ok_iff] at stepped
    obtain ⟨_, _, stepped⟩ := stepped
    cases stepped
    exact still owned
  | admitted deployment read item seen =>
    cases stepped
    obtain ⟨mine, own, created, named⟩ := owned
    have stands : ∀ row ∈ store.resources.lookup item.resourceId,
        row.createdBy = nodeCreator nodeId := by
      rw [named]
      exact Stands.own undisturbed own
    exact ⟨put_resource_isolated stands, Settled.of_same rfl rfl, rfl, mine⟩
  | resolved deployment generation digest =>
    simp only [ControlHub.shareStep, bind_ok_iff] at stepped
    obtain ⟨_, _, stepped⟩ := stepped
    cases stepped
    exact still ⟨owned, rfl, rfl⟩
  | deploying deployment item seen =>
    cases stepped
    obtain ⟨mine, target, named⟩ := owned
    have stands : ∀ row ∈ store.deployments.lookup item.deploymentId,
        row.targetNodeId = nodeId := by
      rw [named]
      exact Stands.own undisturbed mine
    exact ⟨put_deployment_isolated stands, put_deployment_settled target stands, rfl, trivial⟩
  | deployed =>
    cases stepped
    exact still trivial
  | revoking grants =>
    cases grants with
    | nil =>
      cases stepped
      exact still trivial
    | cons grant grants =>
      cases stepped
      exact ⟨{ Isolated.refl nodeId store with }, Settled.of_same rfl rfl, rfl, trivial⟩
  | granting callers =>
    cases callers with
    | nil =>
      cases stepped
      exact still trivial
    | cons caller callers =>
      simp only [ControlHub.shareStep, bind_ok_iff] at stepped
      obtain ⟨_, _, _, _, stepped⟩ := stepped
      cases stepped
      exact ⟨{ Isolated.refl nodeId store with }, Settled.of_same rfl rfl, rfl, trivial⟩

namespace Reached
variable {s s' : ControlHub}

theorem called (inv : Reached s) (store : s'.store = s.store)
    (calls : ∀ call ∈ s'.calls.rows, call.work.Owned s.store call.nodeId) : Reached s' where
  observed := by
    rw [store]
    exact inv.observed
  calls := by
    rw [store]
    exact calls

theorem started (inv : Reached s) {i : Nat} (begun : s.start i nodeId work = some s')
    (owned : work.Owned s.store nodeId) : Reached s' := by
  obtain ⟨calls, inserted, rfl⟩ := ControlHub.start_some begun
  refine inv.called rfl ?_
  intro call member
  rw [Table.insert_rows inserted] at member
  rcases List.mem_concat.mp member with known | here
  · exact inv.calls call known
  · rw [here]
    exact owned

theorem stored (inv : Reached s) (settled : Settled s.store store)
    (observations : ∀ row ∈ store.observations.rows, row ∈ s.store.observations.rows ∨
      ∃ deployment ∈ store.deployments.lookup row.deploymentId,
      deployment.targetNodeId = row.nodeId) :
    Reached { s with store } where
  observed := by
    intro row member
    rcases observations row member with known | new
    · obtain ⟨deployment, found, target⟩ := inv.observed row known
      obtain ⟨after, found', same⟩ := settled.deployments _ deployment found
      exact ⟨after, found', same.trans target⟩
    · exact new
  calls := fun call member => (inv.calls call member).settled settled

theorem left (inv : Reached s) (i : Nat) : Reached (s.leave i) :=
  inv.called rfl fun call member => inv.calls call (Table.mem_delete member)

theorem moved (inv : Reached s) {call : Call} (owned : work.Owned s.store call.nodeId) :
    Reached (s.move call work) := by
  refine inv.called rfl ?_
  intro other member
  rcases List.mem_concat.mp member with known | here
  · exact inv.calls other (Table.mem_delete known)
  · rw [here]
    exact owned

end Reached

theorem settled_routes {p : Route → Bool} {f : Route → Route}
    {keep : ∀ row, (f row).routeId = row.routeId} (node : ∀ row, (f row).nodeId = row.nodeId) :
    Settled store { store with routes := store.routes.update p f keep } where
  deployments := fun _ row found => ⟨row, found, rfl⟩
  routes := by
    intro id row found
    refine ⟨if p row then f row else row, ?_, ?_⟩
    · rw [Table.lookup_update, Option.mem_def.mp found]
      rfl
    · split
      · exact node row
      · rfl

theorem routes_isolated {p : Route → Bool} {f : Route → Route}
    {keep : ∀ row, (f row).routeId = row.routeId}
    (apart : ∀ row ∈ store.routes.rows, row.nodeId ≠ nodeId → p row = false) :
    Isolated nodeId store { store with routes := store.routes.update p f keep } :=
  { Isolated.refl nodeId store with
    routes := fun row member other => mem_update keep member (apart row member other) }

theorem overlap_work (store : ControlStore) (call : Call) (nodeId : String) :
    (ControlHub.Call.overlap call).work.Owned store nodeId ↔ call.work.Owned store nodeId := by
  unfold ControlHub.Call.overlap
  split
  · rename_i work
    rw [work]
    exact Iff.rfl
  · exact Iff.rfl

/-- A step that leaves what was read alone keeps the invariant and the rows of other Nodes. -/
theorem step_isolated {s s' : ControlHub} {label : ControlStep} (inv : Reached s)
    (undisturbed : Undisturbed s label) (taken : s.step digests label = some s') :
    Reached s' ∧ ∀ nodeId, signer s label = some nodeId → Isolated nodeId s.store s'.store := by
  have still : s'.store = s.store → ∀ nodeId, signer s label = some nodeId →
      Isolated nodeId s.store s'.store := by
    intro same nodeId _
    rw [same]
    exact Isolated.refl nodeId s.store
  cases label with
  | beginShare i nodeId publication =>
    simp only [ControlHub.step] at taken
    split at taken
    · cases taken
    · have before : Reached { s with
          calls := s.calls.update (ControlHub.shares publication.deploymentId)
            ControlHub.Call.overlap ControlHub.overlap_slot } := by
        refine inv.called rfl ?_
        intro call member
        rw [Table.update_rows] at member
        obtain ⟨old, known, rfl⟩ := List.mem_map.mp member
        have owned := inv.calls old known
        split
        · have node : (ControlHub.Call.overlap old).nodeId = old.nodeId := by
            unfold ControlHub.Call.overlap
            split <;> rfl
          rw [node, overlap_work]
          exact owned
        · exact owned
      have same := ControlHub.start_store taken
      exact ⟨before.started taken trivial, still same⟩
  | beginProjection i nodeId item =>
    simp only [ControlHub.step] at taken
    split at taken
    · rename_i newer
      refine ⟨inv.started taken ?_, still (ControlHub.start_store taken)⟩
      intro row found
      rcases undisturbed row found with own | older
      · exact own
      · exact absurd (newer row found) (not_lt.mpr older)
    · cases taken
  | beginObservation i nodeId item =>
    simp only [ControlHub.step] at taken
    split at taken
    · rename_i deployment found
      split at taken
      · rename_i target
        exact ⟨inv.started taken ⟨rfl, deployment, found, target⟩, still (ControlHub.start_store taken)⟩
      · cases taken
    · cases taken
  | beginRotate i nodeId routeId =>
    simp only [ControlHub.step] at taken
    split at taken
    · rename_i route found
      split at taken
      · rename_i node
        exact ⟨inv.started taken ⟨route, found, node⟩, still (ControlHub.start_store taken)⟩
      · cases taken
    · cases taken
  | advance i now secretCiphertext =>
    simp only [ControlHub.step] at taken
    split at taken
    · cases taken
    rename_i call found
    have owned := inv.calls call (Table.lookup_mem found)
    have clean := undisturbed call found
    have signed : ∀ {nodeId}, signer s (.advance i now secretCiphertext) = some nodeId →
        nodeId = call.nodeId := by
      intro nodeId signs
      unfold signer at signs
      dsimp only at signs
      rw [found] at signs
      exact (Option.some.inj signs).symm
    split at taken
    · cases taken
      exact ⟨inv.left i, still rfl⟩
    · rename_i publication stage overlapped _ work
      rw [work] at owned clean
      split at taken
      · cases taken
        exact ⟨inv.left i, still rfl⟩
      · rename_i store after stepped
        cases taken
        obtain ⟨isolated, settled, observations, owned'⟩ :=
          shareStep_isolated digests owned clean stepped
        have stored : Reached { s with store } := by
          refine inv.stored settled fun row member => .inl ?_
          rw [observations] at member
          exact member
        refine ⟨stored.moved owned', ?_⟩
        intro nodeId signs
        rw [signed signs]
        exact isolated
    · rename_i item seen work
      rw [work] at owned clean
      cases taken
      have stored : Reached { s with store := { s.store with
          projections := s.store.projections.upsert
            { nodeId := call.nodeId, item, projectedAt := now } } } :=
        inv.stored (Settled.of_same rfl rfl) fun row member => .inl member
      refine ⟨stored.left i, ?_⟩
      intro nodeId signs
      rw [signed signs]
      refine { Isolated.refl call.nodeId s.store with projections := ?_ }
      intro row member other
      refine mem_upsert (fun row => row.nodeId ≠ call.nodeId) ?_ member other
      intro known standing theirs
      exact theirs (Stands.own clean owned known standing)
    · rename_i item work
      rw [work] at owned
      obtain ⟨node, deployment, standing, target⟩ := owned
      cases taken
      have stored : Reached { s with store := { s.store with
          observations := s.store.observations.upsert item } } := by
        refine inv.stored (Settled.of_same rfl rfl) ?_
        intro row member
        rcases List.mem_concat.mp member with known | here
        · exact .inl (Table.mem_delete known)
        · rw [here]
          exact .inr ⟨deployment, standing, target.trans node.symm⟩
      refine ⟨stored.left i, ?_⟩
      intro nodeId signs
      rw [signed signs]
      refine { Isolated.refl call.nodeId s.store with observations := ?_ }
      intro row member other
      refine mem_upsert (fun row => row.nodeId ≠ call.nodeId) ?_ member other
      intro known here theirs
      obtain ⟨deployment', standing', target'⟩ := inv.observed known (Table.lookup_mem here)
      rw [Table.lookup_key here, Option.mem_def.mp standing] at standing'
      cases standing'
      exact theirs (target'.symm.trans target)
    · rename_i routeId work
      rw [work] at owned
      obtain ⟨route, standing, node⟩ := owned
      cases taken
      have stored : Reached { s with store := { s.store with
          routes := rotateWebhookSecret routeId secretCiphertext (now + 300) s.store.routes } } :=
        inv.stored (settled_routes fun _ => rfl) fun row member => .inl member
      refine ⟨stored.left i, ?_⟩
      intro nodeId signs
      rw [signed signs]
      refine routes_isolated ?_
      intro row member other
      have different : row.routeId ≠ routeId := by
        intro same
        have here := Table.lookup_of_mem member
        rw [same, Option.mem_def.mp standing] at here
        cases here
        exact other node
      rw [beq_false_of_ne different, Bool.false_and]
  | fail i =>
    cases taken
    exact ⟨inv.left i, still rfl⟩
  | reconcile nodeId entityKind principalId active =>
    cases taken
    refine ⟨inv.stored (Settled.of_same rfl rfl) fun row member => .inl member, ?_⟩
    rintro _ ⟨⟩
    refine { Isolated.refl nodeId s.store with projections := ?_ }
    intro row member other
    refine List.mem_filter.mpr ⟨member, ?_⟩
    simp only [beq_false_of_ne other, Bool.false_and, Bool.not_false]
  | notify nodeId intentId intent now =>
    cases taken
    refine ⟨inv.stored (Settled.of_same rfl rfl) fun row member => .inl member, ?_⟩
    rintro _ ⟨⟩
    refine { Isolated.refl nodeId s.store with notifications := ?_ }
    intro row member _
    unfold putNotificationIntent
    dsimp only
    split
    · exact member
    · cases inserted : s.store.notifications.insert _ with
      | none => exact member
      | some inbox => exact mem_insert inserted member
  | provision nodeId item =>
    simp only [ControlHub.step, Option.map_eq_some_iff] at taken
    obtain ⟨routes, put, rfl⟩ := taken
    have kept : ∀ row ∈ s.store.routes.rows, row ∈ routes.rows := by
      intro row member
      unfold putWebhookRoute at put
      split at put
      · cases put
        exact member
      · exact mem_insert put member
    refine ⟨inv.stored ⟨fun _ row found => ⟨row, found, rfl⟩, ?_⟩ fun row member => .inl member, ?_⟩
    · intro id row found
      refine ⟨row, ?_, rfl⟩
      have here := Table.lookup_of_mem (kept row (Table.lookup_mem found))
      rw [Table.lookup_key found] at here
      exact here
    · rintro _ ⟨⟩
      exact { Isolated.refl nodeId s.store with routes := fun row member _ => kept row member }
  | deleteRoute nodeId routeId =>
    cases taken
    refine ⟨inv.stored (settled_routes fun _ => rfl) fun row member => .inl member, ?_⟩
    rintro _ ⟨⟩
    refine routes_isolated ?_
    intro row _ other
    rw [beq_false_of_ne other, Bool.and_false]

structure Idle (s : ControlHub) : Prop where
  calls : s.calls = .empty
  observed : ∀ row ∈ s.store.observations.rows,
    ∃ deployment ∈ s.store.deployments.lookup row.deploymentId, deployment.targetNodeId = row.nodeId

/-- From any tables, requests leave the rows of other Nodes alone while no publication meets an
older projection of another Node, and no Node writes over a row that another one has put since it
was read. -/
theorem nodes_isolated {s : ControlHub} (idle : Idle s) (labels : List ControlStep)
    (undisturbed : ∀ taken ∈ Transition.accepted (ControlHub.step digests) s labels,
      Undisturbed taken.1 taken.2) :
    ∀ taken ∈ Transition.accepted (ControlHub.step digests) s labels,
      Isolates digests taken.1 taken.2 := by
  have start : Reached s := by
    refine ⟨idle.observed, ?_⟩
    rw [idle.calls]
    intro call member
    cases member
  exact Transition.accepted_of_clean
    (fun _ _ _ inv clean taken => (step_isolated digests inv clean taken).1)
    (fun _ _ _ inv clean _ _ nodeId taken signs =>
      (step_isolated digests inv clean taken).2 nodeId signs) start undisturbed

def plainDigests : Digests where
  spec := fun _ => "digest"
  text := id

def chatProjection (title : String) (projectionSeq : Int) : Projection where
  entityKind := .conversation
  entityId := "chat"
  principalId := "owner"
  title := title
  state := "active"
  sourceGeneration := 1
  projectionSeq := projectionSeq
  payload := .conversation "agent" 1 none

/-- Two Nodes publish and one of them reconciles what it has. -/
theorem nodes_isolated_turns : Transition.Along (fun taken => Isolates plainDigests taken.1 taken.2)
      (Transition.accepted (ControlHub.step plainDigests) {}
        [.beginProjection 0 "a" (chatProjection "ours" 1), .advance 0 0 "",
          .beginProjection 1 "a" (chatProjection "renamed" 2), .advance 1 0 "",
          .reconcile "b" .conversation "owner" []]) := by
  refine nodes_isolated plainDigests ⟨rfl, fun row member => by cases member⟩ _ ?_
  have next := @Transition.accepted_forall_cons _ _ (ControlHub.step plainDigests)
    (fun taken => Undisturbed taken.1 taken.2)
  refine next (by with_unfolding_all rfl) ?_ ?_
  · intro call wrong
    cases wrong
  refine next (by with_unfolding_all rfl) ?_ ?_
  · rintro call ⟨⟩
    exact .inl rfl
  refine next (by with_unfolding_all rfl) ?_ ?_
  · rintro row ⟨⟩
    exact .inl rfl
  refine next (by with_unfolding_all rfl) ?_ ?_
  · rintro call ⟨⟩
    exact .inl rfl
  refine next (by with_unfolding_all rfl) trivial ?_
  intro taken member
  cases member

/-- Node "b" publishes a projection under the conversation of Node "a". -/
def takenProjection : List ControlStep :=
  [.beginProjection 0 "a" (chatProjection "ours" 1), .advance 0 0 "",
    .beginProjection 0 "b" (chatProjection "theirs" 2)]

/-- When it is stored, the projection of "a" becomes one of "b". -/
theorem projection_taken_over : ¬∀ taken ∈ Transition.accepted (ControlHub.step plainDigests) {}
      (takenProjection ++ [.advance 0 0 ""]), Isolates plainDigests taken.1 taken.2 := by
  intro isolates
  have stepped : ControlHub.step plainDigests
      (Transition.final (ControlHub.step plainDigests) {} takenProjection) (.advance 0 0 "") =
      some (Transition.final (ControlHub.step plainDigests) {}
        (takenProjection ++ [.advance 0 0 ""])) := by
    with_unfolding_all rfl
  have isolated := isolates _ (Transition.mem_accepted_last stepped) _ "b" stepped
    (by with_unfolding_all rfl)
  have kept := isolated.projections
    { nodeId := "a", item := chatProjection "ours" 1, projectedAt := 0 }
    (by with_unfolding_all exact List.mem_cons_self) (by decide)
  have one : ({ nodeId := "a", item := chatProjection "ours" 1, projectedAt := 0 } : WorkRow) ∈
      [{ nodeId := "b", item := chatProjection "theirs" 2, projectedAt := 0 }] := kept
  exact absurd one (by decide)

end Knoa.Hub.Control
