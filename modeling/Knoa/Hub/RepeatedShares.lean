import Knoa.Hub.ModelShares

/-!
# Publishing the same again

A publication with no other request in between, a Node's whole set of them one after the other, and
the set once more.
-/
namespace Knoa.Hub.Control

open Relational (Table)
open Knoa.Tasks (Time)
open Transaction

variable (digests : Digests) (nodeId : String)

/-- The publication succeeds, with no other request in between. -/
def Publishes (publication : Publication) (s s' : ControlStore) : Prop :=
  ∃ times : List Time, ∃ call : Call, ∃ t : ControlHub,
    t = Transition.final (ControlHub.step digests) { store := s }
      (.beginShare 0 nodeId publication :: times.map fun now => .advance 0 now "") ∧
    call ∈ t.calls.rows ∧ call.Published publication ∧ t.store = s'

inductive PublishesAll : List Publication → ControlStore → ControlStore → Prop
  | nil (s : ControlStore) : PublishesAll [] s s
  | cons {publication : Publication} {publications : List Publication} {s t u : ControlStore}
      (first : Publishes digests nodeId publication s t) (rest : PublishesAll publications t u) :
      PublishesAll (publication :: publications) s u

def OneSpec (publications : List Publication) : Prop :=
  ∀ p ∈ publications, ∀ q ∈ publications, p.resourceId = q.resourceId → p.spec = q.spec

structure SameGenerations (s s' : ControlStore) : Prop where
  resources : ∀ id, (s'.resources.lookup id).map WorkspaceResource.generation =
    (s.resources.lookup id).map WorkspaceResource.generation
  deployments : ∀ id, (s'.deployments.lookup id).map Deployment.desiredGeneration =
    (s.deployments.lookup id).map Deployment.desiredGeneration

/-- What publications promise over a run; `Sets` are the sets whose repetition changes nothing. -/
structure Faithful (Sets : List Publication → Prop) (s : ControlHub) (labels : List ControlStep) :
    Prop where
  generations : (Transition.trace (ControlHub.step digests) s labels).Pairwise fun t t' =>
    KeepsGenerations t.store t'.store
  grants : ∀ t ∈ Transition.trace (ControlHub.step digests) s labels, ∀ call ∈ t.calls.rows,
    ∀ publication, call.Published publication → ExactGrants t.store publication
  repeated : ∀ t ∈ Transition.trace (ControlHub.step digests) s labels, ∀ nodeId publications,
    Sets publications → ∀ once twice, PublishesAll digests nodeId publications t.store once →
      PublishesAll digests nodeId publications once twice → SameGenerations once twice

/-- The deployments of a set are the keys of a mapping. -/
def Distinct (publications : List Publication) : Prop :=
  (publications.map Publication.deploymentId).Nodup

section
variable (publication : Publication)

/-- What has become of the resource since `s`, and what the deployment is to name. -/
def Placed (s : ControlStore) (resources : Table WorkspaceResource.resourceId) (generation : Nat)
    (digest : String) : Prop :=
  (∃ item, planResource digests nodeId publication (s.deployments.lookup publication.deploymentId)
      (s.resources.lookup publication.resourceId) = .ok (.put item) ∧
    resources = s.resources.upsert item ∧ generation = item.generation ∧
    digest = item.canonicalDigest) ∨
  ∃ row, planResource digests nodeId publication (s.deployments.lookup publication.deploymentId)
      (s.resources.lookup publication.resourceId) = .ok (.keep row) ∧
    resources = s.resources ∧ generation = row.generation ∧ digest = row.canonicalDigest

/-- How far a publication that began at `s` has come. -/
def ShareStage.Progress (s store : ControlStore) : ShareStage → Prop
  | .verified => store.resources = s.resources ∧ store.deployments = s.deployments
  | .located deployment => store.resources = s.resources ∧ store.deployments = s.deployments ∧
      deployment = s.deployments.lookup publication.deploymentId
  | .resource deployment _ item | .admitted deployment _ item _ =>
    store.resources = s.resources ∧ store.deployments = s.deployments ∧
      deployment = s.deployments.lookup publication.deploymentId ∧
      planResource digests nodeId publication (s.deployments.lookup publication.deploymentId)
        (s.resources.lookup publication.resourceId) = .ok (.put item)
  | .stored deployment generation => store.deployments = s.deployments ∧
      deployment = s.deployments.lookup publication.deploymentId ∧
      ∃ item, planResource digests nodeId publication
          (s.deployments.lookup publication.deploymentId)
          (s.resources.lookup publication.resourceId) = .ok (.put item) ∧
        store.resources = s.resources.upsert item ∧ generation = item.generation
  | .resolved deployment generation digest => store.deployments = s.deployments ∧
      deployment = s.deployments.lookup publication.deploymentId ∧
      Placed digests nodeId publication s store.resources generation digest
  | .matched _ item | .deploying _ item _ => store.deployments = s.deployments ∧
      ∃ generation digest, Placed digests nodeId publication s store.resources generation digest ∧
        item = planDeployment nodeId publication
          (s.deployments.lookup publication.deploymentId) generation digest
  | .deployed | .revoking _ | .granting _ =>
    ∃ generation digest, Placed digests nodeId publication s store.resources generation digest ∧
      store.deployments = s.deployments.upsert (planDeployment nodeId publication
        (s.deployments.lookup publication.deploymentId) generation digest)

variable {digests nodeId publication}

theorem planned_put {deployment : Option Deployment} {current : Option WorkspaceResource}
    {item : WorkspaceResource}
    (planned : planResource digests nodeId publication deployment current = .ok (.put item)) :
    item.resourceId = publication.resourceId ∧ item.spec = publication.spec ∧
      item.canonicalDigest = digests.spec publication.spec ∧
      ∀ row ∈ current, row.createdBy = nodeCreator nodeId ∧
        (row.canonicalDigest = digests.spec publication.spec → row.spec = publication.spec →
          item.generation = row.generation) := by
  unfold planResource at planned
  split at planned
  · cases planned
    refine ⟨rfl, rfl, rfl, ?_⟩
    intro row none
    cases none
  · split at planned
    · rename_i own
      cases planned
      refine ⟨rfl, rfl, rfl, ?_⟩
      rintro row ⟨⟩
      refine ⟨own, ?_⟩
      intro digest spec
      rw [if_neg]
      rintro (other | other)
      · exact other digest
      · exact other spec
    · split at planned <;> cases planned

theorem planned_keep {deployment : Option Deployment} {current : Option WorkspaceResource}
    {row : WorkspaceResource}
    (planned : planResource digests nodeId publication deployment current = .ok (.keep row)) :
    current = some row ∧ row.createdBy ≠ nodeCreator nodeId ∧ row.spec = publication.spec := by
  unfold planResource at planned
  split at planned
  · cases planned
  · split at planned
    · cases planned
    · rename_i other
      split at planned <;> cases planned
      rename_i allowed
      refine ⟨rfl, other, ?_⟩
      by_contra different
      exact allowed (.inr (.inr (.inr different)))

variable {s : ControlStore}

theorem shareStep_progress {store store' : ControlStore} {now : Time} {stage stage' : ShareStage}
    (progress : stage.Progress digests nodeId publication s store)
    (stepped : ControlHub.shareStep digests store nodeId publication now stage =
      .ok (store', stage')) :
    stage'.Progress digests nodeId publication s store' := by
  cases stage with
  | verified =>
    simp only [ControlHub.shareStep, bind_ok_iff] at stepped
    obtain ⟨_, _, stepped⟩ := stepped
    cases stepped
    exact ⟨progress.1, progress.2, by rw [progress.2]⟩
  | located deployment =>
    simp only [ControlHub.shareStep, bind_ok_iff] at stepped
    obtain ⟨plan, planned, stepped⟩ := stepped
    obtain ⟨resources, deployments, rfl⟩ := progress
    rw [resources] at planned
    cases plan with
    | put item =>
      cases stepped
      exact ⟨resources, deployments, rfl, planned⟩
    | keep row =>
      cases stepped
      exact ⟨deployments, rfl, .inr ⟨row, planned, resources, rfl, rfl⟩⟩
  | resource deployment read item | matched deployment item =>
    simp only [ControlHub.shareStep, bind_ok_iff] at stepped
    obtain ⟨_, _, stepped⟩ := stepped
    cases stepped
    exact progress
  | admitted deployment read item seen =>
    cases stepped
    obtain ⟨resources, deployments, same, planned⟩ := progress
    refine ⟨deployments, same, _, planned, ?_, rfl⟩
    rw [resources]
  | stored deployment generation =>
    simp only [ControlHub.shareStep, bind_ok_iff, orRaise_ok_iff] at stepped
    obtain ⟨row, found, stepped⟩ := stepped
    cases stepped
    obtain ⟨deployments, same, item, planned, resources, rfl⟩ := progress
    rw [resources, Table.lookup_upsert, if_pos (planned_put planned).1] at found
    cases found
    exact ⟨deployments, same, .inl ⟨row, planned, resources, rfl, rfl⟩⟩
  | resolved deployment generation digest =>
    simp only [ControlHub.shareStep, bind_ok_iff] at stepped
    obtain ⟨_, _, stepped⟩ := stepped
    cases stepped
    obtain ⟨deployments, rfl, placed⟩ := progress
    exact ⟨deployments, generation, digest, placed, rfl⟩
  | deploying deployment item seen =>
    cases stepped
    obtain ⟨deployments, generation, digest, placed, rfl⟩ := progress
    refine ⟨generation, digest, placed, ?_⟩
    rw [deployments]
  | deployed =>
    cases stepped
    exact progress
  | revoking grants =>
    cases grants <;> cases stepped <;> exact progress
  | granting callers =>
    cases callers with
    | nil =>
      cases stepped
      exact progress
    | cons caller callers =>
      simp only [ControlHub.shareStep, bind_ok_iff] at stepped
      obtain ⟨_, _, _, _, stepped⟩ := stepped
      cases stepped
      exact progress

/-- Whatever is under way is this publication. -/
def Lone (digests : Digests) (nodeId : String) (publication : Publication) (s : ControlStore)
    (t : ControlHub) : Prop :=
  ∀ call ∈ t.calls.rows, call.slot = 0 ∧ call.nodeId = nodeId ∧ ∃ stage overlapped,
    call.work = .share publication stage overlapped ∧
      stage.Progress digests nodeId publication s t.store

theorem advance_lone {t t' : ControlHub} {now : Time} (lone : Lone digests nodeId publication s t)
    (taken : t.step digests (.advance 0 now "") = some t') :
    Lone digests nodeId publication s t' := by
  have gone : ∀ call ∈ (t.calls.delete fun call => call.slot == 0).rows, False := by
    intro call member
    have kept := (List.mem_filter.mp member).2
    have zero := (lone call (Table.mem_delete member)).1
    simp [zero] at kept
  simp only [ControlHub.step] at taken
  split at taken
  · cases taken
  rename_i call found
  obtain ⟨slot, node, stage, overlapped, work, progress⟩ := lone call (Table.lookup_mem found)
  rw [work] at taken
  split at taken
  · cases taken
    exact fun other member => (gone other member).elim
  · rename_i same
    cases same
    split at taken
    · cases taken
      exact fun other member => (gone other member).elim
    · rename_i stepped
      cases taken
      intro other member
      rcases List.mem_concat.mp member with before | here
      · have kept := (List.mem_filter.mp before).2
        obtain ⟨zero, _⟩ := lone other (Table.mem_delete before)
        simp [zero, slot] at kept
      · rw [here]
        rw [node] at stepped
        exact ⟨slot, node, _, _, rfl, shareStep_progress progress stepped⟩
  all_goals
    rename_i same
    cases same

variable {s' : ControlStore}

theorem Publishes.placed (publishes : Publishes digests nodeId publication s s') :
    ∃ generation digest, Placed digests nodeId publication s s'.resources generation digest ∧
      s'.deployments = s.deployments.upsert (planDeployment nodeId publication
        (s.deployments.lookup publication.deploymentId) generation digest) := by
  obtain ⟨times, call, t, reached, known, published, rfl⟩ := publishes
  have begun : Lone digests nodeId publication s
      (Transition.next (ControlHub.step digests) { store := s }
        (.beginShare 0 nodeId publication)) := by
    cases taken : ControlHub.step digests { store := s } (.beginShare 0 nodeId publication) with
    | none =>
      rw [Transition.next_of_none taken]
      intro call member
      cases member
    | some t =>
      rw [Transition.next_of_some taken]
      simp only [ControlHub.step] at taken
      split at taken
      · cases taken
      · obtain ⟨calls, inserted, rfl⟩ := ControlHub.start_some taken
        intro call member
        rw [Table.insert_rows inserted] at member
        rcases List.mem_concat.mp member with before | here
        · cases before
        · rw [here]
          exact ⟨rfl, rfl, _, _, rfl, rfl, rfl⟩
  have lone : Lone digests nodeId publication s t := by
    rw [reached]
    refine Transition.final_safe_of_allowed (fun _ label _ lone
      (allowed : ∃ now, label = .advance 0 now "") taken => ?_) begun ?_
    · obtain ⟨now, rfl⟩ := allowed
      exact advance_lone lone taken
    · intro label member
      obtain ⟨now, _, rfl⟩ := List.mem_map.mp member
      exact ⟨now, rfl⟩
  obtain ⟨_, _, stage, overlapped, work, progress⟩ := lone call known
  rw [published] at work
  cases work
  exact progress

variable (digests nodeId) in
def InForce (s : ControlStore) (publication : Publication) : Prop :=
  ∃ row ∈ s.resources.lookup publication.resourceId, row.spec = publication.spec ∧
    (row.createdBy = nodeCreator nodeId → row.canonicalDigest = digests.spec publication.spec) ∧
    ∃ deployment ∈ s.deployments.lookup publication.deploymentId,
      deployment.resourceId = publication.resourceId ∧
      deployment.resourceGeneration = row.generation ∧
      deployment.resourceDigest = row.canonicalDigest ∧
      deployment.spec = publication.deploymentSpec ∧ deployment.enabled = publication.enabled

variable {resources : Table WorkspaceResource.resourceId} {generation : Nat} {digest : String}

section
variable (placed : Placed digests nodeId publication s resources generation digest)
include placed

theorem Placed.row : ∃ row ∈ resources.lookup publication.resourceId, row.spec = publication.spec ∧
      (row.createdBy = nodeCreator nodeId → row.canonicalDigest = digests.spec publication.spec) ∧
      row.generation = generation ∧ row.canonicalDigest = digest := by
  rcases placed with ⟨item, planned, rfl, rfl, rfl⟩ | ⟨row, planned, rfl, rfl, rfl⟩
  · obtain ⟨named, spec, digest, _⟩ := planned_put planned
    refine ⟨item, ?_, spec, fun _ => digest, rfl, rfl⟩
    rw [Table.lookup_upsert, if_pos named]
    rfl
  · obtain ⟨found, other, spec⟩ := planned_keep planned
    exact ⟨row, found, spec, fun own => absurd own other, rfl, rfl⟩

theorem Placed.others {id : String} (different : id ≠ publication.resourceId) :
    resources.lookup id = s.resources.lookup id := by
  rcases placed with ⟨item, planned, rfl, _, _⟩ | ⟨row, _, rfl, _, _⟩
  · rw [Table.lookup_upsert, if_neg]
    rw [(planned_put planned).1]
    exact Ne.symm different
  · rfl

theorem Placed.same
    {row : WorkspaceResource} (found : s.resources.lookup publication.resourceId = some row)
    (spec : row.spec = publication.spec)
    (hashed : row.createdBy = nodeCreator nodeId →
      row.canonicalDigest = digests.spec publication.spec) :
    generation = row.generation ∧ digest = row.canonicalDigest := by
  rcases placed with ⟨item, planned, _, rfl, rfl⟩ | ⟨kept, planned, _, rfl, rfl⟩
  · obtain ⟨_, _, digest, own⟩ := planned_put planned
    obtain ⟨created, same⟩ := own row found
    exact ⟨same (hashed created) spec, digest.trans (hashed created).symm⟩
  · obtain ⟨known, _, _⟩ := planned_keep planned
    rw [found] at known
    cases known
    exact ⟨rfl, rfl⟩

end

section
variable (publishes : Publishes digests nodeId publication s s')
include publishes

theorem Publishes.inForce : InForce digests nodeId s' publication := by
  obtain ⟨generation, digest, placed, deployments⟩ := publishes.placed
  obtain ⟨row, found, spec, hashed, same, same'⟩ := placed.row
  refine ⟨row, found, spec, hashed, planDeployment nodeId publication
    (s.deployments.lookup publication.deploymentId) generation digest, ?_, rfl, same.symm,
    same'.symm, rfl, rfl⟩
  rw [deployments, Table.lookup_upsert]
  exact if_pos rfl

theorem Publishes.still {other : Publication}
    (deployment : other.deploymentId ≠ publication.deploymentId)
    (spec : other.resourceId = publication.resourceId → other.spec = publication.spec)
    (force : InForce digests nodeId s other) : InForce digests nodeId s' other := by
  obtain ⟨generation, digest, placed, deployments⟩ := publishes.placed
  obtain ⟨row, found, same, hashed, known, standing, resource, numbered, digested, rest⟩ := force
  have kept : known ∈ s'.deployments.lookup other.deploymentId := by
    rw [deployments, Table.lookup_upsert, if_neg]
    · exact standing
    · exact Ne.symm deployment
  by_cases shared : other.resourceId = publication.resourceId
  · have one := spec shared
    rw [shared] at found resource
    obtain ⟨generation', digest'⟩ := placed.same found (same.trans one) (one ▸ hashed)
    obtain ⟨row', found', spec', hashed', generation'', digest''⟩ := placed.row
    refine ⟨row', ?_, spec'.trans one.symm, ?_, known, kept, ?_, ?_, ?_, rest⟩
    · rw [shared]
      exact found'
    · rw [one]
      exact hashed'
    · rw [shared]
      exact resource
    · rw [numbered, generation'', generation']
    · rw [digested, digest'', digest']
  · refine ⟨row, ?_, same, hashed, known, kept, resource, numbered, digested, rest⟩
    rw [placed.others shared]
    exact found

theorem Publishes.generations
    (force : InForce digests nodeId s publication) : SameGenerations s s' := by
  obtain ⟨generation, digest, placed, deployments⟩ := publishes.placed
  obtain ⟨row, found, same, hashed, known, standing, resource, numbered, digested, spec, enabled⟩ :=
    force
  obtain ⟨generation', digest'⟩ := placed.same found same hashed
  constructor
  case resources =>
    intro id
    by_cases here : id = publication.resourceId
    · subst here
      obtain ⟨row', found', _, _, generation'', _⟩ := placed.row
      rw [Option.mem_def.mp found', Option.mem_def.mp found, Option.map_some, Option.map_some,
        generation'', generation']
    · rw [placed.others here]
  case deployments =>
    intro id
    rw [deployments, Table.lookup_upsert]
    split
    · rename_i here
      have here : publication.deploymentId = id := here
      subst here
      rw [Option.mem_def.mp standing, Option.map_some, Option.map_some]
      unfold planDeployment
      dsimp only
      rw [if_neg]
      rintro (other | other | other | other | other)
      · exact other resource
      · exact other (numbered.trans generation'.symm)
      · exact other (digested.trans digest'.symm)
      · exact other spec
      · exact other enabled
    · rfl

end

theorem SameGenerations.trans {t u : ControlStore} (first : SameGenerations s t)
    (second : SameGenerations t u) : SameGenerations s u where
  resources := fun id => (second.resources id).trans (first.resources id)
  deployments := fun id => (second.deployments id).trans (first.deployments id)

variable {publications : List Publication}

theorem PublishesAll.inForce (published : PublishesAll digests nodeId publications s s')
    (distinct : Distinct publications) {before : List Publication}
    (spec : OneSpec (before ++ publications))
    (apart : ∀ p ∈ before, ∀ q ∈ publications, p.deploymentId ≠ q.deploymentId)
    (force : ∀ p ∈ before, InForce digests nodeId s p) :
    ∀ p ∈ before ++ publications, InForce digests nodeId s' p := by
  induction published generalizing before with
  | nil s =>
    intro p member
    rw [List.append_nil] at member
    exact force p member
  | @cons publication publications s t u first rest ih =>
    obtain ⟨fresh, distinct⟩ := List.nodup_cons.mp distinct
    have moved : before ++ publication :: publications = before ++ [publication] ++ publications := by
      rw [List.append_assoc, List.singleton_append]
    rw [moved] at spec ⊢
    refine ih distinct spec ?_ ?_
    · intro p member q later
      rcases List.mem_concat.mp member with known | here
      · exact apart p known q (List.mem_cons_of_mem _ later)
      · rw [here]
        intro same
        exact fresh (List.mem_map.mpr ⟨q, later, same.symm⟩)
    · intro p member
      rcases List.mem_concat.mp member with known | here
      · refine first.still (apart p known publication List.mem_cons_self) ?_ (force p known)
        intro shared
        exact spec p (by simp [known]) publication (by simp) shared
      · rw [here]
        exact first.inForce

theorem PublishesAll.generations (published : PublishesAll digests nodeId publications s s')
    {all : List Publication} (part : ∀ p ∈ publications, p ∈ all)
    (unique : ∀ p ∈ all, ∀ q ∈ all, p.deploymentId = q.deploymentId → p = q) (spec : OneSpec all)
    (force : ∀ p ∈ all, InForce digests nodeId s p) : SameGenerations s s' := by
  induction published with
  | nil s => exact ⟨fun _ => rfl, fun _ => rfl⟩
  | @cons publication publications s t u first rest ih =>
    have here := part publication List.mem_cons_self
    refine (first.generations (force publication here)).trans
      (ih (fun p member => part p (List.mem_cons_of_mem _ member)) ?_)
    intro p member
    by_cases same : p.deploymentId = publication.deploymentId
    · rw [unique p member publication here same]
      exact first.inForce
    · exact first.still same (spec p member publication here) (force p member)

theorem repeated_of_oneSpec {once twice : ControlStore} (distinct : Distinct publications)
    (spec : OneSpec publications) (first : PublishesAll digests nodeId publications s once)
    (second : PublishesAll digests nodeId publications once twice) :
    SameGenerations once twice := by
  have force : ∀ p ∈ [] ++ publications, InForce digests nodeId once p :=
    first.inForce distinct spec nofun nofun
  refine second.generations (fun _ member => member) ?_ spec force
  intro p known q known' same
  exact List.inj_on_of_nodup_map distinct known known' same

end

/-- Over a steady run generations and grants are as they should be, and publishing a set whose
publications over one resource have one spec once more changes no generation. -/
theorem faithful_of_steady {s : ControlHub} (idle : s.calls = .empty) (labels : List ControlStep)
    (steady : ∀ taken ∈ Transition.accepted (ControlHub.step digests) s labels,
      Steady digests taken.1 taken.2) :
    Faithful digests (fun publications => Distinct publications ∧ OneSpec publications) s labels where
  generations := generations_of_steady digests idle steady
  grants := grants_of_steady digests idle steady
  repeated := fun _ _ _ _ sets _ _ first second => repeated_of_oneSpec sets.1 sets.2 first second

def namedDigests : Digests where
  spec
    | .model _ identity _ => identity
    | .other text => text
  text := id

def share (deploymentId modelIdentity : String) (allowed : List String) : Publication where
  deploymentId := deploymentId
  resourceId := "resource"
  displayName := "Model"
  modelIdentity := modelIdentity
  providerProtocol := .openaiCompatible
  supportsVision := false
  materializedDigest := "material"
  maxRemoteConcurrency := 1
  allowedNodeIds := allowed
  enabled := true

instance (digests : Digests) (store : ControlStore) (work : Work) :
    Decidable (work.Steady digests store) := by
  unfold Work.Steady
  split <;> infer_instance

instance (digests : Digests) (s : ControlHub) (label : ControlStep) :
    Decidable (Steady digests s label) := by
  unfold Steady
  split <;> infer_instance

/-- A model is shared with one Node, and later another model with another Node in its place. -/
def sharedTwice : List ControlStep :=
  (.beginShare 0 "a" (share "d" "m" ["b"]) :: List.replicate 12 (.advance 0 0 "")) ++
    .beginShare 1 "a" (share "d" "n" ["c"]) :: List.replicate 13 (.advance 1 1 "")

theorem faithful_share :
    Faithful namedDigests (fun publications => Distinct publications ∧ OneSpec publications) {}
      sharedTwice :=
  faithful_of_steady namedDigests rfl sharedTwice (by decide +kernel)

/-- The Hub when Node "a" has published, from `s`. -/
def afterShare (publication : Publication) (s : ControlStore) : ControlHub :=
  Transition.final (ControlHub.step namedDigests) { store := s }
    (.beginShare 0 "a" publication :: (List.replicate 10 0).map fun now => .advance 0 now "")

theorem publishes_afterShare {publication : Publication} {s : ControlStore}
    (done : (afterShare publication s).calls.rows =
      [⟨0, "a", .share publication (.granting []) false⟩]) :
    Publishes namedDigests "a" publication s (afterShare publication s).store := by
  refine ⟨List.replicate 10 0, ⟨0, "a", .share publication (.granting []) false⟩,
    afterShare publication s, rfl, ?_, rfl, rfl⟩
  rw [done]
  exact List.mem_singleton_self _

def twoModels : List Publication := [share "d" "m" [], share "e" "n" []]

def afterModels (s : ControlStore) : ControlStore :=
  (afterShare (share "e" "n" []) (afterShare (share "d" "m" []) s).store).store

/-- Each repetition of the set gives the resource two new generations. -/
theorem repetition_changes_generation : ¬Faithful namedDigests Distinct {} [] := by
  intro faithful
  have first : PublishesAll namedDigests "a" twoModels {} (afterModels {}) :=
    .cons (publishes_afterShare (by with_unfolding_all rfl))
      (.cons (publishes_afterShare (by with_unfolding_all rfl)) (.nil _))
  have second : PublishesAll namedDigests "a" twoModels (afterModels {})
      (afterModels (afterModels {})) :=
    .cons (publishes_afterShare (by with_unfolding_all rfl))
      (.cons (publishes_afterShare (by with_unfolding_all rfl)) (.nil _))
  have same := (faithful.repeated {} List.mem_cons_self "a" twoModels
    (by unfold Distinct twoModels; decide) _ _ first second).resources "resource"
  have once : ((afterModels {}).resources.lookup "resource").map WorkspaceResource.generation =
      some 2 := by
    with_unfolding_all rfl
  have twice : ((afterModels (afterModels {})).resources.lookup "resource").map
      WorkspaceResource.generation = some 4 := by
    with_unfolding_all rfl
  rw [once, twice] at same
  exact absurd same (by decide)

end Knoa.Hub.Control
