import Knoa.Hub.NodeControl

/-!
# Generations and grants of shared models

What every run of publications keeps of generations, and what one that no other overlaps leaves of
the grants.
-/
namespace Knoa.Hub.Control

open Relational (Table)
open Knoa.Tasks (Time)
open Transaction

variable (digests : Digests)

structure KeepsGenerations (s s' : ControlStore) : Prop where
  resources : ∀ id, ∀ row ∈ s.resources.lookup id, ∃ row' ∈ s'.resources.lookup id,
    row.generation ≤ row'.generation ∧ (row'.generation = row.generation →
      row'.kind = row.kind ∧ row'.canonicalDigest = row.canonicalDigest ∧ row'.spec = row.spec)
  deployments : ∀ id, ∀ row ∈ s.deployments.lookup id, ∃ row' ∈ s'.deployments.lookup id,
    row.desiredGeneration ≤ row'.desiredGeneration ∧
      (row'.desiredGeneration = row.desiredGeneration →
        row'.kind = row.kind ∧ row'.resourceId = row.resourceId ∧
          row'.resourceGeneration = row.resourceGeneration ∧
          row'.resourceDigest = row.resourceDigest ∧ row'.targetNodeId = row.targetNodeId ∧
          row'.spec = row.spec ∧ row'.enabled = row.enabled)

def ResourceGrant.Stands (grant : ResourceGrant) (deploymentId : String) : Prop :=
  grant.targetDeploymentId = deploymentId ∧ grant.capability = .modelInference ∧
    grant.revokedAt = none

def ExactGrants (s : ControlStore) (publication : Publication) : Prop :=
  ∀ caller, (∃ grant ∈ s.grants.rows, grant.Stands publication.deploymentId ∧
    grant.callerNodeId = caller) ↔ caller ∈ publication.allowed

/-- A call has done all that `publish_node_model_share` does, and none of its deployment has
overlapped it. -/
def Call.Published (call : Call) (publication : Publication) : Prop :=
  call.work = .share publication (.granting []) false

/-- What a repository writes over is the row that it has compared with, and a grant takes no other
grant's id. -/
def Work.Steady (store : ControlStore) : Work → Prop
  | .share publication (.admitted _ _ _ seen) _ =>
    store.resources.lookup publication.resourceId = seen
  | .share publication (.deploying _ _ seen) _ =>
    store.deployments.lookup publication.deploymentId = seen
  | .share publication (.granting (caller :: _)) _ =>
    ∀ grant ∈ store.grants.lookup (grantId digests publication.deploymentId caller),
      grant.targetDeploymentId = publication.deploymentId ∧ grant.callerNodeId = caller
  | _ => True

def Steady (s : ControlHub) : ControlStep → Prop
  | .advance i _ _ => ∀ call ∈ s.calls.lookup i, call.work.Steady digests s.store
  | _ => True

theorem KeepsGenerations.refl (s : ControlStore) : KeepsGenerations s s where
  resources := fun _ row found => ⟨row, found, le_rfl, fun _ => ⟨rfl, rfl, rfl⟩⟩
  deployments := fun _ row found =>
    ⟨row, found, le_rfl, fun _ => ⟨rfl, rfl, rfl, rfl, rfl, rfl, rfl⟩⟩

variable {s s' : ControlStore}

theorem KeepsGenerations.of_same (resources : s'.resources = s.resources)
    (deployments : s'.deployments = s.deployments) : KeepsGenerations s s' where
  resources := by
    rw [resources]
    exact (KeepsGenerations.refl s).resources
  deployments := by
    rw [deployments]
    exact (KeepsGenerations.refl s).deployments

theorem KeepsGenerations.trans {t u : ControlStore} (first : KeepsGenerations s t)
    (second : KeepsGenerations t u) : KeepsGenerations s u where
  resources := by
    intro id row found
    obtain ⟨row', found', below, same⟩ := first.resources id row found
    obtain ⟨row'', found'', below', same'⟩ := second.resources id row' found'
    refine ⟨row'', found'', below.trans below', ?_⟩
    intro equal
    obtain ⟨kind, digest, spec⟩ := same (le_antisymm (equal ▸ below') below)
    obtain ⟨kind', digest', spec'⟩ := same' (le_antisymm (equal.trans_le below) below')
    exact ⟨kind'.trans kind, digest'.trans digest, spec'.trans spec⟩
  deployments := by
    intro id row found
    obtain ⟨row', found', below, same⟩ := first.deployments id row found
    obtain ⟨row'', found'', below', same'⟩ := second.deployments id row' found'
    refine ⟨row'', found'', below.trans below', ?_⟩
    intro equal
    obtain ⟨kind, resource, generation, digest, target, spec, enabled⟩ :=
      same (le_antisymm (equal ▸ below') below)
    obtain ⟨kind', resource', generation', digest', target', spec', enabled'⟩ :=
      same' (le_antisymm (equal.trans_le below) below')
    exact ⟨kind'.trans kind, resource'.trans resource, generation'.trans generation,
      digest'.trans digest, target'.trans target, spec'.trans spec, enabled'.trans enabled⟩

theorem admitResource_ok {item existing : WorkspaceResource}
    (admitted : admitResource item (some existing) = .ok ()) :
    existing.kind = item.kind ∧ existing.generation ≤ item.generation ∧
      (item.generation = existing.generation →
        existing.canonicalDigest = item.canonicalDigest ∧ existing.spec = item.spec) := by
  simp only [admitResource, bind_ok_iff, require_ok_iff] at admitted
  obtain ⟨_, _, _, kind, _, below, same⟩ := admitted
  exact ⟨kind, below, same⟩

theorem admitDeployment_ok {item existing : Deployment}
    (admitted : admitDeployment item (some existing) = .ok ()) :
    existing.desiredGeneration ≤ item.desiredGeneration ∧
      (item.desiredGeneration = existing.desiredGeneration →
        existing.kind = item.kind ∧ existing.resourceId = item.resourceId ∧
          existing.resourceGeneration = item.resourceGeneration ∧
          existing.resourceDigest = item.resourceDigest ∧
          existing.targetNodeId = item.targetNodeId ∧ existing.spec = item.spec ∧
          existing.enabled = item.enabled) := by
  simp only [admitDeployment, bind_ok_iff, require_ok_iff] at admitted
  obtain ⟨_, below, same⟩ := admitted
  exact ⟨below, same⟩

variable {store : ControlStore}

theorem put_resource_keeps {item : WorkspaceResource}
    (admitted : admitResource item (store.resources.lookup item.resourceId) = .ok ()) :
    KeepsGenerations store { store with resources := store.resources.upsert item } where
  resources := by
    intro id row found
    by_cases same : item.resourceId = id
    · subst same
      rw [Option.mem_def.mp found] at admitted
      obtain ⟨kind, below, content⟩ := admitResource_ok admitted
      refine ⟨item, ?_, below, ?_⟩
      · rw [Table.lookup_upsert, if_pos rfl]
        rfl
      · intro equal
        exact ⟨kind.symm, (content equal).1.symm, (content equal).2.symm⟩
    · refine ⟨row, ?_, le_rfl, fun _ => ⟨rfl, rfl, rfl⟩⟩
      rw [Table.lookup_upsert, if_neg same]
      exact found
  deployments := (KeepsGenerations.refl store).deployments

theorem put_deployment_keeps {item : Deployment}
    (admitted : admitDeployment item (store.deployments.lookup item.deploymentId) = .ok ()) :
    KeepsGenerations store { store with deployments := store.deployments.upsert item } where
  resources := (KeepsGenerations.refl store).resources
  deployments := by
    intro id row found
    by_cases same : item.deploymentId = id
    · subst same
      rw [Option.mem_def.mp found] at admitted
      obtain ⟨below, content⟩ := admitDeployment_ok admitted
      refine ⟨item, ?_, below, ?_⟩
      · rw [Table.lookup_upsert, if_pos rfl]
        rfl
      · intro equal
        obtain ⟨kind, resource, generation, digest, target, spec, enabled⟩ := content equal
        exact ⟨kind.symm, resource.symm, generation.symm, digest.symm, target.symm, spec.symm,
          enabled.symm⟩
    · refine ⟨row, ?_, le_rfl, fun _ => ⟨rfl, rfl, rfl, rfl, rfl, rfl, rfl⟩⟩
      rw [Table.lookup_upsert, if_neg same]
      exact found

def SameGrants (deploymentId : String) (s s' : ControlStore) : Prop :=
  ∀ grant, grant.targetDeploymentId = deploymentId →
    (grant ∈ s'.grants.rows ↔ grant ∈ s.grants.rows)

def KeepsGrants (s s' : ControlStore) : Prop :=
  ∀ grant ∈ s.grants.rows, ∃ grant' ∈ s'.grants.rows, grant'.grantId = grant.grantId ∧
    grant'.targetDeploymentId = grant.targetDeploymentId

def ShareStage.Granted (store : ControlStore) (publication : Publication) : ShareStage → Prop
  | .revoking grants => ∀ grant ∈ store.grants.rows,
      grant.targetDeploymentId = publication.deploymentId → grant.revokedAt = none →
        grant.callerNodeId ∈ publication.allowed ∨ grant.grantId ∈ grants
  | .granting callers =>
    (∀ grant ∈ store.grants.rows, grant.targetDeploymentId = publication.deploymentId →
      grant.revokedAt = none → grant.callerNodeId ∈ publication.allowed) ∧
    (∀ caller ∈ publication.allowed, caller ∈ callers ∨ ∃ grant ∈ store.grants.rows,
      grant.Stands publication.deploymentId ∧ grant.callerNodeId = caller) ∧
    ∀ caller ∈ callers, caller ∈ publication.allowed
  | _ => True

/-- What a call has compared with and listed. -/
def ShareStage.Compared (store : ControlStore) (publication : Publication) : ShareStage → Prop
  | .resource _ _ item => item.resourceId = publication.resourceId
  | .admitted _ _ item seen => item.resourceId = publication.resourceId ∧
      admitResource item seen = .ok ()
  | .matched _ item => item.deploymentId = publication.deploymentId
  | .deploying _ item seen => item.deploymentId = publication.deploymentId ∧
      admitDeployment item seen = .ok ()
  | .revoking grants => ∀ id ∈ grants, ∃ grant ∈ store.grants.rows, grant.grantId = id ∧
      grant.targetDeploymentId = publication.deploymentId
  | _ => True

variable {publication : Publication} {stage : ShareStage}

theorem ShareStage.Granted.same (granted : stage.Granted s publication)
    (same : SameGrants publication.deploymentId s s') : stage.Granted s' publication := by
  cases stage with
  | revoking grants =>
    intro grant member target
    exact granted grant ((same grant target).mp member) target
  | granting callers =>
    obtain ⟨sound, full, allowed⟩ := granted
    refine ⟨?_, ?_, allowed⟩
    · intro grant member target
      exact sound grant ((same grant target).mp member) target
    · intro caller allows
      rcases full caller allows with later | ⟨grant, member, stands, called⟩
      · exact .inl later
      · exact .inr ⟨grant, (same grant stands.1).mpr member, stands, called⟩
  | _ => trivial

theorem ShareStage.Compared.kept (compared : stage.Compared s publication)
    (keeps : KeepsGrants s s') : stage.Compared s' publication := by
  cases stage with
  | revoking grants =>
    intro id listed
    obtain ⟨grant, member, named, target⟩ := compared id listed
    obtain ⟨grant', member', named', target'⟩ := keeps grant member
    exact ⟨grant', member', named'.trans named, target'.trans target⟩
  | _ => exact compared

theorem KeepsGrants.of_same (grants : s'.grants = s.grants) : KeepsGrants s s' := by
  intro grant member
  rw [grants]
  exact ⟨grant, member, rfl, rfl⟩

theorem SameGrants.of_same (grants : s'.grants = s.grants) (deploymentId : String) :
    SameGrants deploymentId s s' := by
  intro grant _
  rw [grants]

section Revoking
variable {store : ControlStore} {id : String} {now : Time}

theorem mem_revoke {grant : ResourceGrant} :
    grant ∈ (revokeResourceGrant id now store.grants).rows ↔
      (grant ∈ store.grants.rows ∧ grant.grantId ≠ id) ∨
        ∃ old ∈ store.grants.rows, old.grantId = id ∧ grant = { old with revokedAt := some now } := by
  unfold revokeResourceGrant
  rw [Table.update_rows, List.mem_map]
  constructor
  · rintro ⟨old, member, rfl⟩
    by_cases here : old.grantId = id
    · rw [if_pos (beq_iff_eq.mpr here)]
      exact .inr ⟨old, member, here, rfl⟩
    · rw [if_neg (by rw [beq_iff_eq]; exact here)]
      exact .inl ⟨member, here⟩
  · rintro (⟨member, other⟩ | ⟨old, member, here, rfl⟩)
    · exact ⟨grant, member, if_neg (by rw [beq_iff_eq]; exact other)⟩
    · exact ⟨old, member, if_pos (beq_iff_eq.mpr here)⟩

theorem revoke_keeps : KeepsGrants store
    { store with grants := revokeResourceGrant id now store.grants } := by
  intro grant member
  by_cases here : grant.grantId = id
  · exact ⟨_, mem_revoke.mpr (.inr ⟨grant, member, here, rfl⟩), rfl, rfl⟩
  · exact ⟨grant, mem_revoke.mpr (.inl ⟨member, here⟩), rfl, rfl⟩

theorem revoke_same {deploymentId other : String} (different : other ≠ deploymentId)
    {known : ResourceGrant} (member : known ∈ store.grants.rows) (named : known.grantId = id)
    (target : known.targetDeploymentId = deploymentId) : SameGrants other store
    { store with grants := revokeResourceGrant id now store.grants } := by
  intro grant elsewhere
  refine mem_revoke.trans ⟨?_, ?_⟩
  · rintro (⟨standing, _⟩ | ⟨old, standing, here, rfl⟩)
    · exact standing
    · have one := Table.mem_unique standing member (here.trans named.symm)
      subst one
      exact absurd (elsewhere.symm.trans target) different
  · intro standing
    refine .inl ⟨standing, ?_⟩
    intro here
    have one := Table.mem_unique standing member (here.trans named.symm)
    subst one
    exact different (elsewhere.symm.trans target)

end Revoking

section Granting
variable {store : ControlStore} {item : ResourceGrant}

theorem mem_grant {grant : ResourceGrant} : grant ∈ (store.grants.upsert item).rows ↔
      (grant ∈ store.grants.rows ∧ grant.grantId ≠ item.grantId) ∨ grant = item := by
  change grant ∈ (store.grants.rows.filter _) ++ [item] ↔ _
  rw [List.mem_append, List.mem_singleton, List.mem_filter]
  simp

theorem grant_keeps (own : ∀ grant ∈ store.grants.lookup item.grantId,
      grant.targetDeploymentId = item.targetDeploymentId) :
    KeepsGrants store { store with grants := store.grants.upsert item } := by
  intro grant member
  by_cases here : grant.grantId = item.grantId
  · have found := Table.lookup_of_mem member
    rw [here] at found
    exact ⟨item, mem_grant.mpr (.inr rfl), here.symm, (own grant found).symm⟩
  · exact ⟨grant, mem_grant.mpr (.inl ⟨member, here⟩), rfl, rfl⟩

theorem grant_same (own : ∀ grant ∈ store.grants.lookup item.grantId,
      grant.targetDeploymentId = item.targetDeploymentId) {other : String}
    (different : other ≠ item.targetDeploymentId) :
    SameGrants other store { store with grants := store.grants.upsert item } := by
  intro grant elsewhere
  refine mem_grant.trans ⟨?_, ?_⟩
  · rintro (⟨member, _⟩ | rfl)
    · exact member
    · exact absurd elsewhere.symm different
  · intro member
    refine .inl ⟨member, ?_⟩
    intro here
    have found := Table.lookup_of_mem member
    rw [here] at found
    exact different (elsewhere.symm.trans (own grant found))

end Granting

structure Stepped (publication : Publication) (stage stage' : ShareStage) (s s' : ControlStore) :
    Prop where
  generations : KeepsGenerations s s'
  grants : KeepsGrants s s'
  others : ∀ deploymentId, deploymentId ≠ publication.deploymentId → SameGrants deploymentId s s'
  compared : stage'.Compared s' publication
  granted : stage.Granted s publication → stage'.Granted s' publication

variable {nodeId : String}

theorem shareStep_stepped {store' : ControlStore} {now : Time} {stage' : ShareStage}
    {overlapped : Bool} (compared : stage.Compared store publication)
    (steady : (Work.share publication stage overlapped).Steady digests store)
    (taken : ControlHub.shareStep digests store nodeId publication now stage =
      .ok (store', stage')) :
    Stepped publication stage stage' store store' := by
  have still : ∀ {after : ShareStage}, after.Compared store publication →
      (stage.Granted store publication → after.Granted store publication) →
      Stepped publication stage after store store := fun compared granted =>
    ⟨KeepsGenerations.refl store, KeepsGrants.of_same rfl, fun id _ => SameGrants.of_same rfl id,
      compared, granted⟩
  cases stage with
  | verified | stored deployment generation =>
    simp only [ControlHub.shareStep, bind_ok_iff] at taken
    obtain ⟨_, _, taken⟩ := taken
    cases taken
    exact still trivial fun _ => trivial
  | located deployment =>
    simp only [ControlHub.shareStep, bind_ok_iff] at taken
    obtain ⟨plan, planned, taken⟩ := taken
    cases plan with
    | put item =>
      cases taken
      refine still ?_ fun _ => trivial
      unfold planResource at planned
      split at planned
      · cases planned
        rfl
      · split at planned
        · cases planned
          rfl
        · split at planned <;> cases planned
    | keep resource =>
      cases taken
      exact still trivial fun _ => trivial
  | resource deployment read item | matched deployment item =>
    simp only [ControlHub.shareStep, bind_ok_iff] at taken
    obtain ⟨_, admitted, taken⟩ := taken
    cases taken
    exact still ⟨compared, admitted⟩ fun _ => trivial
  | admitted deployment read item seen =>
    cases taken
    obtain ⟨named, admitted⟩ := compared
    have met : store.resources.lookup publication.resourceId = seen := steady
    refine ⟨put_resource_keeps ?_, KeepsGrants.of_same rfl, fun id _ => SameGrants.of_same rfl id,
      trivial, fun _ => trivial⟩
    rw [named, met]
    exact admitted
  | resolved deployment generation digest =>
    simp only [ControlHub.shareStep, bind_ok_iff] at taken
    obtain ⟨_, _, taken⟩ := taken
    cases taken
    exact still rfl fun _ => trivial
  | deploying deployment item seen =>
    cases taken
    obtain ⟨named, admitted⟩ := compared
    have met : store.deployments.lookup publication.deploymentId = seen := steady
    refine ⟨put_deployment_keeps ?_, KeepsGrants.of_same rfl,
      fun id _ => SameGrants.of_same rfl id, trivial, fun _ => trivial⟩
    rw [named, met]
    exact admitted
  | deployed =>
    cases taken
    refine still ?_ fun _ => ?_
    · intro id listed
      obtain ⟨grant, member, named⟩ := List.mem_map.mp listed
      obtain ⟨known, selected⟩ := List.mem_filter.mp member
      simp only [Bool.and_eq_true, beq_iff_eq] at selected
      exact ⟨grant, known, named, selected.1.1⟩
    · intro grant member target standing
      by_cases allowed : grant.callerNodeId ∈ publication.allowed
      · exact .inl allowed
      · refine .inr (List.mem_map.mpr ⟨grant, List.mem_filter.mpr ⟨member, ?_⟩, rfl⟩)
        simp [target, standing, allowed]
  | revoking grants =>
    cases grants with
    | nil =>
      cases taken
      refine still trivial fun granted => ⟨?_, ?_, ?_⟩
      · intro grant member target standing
        rcases granted grant member target standing with allowed | listed
        · exact allowed
        · cases listed
      · intro caller allowed
        exact .inl ((List.mem_insertionSort _).mpr allowed)
      · intro caller listed
        exact (List.mem_insertionSort _).mp listed
    | cons id grants =>
      cases taken
      obtain ⟨known, member, named, target⟩ := compared id List.mem_cons_self
      refine ⟨KeepsGenerations.of_same rfl rfl, revoke_keeps,
        fun other different => revoke_same different member named target, ?_, ?_⟩
      · have rest : (ShareStage.revoking grants).Compared store publication :=
          fun id listed => compared id (List.mem_cons_of_mem _ listed)
        exact rest.kept revoke_keeps
      · intro granted grant member target standing
        rcases mem_revoke.mp member with ⟨member, other⟩ | ⟨old, _, _, rfl⟩
        · rcases granted grant member target standing with allowed | listed
          · exact .inl allowed
          · rcases List.mem_cons.mp listed with here | later
            · exact absurd here other
            · exact .inr later
        · cases standing
  | granting callers =>
    cases callers with
    | nil =>
      cases taken
      exact still trivial fun granted => granted
    | cons caller callers =>
      simp only [ControlHub.shareStep, bind_ok_iff] at taken
      obtain ⟨_, _, _, _, taken⟩ := taken
      cases taken
      have free : ∀ grant ∈ store.grants.lookup (grantId digests publication.deploymentId caller),
          grant.targetDeploymentId = publication.deploymentId ∧ grant.callerNodeId = caller :=
        steady
      have own : ∀ grant ∈ store.grants.lookup
          (modelGrant digests publication.deploymentId caller now).grantId,
          grant.targetDeploymentId = publication.deploymentId := fun grant found =>
        (free grant found).1
      refine ⟨KeepsGenerations.of_same rfl rfl, grant_keeps own,
        fun other different => grant_same own different, trivial, ?_⟩
      rintro ⟨sound, full, allowed⟩
      refine ⟨?_, ?_, fun other listed => allowed other (List.mem_cons_of_mem _ listed)⟩
      · intro grant member target standing
        rcases mem_grant.mp member with ⟨known, _⟩ | rfl
        · exact sound grant known target standing
        · exact allowed caller List.mem_cons_self
      · intro other allows
        by_cases here : other = caller
        · subst here
          exact .inr ⟨_, mem_grant.mpr (.inr rfl), ⟨rfl, rfl, rfl⟩, rfl⟩
        · rcases full other allows with listed | ⟨grant, known, stands, called⟩
          · rcases List.mem_cons.mp listed with same | later
            · exact absurd same here
            · exact .inl later
          · refine .inr ⟨grant, mem_grant.mpr (.inl ⟨known, ?_⟩), stands, called⟩
            intro same
            have found := Table.lookup_of_mem known
            rw [same] at found
            exact here (called.symm.trans (free grant found).2)

theorem shares_iff {deploymentId : String} {call : Call} :
    ControlHub.shares deploymentId call = true ↔ ∃ publication stage overlapped,
      call.work = .share publication stage overlapped ∧ publication.deploymentId = deploymentId := by
  unfold ControlHub.shares
  split
  · rename_i publication stage overlapped work
    rw [beq_iff_eq]
    constructor
    · intro same
      exact ⟨publication, stage, overlapped, work, same⟩
    · rintro ⟨_, _, _, work', same⟩
      rw [work] at work'
      cases work'
      exact same
  · rename_i other
    constructor
    · nofun
    · rintro ⟨publication, stage, overlapped, work, _⟩
      exact absurd work (other publication stage overlapped)

structure Sound (s : ControlHub) : Prop where
  compared : ∀ call ∈ s.calls.rows, ∀ publication stage overlapped,
    call.work = .share publication stage overlapped → stage.Compared s.store publication
  granted : ∀ call ∈ s.calls.rows, ∀ publication stage,
    call.work = .share publication stage false → stage.Granted s.store publication
  alone : ∀ call ∈ s.calls.rows, ∀ publication stage, call.work = .share publication stage false →
    ∀ other ∈ s.calls.rows, ControlHub.shares publication.deploymentId other = true → other = call

namespace Sound
variable {s s' : ControlHub}

theorem fewer (inv : Sound s) (grants : s'.store.grants = s.store.grants)
    (calls : ∀ call ∈ s'.calls.rows, call ∈ s.calls.rows) : Sound s' where
  compared := fun call member publication stage overlapped work =>
    (inv.compared call (calls call member) publication stage overlapped work).kept
      (KeepsGrants.of_same grants)
  granted := fun call member publication stage work =>
    (inv.granted call (calls call member) publication stage work).same (SameGrants.of_same grants _)
  alone := fun call member publication stage work other known =>
    inv.alone call (calls call member) publication stage work other (calls other known)

theorem left (inv : Sound s) (i : Nat) : Sound (s.leave i) :=
  inv.fewer rfl fun _ member => Table.mem_delete member

theorem started (inv : Sound s) {i : Nat} {work : Work} (begun : s.start i nodeId work = some s')
    (other : ∀ publication stage overlapped, work ≠ .share publication stage overlapped) :
    Sound s' := by
  obtain ⟨calls, inserted, rfl⟩ := ControlHub.start_some begun
  have old : ∀ call ∈ calls.rows, ∀ publication stage overlapped,
      call.work = .share publication stage overlapped → call ∈ s.calls.rows := by
    intro call member publication stage overlapped share
    rw [Table.insert_rows inserted] at member
    rcases List.mem_concat.mp member with known | here
    · exact known
    · rw [here] at share
      exact absurd share (other publication stage overlapped)
  exact {
    compared := fun call member publication stage overlapped share =>
      inv.compared call (old call member _ _ _ share) publication stage overlapped share
    granted := fun call member publication stage share =>
      inv.granted call (old call member _ _ _ share) publication stage share
    alone := by
      intro call member publication stage share another known shares
      obtain ⟨_, _, _, share', _⟩ := shares_iff.mp shares
      exact inv.alone call (old call member _ _ _ share) publication stage share another
        (old another known _ _ _ share') shares }

theorem published (inv : Sound s) {i : Nat}
    (begun : ControlHub.start { s with
        calls := s.calls.update (ControlHub.shares publication.deploymentId)
          ControlHub.Call.overlap ControlHub.overlap_slot } i nodeId
      (.share publication .verified
        (s.calls.rows.any (ControlHub.shares publication.deploymentId))) = some s') :
    Sound s' := by
  obtain ⟨calls, inserted, rfl⟩ := ControlHub.start_some begun
  have rows : ∀ call ∈ calls.rows, (∃ old ∈ s.calls.rows,
      if ControlHub.shares publication.deploymentId old then call = ControlHub.Call.overlap old
      else call = old) ∨ call =
        { slot := i, nodeId, work := .share publication .verified
            (s.calls.rows.any (ControlHub.shares publication.deploymentId)) } := by
    intro call member
    rw [Table.insert_rows inserted, Table.update_rows] at member
    rcases List.mem_concat.mp member with known | here
    · obtain ⟨old, standing, rfl⟩ := List.mem_map.mp known
      refine .inl ⟨old, standing, ?_⟩
      split <;> rfl
    · exact .inr here
  have overlapping : ∀ {old : Call}, ControlHub.shares publication.deploymentId old = true →
      ∃ other stage, (ControlHub.Call.overlap old).work = .share other stage true ∧
        (∃ overlapped, old.work = .share other stage overlapped) ∧
          other.deploymentId = publication.deploymentId := by
    intro old shares
    obtain ⟨other, stage, overlapped, work, same⟩ := shares_iff.mp shares
    refine ⟨other, stage, ?_, ⟨overlapped, work⟩, same⟩
    unfold ControlHub.Call.overlap
    rw [work]
  have apart : ∀ call ∈ calls.rows, ∀ other stage, call.work = .share other stage false →
      (call ∈ s.calls.rows ∧ other.deploymentId ≠ publication.deploymentId) ∨
        (other = publication ∧ stage = .verified ∧
          ∀ old ∈ s.calls.rows, ControlHub.shares publication.deploymentId old = false) := by
    intro call member other stage work
    rcases rows call member with ⟨old, known, same⟩ | rfl
    · by_cases shares : ControlHub.shares publication.deploymentId old = true
      · rw [if_pos shares] at same
        obtain ⟨_, _, overlaps, _⟩ := overlapping shares
        rw [same, overlaps] at work
        cases work
      · rw [if_neg shares] at same
        subst same
        refine .inl ⟨known, ?_⟩
        intro same
        exact shares (shares_iff.mpr ⟨other, stage, false, work, same⟩)
    · injection work with one two three
      refine .inr ⟨one.symm, two.symm, ?_⟩
      intro old known
      by_contra shares
      rw [Bool.not_eq_false] at shares
      rw [List.any_eq_true.mpr ⟨old, known, shares⟩] at three
      cases three
  exact {
    compared := by
      intro call member other stage overlapped work
      rcases rows call member with ⟨old, known, same⟩ | rfl
      · by_cases shares : ControlHub.shares publication.deploymentId old = true
        · rw [if_pos shares] at same
          obtain ⟨_, _, overlaps, ⟨_, before⟩, _⟩ := overlapping shares
          rw [same, overlaps] at work
          cases work
          exact inv.compared old known _ _ _ before
        · rw [if_neg shares] at same
          subst same
          exact inv.compared call known other stage overlapped work
      · cases work
        trivial
    granted := by
      intro call member other stage work
      rcases apart call member other stage work with ⟨known, _⟩ | ⟨_, rfl, _⟩
      · exact inv.granted call known other stage work
      · trivial
    alone := by
      intro call member other stage work another known shares
      rcases apart call member other stage work with ⟨standing, different⟩ | ⟨rfl, _, none⟩
      · rcases rows another known with ⟨old, before, same⟩ | rfl
        · by_cases overlaps : ControlHub.shares publication.deploymentId old = true
          · rw [if_pos overlaps] at same
            obtain ⟨third, _, after, _, deployment⟩ := overlapping overlaps
            obtain ⟨fourth, _, _, work', deployment'⟩ := shares_iff.mp shares
            rw [same, after] at work'
            cases work'
            exact absurd (deployment'.symm.trans deployment) different
          · rw [if_neg overlaps] at same
            subst same
            exact inv.alone call standing other stage work another before shares
        · obtain ⟨_, _, _, work', deployment⟩ := shares_iff.mp shares
          cases work'
          exact absurd deployment.symm different
      · have new : ∀ third ∈ calls.rows, ControlHub.shares other.deploymentId third = true →
            third =
              { slot := i, nodeId, work := .share other .verified
                  (s.calls.rows.any (ControlHub.shares other.deploymentId)) } := by
          intro third member shares
          rcases rows third member with ⟨old, before, same⟩ | here
          · rw [none old before, if_neg Bool.false_ne_true] at same
            rw [same, none old before] at shares
            cases shares
          · exact here
        have mine : ControlHub.shares other.deploymentId call = true :=
          shares_iff.mpr ⟨other, stage, false, work, rfl⟩
        rw [new another known shares, new call member mine] }

theorem stepped (inv : Sound s) {call : Call} {stage' : ShareStage} {overlapped : Bool}
    (known : call ∈ s.calls.rows) (work : call.work = .share publication stage overlapped)
    (change : Stepped publication stage stage' s.store store) :
    Sound ({ s with store }.move call (.share publication stage' overlapped)) := by
  have rows : ∀ other ∈ ({ s with store }.move call
      (.share publication stage' overlapped)).calls.rows,
      (other ∈ s.calls.rows ∧ other.slot ≠ call.slot) ∨
        other = { call with work := .share publication stage' overlapped } := by
    intro other member
    rcases List.mem_concat.mp member with before | here
    · obtain ⟨standing, different⟩ := List.mem_filter.mp before
      refine .inl ⟨standing, ?_⟩
      simpa using different
    · exact .inr here
  exact {
    compared := by
      intro other member third stage'' overlapped' share
      rcases rows other member with ⟨standing, _⟩ | rfl
      · exact (inv.compared other standing third stage'' overlapped' share).kept change.grants
      · cases share
        exact change.compared
    granted := by
      intro other member third stage'' share
      rcases rows other member with ⟨standing, different⟩ | rfl
      · refine (inv.granted other standing third stage'' share).same (change.others _ ?_)
        intro same
        have one := inv.alone other standing third stage'' share call known
          (shares_iff.mpr ⟨publication, stage, overlapped, work, same.symm⟩)
        exact different (congrArg Call.slot one.symm)
      · cases share
        exact change.granted (inv.granted call known publication stage work)
    alone := by
      intro other member third stage'' share another member' shares
      rcases rows other member with ⟨standing, different⟩ | rfl
      · rcases rows another member' with ⟨standing', _⟩ | rfl
        · exact inv.alone other standing third stage'' share another standing' shares
        · obtain ⟨_, _, _, share', same⟩ := shares_iff.mp shares
          cases share'
          have one := inv.alone other standing third stage'' share call known
            (shares_iff.mpr ⟨publication, stage, overlapped, work, same⟩)
          exact absurd (congrArg Call.slot one.symm) different
      · cases share
        rcases rows another member' with ⟨standing', different⟩ | rfl
        · have one := inv.alone call known publication stage work another standing' shares
          exact absurd (congrArg Call.slot one) different
        · rfl }

end Sound

theorem step_sound {s s' : ControlHub} {label : ControlStep} (inv : Sound s)
    (steady : Steady digests s label) (taken : s.step digests label = some s') :
    Sound s' ∧ KeepsGenerations s.store s'.store := by
  have still : s'.store = s.store → KeepsGenerations s.store s'.store := by
    intro same
    rw [same]
    exact KeepsGenerations.refl s.store
  cases label with
  | beginShare i nodeId publication =>
    simp only [ControlHub.step] at taken
    split at taken
    · cases taken
    · have same := ControlHub.start_store taken
      exact ⟨inv.published taken, still same⟩
  | beginProjection i nodeId item =>
    simp only [ControlHub.step] at taken
    split at taken
    · exact ⟨inv.started taken (by simp), still (ControlHub.start_store taken)⟩
    · cases taken
  | beginObservation i nodeId item | beginRotate i nodeId routeId =>
    simp only [ControlHub.step] at taken
    split at taken
    · split at taken
      · exact ⟨inv.started taken (by simp), still (ControlHub.start_store taken)⟩
      · cases taken
    · cases taken
  | advance i now secretCiphertext =>
    simp only [ControlHub.step] at taken
    split at taken
    · cases taken
    rename_i call found
    have known := Table.lookup_mem found
    have clean := steady call found
    split at taken
    · cases taken
      exact ⟨inv.left i, still rfl⟩
    · rename_i publication stage overlapped _ work
      rw [work] at clean
      split at taken
      · cases taken
        exact ⟨inv.left i, still rfl⟩
      · rename_i store after stepped
        cases taken
        have change := shareStep_stepped digests
          (inv.compared call known publication stage overlapped work) clean stepped
        exact ⟨inv.stepped known work change, change.generations⟩
    all_goals
      cases taken
      exact ⟨inv.fewer rfl fun _ member => Table.mem_delete member,
        KeepsGenerations.of_same rfl rfl⟩
  | fail i =>
    cases taken
    exact ⟨inv.left i, still rfl⟩
  | provision nodeId item =>
    simp only [ControlHub.step, Option.map_eq_some_iff] at taken
    obtain ⟨routes, _, rfl⟩ := taken
    exact ⟨inv.fewer rfl fun _ member => member, KeepsGenerations.of_same rfl rfl⟩
  | reconcile nodeId entityKind principalId active | notify nodeId intentId intent now
  | deleteRoute nodeId routeId =>
    cases taken
    exact ⟨inv.fewer rfl fun _ member => member, KeepsGenerations.of_same rfl rfl⟩

theorem start_sound {s : ControlHub} (idle : s.calls = .empty) : Sound s := by
  constructor
  all_goals
    rw [idle]
    intro call member
    cases member

theorem generations_of_steady {s : ControlHub} (idle : s.calls = .empty) {labels : List ControlStep}
    (steady : ∀ taken ∈ Transition.accepted (ControlHub.step digests) s labels,
      Steady digests taken.1 taken.2) :
    (Transition.trace (ControlHub.step digests) s labels).Pairwise fun t t' =>
      KeepsGenerations t.store t'.store := by
  refine Transition.trace_pairwise_of_clean (fun t => KeepsGenerations.refl t.store)
    (fun _ _ _ first second => first.trans second)
    (fun t label t' (clean : Sound t ∧ Steady digests t label) taken =>
      (step_sound digests clean.1 clean.2 taken).2) ?_
  intro taken member
  refine ⟨?_, steady taken member⟩
  exact Transition.trace_safe_of_clean
    (fun _ _ _ inv steady taken => (step_sound digests inv steady taken).1) (start_sound idle) steady
    taken.1 (Transition.accepted_mem_trace member).1

theorem grants_of_steady {s : ControlHub} (idle : s.calls = .empty) {labels : List ControlStep}
    (steady : ∀ taken ∈ Transition.accepted (ControlHub.step digests) s labels,
      Steady digests taken.1 taken.2) :
    ∀ t ∈ Transition.trace (ControlHub.step digests) s labels, ∀ call ∈ t.calls.rows,
      ∀ publication, call.Published publication → ExactGrants t.store publication := by
  intro t member call known publication published caller
  have inv := Transition.trace_safe_of_clean
    (fun _ _ _ inv steady taken => (step_sound digests inv steady taken).1) (start_sound idle) steady
    t member
  obtain ⟨sound, full, _⟩ := inv.granted call known publication _ published
  constructor
  · rintro ⟨grant, standing, ⟨target, _, current⟩, rfl⟩
    exact sound grant standing target current
  · intro allowed
    rcases full caller allowed with listed | granted
    · cases listed
    · exact granted

end Knoa.Hub.Control
