import Knoa.Hub.HostedControl

/-!
# Every Workspace has one owner

The owner of a Workspace is checked on one connection and the roles are written on another.
-/
namespace Knoa.Hub.Hosted

open Knoa.Tasks (Time)
open Relational Transaction

abbrev Workspaces := Table HostedWorkspace.workspaceId
abbrev Memberships := Table WorkspaceMembership.key

def Holds (memberships : Memberships) (workspaceId accountId : String) : Prop :=
  ∃ row ∈ memberships.rows, row.workspaceId = workspaceId ∧ row.accountId = accountId ∧
    row.role = .owner ∧ row.active = true

structure OneOwner (s : HostedStore) : Prop where
  owner : ∀ workspace ∈ s.workspaces.rows, workspace.active = true →
    ∃! accountId, Holds s.memberships workspace.workspaceId accountId
  personal : ∀ workspace ∈ s.workspaces.rows, workspace.active = true → workspace.kind = .personal →
    ∀ accountId, (activeMembership s workspace.workspaceId accountId).isSome = true ↔
      accountId = workspace.createdByAccountId

def writes : HostedStep → Option Nat
  | .addMember i _ => some i
  | .removeMember i => some i
  | .transferOwnership i => some i
  | _ => none

def request : HostedCall → Option (String × String × Nat)
  | .add requester workspaceId _ _ since => some (requester, workspaceId, since)
  | .remove requester workspaceId _ since => some (requester, workspaceId, since)
  | .removeRead requester workspaceId _ since => some (requester, workspaceId, since)
  | .transfer requester workspaceId _ since => some (requester, workspaceId, since)
  | _ => none

variable (env : HostedEnv)

def Effects (s : Hosted) (label : HostedStep) (requester workspaceId : String) (since : Nat) : Prop :=
  ∃ i call, writes label = some i ∧ s.calls[i]? = some call ∧
    request call = some (requester, workspaceId, since) ∧
    (Transition.next (step env) s label).store.memberships ≠ s.store.memberships

/-- What takes effect is asked for by the owner of that moment. -/
def ByOwner (s : Hosted) (label : HostedStep) : Prop :=
  ∀ requester workspaceId since, Effects env s label requester workspaceId since →
    Holds s.store.memberships workspaceId requester

/-- No transfer of the Workspace has come between the check of a call and its write. -/
def Steady (s : Hosted) (label : HostedStep) : Prop :=
  ∀ requester workspaceId since, Effects env s label requester workspaceId since →
    since = s.transfers workspaceId

structure Ruled (workspaces : Workspaces) (memberships : Memberships) : Prop where
  owner : ∀ workspace ∈ workspaces.rows, ∃ row ∈ memberships.rows,
    row.workspaceId = workspace.workspaceId ∧ row.role = .owner
  sole : ∀ row ∈ memberships.rows, ∀ other ∈ memberships.rows,
    row.workspaceId = other.workspaceId → row.role = .owner → other.role = .owner → row = other
  live : ∀ row ∈ memberships.rows, row.role = .owner → row.active = true
  personal : ∀ workspace ∈ workspaces.rows, workspace.kind = .personal →
    ∀ row ∈ memberships.rows, row.workspaceId = workspace.workspaceId →
      row.accountId = workspace.createdByAccountId
  placed : ∀ row ∈ memberships.rows, ∃ workspace ∈ workspaces.rows,
    workspace.workspaceId = row.workspaceId

variable {s made : HostedStore} {workspaceId accountId : String}
  {memberships memberships' : Memberships} {s' : Hosted} {returned : Unit} {draw : HostedDraw}
   {now : Time} {row : WorkspaceMembership}

theorem activeMembership_isSome_iff : (activeMembership s workspaceId accountId).isSome = true ↔
      ∃ row ∈ s.memberships.rows, row.workspaceId = workspaceId ∧ row.accountId = accountId ∧
        row.active = true := by
  rw [Option.isSome_iff_exists]
  constructor
  · rintro ⟨row, found⟩
    obtain ⟨held, active⟩ := Option.filter_eq_some_iff.mp found
    obtain ⟨listed, named⟩ := Table.lookup_eq_some_iff.mp held
    cases named
    exact ⟨row, listed, rfl, rfl, active⟩
  · rintro ⟨row, listed, rfl, rfl, active⟩
    exact ⟨row, Option.filter_eq_some_iff.mpr ⟨Table.lookup_of_mem listed, active⟩⟩

theorem Ruled.oneOwner (ruled : Ruled s.workspaces s.memberships) : OneOwner s where
  owner := by
    intro workspace listed _
    obtain ⟨row, member, named, role⟩ := ruled.owner workspace listed
    refine ⟨row.accountId, ⟨row, member, named, rfl, role, ruled.live row member role⟩, ?_⟩
    rintro accountId ⟨other, member', named', rfl, role', _⟩
    rw [ruled.sole other member' row member (named'.trans named.symm) role' role]
  personal := by
    intro workspace listed _ kind accountId
    rw [activeMembership_isSome_iff]
    constructor
    · rintro ⟨row, member, named, rfl, _⟩
      exact ruled.personal workspace listed kind row member named
    · rintro rfl
      obtain ⟨row, member, named, role⟩ := ruled.owner workspace listed
      exact ⟨row, member, named, ruled.personal workspace listed kind row member named,
        ruled.live row member role⟩

theorem Ruled.opened {workspaces workspaces' : Workspaces}
    (ruled : Ruled workspaces memberships) {workspace : HostedWorkspace}
    {first : WorkspaceMembership}
    (made : workspaces.insert workspace = some workspaces')
    (joined : memberships.insert first = some memberships')
    (named : first.workspaceId = workspace.workspaceId) (role : first.role = .owner)
    (active : first.active = true) (creator : first.accountId = workspace.createdByAccountId) :
    Ruled workspaces' memberships' := by
  have fresh : ∀ row ∈ memberships.rows, row.workspaceId ≠ workspace.workspaceId := by
    intro row member same
    obtain ⟨old, listed, place⟩ := ruled.placed row member
    exact Table.insert_fresh made (List.mem_map.mpr ⟨old, listed, place.trans same⟩)
  have olds : ∀ old ∈ workspaces.rows, old.workspaceId ≠ workspace.workspaceId :=
    fun old listed same => Table.insert_fresh made (same ▸ List.mem_map_of_mem listed)
  have here : ∀ row, row ∈ memberships'.rows ↔ row ∈ memberships.rows ∨ row = first := by
    intro row
    rw [Table.insert_rows joined, List.mem_append, List.mem_singleton]
  have there : ∀ old, old ∈ workspaces'.rows ↔ old ∈ workspaces.rows ∨ old = workspace := by
    intro old
    rw [Table.insert_rows made, List.mem_append, List.mem_singleton]
  constructor
  case owner =>
    intro other listed
    rcases (there other).mp listed with old | rfl
    · obtain ⟨row, member, place, owner⟩ := ruled.owner other old
      exact ⟨row, (here row).mpr (.inl member), place, owner⟩
    · exact ⟨first, (here first).mpr (.inr rfl), named, role⟩
  case sole =>
    intro row member other member' same owner owner'
    rcases (here row).mp member with old | rfl <;> rcases (here other).mp member' with old' | rfl
    · exact ruled.sole row old other old' same owner owner'
    · exact absurd (same.trans named) (fresh row old)
    · exact absurd (same.symm.trans named) (fresh other old')
    · rfl
  case live =>
    intro row member owner
    rcases (here row).mp member with old | rfl
    · exact ruled.live row old owner
    · exact active
  case personal =>
    intro other listed kind row member place
    rcases (there other).mp listed with old | rfl <;> rcases (here row).mp member with old' | rfl
    · exact ruled.personal other old kind row old' place
    · exact absurd (place.symm.trans named) (olds other old)
    · exact absurd place (fresh row old')
    · exact creator
  case placed =>
    intro row member
    rcases (here row).mp member with old | rfl
    · obtain ⟨other, listed, place⟩ := ruled.placed row old
      exact ⟨other, (there other).mpr (.inl listed), place⟩
    · exact ⟨workspace, (there workspace).mpr (.inr rfl), named.symm⟩

theorem Ruled.changed {workspaces : Workspaces} (ruled : Ruled workspaces memberships)
    (owners : ∀ row : WorkspaceMembership, row.role = .owner →
      (row ∈ memberships'.rows ↔ row ∈ memberships.rows))
    (members : ∀ row ∈ memberships'.rows, row ∈ memberships.rows ∨
      (∃ old ∈ memberships.rows, old.key = row.key) ∨
        ∃ workspace ∈ workspaces.rows, workspace.workspaceId = row.workspaceId ∧
          workspace.kind = .shared) : Ruled workspaces memberships' where
  owner := by
    intro workspace listed
    obtain ⟨row, member, named, role⟩ := ruled.owner workspace listed
    exact ⟨row, (owners row role).mpr member, named, role⟩
  sole := by
    intro row member other member' same role role'
    exact ruled.sole row ((owners row role).mp member) other ((owners other role').mp member') same
      role role'
  live := by
    intro row member role
    exact ruled.live row ((owners row role).mp member) role
  personal := by
    intro workspace listed kind row member named
    rcases members row member with old | ⟨old, listed', same⟩ | ⟨other, listed', place, shared⟩
    · exact ruled.personal workspace listed kind row old named
    · rw [← (Prod.mk.inj same).2]
      exact ruled.personal workspace listed kind old listed' ((Prod.mk.inj same).1.trans named)
    · rw [Table.mem_unique listed' listed (place.trans named), kind] at shared
      cases shared
  placed := by
    intro row member
    rcases members row member with old | ⟨old, listed', same⟩ | ⟨other, listed', place, shared⟩
    · exact ruled.placed row old
    · obtain ⟨workspace, listed, place⟩ := ruled.placed old listed'
      exact ⟨workspace, listed, place.trans (Prod.mk.inj same).1⟩
    · exact ⟨other, listed', place⟩

def Entitled (memberships : Memberships) (transfers : String → Nat) : HostedCall → Prop
  | .add requester workspaceId _ _ since | .remove requester workspaceId _ since =>
    since ≤ transfers workspaceId ∧
      (since = transfers workspaceId → Holds memberships workspaceId requester)
  | .removeRead requester workspaceId accountId since =>
    since ≤ transfers workspaceId ∧
      (since = transfers workspaceId → Holds memberships workspaceId requester ∧
        ¬Holds memberships workspaceId accountId)
  | .transfer requester workspaceId target since =>
    requester ≠ target ∧ since ≤ transfers workspaceId ∧
      (since = transfers workspaceId → Holds memberships workspaceId requester)
  | _ => True

structure Governed (s : Hosted) : Prop where
  ruled : Ruled s.store.workspaces s.store.memberships
  entitled : ∀ call ∈ s.calls, Entitled s.store.memberships s.transfers call

theorem start_governed : Governed {} where
  ruled := by
    constructor <;> exact nofun
  entitled := nofun

theorem Entitled.of_request {transfers : String → Nat}
    {call : HostedCall} (entitled : Entitled memberships transfers call)
    {requester : String} {since : Nat} (asked : request call = some (requester, workspaceId, since))
    (steady : since = transfers workspaceId) : Holds memberships workspaceId requester := by
  cases call with
  | add | remove => cases asked; exact entitled.2 steady
  | removeRead => cases asked; exact (entitled.2 steady).1
  | transfer => cases asked; exact entitled.2.2 steady
  | _ => cases asked

theorem Entitled.carry {transfers transfers' : String → Nat}
    {call : HostedCall} (entitled : Entitled memberships transfers call)
    (later : ∀ workspaceId, transfers workspaceId ≤ transfers' workspaceId)
    (same : ∀ workspaceId accountId, transfers' workspaceId = transfers workspaceId →
      (∃ owner, Holds memberships workspaceId owner) →
        (Holds memberships' workspaceId accountId ↔ Holds memberships workspaceId accountId)) :
    Entitled memberships' transfers' call := by
  have still : ∀ {workspaceId since}, since ≤ transfers workspaceId →
      since = transfers' workspaceId → transfers' workspaceId = transfers workspaceId := by
    intro workspaceId since bound now
    exact Nat.le_antisymm (now ▸ bound) (later workspaceId)
  cases call with
  | add requester workspaceId loginIdentity role since
  | remove requester workspaceId accountId since =>
    obtain ⟨bound, holds⟩ := entitled
    refine ⟨bound.trans (later _), fun now => ?_⟩
    have kept := still bound now
    have held := holds (now.trans kept)
    exact (same workspaceId requester kept ⟨requester, held⟩).mpr held
  | removeRead requester workspaceId accountId since =>
    obtain ⟨bound, holds⟩ := entitled
    refine ⟨bound.trans (later _), fun now => ?_⟩
    have kept := still bound now
    have held := holds (now.trans kept)
    have carried := fun other => same workspaceId other kept ⟨requester, held.1⟩
    exact ⟨(carried requester).mpr held.1, fun other => held.2 ((carried accountId).mp other)⟩
  | transfer requester workspaceId target since =>
    obtain ⟨apart, bound, holds⟩ := entitled
    refine ⟨apart, bound.trans (later _), fun now => ?_⟩
    have kept := still bound now
    have held := holds (now.trans kept)
    exact (same workspaceId requester kept ⟨requester, held⟩).mpr held
  | _ => trivial

theorem Governed.still {s : Hosted} (inv : Governed s)
    (workspaces : s'.store.workspaces = s.store.workspaces)
    (memberships : s'.store.memberships = s.store.memberships)
    (later : ∀ workspaceId, s.transfers workspaceId ≤ s'.transfers workspaceId)
    (calls : ∀ call ∈ s'.calls, call ∈ s.calls ∨ Entitled s'.store.memberships s'.transfers call) :
    Governed s' where
  ruled := by
    rw [workspaces, memberships]
    exact inv.ruled
  entitled := by
    intro call member
    rcases calls call member with earlier | new
    · rw [memberships]
      exact (inv.entitled call earlier).carry later (fun _ _ _ _ => Iff.rfl)
    · exact new

theorem requireOwner_ok (allowed : requireOwner s accountId workspaceId = .ok returned) :
    Holds s.memberships workspaceId accountId := by
  unfold requireOwner activeMembership at allowed
  simp only [bind_ok_iff, require_ok_iff, orRaise_ok_iff, Option.filter_eq_some_iff] at allowed
  obtain ⟨row, ⟨held, active⟩, _, _, _, role⟩ := allowed
  obtain ⟨listed, named⟩ := Table.lookup_eq_some_iff.mp held
  cases named
  exact ⟨row, listed, rfl, rfl, role, active⟩

theorem checkRemoval_ok (allowed : checkRemoval s workspaceId accountId = .ok returned) :
    ¬Holds s.memberships workspaceId accountId := by
  unfold checkRemoval activeMembership at allowed
  simp only [bind_ok_iff, require_ok_iff, orRaise_ok_iff, Option.filter_eq_some_iff] at allowed
  obtain ⟨row, ⟨held, _⟩, role⟩ := allowed
  obtain ⟨listed, named⟩ := Table.lookup_eq_some_iff.mp held
  rintro ⟨other, member, place, account, owner, _⟩
  have same : other.key = row.key := by
    rw [named, WorkspaceMembership.key, place, account]
  exact role (Table.mem_unique member listed same ▸ owner)

theorem issueSession_still {ttl : Option Int}
    (issued : issueSession env accountId ttl draw now s = .ok (returned, made)) :
    made.workspaces = s.workspaces ∧ made.memberships = s.memberships := by
  unfold issueSession at issued
  simp only [bind_ok_iff, require_ok_iff, orRaise_ok_iff] at issued
  obtain ⟨_, _, _, _, returned⟩ := issued
  cases returned
  exact ⟨rfl, rfl⟩

theorem createEnrollmentGrant_still {ttl : Int}
    (granted : createEnrollmentGrant env ttl draw now s = .ok (returned, made)) :
    made.workspaces = s.workspaces ∧ made.memberships = s.memberships := by
  unfold createEnrollmentGrant at granted
  simp only [bind_ok_iff, require_ok_iff, orRaise_ok_iff] at granted
  obtain ⟨_, _, _, _, returned⟩ := granted
  cases returned
  exact ⟨rfl, rfl⟩

theorem createResetGrant_still {loginIdentity : String} {ttl : Int}
    (granted : createResetGrant env loginIdentity ttl draw now s = .ok (returned, made)) :
    made.workspaces = s.workspaces ∧ made.memberships = s.memberships := by
  unfold createResetGrant at granted
  simp only [bind_ok_iff, require_ok_iff, orRaise_ok_iff] at granted
  obtain ⟨_, _, _, _, _, _, _, _, returned⟩ := granted
  cases returned
  exact ⟨rfl, rfl⟩

theorem revokeSession_still {token : String}
    (revoked : revokeSession env token now s = .ok (returned, made)) :
    made.workspaces = s.workspaces ∧ made.memberships = s.memberships := by
  unfold revokeSession at revoked
  simp only [bind_ok_iff, require_ok_iff, orRaise_ok_iff] at revoked
  obtain ⟨_, _, _, _, returned⟩ := revoked
  cases returned
  exact ⟨rfl, rfl⟩

theorem resetPassword_still {grantId grantSecret newPassword : String} {ttl : Option Int}
    (reset : resetPassword env grantId grantSecret newPassword ttl draw now s =
      .ok (accountId, made)) :
    made.workspaces = s.workspaces ∧ made.memberships = s.memberships := by
  unfold resetPassword at reset
  simp only [bind_ok_iff, require_ok_iff, orRaise_ok_iff] at reset
  obtain ⟨_, _, _, _, _, _, ⟨_, _⟩, done, returned⟩ := reset
  cases returned
  obtain ⟨workspaces, memberships⟩ := issueSession_still env done
  exact ⟨workspaces, memberships⟩

def Opens (s made : HostedStore) : Prop :=
  ∃ workspace first, s.workspaces.insert workspace = some made.workspaces ∧
    s.memberships.insert first = some made.memberships ∧
    first.workspaceId = workspace.workspaceId ∧ first.role = .owner ∧ first.active = true ∧
    first.accountId = workspace.createdByAccountId

theorem createAccount_opens {request : AccountRequest}
    (created : createAccount env request draw now s = .ok (returned, made)) : Opens s made := by
  unfold createAccount at created
  simp only [bind_ok_iff, require_ok_iff, orRaise_ok_iff] at created
  obtain ⟨_, _, _, _, _, _, _, _, _, _, _, _, _, _, _, _, workspaces, opened, memberships, joined,
    issued⟩ := created
  obtain ⟨sameWorkspaces, sameMemberships⟩ := issueSession_still env issued
  unfold Opens
  rw [sameWorkspaces, sameMemberships]
  exact ⟨_, _, opened, joined, rfl, rfl, rfl, rfl⟩

theorem createWorkspace_opens {name : String} {kind : WorkspaceKind}
    (created : createWorkspace accountId name kind draw now s = .ok (returned, made)) :
    Opens s made := by
  unfold createWorkspace at created
  simp only [bind_ok_iff, require_ok_iff, orRaise_ok_iff] at created
  obtain ⟨_, _, _, _, _, _, _, _, workspaces, opened, memberships, joined, returned⟩ := created
  cases returned
  exact ⟨_, _, opened, joined, rfl, rfl, rfl, rfl⟩

theorem Governed.opens {s : Hosted} (inv : Governed s) (opens : Opens s.store s'.store)
    (transfers : s'.transfers = s.transfers) (calls : s'.calls = s.calls) : Governed s' := by
  obtain ⟨workspace, first, made, joined, named, role, active, creator⟩ := opens
  refine ⟨inv.ruled.opened made joined named role active creator, ?_⟩
  intro call member
  rw [calls] at member
  rw [transfers]
  refine (inv.entitled call member).carry (fun _ => Nat.le_refl _) ?_
  intro workspaceId accountId _ owned
  constructor
  · rintro ⟨row, listed, place, account, owner, live⟩
    rw [Table.insert_rows joined] at listed
    rcases List.mem_concat.mp listed with old | new
    · exact ⟨row, old, place, account, owner, live⟩
    · -- an owner before, in a Workspace that is new
      obtain ⟨_, row', listed', place', _⟩ := owned
      obtain ⟨other, known, placed⟩ := inv.ruled.placed row' listed'
      rw [new] at place
      exact absurd (List.mem_map.mpr ⟨other, known, placed.trans (place'.trans
        (place.symm.trans named))⟩) (Table.insert_fresh made)
  · rintro ⟨row, listed, rest⟩
    exact ⟨row, by rw [Table.insert_rows joined]; exact List.mem_append_left _ listed, rest⟩

theorem Governed.changed {s : Hosted} (inv : Governed s)
    (workspaces : s'.store.workspaces = s.store.workspaces)
    (owners : ∀ row : WorkspaceMembership, row.role = .owner →
      (row ∈ s'.store.memberships.rows ↔ row ∈ s.store.memberships.rows))
    (members : ∀ row ∈ s'.store.memberships.rows, row ∈ s.store.memberships.rows ∨
      (∃ old ∈ s.store.memberships.rows, old.key = row.key) ∨
        ∃ workspace ∈ s.store.workspaces.rows, workspace.workspaceId = row.workspaceId ∧
          workspace.kind = .shared)
    (transfers : s'.transfers = s.transfers) (calls : ∀ call ∈ s'.calls, call ∈ s.calls) :
    Governed s' where
  ruled := by
    rw [workspaces]
    exact inv.ruled.changed owners members
  entitled := by
    intro call member
    rw [transfers]
    refine (inv.entitled call (calls call member)).carry (fun _ => Nat.le_refl _) ?_
    intro workspaceId accountId _ _
    constructor
    · rintro ⟨row, listed, place, account, owner, live⟩
      exact ⟨row, (owners row owner).mp listed, place, account, owner, live⟩
    · rintro ⟨row, listed, place, account, owner, live⟩
      exact ⟨row, (owners row owner).mpr listed, place, account, owner, live⟩

theorem mem_upsert {other : WorkspaceMembership} : other ∈ (memberships.upsert row).rows ↔
      other ∈ memberships.rows ∧ other.key ≠ row.key ∨ other = row := by
  rw [Table.upsert, List.mem_append, List.mem_singleton, Table.delete, List.mem_filter]
  simp

theorem activeShared_iff : activeShared s workspaceId = true ↔ ∃ workspace ∈ s.workspaces.rows,
      workspace.workspaceId = workspaceId ∧ workspace.kind = .shared ∧ workspace.active = true := by
  unfold activeShared
  rw [Option.any_eq_true]
  constructor
  · rintro ⟨workspace, found, shared⟩
    obtain ⟨listed, named⟩ := Table.lookup_eq_some_iff.mp found
    obtain ⟨active, kind⟩ := (Bool.and_eq_true _ _).mp shared
    exact ⟨workspace, listed, named, beq_iff_eq.mp kind, active⟩
  · rintro ⟨workspace, listed, rfl, kind, active⟩
    exact ⟨workspace, Table.lookup_of_mem listed, by simp [kind, active]⟩

theorem addMember_ok {loginIdentity : String} {role : WorkspaceRole}
    (added : addMember env workspaceId loginIdentity role now s = .ok (returned, made)) :
    ∃ row, made = { s with memberships := s.memberships.upsert row } ∧ row.role ≠ .owner ∧
      (∀ old ∈ s.memberships.rows, old.key = row.key → old.role ≠ .owner) ∧
      ∃ workspace ∈ s.workspaces.rows, workspace.workspaceId = row.workspaceId ∧
        workspace.kind = .shared := by
  unfold addMember at added
  simp only [bind_ok_iff, require_ok_iff, orRaise_ok_iff] at added
  obtain ⟨_, lesser, login, _, _, shared, account, _, added⟩ := added
  obtain ⟨workspace, known, place, kind, _⟩ := activeShared_iff.mp shared
  split at added
  · rename_i absent
    cases added
    refine ⟨_, rfl, lesser, ?_, workspace, known, place, kind⟩
    intro old listed same
    exact absurd (List.mem_map.mpr ⟨old, listed, same⟩) (Table.lookup_eq_none_iff.mp absent)
  · rename_i row found
    simp only [bind_ok_iff, require_ok_iff] at added
    obtain ⟨_, notOwner, returned⟩ := added
    cases returned
    obtain ⟨listed, named⟩ := Table.lookup_eq_some_iff.mp found
    refine ⟨_, rfl, lesser, ?_, workspace, known, place.trans (Prod.mk.inj named).1.symm, kind⟩
    intro old member same
    rw [Table.mem_unique member listed same]
    exact notOwner

theorem addMember_owners {other : WorkspaceMembership} (lesser : row.role ≠ .owner)
    (apart : ∀ old ∈ memberships.rows, old.key = row.key → old.role ≠ .owner)
    (owner : other.role = .owner) :
    other ∈ (memberships.upsert row).rows ↔ other ∈ memberships.rows := by
  rw [mem_upsert]
  constructor
  · rintro (⟨listed, _⟩ | rfl)
    · exact listed
    · exact absurd owner lesser
  · intro listed
    exact .inl ⟨listed, fun same => apart other listed same owner⟩

theorem revokeMember_owners (ruled : Ruled s.workspaces s.memberships)
    (lesser : ¬Holds s.memberships workspaceId accountId) (owner : row.role = .owner) :
    row ∈ (revokeMember s workspaceId accountId).memberships.rows ↔ row ∈ s.memberships.rows := by
  have unselected : ∀ old ∈ s.memberships.rows, old.role = .owner →
      (old.workspaceId == workspaceId && old.accountId == accountId) = false := by
    intro old listed role
    by_contra selected
    obtain ⟨place, account⟩ := (Bool.and_eq_true _ _).mp (Bool.not_eq_false _ ▸ selected)
    exact lesser ⟨old, listed, beq_iff_eq.mp place, beq_iff_eq.mp account, role,
      ruled.live old listed role⟩
  have rows : (revokeMember s workspaceId accountId).memberships.rows =
      s.memberships.rows.map (fun old =>
        if old.workspaceId == workspaceId && old.accountId == accountId then
          { old with active := false }
        else old) := rfl
  rw [rows, List.mem_map]
  constructor
  · rintro ⟨old, listed, rfl⟩
    have role : old.role = .owner := by
      split at owner <;> exact owner
    simpa [unselected old listed role] using listed
  · intro listed
    exact ⟨row, listed, by simp [unselected row listed owner]⟩

theorem revokeMember_key (member : row ∈ (revokeMember s workspaceId accountId).memberships.rows) :
    ∃ old ∈ s.memberships.rows, old.key = row.key := by
  obtain ⟨old, listed, rfl⟩ := List.mem_map.mp member
  refine ⟨old, listed, ?_⟩
  split <;> rfl

/-- What a transfer makes of one membership. -/
def passed (requester workspaceId target : String) (row : WorkspaceMembership) :
    WorkspaceMembership :=
  let demoted :=
    if row.workspaceId == workspaceId && row.accountId == requester && row.role == .owner then
      { row with role := .admin }
    else row
  if demoted.workspaceId == workspaceId && demoted.accountId == target && demoted.active then
    { demoted with role := .owner }
  else demoted

section
variable {requester workspaceId target : String}

@[simp] theorem passed_workspaceId (row : WorkspaceMembership) :
    (passed requester workspaceId target row).workspaceId = row.workspaceId := by
  unfold passed
  grind

@[simp] theorem passed_accountId (row : WorkspaceMembership) :
    (passed requester workspaceId target row).accountId = row.accountId := by
  unfold passed
  grind

@[simp] theorem passed_active (row : WorkspaceMembership) :
    (passed requester workspaceId target row).active = row.active := by
  unfold passed
  grind

theorem passed_elsewhere {row : WorkspaceMembership} (elsewhere : row.workspaceId ≠ workspaceId) :
    passed requester workspaceId target row = row := by
  simp [passed, elsewhere]

theorem passed_target {row : WorkspaceMembership} (place : row.workspaceId = workspaceId)
    (account : row.accountId = target) (active : row.active = true) :
    (passed requester workspaceId target row).role = .owner := by
  unfold passed
  grind

theorem passed_owner {row : WorkspaceMembership} (place : row.workspaceId = workspaceId)
    (owner : row.role = .owner → row.accountId = requester)
    (role : (passed requester workspaceId target row).role = .owner) : row.accountId = target := by
  unfold passed at role
  grind

end

theorem transferOwnership_ok {s made : HostedStore} {requester workspaceId target : String}
    {returned : Unit}
    (transferred : transferOwnership requester workspaceId target s = .ok (returned, made)) :
    made.workspaces = s.workspaces ∧
      made.memberships.rows = s.memberships.rows.map (passed requester workspaceId target) ∧
      ∃ row ∈ s.memberships.rows, row.workspaceId = workspaceId ∧ row.accountId = target ∧
        row.active = true := by
  unfold transferOwnership at transferred
  simp only [bind_ok_iff, require_ok_iff, orRaise_ok_iff] at transferred
  obtain ⟨_, _, row, found, returned⟩ := transferred
  cases returned
  refine ⟨rfl, ?_, activeMembership_isSome_iff.mp (by rw [found]; rfl)⟩
  change List.map _ (List.map _ s.memberships.rows) = _
  rw [List.map_map]
  rfl

theorem Ruled.transferred {workspaces : Workspaces} {memberships memberships' : Memberships}
    (ruled : Ruled workspaces memberships) {requester workspaceId target : String}
    (holds : Holds memberships workspaceId requester)
    (member : ∃ row ∈ memberships.rows, row.workspaceId = workspaceId ∧ row.accountId = target ∧
      row.active = true)
    (rows : memberships'.rows = memberships.rows.map (passed requester workspaceId target)) :
    Ruled workspaces memberships' := by
  obtain ⟨former, listed, place, account, role, _⟩ := holds
  obtain ⟨heir, listed', place', account', active⟩ := member
  have here : ∀ row, row ∈ memberships'.rows ↔
      ∃ old ∈ memberships.rows, passed requester workspaceId target old = row := by
    intro row
    rw [rows, List.mem_map]
  -- in this Workspace the owner is the target, elsewhere it is the owner before
  have inherits : ∀ old ∈ memberships.rows,
      (passed requester workspaceId target old).role = .owner → old = heir ∨
        old.workspaceId ≠ workspaceId ∧ old.role = .owner := by
    intro old known owner
    by_cases same : old.workspaceId = workspaceId
    · have named := passed_owner same (fun owns => by
        rw [ruled.sole old known former listed (same.trans place.symm) owns role, account]) owner
      refine .inl (Table.mem_unique known listed' ?_)
      rw [WorkspaceMembership.key, WorkspaceMembership.key, same, named, place', account']
    · rw [passed_elsewhere same] at owner
      exact .inr ⟨same, owner⟩
  constructor
  case owner =>
    intro workspace known
    obtain ⟨row, owned, named, owner⟩ := ruled.owner workspace known
    by_cases same : workspace.workspaceId = workspaceId
    · exact ⟨_, (here _).mpr ⟨heir, listed', rfl⟩, by simp [place', same],
        passed_target place' account' active⟩
    · have elsewhere := @passed_elsewhere requester workspaceId target row (named ▸ same)
      exact ⟨row, (here row).mpr ⟨row, owned, elsewhere⟩, named, owner⟩
  case sole =>
    intro row kept other kept' same owner owner'
    obtain ⟨old, known, rfl⟩ := (here row).mp kept
    obtain ⟨old', known', rfl⟩ := (here other).mp kept'
    rw [passed_workspaceId, passed_workspaceId] at same
    rcases inherits old known owner with rfl | ⟨elsewhere, owns⟩ <;>
      rcases inherits old' known' owner' with rfl | ⟨elsewhere', owns'⟩
    · rfl
    · exact absurd (same.symm.trans place') elsewhere'
    · exact absurd (same.trans place') elsewhere
    · rw [ruled.sole old known old' known' same owns owns']
  case live =>
    intro row kept owner
    obtain ⟨old, known, rfl⟩ := (here row).mp kept
    rw [passed_active]
    rcases inherits old known owner with rfl | ⟨_, owns⟩
    · exact active
    · exact ruled.live old known owns
  case personal =>
    intro workspace known kind row kept named
    obtain ⟨old, known', rfl⟩ := (here row).mp kept
    rw [passed_workspaceId] at named
    rw [passed_accountId]
    exact ruled.personal workspace known kind old known' named
  case placed =>
    intro row kept
    obtain ⟨old, known, rfl⟩ := (here row).mp kept
    rw [passed_workspaceId]
    exact ruled.placed old known

theorem transferred_elsewhere {memberships memberships' : Memberships}
    {requester workspaceId target other accountId : String}
    (rows : memberships'.rows = memberships.rows.map (passed requester workspaceId target))
    (elsewhere : other ≠ workspaceId) :
    Holds memberships' other accountId ↔ Holds memberships other accountId := by
  unfold Holds
  rw [rows]
  constructor
  · rintro ⟨row, member, place, rest⟩
    obtain ⟨old, listed, rfl⟩ := List.mem_map.mp member
    rw [passed_workspaceId] at place
    rw [passed_elsewhere (place ▸ elsewhere)] at rest
    exact ⟨old, listed, place, rest⟩
  · rintro ⟨row, listed, place, rest⟩
    exact ⟨row, List.mem_map.mpr ⟨row, listed, passed_elsewhere (place ▸ elsewhere)⟩, place, rest⟩

variable {s s' : Hosted} {label : HostedStep} {i : Nat}

theorem Governed.byOwner (inv : Governed s)
    (steady : Steady env s label) : ByOwner env s label := by
  intro requester workspaceId since effects
  have current := steady requester workspaceId since effects
  obtain ⟨i, call, _, waiting, asked, _⟩ := effects
  exact (inv.entitled call (List.mem_of_getElem? waiting)).of_request asked current

theorem Governed.checked (inv : Governed s) {call : HostedCall}
    (entitled : Entitled s.store.memberships s.transfers call) :
    Governed { s with calls := s.calls ++ [call] } := by
  refine inv.still rfl rfl (fun _ => Nat.le_refl _) ?_
  intro other member
  rcases List.mem_concat.mp member with earlier | new
  · exact .inl earlier
  · rw [new]
    exact .inr entitled

theorem removeMember_governed (inv : Governed s)
    (steady : Steady env s (.removeMember i)) (taken : step env s (.removeMember i) = some s') :
    Governed s' := by
  by_cases same : s'.store.memberships = s.store.memberships
  · simp only [step] at taken
    split at taken <;> cases taken
    exact inv.still rfl same (fun _ => Nat.le_refl _)
      (fun _ member => .inl (List.mem_of_mem_eraseIdx member))
  · have reached := Transition.next_of_some taken
    simp only [step] at taken
    split at taken
    · rename_i requester workspaceId accountId since waiting
      have current := steady requester workspaceId since
        ⟨i, _, rfl, waiting, rfl, by rw [reached]; exact same⟩
      have entitled := inv.entitled _ (List.mem_of_getElem? waiting)
      have lesser := (entitled.2 current).2
      cases taken
      refine inv.changed rfl (fun row => revokeMember_owners inv.ruled lesser) ?_ rfl
        (fun _ => List.mem_of_mem_eraseIdx)
      exact fun row member => .inr (.inl (revokeMember_key member))
    · cases taken

theorem addMember_governed {now : Time} (inv : Governed s)
    (taken : step env s (.addMember i now) = some s') : Governed s' := by
  simp only [step] at taken
  split at taken <;> cases taken
  rename_i requester workspaceId loginIdentity role since waiting
  cases ran : commit (addMember env workspaceId loginIdentity role now) s.store with
  | mk result made =>
    cases result with
    | error e =>
      have same := Transaction.commit_error (congrArg Prod.fst ran)
      rw [ran] at same
      cases same
      exact inv.still rfl rfl (fun _ => Nat.le_refl _)
        (fun _ member => .inl (List.mem_of_mem_eraseIdx member))
    | ok _ =>
      obtain ⟨row, rfl, lesser, apart, workspace, known, place, shared⟩ :=
        addMember_ok env (Transaction.commit_ok_iff.mp ran)
      refine inv.changed rfl (fun other => addMember_owners lesser apart) ?_ rfl
        (fun _ => List.mem_of_mem_eraseIdx)
      intro other member
      rcases mem_upsert.mp member with ⟨old, _⟩ | rfl
      · exact .inl old
      · exact .inr (.inr ⟨workspace, known, place, shared⟩)

theorem transferOwnership_governed (inv : Governed s) (steady : Steady env s (.transferOwnership i))
    (taken : step env s (.transferOwnership i) = some s') : Governed s' := by
  have reached := Transition.next_of_some taken
  simp only [step] at taken
  split at taken
  · rename_i requester workspaceId target since waiting
    split at taken
    · rename_i made transferred
      obtain ⟨workspaces, rows, member⟩ := transferOwnership_ok transferred
      cases taken
      have later : ∀ other, s.transfers other ≤
          Function.update s.transfers workspaceId (s.transfers workspaceId + 1) other := by
        intro other
        by_cases same : other = workspaceId
        · rw [same, Function.update_self]
          exact Nat.le_succ _
        · rw [Function.update_of_ne same]
      by_cases same : made.memberships = s.store.memberships
      · exact inv.still workspaces same later
          (fun _ member => .inl (List.mem_of_mem_eraseIdx member))
      · have current := steady requester workspaceId since
          ⟨i, _, rfl, waiting, rfl, by rw [reached]; exact same⟩
        have entitled := inv.entitled _ (List.mem_of_getElem? waiting)
        refine ⟨?_, ?_⟩
        · rw [workspaces]
          exact inv.ruled.transferred (entitled.2.2 current) member rows
        · intro call kept
          refine (inv.entitled call (List.mem_of_mem_eraseIdx kept)).carry later ?_
          intro other accountId still _
          have elsewhere : other ≠ workspaceId := by
            rintro rfl
            have raised : Function.update s.transfers other (s.transfers other + 1) other =
              s.transfers other := still
            rw [Function.update_self] at raised
            omega
          exact transferred_elsewhere rows elsewhere
    · cases taken
      exact inv.still rfl rfl (fun _ => Nat.le_refl _)
        (fun _ member => .inl (List.mem_of_mem_eraseIdx member))
  · cases taken

theorem step_governed (inv : Governed s)
    (steady : Steady env s label) (taken : step env s label = some s') : Governed s' := by
  have erased : ∀ {i : Nat} {call : HostedCall}, call ∈ s.calls.eraseIdx i →
      call ∈ s.calls ∨ Entitled s.store.memberships s.transfers call :=
    fun member => .inl (List.mem_of_mem_eraseIdx member)
  cases label with
  | createEnrollmentGrant ttl draw now =>
    simp only [step] at taken
    split at taken <;> cases taken
    rename_i granted
    obtain ⟨workspaces, memberships⟩ := createEnrollmentGrant_still env granted
    exact inv.still workspaces memberships (fun _ => Nat.le_refl _) (fun _ => .inl)
  | createAccount request draw now =>
    simp only [step] at taken
    split at taken <;> cases taken
    rename_i created
    exact inv.opens (createAccount_opens env created) rfl rfl
  | verifyLogin loginIdentity password ttl
  | verifyChange accountId currentPassword newPassword currentToken =>
    simp only [step] at taken
    split at taken <;> cases taken
    exact inv.checked trivial
  | issueLogin i draw now =>
    simp only [step] at taken
    split at taken
    · split at taken
      · rename_i issued
        cases taken
        obtain ⟨workspaces, memberships⟩ := issueSession_still env issued
        refine inv.still workspaces memberships (fun _ => Nat.le_refl _) ?_
        exact fun _ member => .inl (List.mem_of_mem_eraseIdx member)
      · cases taken
        exact inv.still rfl rfl (fun _ => Nat.le_refl _) (fun _ => erased)
    · cases taken
  | revokeSession token now =>
    simp only [step] at taken
    split at taken <;> cases taken
    rename_i revoked
    obtain ⟨workspaces, memberships⟩ := revokeSession_still env revoked
    exact inv.still workspaces memberships (fun _ => Nat.le_refl _) (fun _ => .inl)
  | changePassword i salt now =>
    simp only [step] at taken
    split at taken <;> cases taken
    exact inv.still rfl rfl (fun _ => Nat.le_refl _) (fun _ => erased)
  | createResetGrant loginIdentity ttl draw now =>
    simp only [step] at taken
    split at taken <;> cases taken
    rename_i granted
    obtain ⟨workspaces, memberships⟩ := createResetGrant_still env granted
    exact inv.still workspaces memberships (fun _ => Nat.le_refl _) (fun _ => .inl)
  | resetPassword grantId grantSecret newPassword ttl draw now =>
    simp only [step] at taken
    split at taken <;> cases taken
    rename_i reset
    obtain ⟨workspaces, memberships⟩ := resetPassword_still env reset
    exact inv.still workspaces memberships (fun _ => Nat.le_refl _) (fun _ => .inl)
  | createWorkspace accountId name kind draw now =>
    simp only [step] at taken
    split at taken <;> cases taken
    rename_i created
    exact inv.opens (createWorkspace_opens created) rfl rfl
  | checkAdd requester workspaceId loginIdentity role
  | checkRemove requester workspaceId accountId =>
    simp only [step] at taken
    split at taken <;> cases taken
    rename_i allowed
    exact inv.checked ⟨Nat.le_refl _, fun _ => requireOwner_ok allowed⟩
  | addMember i now => exact addMember_governed env inv taken
  | readRemove i =>
    simp only [step] at taken
    split at taken
    · rename_i requester workspaceId accountId since waiting
      split at taken
      · rename_i allowed
        cases taken
        refine inv.still rfl rfl (fun _ => Nat.le_refl _) ?_
        intro call member
        rcases List.mem_or_eq_of_mem_set member with earlier | rfl
        · exact .inl earlier
        · obtain ⟨bound, holds⟩ := inv.entitled _ (List.mem_of_getElem? waiting)
          exact .inr ⟨bound, fun now => ⟨holds now, checkRemoval_ok allowed⟩⟩
      · cases taken
        exact inv.still rfl rfl (fun _ => Nat.le_refl _) (fun _ => erased)
    · cases taken
  | removeMember i => exact removeMember_governed env inv steady taken
  | checkTransfer requester workspaceId target =>
    simp only [step] at taken
    split at taken
    · rename_i allowed
      split at taken
      · cases taken
        exact inv
      · rename_i apart
        cases taken
        exact inv.checked ⟨apart, Nat.le_refl _, fun _ => requireOwner_ok allowed⟩
    · cases taken
  | transferOwnership i => exact transferOwnership_governed env inv steady taken

/-- Without a transfer between a check and its write, every run keeps one owner a Workspace, and
what takes effect is asked for by that owner. -/
theorem one_owner_of_steady (labels : List HostedStep)
    (steady : ∀ taken ∈ Transition.accepted (step env) {} labels, Steady env taken.1 taken.2) :
    (∀ t ∈ Transition.trace (step env) {} labels, OneOwner t.store) ∧
      ∀ taken ∈ Transition.accepted (step env) {} labels, ByOwner env taken.1 taken.2 := by
  have kept : ∀ s label s', Governed s → Steady env s label → step env s label = some s' →
      Governed s' := fun _ _ _ inv steady taken => step_governed env inv steady taken
  refine ⟨fun t member => ?_, ?_⟩
  · exact (Transition.trace_safe_of_clean kept start_governed steady t member).ruled.oneOwner
  · exact Transition.accepted_of_clean kept (fun _ _ _ inv steady _ => inv.byOwner env steady)
      start_governed steady

/-- `Steady` as a test of the call that writes. -/
def steadyAt (s : Hosted) (label : HostedStep) : Bool :=
  match (writes label).bind (fun i => s.calls[i]?.bind request) with
  | some (_, workspaceId, since) => since == s.transfers workspaceId
  | none => true

theorem steady_of_steadyAt (tested : steadyAt s label = true) : Steady env s label := by
  rintro requester workspaceId since ⟨i, call, writing, waiting, asked, _⟩
  simpa [steadyAt, writing, waiting, asked] using tested

def enrolled (name : String) : List HostedStep :=
  [.createEnrollmentGrant 600
      { grantId := name, secret := name } 0, .createAccount
      { grantId := name, grantSecret := name, loginIdentity := name, displayName := name,
        password := "a long password" }
      { accountId := name, workspaceId := name, accessToken := name } 0]

/-- Three accounts in a Workspace of the first. -/
def team : List HostedStep :=
  enrolled "ann" ++ enrolled "bob" ++ enrolled "cat" ++
    [.createWorkspace "ann" "Team" .shared { workspaceId := "team" } 1,
      .checkAdd "ann" "team" "bob" .member, .addMember 0 2, .checkAdd "ann" "team" "cat" .admin,
      .addMember 0 2]

def twoTransfers : List HostedStep :=
  team ++
    [.checkTransfer "ann" "team" "bob", .checkTransfer "ann" "team" "cat", .transferOwnership 0,
      .transferOwnership 0]

theorem one_owner_of_steady_run :
    let labels := team ++
      [.checkTransfer "ann" "team" "bob", .transferOwnership 0, .checkRemove "bob" "team" "ann",
        .readRemove 0, .removeMember 0]
    (∀ t ∈ Transition.trace (step plainEnv) {} labels, OneOwner t.store) ∧
      ∀ taken ∈ Transition.accepted (step plainEnv) {} labels, ByOwner plainEnv taken.1 taken.2 := by
  refine one_owner_of_steady plainEnv _ fun taken member => steady_of_steadyAt plainEnv ?_
  have tested : (Transition.accepted (step plainEnv) {} (team ++
      [.checkTransfer "ann" "team" "bob", .transferOwnership 0, .checkRemove "bob" "team" "ann",
        .readRemove 0, .removeMember 0])).all (fun taken => steadyAt taken.1 taken.2) = true := by
    decide +kernel
  exact List.all_eq_true.mp tested taken member

theorem two_owners : ¬∀ t ∈ Transition.trace (step plainEnv) {} twoTransfers, OneOwner t.store := by
  intro safe
  have ends := safe _ (Transition.mem_trace_final _ twoTransfers)
  have listed : (Transition.final (step plainEnv) {} twoTransfers).store.workspaces.rows.any
      (fun workspace => workspace.workspaceId == "team" && workspace.active) = true := by
    decide +kernel
  have owners : ∀ name ∈ ["bob", "cat"],
      (Transition.final (step plainEnv) {} twoTransfers).store.memberships.rows.any (fun row =>
        row.workspaceId == "team" && row.accountId == name && row.role == .owner && row.active) =
          true := by
    decide +kernel
  have holds : ∀ name ∈ ["bob", "cat"],
      Holds (Transition.final (step plainEnv) {} twoTransfers).store.memberships "team" name := by
    intro name member
    obtain ⟨row, known, found⟩ := List.any_eq_true.mp (owners name member)
    simp only [Bool.and_eq_true, beq_iff_eq] at found
    obtain ⟨⟨⟨place, account⟩, role⟩, active⟩ := found
    exact ⟨row, known, place, account, role, active⟩
  obtain ⟨workspace, known, found⟩ := List.any_eq_true.mp listed
  simp only [Bool.and_eq_true, beq_iff_eq] at found
  obtain ⟨owner, _, unique⟩ := ends.owner workspace known found.2
  rw [found.1] at unique
  have both : "bob" = "cat" :=
    (unique "bob" (holds "bob" (by simp))).trans (unique "cat" (holds "cat" (by simp))).symm
  exact absurd both (by decide)

end Knoa.Hub.Hosted
