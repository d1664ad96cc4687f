import Knoa.Hub.HostedControl
import Mathlib.Tactic.Linarith

/-!
# A password change ends the old password

Every session that authenticates stands on the strength of the password in force, as long as no
login issues a session for a password that has been replaced since it was verified.
-/
namespace Knoa.Hub.Hosted

open Knoa.Tasks (Time)
open Relational Transaction

variable (env : HostedEnv)

/-- A session that authenticates stands on the password in force, and no grant is used twice. -/
structure Secured (s : Hosted) : Prop where
  current : ∀ token now row, authenticate env s.store token now = .ok row →
    s.strength row.sessionDigest = s.generation row.accountId
  once : s.uses.Nodup

/-- A session can be issued: its time to live is accepted and its token is new. -/
def Issuable (s : HostedStore) (ttl : Option Int) (draw : HostedDraw) : Prop :=
  (ttl.getD env.accountSessionTtl = 0 ∨ 60 ≤ ttl.getD env.accountSessionTtl) ∧
    s.sessions.lookup (env.tokenDigest draw.accessToken) = none

/-- No session is issued for a password that has been replaced since it was verified. -/
def Current (s : Hosted) : HostedStep → Prop
  | .issueLogin i draw _ => ∀ accountId generation ttl,
      s.calls[i]? = some (.login accountId generation ttl) → Issuable env s.store ttl draw →
        generation = s.generation accountId
  | _ => True

def Standing (sessions : Table AccountSession.sessionDigest) (strength : String → Nat)
    (generation : String → Nat) : Prop :=
  ∀ row ∈ sessions.rows, row.revokedAt = none → strength row.sessionDigest = generation row.accountId

variable {strength generation : String → Nat} {row : AccountSession}

theorem Standing.insert {sessions made : Table AccountSession.sessionDigest}
    (standing : Standing sessions strength generation) (inserted : sessions.insert row = some made) :
    Standing made (Function.update strength row.sessionDigest (generation row.accountId))
      generation := by
  intro other member live
  rw [Table.insert_rows inserted] at member
  rcases List.mem_concat.mp member with old | new
  · have apart : other.sessionDigest ≠ row.sessionDigest := fun same =>
      Table.insert_fresh inserted (same ▸ List.mem_map_of_mem old)
    rw [Function.update_of_ne apart]
    exact standing other old live
  · rw [new, Function.update_self]

variable {s : HostedStore} {now : Time}

theorem mem_revoked {p : AccountSession → Bool}
    (member : row ∈ (revokeSessions s p now).sessions.rows) (live : row.revokedAt = none) :
    row ∈ s.sessions.rows ∧ p row = false := by
  obtain ⟨old, listed, rfl⟩ := List.mem_map.mp member
  by_cases selected : (p old && old.revokedAt.isNone) = true
  · simp [selected] at live
  · simp only [if_neg selected] at live ⊢
    refine ⟨listed, ?_⟩
    rw [live] at selected
    simpa using selected

theorem Standing.revoke (standing : Standing s.sessions strength generation)
    (p : AccountSession → Bool) (now : Time) :
    Standing (revokeSessions s p now).sessions strength generation := by
  intro row member live
  exact standing row (mem_revoked member live).1 live

variable {accountId : String}

theorem Standing.replace {strength' : String → Nat}
    (standing : Standing s.sessions strength generation) {p : AccountSession → Bool}
    (others : ∀ row ∈ s.sessions.rows, row.accountId ≠ accountId →
      strength' row.sessionDigest = strength row.sessionDigest)
    (own : ∀ row ∈ s.sessions.rows, row.accountId = accountId → p row = false →
      strength' row.sessionDigest = generation accountId + 1) :
    Standing (revokeSessions s p now).sessions strength'
      (Function.update generation accountId (generation accountId + 1)) := by
  intro row member live
  obtain ⟨listed, kept⟩ := mem_revoked member live
  by_cases same : row.accountId = accountId
  · rw [own row listed same kept, same, Function.update_self]
  · rw [others row listed same, Function.update_of_ne same]
    exact standing row listed live

variable {made : HostedStore} {ttl : Option Int} {draw : HostedDraw} {returned : Unit}

theorem issueSession_ok (issued : issueSession env accountId ttl draw now s = .ok (returned, made)) :
    ∃ row sessions, s.sessions.insert row = some sessions ∧
      made = { s with sessions } ∧ row.accountId = accountId ∧
      row.sessionDigest = env.tokenDigest draw.accessToken ∧ row.revokedAt = none := by
  unfold issueSession at issued
  simp only [bind_ok_iff, require_ok_iff, orRaise_ok_iff] at issued
  obtain ⟨_, _, sessions, inserted, returned⟩ := issued
  cases returned
  exact ⟨_, sessions, inserted, rfl, rfl, rfl, rfl⟩

theorem issueSession_of_issuable (accountId : String) (now : Time)
    (issuable : Issuable env s ttl draw) :
    ∃ made, issueSession env accountId ttl draw now s = .ok ((), made) := by
  let row : AccountSession :=
    { sessionDigest := env.tokenDigest draw.accessToken, accountId, createdAt := now,
      expiresAt := if ttl.getD env.accountSessionTtl = 0 then persistentSessionExpiresAt
        else now + ttl.getD env.accountSessionTtl }
  obtain ⟨accepted, unused⟩ := issuable
  have fresh : s.sessions.lookup row.sessionDigest = none := unused
  obtain ⟨sessions, inserted⟩ := Table.insert_of_lookup_none fresh
  refine ⟨{ s with sessions }, ?_⟩
  unfold issueSession
  simp only [bind_ok_iff, require_ok_iff, orRaise_ok_iff]
  exact ⟨⟨⟩, accepted, sessions, inserted, rfl⟩

theorem issuable_of_issueSession
    (issued : issueSession env accountId ttl draw now s = .ok (returned, made)) :
    Issuable env s ttl draw := by
  unfold issueSession at issued
  simp only [bind_ok_iff, require_ok_iff, orRaise_ok_iff] at issued
  obtain ⟨_, accepted, sessions, inserted, _⟩ := issued
  exact ⟨accepted, Table.lookup_eq_none_iff.mpr (Table.insert_fresh inserted)⟩

def Known (s : HostedStore) (accountId : String) : Prop :=
  (s.accounts.lookup accountId).any (·.active) = true ∧
    s.identities.rows.any (fun identity => identity.accountId == accountId && identity.active) = true

def Spent (s : HostedStore) : GrantUse → Prop
  | .enrollment grantId => ∃ row, s.enrollments.lookup grantId = some row ∧ row.consumedAt ≠ none
  | .reset grantId => ∃ row, s.resets.lookup grantId = some row ∧ row.consumedAt ≠ none

/-- Accounts stay and consumed grants stay consumed. -/
structure Grown (s s' : HostedStore) : Prop where
  known : ∀ accountId, Known s accountId → Known s' accountId
  spent : ∀ use, Spent s use → Spent s' use

theorem Grown.of_eq {s' : HostedStore} (accounts : s'.accounts = s.accounts)
    (identities : s'.identities = s.identities) (enrollments : s'.enrollments = s.enrollments)
    (resets : s'.resets = s.resets) : Grown s s' where
  known := by
    intro accountId known
    unfold Known at known ⊢
    rwa [accounts, identities]
  spent := by
    intro use spent
    cases use with
    | enrollment grantId =>
      unfold Spent at spent ⊢
      simpa only [enrollments] using spent
    | reset grantId =>
      unfold Spent at spent ⊢
      simpa only [resets] using spent

theorem Grown.trans {t u : HostedStore} (first : Grown s t) (second : Grown t u) : Grown s u where
  known := fun accountId known => second.known accountId (first.known accountId known)
  spent := fun use spent => second.spent use (first.spent use spent)

theorem issueSession_grown
    (issued : issueSession env accountId ttl draw now s = .ok (returned, made)) : Grown s made := by
  obtain ⟨_, _, _, rfl, _⟩ := issueSession_ok env issued
  exact Grown.of_eq rfl rfl rfl rfl

section
variable {ρ : Type} {key : ρ → String} {consumedAt : ρ → Option Time} {table : Table key}
  {grantId other : String}

/-- The row of a grant is on record and consumed. -/
def SpentIn (consumedAt : ρ → Option Time) (table : Table key) (grantId : String) : Prop :=
  ∃ row, table.lookup grantId = some row ∧ consumedAt row ≠ none

theorem SpentIn.consume (spent : SpentIn consumedAt table other) {f : ρ → ρ}
    (marks : ∀ row, consumedAt (f row) ≠ none) (keep : ∀ row, key (f row) = key row) :
    SpentIn consumedAt (table.update (fun row => key row == grantId) f keep) other := by
  obtain ⟨row, found, consumed⟩ := spent
  refine ⟨_, by rw [Table.lookup_update, found]; rfl, ?_⟩
  by_cases named : (key row == grantId) = true
  · simpa only [if_pos named] using marks row
  · simpa only [if_neg named] using consumed

theorem spentIn_consumed {row : ρ} (found : table.lookup grantId = some row) {f : ρ → ρ}
    (marks : ∀ row, consumedAt (f row) ≠ none) (keep : ∀ row, key (f row) = key row) :
    SpentIn consumedAt (table.update (fun row => key row == grantId) f keep) grantId := by
  have named : (key row == grantId) = true := beq_iff_eq.mpr (Table.lookup_key found)
  refine ⟨f row, ?_, marks row⟩
  rw [Table.lookup_update, found, Option.map_some, if_pos named]

theorem SpentIn.insert (spent : SpentIn consumedAt table other) {row : ρ} {table' : Table key}
    (inserted : table.insert row = some table') : SpentIn consumedAt table' other := by
  obtain ⟨old, found, consumed⟩ := spent
  refine ⟨old, ?_, consumed⟩
  rw [Table.lookup_insert inserted, if_neg, found]
  rintro rfl
  exact Table.insert_fresh inserted
    (List.mem_map.mpr ⟨old, Table.lookup_mem found, Table.lookup_key found⟩)

end

theorem consumeEnrollment_grown (s : HostedStore) (grantId : String) (now : Time) :
    Grown s (consumeEnrollment s grantId now) where
  known := fun _ known => known
  spent
    | .enrollment _, spent => SpentIn.consume spent (fun _ => Option.some_ne_none now) (by intro; rfl)
    | .reset _, spent => spent

theorem consumeReset_grown (s : HostedStore) (grantId : String) (now : Time) :
    Grown s (consumeReset s grantId now) where
  known := fun _ known => known
  spent
    | .enrollment _, spent => spent
    | .reset _, spent => SpentIn.consume spent (fun _ => Option.some_ne_none now) (by intro; rfl)

variable {grantId : String}

theorem spent_consumeEnrollment {row : EnrollmentGrantRow}
    (found : s.enrollments.lookup grantId = some row) (now : Time) :
    Spent (consumeEnrollment s grantId now) (.enrollment grantId) :=
  spentIn_consumed found (fun _ => Option.some_ne_none now) (by intro; rfl)

theorem spent_consumeReset {row : ResetGrantRow} (found : s.resets.lookup grantId = some row)
    (now : Time) : Spent (consumeReset s grantId now) (.reset grantId) :=
  spentIn_consumed found (fun _ => Option.some_ne_none now) (by intro; rfl)

theorem createEnrollmentGrant_grown {ttl : Int}
    (granted : createEnrollmentGrant env ttl draw now s = .ok (returned, made)) :
    Grown s made ∧ made.sessions = s.sessions := by
  unfold createEnrollmentGrant at granted
  simp only [bind_ok_iff, require_ok_iff, orRaise_ok_iff] at granted
  obtain ⟨_, _, enrollments, inserted, returned⟩ := granted
  cases returned
  refine ⟨⟨fun _ known => known, ?_⟩, rfl⟩
  intro use spent
  cases use with
  | enrollment other => exact SpentIn.insert spent inserted
  | reset other => exact spent

theorem createResetGrant_grown {loginIdentity : String} {ttl : Int}
    (granted : createResetGrant env loginIdentity ttl draw now s = .ok (returned, made)) :
    Grown s made ∧ made.sessions = s.sessions := by
  unfold createResetGrant at granted
  simp only [bind_ok_iff, require_ok_iff, orRaise_ok_iff] at granted
  obtain ⟨_, _, _, _, _, _, resets, inserted, returned⟩ := granted
  cases returned
  refine ⟨⟨fun _ known => known, ?_⟩, rfl⟩
  intro use spent
  cases use with
  | reset other => exact SpentIn.insert spent inserted
  | enrollment other => exact spent

theorem createAccount_ok {request : AccountRequest}
    (created : createAccount env request draw now s = .ok (returned, made)) :
    Grown s made ∧ ¬Spent s (.enrollment request.grantId) ∧
      Spent made (.enrollment request.grantId) ∧
      ∃ row : AccountSession, s.sessions.insert row = some made.sessions ∧
        row.accountId = draw.accountId ∧ row.sessionDigest = env.tokenDigest draw.accessToken := by
  unfold createAccount at created
  simp only [bind_ok_iff, require_ok_iff, orRaise_ok_iff] at created
  obtain ⟨login, _, name, _, _, _, grant, found, _, ⟨unused, _⟩, accounts, newAccount, identities,
    newIdentity, credentials, _, workspaces, _, memberships, _, issued⟩ := created
  have after := issueSession_grown env issued
  obtain ⟨row, sessions, inserted, same, named, digest, _⟩ := issueSession_ok env issued
  have joined : Grown s
      { s with
        accounts, identities, credentials, workspaces, memberships } := by
    refine ⟨?_, fun use spent => by cases use <;> exact spent⟩
    rintro accountId ⟨account, identity⟩
    refine ⟨?_, ?_⟩
    · obtain ⟨row, listed, active⟩ := (Option.any_eq_true _ _).mp account
      rw [Table.lookup_insert newAccount, if_neg, account]
      rintro rfl
      exact Table.insert_fresh newAccount
        (List.mem_map.mpr ⟨row, Table.lookup_mem listed, Table.lookup_key listed⟩)
    · rw [Table.insert_rows newIdentity, List.any_append, identity, Bool.true_or]
  refine ⟨(joined.trans (consumeEnrollment_grown _ request.grantId now)).trans after, ?_,
    after.spent _ (spent_consumeEnrollment found now), row, ?_, named, digest⟩
  · rintro ⟨other, listed, consumed⟩
    rw [found] at listed
    cases listed
    exact consumed unused
  · rw [same]
    exact inserted

theorem resetPassword_ok {grantSecret newPassword : String}
    (reset : resetPassword env grantId grantSecret newPassword ttl draw now s =
      .ok (accountId, made)) :
    Grown s made ∧ ¬Spent s (.reset grantId) ∧ Spent made (.reset grantId) ∧
      ∃ row : AccountSession,
        (revokeSessions s (fun row => row.accountId == accountId) now).sessions.insert row =
          some made.sessions ∧ row.accountId = accountId ∧
        row.sessionDigest = env.tokenDigest draw.accessToken := by
  unfold resetPassword at reset
  simp only [bind_ok_iff, require_ok_iff, orRaise_ok_iff] at reset
  obtain ⟨_, _, grant, found, _, ⟨unused, _⟩, ⟨_, issued⟩, done, returned⟩ := reset
  cases returned
  have after := issueSession_grown env done
  obtain ⟨row, sessions, inserted, same, named, digest, _⟩ := issueSession_ok env done
  have replaced : Grown s
      (revokeSessions (setPassword env s grant.accountId newPassword draw.salt now)
        (fun row => row.accountId == grant.accountId) now) := Grown.of_eq rfl rfl rfl rfl
  refine ⟨(replaced.trans (consumeReset_grown _ grantId now)).trans after, ?_,
    after.spent _ (spent_consumeReset found now), row, ?_, named, digest⟩
  · rintro ⟨other, listed, consumed⟩
    rw [found] at listed
    cases listed
    exact consumed unused
  · rw [same]
    exact inserted

structure Apart (s s' : HostedStore) : Prop where
  accounts : s'.accounts = s.accounts
  identities : s'.identities = s.identities
  enrollments : s'.enrollments = s.enrollments
  resets : s'.resets = s.resets
  sessions : s'.sessions = s.sessions

theorem Apart.grown {s' : HostedStore} (apart : Apart s s') : Grown s s' :=
  Grown.of_eq apart.accounts apart.identities apart.enrollments apart.resets

theorem createWorkspace_apart {name : String} {kind : WorkspaceKind}
    (created : createWorkspace accountId name kind draw now s = .ok (returned, made)) :
    Apart s made := by
  unfold createWorkspace at created
  simp only [bind_ok_iff, require_ok_iff, orRaise_ok_iff] at created
  obtain ⟨_, _, _, _, _, _, _, _, _, _, _, _, returned⟩ := created
  cases returned
  exact ⟨rfl, rfl, rfl, rfl, rfl⟩

theorem addMember_apart (s : HostedStore) (workspaceId loginIdentity : String)
    (role : WorkspaceRole) (now : Time) :
    Apart s (commit (addMember env workspaceId loginIdentity role now) s).2 := by
  cases ran : commit (addMember env workspaceId loginIdentity role now) s with
  | mk result made =>
    cases result with
    | error e =>
      have same := Transaction.commit_error (congrArg Prod.fst ran)
      rw [ran] at same
      rw [same]
      exact ⟨rfl, rfl, rfl, rfl, rfl⟩
    | ok _ =>
      have added := Transaction.commit_ok_iff.mp ran
      unfold addMember at added
      simp only [bind_ok_iff, require_ok_iff, orRaise_ok_iff] at added
      obtain ⟨_, _, login, _, _, _, account, _, added⟩ := added
      split at added
      · cases added
        exact ⟨rfl, rfl, rfl, rfl, rfl⟩
      · simp only [bind_ok_iff, require_ok_iff] at added
        obtain ⟨_, _, returned⟩ := added
        cases returned
        exact ⟨rfl, rfl, rfl, rfl, rfl⟩

theorem transferOwnership_apart {requester workspaceId target : String}
    (transferred : transferOwnership requester workspaceId target s = .ok (returned, made)) :
    Apart s made := by
  unfold transferOwnership at transferred
  simp only [bind_ok_iff, require_ok_iff, orRaise_ok_iff] at transferred
  obtain ⟨_, _, _, _, returned⟩ := transferred
  cases returned
  exact ⟨rfl, rfl, rfl, rfl, rfl⟩

structure Guarded (s : Hosted) : Prop where
  standing : Standing s.store.sessions s.strength s.generation
  spent : ∀ use ∈ s.uses, Spent s.store use
  once : s.uses.Nodup
  known : ∀ accountId generation ttl, .login accountId generation ttl ∈ s.calls →
    Known s.store accountId

theorem start_guarded : Guarded {} where
  standing := nofun
  spent := nofun
  once := List.nodup_nil
  known := nofun

variable {token : String}

theorem authenticate_ok (authenticated : authenticate env s token now = .ok row) :
    row ∈ s.sessions.rows ∧ row.revokedAt = none := by
  unfold authenticate at authenticated
  simp only [bind_ok_iff, require_ok_iff, orRaise_ok_iff] at authenticated
  obtain ⟨found, listed, _, ⟨live, _⟩, returned⟩ := authenticated
  cases returned
  exact ⟨Table.lookup_mem listed, live⟩

theorem authenticate_of_known (listed : row ∈ s.sessions.rows)
    (named : row.sessionDigest = env.tokenDigest token) (live : row.revokedAt = none)
    (known : Known s row.accountId) : authenticate env s token (row.expiresAt - 1) = .ok row := by
  have found : s.sessions.lookup (env.tokenDigest token) = some row := by
    rw [← named]
    exact Table.lookup_of_mem listed
  unfold authenticate
  simp only [bind_ok_iff, require_ok_iff, orRaise_ok_iff]
  exact ⟨row, found, ⟨⟩, ⟨live, by linarith, known.1, known.2⟩, rfl⟩

theorem Guarded.secured {s : Hosted} (inv : Guarded s) : Secured env s where
  current := by
    intro token now row authenticated
    obtain ⟨listed, live⟩ := authenticate_ok env authenticated
    exact inv.standing row listed live
  once := inv.once

variable {s' : Hosted}

theorem Guarded.after {s : Hosted} (inv : Guarded s) (grown : Grown s.store s'.store)
    (standing : Standing s'.store.sessions s'.strength s'.generation)
    (uses : s'.uses = s.uses ∨ ∃ use, s'.uses = use :: s.uses ∧ ¬Spent s.store use ∧
      Spent s'.store use)
    (calls : ∀ accountId generation ttl, .login accountId generation ttl ∈ s'.calls →
      .login accountId generation ttl ∈ s.calls ∨ Known s.store accountId) :
    Guarded s' where
  standing := standing
  spent := by
    intro use member
    rcases uses with same | ⟨first, added, _, spent⟩
    · exact grown.spent use (inv.spent use (same ▸ member))
    · rw [added] at member
      rcases List.mem_cons.mp member with rfl | earlier
      · exact spent
      · exact grown.spent use (inv.spent use earlier)
  once := by
    rcases uses with same | ⟨first, added, unspent, _⟩
    · rw [same]
      exact inv.once
    · rw [added]
      exact List.nodup_cons.mpr ⟨fun used => unspent (inv.spent first used), inv.once⟩
  known := by
    intro accountId generation ttl member
    rcases calls accountId generation ttl member with earlier | known
    · exact grown.known accountId (inv.known accountId generation ttl earlier)
    · exact grown.known accountId known

theorem Guarded.aside {s : Hosted} (inv : Guarded s) (apart : Apart s.store s'.store)
    (strength : s'.strength = s.strength) (generation : s'.generation = s.generation)
    (uses : s'.uses = s.uses)
    (calls : ∀ accountId generation ttl, .login accountId generation ttl ∈ s'.calls →
      .login accountId generation ttl ∈ s.calls) :
    Guarded s' := by
  refine inv.after apart.grown ?_ (.inl uses) (fun a g t member => .inl (calls a g t member))
  rw [apart.sessions, strength, generation]
  exact inv.standing

theorem Apart.refl (s : HostedStore) : Apart s s := ⟨rfl, rfl, rfl, rfl, rfl⟩

theorem verifyLogin_known {loginIdentity password : String}
    (verified : verifyLogin env s loginIdentity password = .ok accountId) : Known s accountId := by
  unfold verifyLogin accountOfLogin at verified
  simp only [bind_ok_iff, require_ok_iff, orRaise_ok_iff, Option.bind_eq_bind,
    Option.bind_eq_some_iff] at verified
  obtain ⟨login, _, account, ⟨identity, listed, found, held, active⟩, _, _, _, _, returned⟩ :=
    verified
  cases returned
  split at active <;> cases active
  rename_i both
  have named := Table.lookup_key held
  refine ⟨?_, ?_⟩
  · rw [named, held]
    simpa using both.2
  · refine List.any_eq_true.mpr ⟨identity, Table.lookup_mem listed, ?_⟩
    simp [named, both.1]

theorem keepOwn_other {s : Hosted} (listed : row ∈ s.store.sessions.rows)
    (other : row.accountId ≠ accountId) :
    s.keepOwn env accountId token row.sessionDigest = s.strength row.sessionDigest := by
  unfold keepOwn
  split
  · rename_i own
    refine Function.update_of_ne ?_ _ _
    intro same
    rw [← same, Table.lookup_of_mem listed] at own
    exact other (by simpa using own)
  · rfl

theorem keepOwn_own {s : Hosted} (listed : row ∈ s.store.sessions.rows)
    (own : row.accountId = accountId) (named : row.sessionDigest = env.tokenDigest token) :
    s.keepOwn env accountId token row.sessionDigest = s.generation accountId + 1 := by
  have found : s.store.sessions.lookup (env.tokenDigest token) = some row := by
    rw [← named]
    exact Table.lookup_of_mem listed
  unfold keepOwn
  rw [found, if_pos (by simpa using own), named, Function.update_self]

theorem changePassword_standing {s : Hosted} (inv : Guarded s)
    (accountId newPassword token salt : String) (now : Time) :
    Standing (changePassword env s.store accountId newPassword token salt now).sessions
      (s.keepOwn env accountId token)
      (Function.update s.generation accountId (s.generation accountId + 1)) := by
  refine Standing.replace inv.standing (fun row => keepOwn_other env) ?_
  intro row listed own kept
  exact keepOwn_own env listed own (by simpa [own] using kept)

theorem reset_standing {s : Hosted} (inv : Guarded s)
    {sessions : Table AccountSession.sessionDigest}
    (inserted : (revokeSessions s.store (fun row => row.accountId == accountId) now).sessions.insert
      row = some sessions)
    (owner : row.accountId = accountId) :
    Standing sessions (Function.update s.strength row.sessionDigest (s.generation accountId + 1))
      (Function.update s.generation accountId (s.generation accountId + 1)) := by
  have revoked : Standing
      (revokeSessions s.store (fun row => row.accountId == accountId) now).sessions s.strength
      (Function.update s.generation accountId (s.generation accountId + 1)) :=
    Standing.replace inv.standing (fun _ _ _ => rfl) (fun _ _ own kept => by simp [own] at kept)
  have issued := revoked.insert inserted
  rwa [owner, Function.update_self] at issued

theorem mem_login_append {calls : List HostedCall} {call : HostedCall} {generation : Nat}
    (apart : ∀ a g t, call ≠ .login a g t)
    (member : .login accountId generation ttl ∈ calls ++ [call]) :
    .login accountId generation ttl ∈ calls := by
  rcases List.mem_concat.mp member with earlier | new
  · exact earlier
  · exact absurd new.symm (apart _ _ _)

theorem step_guarded {s : Hosted} {label : HostedStep} (inv : Guarded s)
    (clean : Current env s label) (taken : step env s label = some s') : Guarded s' := by
  cases label with
  | createEnrollmentGrant ttl draw now =>
    simp only [step] at taken
    split at taken <;> cases taken
    rename_i granted
    obtain ⟨grown, same⟩ := createEnrollmentGrant_grown env granted
    exact inv.after grown (same ▸ inv.standing) (.inl rfl) (fun _ _ _ => .inl)
  | createAccount request draw now =>
    simp only [step] at taken
    split at taken <;> cases taken
    rename_i created
    obtain ⟨grown, unspent, spent, row, inserted, owner, named⟩ := createAccount_ok env created
    refine inv.after grown ?_ (.inr ⟨_, rfl, unspent, spent⟩) (fun _ _ _ => .inl)
    rw [← owner, ← named]
    exact inv.standing.insert inserted
  | verifyLogin loginIdentity password ttl =>
    simp only [step] at taken
    split at taken <;> cases taken
    rename_i verified
    refine inv.after (Apart.refl _).grown inv.standing (.inl rfl) ?_
    intro account generation ttl' member
    rcases List.mem_concat.mp member with earlier | new
    · exact .inl earlier
    · cases new
      exact .inr (verifyLogin_known env verified)
  | issueLogin i draw now =>
    simp only [step] at taken
    split at taken
    · rename_i accountId generation ttl waiting
      split at taken
      · rename_i issued
        cases taken
        have current := clean accountId generation ttl waiting (issuable_of_issueSession env issued)
        obtain ⟨row, sessions, inserted, rfl, owner, named, _⟩ := issueSession_ok env issued
        refine inv.after (issueSession_grown env issued) ?_ (.inl rfl)
          (fun _ _ _ member => .inl (List.mem_of_mem_eraseIdx member))
        rw [current, ← owner, ← named]
        exact inv.standing.insert inserted
      · cases taken
        exact inv.aside (Apart.refl _) rfl rfl rfl (fun _ _ _ => List.mem_of_mem_eraseIdx)
    · cases taken
  | revokeSession token now =>
    simp only [step] at taken
    split at taken <;> cases taken
    rename_i revoked
    unfold revokeSession at revoked
    simp only [bind_ok_iff, require_ok_iff, orRaise_ok_iff] at revoked
    obtain ⟨_, _, _, _, returned⟩ := revoked
    cases returned
    exact inv.after (Grown.of_eq rfl rfl rfl rfl) (inv.standing.revoke _ now) (.inl rfl)
      (fun _ _ _ => .inl)
  | verifyChange accountId currentPassword newPassword currentToken
  | checkAdd requester workspaceId loginIdentity role
  | checkRemove requester workspaceId accountId =>
    simp only [step] at taken
    split at taken <;> cases taken
    exact inv.aside (Apart.refl _) rfl rfl rfl (fun _ _ _ => mem_login_append (by simp))
  | changePassword i salt now =>
    simp only [step] at taken
    split at taken <;> cases taken
    rename_i accountId newPassword currentToken _
    exact inv.after (Grown.of_eq rfl rfl rfl rfl)
      (changePassword_standing env inv accountId newPassword currentToken salt now) (.inl rfl)
      (fun _ _ _ member => .inl (List.mem_of_mem_eraseIdx member))
  | createResetGrant loginIdentity ttl draw now =>
    simp only [step] at taken
    split at taken <;> cases taken
    rename_i granted
    obtain ⟨grown, same⟩ := createResetGrant_grown env granted
    exact inv.after grown (same ▸ inv.standing) (.inl rfl) (fun _ _ _ => .inl)
  | resetPassword grantId grantSecret newPassword ttl draw now =>
    simp only [step] at taken
    split at taken <;> cases taken
    rename_i accountId store reset
    obtain ⟨grown, unspent, spent, row, inserted, owner, named⟩ := resetPassword_ok env reset
    refine inv.after grown ?_ (.inr ⟨_, rfl, unspent, spent⟩) (fun _ _ _ => .inl)
    rw [← named]
    exact reset_standing inv inserted owner
  | createWorkspace accountId name kind draw now =>
    simp only [step] at taken
    split at taken <;> cases taken
    rename_i created
    exact inv.aside (createWorkspace_apart created) rfl rfl rfl (fun _ _ _ member => member)
  | addMember i now =>
    simp only [step] at taken
    split at taken <;> cases taken
    rename_i requester workspaceId loginIdentity role since _
    exact inv.aside (addMember_apart env _ _ _ _ _) rfl rfl rfl
      (fun _ _ _ => List.mem_of_mem_eraseIdx)
  | readRemove i =>
    simp only [step] at taken
    split at taken
    · split at taken
      · cases taken
        refine inv.aside (Apart.refl _) rfl rfl rfl ?_
        intro _ _ _ member
        rcases List.mem_or_eq_of_mem_set member with earlier | same
        · exact earlier
        · cases same
      · cases taken
        exact inv.aside (Apart.refl _) rfl rfl rfl (fun _ _ _ => List.mem_of_mem_eraseIdx)
    · cases taken
  | removeMember i =>
    simp only [step] at taken
    split at taken <;> cases taken
    exact inv.aside ⟨rfl, rfl, rfl, rfl, rfl⟩ rfl rfl rfl (fun _ _ _ => List.mem_of_mem_eraseIdx)
  | checkTransfer requester workspaceId target =>
    simp only [step] at taken
    split at taken
    · split at taken
      · cases taken
        exact inv
      · cases taken
        exact inv.aside (Apart.refl _) rfl rfl rfl (fun _ _ _ => mem_login_append (by simp))
    · cases taken
  | transferOwnership i =>
    simp only [step] at taken
    split at taken
    · split at taken
      · rename_i transferred
        cases taken
        exact inv.aside (transferOwnership_apart transferred) rfl rfl rfl
          (fun _ _ _ => List.mem_of_mem_eraseIdx)
      · cases taken
        exact inv.aside (Apart.refl _) rfl rfl rfl (fun _ _ _ => List.mem_of_mem_eraseIdx)
    · cases taken

theorem stale_login_shows {s : Hosted} {label : HostedStep} (inv : Guarded s)
    (unclean : ¬Current env s label) (taken : step env s label = some s') : ¬Secured env s' := by
  cases label with
  | issueLogin i draw now =>
    unfold Current at unclean
    push Not at unclean
    obtain ⟨accountId, generation, ttl, waiting, issuable, stale⟩ := unclean
    obtain ⟨made, issued⟩ := issueSession_of_issuable env accountId now issuable
    simp only [step, waiting, issued] at taken
    cases taken
    obtain ⟨row, sessions, inserted, rfl, owner, named, live⟩ := issueSession_ok env issued
    intro secured
    have member := List.mem_of_getElem? waiting
    have known := (issueSession_grown env issued).known accountId (inv.known _ _ _ member)
    have listed : row ∈ sessions.rows := by
      rw [Table.insert_rows inserted]
      exact List.mem_concat_self
    have authenticated := authenticate_of_known env
      (s := { s.store with sessions }) listed named live (by rw [owner]; exact known)
    have current : Function.update s.strength (env.tokenDigest draw.accessToken) generation
        row.sessionDigest = s.generation row.accountId := secured.current _ _ _ authenticated
    rw [named, Function.update_self, owner] at current
    exact stale current
  | _ => exact absurd trivial unclean

/-- Every run keeps its promise exactly when no login issues a session for a replaced password. -/
theorem secured_iff (labels : List HostedStep) :
    (∀ t ∈ Transition.trace (step env) {} labels, Secured env t) ↔
      ∀ taken ∈ Transition.accepted (step env) {} labels, Current env taken.1 taken.2 :=
  Transition.trace_safe_iff_of_clean (fun _ (inv : Guarded _) => inv.secured env)
    (fun _ _ _ inv clean taken => step_guarded env inv clean taken)
    (fun _ _ _ inv unclean taken => stale_login_shows env inv unclean taken) start_guarded

/-- A login is verified, the password is changed, and then the login issues its session. -/
def staleLogin : List HostedStep :=
  [.createEnrollmentGrant 600
      { grantId := "g", secret := "x" } 0, .createAccount
      { grantId := "g", grantSecret := "x", loginIdentity := "ann", displayName := "Ann",
        password := "old password" }
      { accountId := "a", workspaceId := "w", salt := "1", accessToken := "first" } 0,
    .verifyLogin "ann" "old password" none, .verifyChange "a" "old password" "new password" "first",
    .changePassword 1 "2" 1, .issueLogin 0 { accessToken := "late" } 2]

theorem stale_login_authenticates :
    ¬∀ t ∈ Transition.trace (step plainEnv) {} staleLogin, Secured plainEnv t := by
  intro secured
  have current := (secured _ (Transition.mem_trace_final _ staleLogin)).current "late" 3
  have shown : (authenticate plainEnv (Transition.final (step plainEnv) {} staleLogin).store
      "late" 3).toOption.any (fun row =>
        (Transition.final (step plainEnv) {} staleLogin).strength row.sessionDigest !=
          (Transition.final (step plainEnv) {} staleLogin).generation row.accountId) = true := by
    decide +kernel
  obtain ⟨row, authenticated, stale⟩ := (Option.any_eq_true _ _).mp shown
  cases result : authenticate plainEnv
      (Transition.final (step plainEnv) {} staleLogin).store "late" 3 with
  | error e =>
    rw [result] at authenticated
    cases authenticated
  | ok row' =>
    rw [result] at authenticated
    cases authenticated
    exact bne_iff_ne.mp stale (current row result)

end Knoa.Hub.Hosted
