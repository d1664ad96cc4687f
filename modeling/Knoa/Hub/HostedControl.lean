import Knoa.Library.Table
import Knoa.Library.Transaction
import Knoa.Library.Transition
import Knoa.Tasks.Repository

/-!
# Accounts and Workspaces of a Hosted Hub

`HostedControlRepository`: its transactions, and the calls whose check and whose write are two of
them.
-/
namespace Knoa.Hub

open Knoa.Tasks (Time strip isSpace)
open Relational Transaction

inductive HostedError
  | permission (message : String)
  | value (message : String)
  | lookup (message : String)
  | fileExists (message : String)
  | integrity
  deriving DecidableEq

inductive WorkspaceKind
  | personal
  | shared
  deriving DecidableEq

inductive WorkspaceRole
  | owner
  | admin
  | member
  deriving DecidableEq

structure HostedAccount where
  accountId : String
  displayName : String
  active : Bool := true
  createdAt : Time

structure LoginIdentity where
  login : String
  accountId : String
  active : Bool := true
  createdAt : Time

structure PasswordCredential where
  accountId : String
  salt : String
  passwordHash : String
  updatedAt : Time

structure HostedWorkspace where
  workspaceId : String
  displayName : String
  kind : WorkspaceKind
  active : Bool := true
  createdByAccountId : String
  createdAt : Time

structure WorkspaceMembership where
  workspaceId : String
  accountId : String
  role : WorkspaceRole
  active : Bool := true
  createdAt : Time

def WorkspaceMembership.key (row : WorkspaceMembership) : String × String :=
  (row.workspaceId, row.accountId)

structure AccountSession where
  sessionDigest : String
  accountId : String
  createdAt : Time
  expiresAt : Time
  revokedAt : Option Time := none

structure EnrollmentGrantRow where
  grantId : String
  secretDigest : String
  createdAt : Time
  expiresAt : Time
  consumedAt : Option Time := none

structure ResetGrantRow where
  grantId : String
  accountId : String
  secretDigest : String
  createdAt : Time
  expiresAt : Time
  consumedAt : Option Time := none

structure HostedStore where
  accounts : Table HostedAccount.accountId := .empty
  identities : Table LoginIdentity.login := .empty
  credentials : Table PasswordCredential.accountId := .empty
  workspaces : Table HostedWorkspace.workspaceId := .empty
  memberships : Table WorkspaceMembership.key := .empty
  sessions : Table AccountSession.sessionDigest := .empty
  enrollments : Table EnrollmentGrantRow.grantId := .empty
  resets : Table ResetGrantRow.grantId := .empty

structure HostedEnv where
  tokenDigest : String → String
  passwordHash : String → String → String
  casefold : String → String
  /-- 0 keeps sessions for good. -/
  accountSessionTtl : Int

def persistentSessionExpiresAt : Time := 253402300799

section
variable (env : HostedEnv)

def normalizeLogin (value : String) : Except HostedError String := do
  let normalized := env.casefold (strip value)
  require (3 ≤ normalized.length ∧ normalized.length ≤ 254 ∧
    normalized.toList.all (fun c => !isSpace c) = true) (.value "Hosted login identity is invalid")
  return normalized

def displayName (value : String) : Except HostedError String := do
  require (strip value ≠ "") (.value "Display name is required")
  return strip value

def checkPassword (password : String) : Except HostedError Unit :=
  require (12 ≤ password.length) (.value "Hosted account password is too short")

structure AccountRequest where
  grantId : String
  grantSecret : String
  loginIdentity : String
  displayName : String
  password : String
  sessionTtl : Option Int := none

/-- What `secrets` gives for one call. -/
structure HostedDraw where
  accountId : String := ""
  workspaceId : String := ""
  salt : String := ""
  accessToken : String := ""
  grantId : String := ""
  secret : String := ""

/-- `_issue_session` -/
def issueSession (accountId : String) (ttl : Option Int) (draw : HostedDraw) (now : Time) :
    Body HostedStore HostedError Unit := fun s => do
  let resolved := ttl.getD env.accountSessionTtl
  require (resolved = 0 ∨ 60 ≤ resolved)
    (.value "Hosted account session TTL must be 0 (persistent) or at least 60 seconds")
  let sessions ← orRaise
    (s.sessions.insert
      { sessionDigest := env.tokenDigest draw.accessToken, accountId, createdAt := now,
        expiresAt := if resolved = 0 then persistentSessionExpiresAt else now + resolved })
    .integrity
  return ((), { s with sessions })

def createEnrollmentGrant (ttl : Int) (draw : HostedDraw) (now : Time) :
    Body HostedStore HostedError Unit := fun s => do
  require (60 ≤ ttl ∧ ttl ≤ 3600)
    (.value "Account enrollment TTL must be between 60 and 3600 seconds")
  let enrollments ← orRaise
    (s.enrollments.insert
      { grantId := draw.grantId, secretDigest := env.tokenDigest draw.secret, createdAt := now,
        expiresAt := now + ttl })
    .integrity
  return ((), { s with enrollments })

def consumeEnrollment (s : HostedStore) (grantId : String) (now : Time) : HostedStore :=
  { s with
    enrollments := s.enrollments.update (fun row => row.grantId == grantId)
      (fun row => { row with consumedAt := some now }) (fun _ => rfl) }

/-- `create_account` -/
def createAccount (request : AccountRequest) (draw : HostedDraw) (now : Time) :
    Body HostedStore HostedError Unit := fun s => do
  let login ← normalizeLogin env request.loginIdentity
  let name ← displayName request.displayName
  checkPassword request.password
  let grant ← orRaise (s.enrollments.lookup request.grantId)
    (.permission "Hosted account enrollment rejected")
  require (grant.consumedAt = none ∧ now < grant.expiresAt ∧
    grant.secretDigest = env.tokenDigest request.grantSecret)
    (.permission "Hosted account enrollment rejected")
  let accounts ← orRaise
    (s.accounts.insert { accountId := draw.accountId, displayName := name, createdAt := now })
    (.fileExists "Hosted account already exists")
  let identities ← orRaise
    (s.identities.insert { login, accountId := draw.accountId, createdAt := now })
    (.fileExists "Hosted account already exists")
  let credentials ← orRaise
    (s.credentials.insert
      { accountId := draw.accountId, salt := draw.salt,
        passwordHash := env.passwordHash request.password draw.salt, updatedAt := now })
    .integrity
  let workspaces ← orRaise
    (s.workspaces.insert
      { workspaceId := draw.workspaceId, displayName := name ++ " 的 Personal Workspace",
        kind := .personal, createdByAccountId := draw.accountId, createdAt := now })
    .integrity
  let memberships ← orRaise
    (s.memberships.insert
      { workspaceId := draw.workspaceId, accountId := draw.accountId, role := .owner,
        createdAt := now })
    .integrity
  let made : HostedStore :=
    { s with
      accounts, identities, credentials, workspaces, memberships }
  issueSession env draw.accountId request.sessionTtl draw now
    (consumeEnrollment made request.grantId now)

def accountOfLogin (s : HostedStore) (login : String) : Option HostedAccount := do
  let identity ← s.identities.lookup login
  let account ← s.accounts.lookup identity.accountId
  if identity.active ∧ account.active then some account else none

/-- The check of `login`: the account whose password it is. -/
def verifyLogin (s : HostedStore) (loginIdentity password : String) : Except HostedError String := do
  let login ← normalizeLogin env loginIdentity
  let account ← orRaise (accountOfLogin s login) (.permission "Hosted account login rejected")
  let credential ← orRaise (s.credentials.lookup account.accountId)
    (.permission "Hosted account login rejected")
  require (credential.passwordHash = env.passwordHash password credential.salt)
    (.permission "Hosted account login rejected")
  return account.accountId

/-- `authenticate`; the row of the session. -/
def authenticate (s : HostedStore) (token : String) (now : Time) :
    Except HostedError AccountSession := do
  let row ← orRaise (s.sessions.lookup (env.tokenDigest token))
    (.permission "Hosted account authentication rejected")
  require (row.revokedAt = none ∧ now < row.expiresAt ∧
    ((s.accounts.lookup row.accountId).any (·.active) = true) ∧
    s.identities.rows.any (fun identity => identity.accountId == row.accountId && identity.active) =
      true) (.permission "Hosted account authentication rejected")
  return row

def revokeSessions (s : HostedStore) (p : AccountSession → Bool) (now : Time) : HostedStore :=
  { s with
    sessions := s.sessions.update (fun row => p row && row.revokedAt.isNone)
      (fun row => { row with revokedAt := some now }) (fun _ => rfl) }

/-- `revoke_session` -/
def revokeSession (token : String) (now : Time) : Body HostedStore HostedError Unit := fun s => do
  let row ← orRaise (s.sessions.lookup (env.tokenDigest token))
    (.permission "Hosted account session rejected")
  require (row.revokedAt = none) (.permission "Hosted account session rejected")
  return ((), revokeSessions s (fun row => row.sessionDigest == env.tokenDigest token) now)

def setPassword (s : HostedStore) (accountId password salt : String) (now : Time) : HostedStore :=
  { s with
    credentials := s.credentials.update (fun row => row.accountId == accountId)
      (fun row =>
        { row with salt, passwordHash := env.passwordHash password salt, updatedAt := now })
      (fun _ => rfl) }

/-- The check of `change_password`. -/
def verifyChange (s : HostedStore) (accountId currentPassword newPassword : String) :
    Except HostedError Unit := do
  checkPassword newPassword
  let credential ← orRaise (s.credentials.lookup accountId)
    (.permission "Hosted account password rejected")
  require (credential.passwordHash = env.passwordHash currentPassword credential.salt)
    (.permission "Hosted account password rejected")

/-- The transaction of `change_password`. -/
def changePassword (s : HostedStore) (accountId newPassword currentToken salt : String)
    (now : Time) : HostedStore :=
  revokeSessions (setPassword env s accountId newPassword salt now)
    (fun row => row.accountId == accountId && row.sessionDigest != env.tokenDigest currentToken) now

def createResetGrant (loginIdentity : String) (ttl : Int) (draw : HostedDraw) (now : Time) :
    Body HostedStore HostedError Unit := fun s => do
  require (60 ≤ ttl ∧ ttl ≤ 3600) (.value "Password reset TTL must be between 60 and 3600 seconds")
  let login ← normalizeLogin env loginIdentity
  let account ← orRaise (accountOfLogin s login) (.lookup "Hosted account not found")
  let resets ← orRaise
    (s.resets.insert
      { grantId := draw.grantId, accountId := account.accountId,
        secretDigest := env.tokenDigest draw.secret, createdAt := now, expiresAt := now + ttl })
    .integrity
  return ((), { s with resets })

def consumeReset (s : HostedStore) (grantId : String) (now : Time) : HostedStore :=
  { s with
    resets := s.resets.update (fun row => row.grantId == grantId)
      (fun row => { row with consumedAt := some now }) (fun _ => rfl) }

/-- The transaction of `reset_password`; it returns the account. -/
def resetPassword (grantId grantSecret newPassword : String) (ttl : Option Int)
    (draw : HostedDraw) (now : Time) : Body HostedStore HostedError String := fun s => do
  checkPassword newPassword
  let grant ← orRaise (s.resets.lookup grantId) (.permission "Hosted password reset rejected")
  require (grant.consumedAt = none ∧ now < grant.expiresAt ∧
    grant.secretDigest = env.tokenDigest grantSecret)
    (.permission "Hosted password reset rejected")
  let replaced := setPassword env s grant.accountId newPassword draw.salt now
  let revoked := revokeSessions replaced (fun row => row.accountId == grant.accountId) now
  let (_, issued) ← issueSession env grant.accountId ttl draw now (consumeReset revoked grantId now)
  return (grant.accountId, issued)

/-- `create_workspace` -/
def createWorkspace (accountId name : String) (kind : WorkspaceKind) (draw : HostedDraw)
    (now : Time) : Body HostedStore HostedError Unit := fun s => do
  let name ← displayName name
  require (kind = .shared) (.value "Only shared user-created Workspaces are supported")
  let account ← orRaise (s.accounts.lookup accountId) (.permission "Hosted account rejected")
  require (account.active = true) (.permission "Hosted account rejected")
  let workspaces ← orRaise
    (s.workspaces.insert
      { workspaceId := draw.workspaceId, displayName := name, kind,
        createdByAccountId := accountId, createdAt := now })
    .integrity
  let memberships ← orRaise
    (s.memberships.insert
      { workspaceId := draw.workspaceId, accountId, role := .owner, createdAt := now })
    .integrity
  return ((), { s with workspaces, memberships })

def activeMembership (s : HostedStore) (workspaceId accountId : String) :
    Option WorkspaceMembership :=
  (s.memberships.lookup (workspaceId, accountId)).filter (·.active)

/-- `_require_workspace_role` with the role of the owner. -/
def requireOwner (s : HostedStore) (accountId workspaceId : String) : Except HostedError Unit := do
  let row ← orRaise (activeMembership s workspaceId accountId)
    (.permission "Hosted Workspace authorization rejected")
  let workspace ← orRaise (s.workspaces.lookup workspaceId)
    (.permission "Hosted Workspace authorization rejected")
  require (workspace.active = true ∧ row.role = .owner)
    (.permission "Hosted Workspace authorization rejected")

def activeShared (s : HostedStore) (workspaceId : String) : Bool :=
  (s.workspaces.lookup workspaceId).any fun row => row.active && row.kind == .shared

def setMembership (s : HostedStore) (p : WorkspaceMembership → Bool)
    (f : WorkspaceMembership → WorkspaceMembership) (keep : ∀ row, (f row).key = row.key) :
    HostedStore :=
  { s with memberships := s.memberships.update p f keep }

/-- The transaction of `add_workspace_member`. -/
def addMember (workspaceId loginIdentity : String) (role : WorkspaceRole) (now : Time) :
    Body HostedStore HostedError Unit := fun s => do
  require (role ≠ .owner) (.value "Hosted Workspace membership role is invalid")
  let login ← normalizeLogin env loginIdentity
  require (activeShared s workspaceId = true)
    (.value "Only shared Workspaces accept additional members")
  let account ← orRaise (accountOfLogin s login) (.lookup "Hosted account not found")
  match s.memberships.lookup (workspaceId, account.accountId) with
  | none =>
    return ((), { s with
      memberships := s.memberships.upsert
        { workspaceId, accountId := account.accountId, role, createdAt := now } })
  | some row =>
    require (row.role ≠ .owner) (.value "Workspace owner role cannot be replaced")
    return ((), { s with
      memberships := s.memberships.upsert { row with role, active := true } })

/-- The read of `remove_workspace_member`. -/
def checkRemoval (s : HostedStore) (workspaceId accountId : String) : Except HostedError Unit := do
  let row ← orRaise (activeMembership s workspaceId accountId)
    (.lookup "Hosted Workspace membership not found")
  require (row.role ≠ .owner) (.value "Workspace owner cannot be removed")

/-- Its write. -/
def revokeMember (s : HostedStore) (workspaceId accountId : String) : HostedStore :=
  setMembership s (fun row => row.workspaceId == workspaceId && row.accountId == accountId)
    (fun row => { row with active := false }) (fun _ => rfl)

/-- The transaction of `transfer_workspace_ownership`. -/
def transferOwnership (requester workspaceId target : String) :
    Body HostedStore HostedError Unit := fun s => do
  require (activeShared s workspaceId = true)
    (.value "Personal Workspace ownership cannot be transferred")
  let _ ← orRaise (activeMembership s workspaceId target)
    (.lookup "Target Workspace member not found")
  let demoted := setMembership s
    (fun row => row.workspaceId == workspaceId && row.accountId == requester && row.role == .owner)
    (fun row => { row with role := .admin }) (fun _ => rfl)
  let promoted := setMembership demoted
    (fun row => row.workspaceId == workspaceId && row.accountId == target && row.active)
    (fun row => { row with role := .owner }) (fun _ => rfl)
  return ((), promoted)

end

/-- A call that has made its check. `since` counts the transfers of the Workspace before it, and
`generation` the passwords that the account has had. -/
inductive HostedCall
  | login (accountId : String) (generation : Nat) (ttl : Option Int)
  | change (accountId newPassword currentToken : String)
  | add (requester workspaceId loginIdentity : String) (role : WorkspaceRole) (since : Nat)
  | remove (requester workspaceId accountId : String) (since : Nat)
  | removeRead (requester workspaceId accountId : String) (since : Nat)
  | transfer (requester workspaceId target : String) (since : Nat)

inductive GrantUse
  | enrollment (grantId : String)
  | reset (grantId : String)
  deriving DecidableEq

/-- The repository, the calls in progress and, below them, what has happened. -/
structure Hosted where
  store : HostedStore := {}
  calls : List HostedCall := []
  generation : String → Nat := fun _ => 0
  /-- The password on whose strength a session stands. -/
  strength : String → Nat := fun _ => 0
  transfers : String → Nat := fun _ => 0
  uses : List GrantUse := []

inductive HostedStep
  | createEnrollmentGrant (ttl : Int) (draw : HostedDraw) (now : Time)
  | createAccount (request : AccountRequest) (draw : HostedDraw) (now : Time)
  | verifyLogin (loginIdentity password : String) (ttl : Option Int)
  | issueLogin (i : Nat) (draw : HostedDraw) (now : Time)
  | revokeSession (token : String) (now : Time)
  | verifyChange (accountId currentPassword newPassword currentToken : String)
  | changePassword (i : Nat) (salt : String) (now : Time)
  | createResetGrant (loginIdentity : String) (ttl : Int) (draw : HostedDraw) (now : Time)
  | resetPassword (grantId grantSecret newPassword : String) (ttl : Option Int) (draw : HostedDraw)
      (now : Time)
  | createWorkspace (accountId name : String) (kind : WorkspaceKind) (draw : HostedDraw) (now : Time)
  | checkAdd (requester workspaceId loginIdentity : String) (role : WorkspaceRole)
  | addMember (i : Nat) (now : Time)
  | checkRemove (requester workspaceId accountId : String)
  | readRemove (i : Nat)
  | removeMember (i : Nat)
  | checkTransfer (requester workspaceId target : String)
  | transferOwnership (i : Nat)

namespace Hosted

variable (env : HostedEnv)

/-- The session of the caller keeps its place when the password is changed. -/
def keepOwn (s : Hosted) (accountId token : String) : String → Nat :=
  if (s.store.sessions.lookup (env.tokenDigest token)).any (·.accountId == accountId) then
    Function.update s.strength (env.tokenDigest token) (s.generation accountId + 1)
  else s.strength

def step (s : Hosted) : HostedStep → Option Hosted
  | .createEnrollmentGrant ttl draw now =>
    match createEnrollmentGrant env ttl draw now s.store with
    | .ok (_, store) => some { s with store }
    | .error _ => none
  | .createAccount request draw now =>
    match createAccount env request draw now s.store with
    | .ok (_, store) => some { s with
        store, strength := Function.update s.strength (env.tokenDigest draw.accessToken)
          (s.generation draw.accountId)
        uses := .enrollment request.grantId :: s.uses }
    | .error _ => none
  | .verifyLogin loginIdentity password ttl =>
    match verifyLogin env s.store loginIdentity password with
    | .ok accountId => some { s with
        calls := s.calls ++ [.login accountId (s.generation accountId) ttl] }
    | .error _ => none
  | .issueLogin i draw now =>
    match s.calls[i]? with
    | some (.login accountId generation ttl) =>
      match issueSession env accountId ttl draw now s.store with
      | .ok (_, store) => some { s with
          store, calls := s.calls.eraseIdx i,
          strength := Function.update s.strength (env.tokenDigest draw.accessToken) generation }
      | .error _ => some { s with calls := s.calls.eraseIdx i }
    | _ => none
  | .revokeSession token now =>
    match revokeSession env token now s.store with
    | .ok (_, store) => some { s with store }
    | .error _ => none
  | .verifyChange accountId currentPassword newPassword currentToken =>
    match verifyChange env s.store accountId currentPassword newPassword with
    | .ok _ => some { s with calls := s.calls ++ [.change accountId newPassword currentToken] }
    | .error _ => none
  | .changePassword i salt now =>
    match s.calls[i]? with
    | some (.change accountId newPassword currentToken) => some { s with
        store := changePassword env s.store accountId newPassword currentToken salt now
        calls := s.calls.eraseIdx i
        generation := Function.update s.generation accountId (s.generation accountId + 1)
        strength := s.keepOwn env accountId currentToken }
    | _ => none
  | .createResetGrant loginIdentity ttl draw now =>
    match createResetGrant env loginIdentity ttl draw now s.store with
    | .ok (_, store) => some { s with store }
    | .error _ => none
  | .resetPassword grantId grantSecret newPassword ttl draw now =>
    match resetPassword env grantId grantSecret newPassword ttl draw now s.store with
    | .ok (accountId, store) => some { s with
        store, generation := Function.update s.generation accountId (s.generation accountId + 1)
        strength := Function.update s.strength (env.tokenDigest draw.accessToken)
          (s.generation accountId + 1)
        uses := .reset grantId :: s.uses }
    | .error _ => none
  | .createWorkspace accountId name kind draw now =>
    match createWorkspace accountId name kind draw now s.store with
    | .ok (_, store) => some { s with store }
    | .error _ => none
  | .checkAdd requester workspaceId loginIdentity role =>
    match requireOwner s.store requester workspaceId with
    | .ok _ => some { s with
        calls := s.calls ++
          [.add requester workspaceId loginIdentity role (s.transfers workspaceId)] }
    | .error _ => none
  | .addMember i now =>
    match s.calls[i]? with
    | some (.add _ workspaceId loginIdentity role _) => some { s with
        store := (commit (addMember env workspaceId loginIdentity role now) s.store).2
        calls := s.calls.eraseIdx i }
    | _ => none
  | .checkRemove requester workspaceId accountId =>
    match requireOwner s.store requester workspaceId with
    | .ok _ => some { s with
        calls := s.calls ++ [.remove requester workspaceId accountId (s.transfers workspaceId)] }
    | .error _ => none
  | .readRemove i =>
    match s.calls[i]? with
    | some (.remove requester workspaceId accountId since) =>
      match checkRemoval s.store workspaceId accountId with
      | .ok _ => some { s with
          calls := s.calls.set i (.removeRead requester workspaceId accountId since) }
      | .error _ => some { s with calls := s.calls.eraseIdx i }
    | _ => none
  | .removeMember i =>
    match s.calls[i]? with
    | some (.removeRead _ workspaceId accountId _) => some { s with
        store := revokeMember s.store workspaceId accountId, calls := s.calls.eraseIdx i }
    | _ => none
  | .checkTransfer requester workspaceId target =>
    match requireOwner s.store requester workspaceId with
    | .ok _ =>
      if requester = target then some s
      else some { s with
        calls := s.calls ++ [.transfer requester workspaceId target (s.transfers workspaceId)] }
    | .error _ => none
  | .transferOwnership i =>
    match s.calls[i]? with
    | some (.transfer requester workspaceId target _) =>
      match transferOwnership requester workspaceId target s.store with
      | .ok (_, store) => some { s with
          store, calls := s.calls.eraseIdx i,
          transfers := Function.update s.transfers workspaceId (s.transfers workspaceId + 1) }
      | .error _ => some { s with calls := s.calls.eraseIdx i }
    | _ => none

/-- A Hub that keeps its secrets as they are. -/
def plainEnv : HostedEnv where
  tokenDigest := id
  passwordHash := fun password salt => password ++ salt
  casefold := id
  accountSessionTtl := 0

end Hosted

end Knoa.Hub
