import Knoa.Gateway.Identity

/-!
# Challenges and sessions

`GatewayAuthRepository`: challenges that are consumed and opaque sessions that are revoked.
-/
namespace Knoa.Gateway
open Knoa.Tasks (Time strip)
open Relational Transaction

inductive ChallengePurpose
  | pair
  | authenticate
  deriving DecidableEq

structure ChallengeRow where
  challengeId : String
  purpose : ChallengePurpose
  subjectId : String
  nonceSha256 : String
  createdAt : Time
  expiresAt : Time
  consumedAt : Option Time
  deriving DecidableEq

structure SessionRow where
  sessionId : String
  deviceId : String
  principalId : String
  secretSha256 : String
  createdAt : Time
  expiresAt : Time
  revokedAt : Option Time
  deriving DecidableEq

structure AuthStore where
  challenges : Table ChallengeRow.challengeId
  sessions : Table SessionRow.sessionId

namespace AuthStore

def initial : AuthStore := ⟨.empty, .empty⟩

def revokeWhere (s : AuthStore) (p : SessionRow → Bool) (now : Time) : AuthStore :=
  { s with
    sessions := s.sessions.update (fun session => p session && session.revokedAt.isNone)
      (fun session => { session with revokedAt := some now }) (fun _ => rfl) }

end AuthStore

def secretValue (value label : String) : Except GatewayError String :=
  if (strip value).utf8ByteSize < 32 ∨ 256 < (strip value).length then
    .error (.value (label ++ " must contain 32-256 bytes"))
  else .ok (strip value)

/-- `GatewayChallenge`, without its times. -/
structure GatewayChallenge where
  challengeId : String
  purpose : ChallengePurpose
  subjectId : String
  nonce : String
  deriving DecidableEq

/-- `issue_challenge`, with the ID and the nonce that were drawn. -/
def issueChallenge (crypto : Crypto) (now : Time) (purpose : ChallengePurpose) (subjectId : String)
    (challengeId nonce : String) (ttlSeconds : Nat := 60) :
    Body AuthStore GatewayError GatewayChallenge := fun s => do
  let subjectId ← identifier subjectId "Challenge subject"
  require (15 ≤ ttlSeconds ∧ ttlSeconds ≤ 120)
    (.value "Gateway challenge TTL must be between 15 and 120 seconds")
  let challengeId ← identifier challengeId "Challenge ID"
  let nonce ← secretValue nonce "Challenge nonce"
  let challenges ← orRaise (s.challenges.insert
    { challengeId, purpose, subjectId,
      nonceSha256 := crypto.sha256 nonce, createdAt := now, expiresAt := now + ttlSeconds,
      consumedAt := none }) .integrity
  return ({ challengeId := challengeId, purpose, subjectId, nonce }, { s with challenges })

def ChallengeRow.accepts (crypto : Crypto) (row : ChallengeRow) (now : Time)
    (challenge : GatewayChallenge) : Bool :=
  row.nonceSha256 == crypto.sha256 challenge.nonce && row.purpose == challenge.purpose &&
    row.subjectId == challenge.subjectId && row.consumedAt.isNone && decide (now < row.expiresAt)

/-- `consume_challenge`; it returns what was consumed. -/
def consumeChallenge (crypto : Crypto) (now : Time) (challengeId : String)
    (purpose : ChallengePurpose) (subjectId nonce : String) :
    Body AuthStore GatewayError GatewayChallenge := fun s => do
  let challengeId ← identifier challengeId "Challenge ID"
  let subjectId ← identifier subjectId "Challenge subject"
  let challenge : GatewayChallenge := { challengeId, purpose, subjectId, nonce := strip nonce }
  require ((s.challenges.lookup challengeId).any fun row => row.accepts crypto now challenge)
    .rejected
  -- The row was seen unconsumed in this transaction, so the update meets it.
  return (challenge, { s with
    challenges := s.challenges.update
      (fun row => row.challengeId == challengeId && row.consumedAt.isNone)
      (fun row => { row with consumedAt := some now }) (fun _ => rfl) })

/-- The two parts of a token, the secret as its digest. -/
structure TokenKey where
  sessionId : String
  secretSha256 : String
  deriving DecidableEq

def SessionRow.token (session : SessionRow) : TokenKey where
  sessionId := session.sessionId
  secretSha256 := session.secretSha256

/-- `issue_session`, with the ID and the secret that were drawn. -/
def issueSession (crypto : Crypto) (now : Time) (device : GatewayDevice) (ttlSeconds : Nat)
    (sessionId secret : String) : Body AuthStore GatewayError SessionRow := fun s => do
  require (device.state = .active) .rejected
  require (60 ≤ ttlSeconds ∧ ttlSeconds ≤ 3600)
    (.value "Gateway session TTL must be between 60 and 3600 seconds")
  let sessionId ← identifier sessionId "Session ID"
  let secret ← secretValue secret "Session secret"
  let session : SessionRow :=
    { sessionId, deviceId := device.deviceId, principalId := device.principalId,
      secretSha256 := crypto.sha256 secret, createdAt := now, expiresAt := now + ttlSeconds,
      revokedAt := none }
  let sessions ← orRaise (s.sessions.insert session) .integrity
  return (session, { s with sessions })

/-- The session ID and the secret of a token `v1.<session>.<secret>`. -/
def splitToken (token : String) : Option (String × String) :=
  match (strip token).toList.splitOn '.' with
  | [version, sessionId, secret] =>
    if version = ['v', '1'] then some (String.ofList sessionId, String.ofList secret) else none
  | _ => none

/-- `authenticate_session` of the repository. -/
def readSession (crypto : Crypto) (s : AuthStore) (now : Time) (token : String) :
    Except GatewayError SessionRow := do
  let (sessionId, secret) ← orRaise (splitToken token) .rejected
  let sessionId ← (identifier sessionId "Session ID").mapError fun _ => .rejected
  orRaise ((s.sessions.lookup sessionId).filter fun session =>
    session.secretSha256 == crypto.sha256 secret && session.revokedAt.isNone &&
      decide (now < session.expiresAt)) .rejected

def revokeSession (s : AuthStore) (now : Time) (sessionId : String) :
    Except GatewayError AuthStore := do
  let sessionId ← identifier sessionId "Session ID"
  return s.revokeWhere (fun session => session.sessionId == sessionId) now

def revokeSessionsForDevice (s : AuthStore) (now : Time) (deviceId : String) :
    Except GatewayError AuthStore := do
  let deviceId ← identifier deviceId "Device ID"
  return s.revokeWhere (fun session => session.deviceId == deviceId) now

def cleanupExpired (s : AuthStore) (now : Time) (retentionSeconds : Time) :
    Except GatewayError AuthStore := do
  require (60 ≤ retentionSeconds) (.value "Gateway auth retention must be at least 60 seconds")
  let cutoff := now - retentionSeconds
  return { s with
    challenges := s.challenges.delete fun challenge => decide (challenge.expiresAt < cutoff)
    sessions := s.sessions.delete fun session =>
      decide (session.expiresAt < cutoff) || session.revokedAt.any fun revoked => decide (revoked < cutoff) }

end Knoa.Gateway
