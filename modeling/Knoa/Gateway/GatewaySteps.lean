import Knoa.Gateway.Authentication
import Knoa.Library.Vouchers

/-!
# What a step of the Gateway does

One relation for what a transaction writes, and what it means for a device that somebody holds.
-/
namespace Knoa.Gateway
open Knoa.Tasks Relational Transaction

variable {crypto : Crypto} {now : Time} {s t : GatewayState}

def GatewayChallenge.digest (crypto : Crypto) (challenge : GatewayChallenge) : GatewayChallenge :=
  { challenge with nonce := crypto.sha256 challenge.nonce }

def ChallengeRow.tag (row : ChallengeRow) : GatewayChallenge where
  challengeId := row.challengeId
  purpose := row.purpose
  subjectId := row.subjectId
  nonce := row.nonceSha256

def ChallengeRow.unspent (row : ChallengeRow) : Bool := row.consumedAt.isNone

def PairingGrant.digest (crypto : Crypto) (grant : PairingGrant) : PairingGrant :=
  { grant with secret := crypto.sha256 grant.secret }

def PairingGrantRow.tag (row : PairingGrantRow) : PairingGrant where
  grantId := row.grantId
  secret := row.secretSha256
  principalId := row.principalId

def PairingGrantRow.unspent (row : PairingGrantRow) : Bool := row.consumedAt.isNone

theorem digest_challenge_injective (h : crypto.sha256.Injective) :
    (GatewayChallenge.digest crypto).Injective := by
  intro a b same
  simp only [GatewayChallenge.digest, GatewayChallenge.mk.injEq] at same
  obtain ⟨id, purpose, subject, nonce⟩ := same
  cases a
  cases b
  simp_all only [GatewayChallenge.mk.injEq, true_and]
  exact h nonce

theorem digest_grant_injective (h : crypto.sha256.Injective) :
    (PairingGrant.digest crypto).Injective := by
  intro a b same
  simp only [PairingGrant.digest, PairingGrant.mk.injEq] at same
  obtain ⟨id, secret, principalId⟩ := same
  cases a
  cases b
  simp_all only [PairingGrant.mk.injEq, and_true, true_and]
  exact h secret

variable {secret : String} {ttlSeconds : Nat} {s : IdentityStore}

theorem createPairingGrant_ok {principalId grantId : String} {grant : PairingGrant}
    {s' : IdentityStore}
    (h : createPairingGrant crypto now principalId ttlSeconds grantId secret s = .ok (grant, s')) :
    ∃ row grants, s.grants.insert row = some grants ∧ s' = { s with grants } ∧
      row.tag = grant.digest crypto ∧ row.unspent = true := by
  obtain ⟨principal, -, _, -, grantId, -, h⟩ := of_bind₃ h
  obtain ⟨secret, -, grants, inserted, h⟩ := of_bind₂ h
  cases h
  exact ⟨_, grants, orRaise_ok_iff.mp inserted, rfl, rfl, rfl⟩

variable {s' : AuthStore}

theorem issueChallenge_ok {purpose : ChallengePurpose} {subjectId challengeId nonce : String}
    {challenge : GatewayChallenge} {s : AuthStore}
    (h : issueChallenge crypto now purpose subjectId challengeId nonce ttlSeconds s =
      .ok (challenge, s')) :
    ∃ row challenges, s.challenges.insert row = some challenges ∧
      s' = { s with challenges } ∧ row.tag = challenge.digest crypto ∧
      row.unspent = true := by
  obtain ⟨subjectId, -, _, -, challengeId, -, h⟩ := of_bind₃ h
  obtain ⟨nonce, -, challenges, inserted, h⟩ := of_bind₂ h
  cases h
  exact ⟨_, challenges, orRaise_ok_iff.mp inserted, rfl, rfl, rfl⟩

theorem consumeChallenge_ok {purpose : ChallengePurpose} {subjectId challengeId nonce : String}
    {challenge : GatewayChallenge} {s : AuthStore}
    (h : consumeChallenge crypto now challengeId purpose subjectId nonce s = .ok (challenge, s')) :
    ∃ row ∈ s.challenges.rows, row.tag = challenge.digest crypto ∧ row.unspent = true ∧
      challenge.purpose = purpose ∧
      s' = { s with
        challenges := s.challenges.update
          (fun other => other.challengeId == row.challengeId && other.unspent)
          (fun row => { row with consumedAt := some now }) (fun _ => rfl) } := by
  obtain ⟨challengeId, -, subjectId, -, _, valid, h⟩ := of_bind₃ h
  rw [require_ok_iff, Option.any_eq_true] at valid
  obtain ⟨row, found, accepts⟩ := valid
  cases h
  have named : row.challengeId = challengeId := Table.lookup_key found
  simp only [ChallengeRow.accepts, Bool.and_eq_true, beq_iff_eq] at accepts
  obtain ⟨⟨⟨⟨nonce, purpose⟩, subject⟩, unspent⟩, -⟩ := accepts
  refine ⟨row, Table.lookup_mem found, ?_, unspent, rfl, ?_⟩
  · simp only [ChallengeRow.tag, GatewayChallenge.digest, named, purpose, subject, nonce]
  · rw [named]
    rfl

inductive Paired (s : IdentityStore) (principalId key : String) : Table GatewayDevice.deviceId → Prop
  | again {existing : GatewayDevice} {name : String} (stands : existing ∈ s.devices.rows)
      (of : existing.publicKey = key) (owner : existing.principalId = principalId) :
      Paired s principalId key (s.devices.update
        (fun device => device.deviceId == existing.deviceId)
        (fun device => { device with displayName := name, state := .active, revokedAt := none })
        (fun _ => rfl))
  | fresh {device : GatewayDevice} {devices : Table GatewayDevice.deviceId}
      (inserted : s.devices.insert device = some devices)
      (normal : strip device.deviceId = device.deviceId) : Paired s principalId key devices

variable {deviceId : String}

theorem registerVerifiedDevice_ok {grantId name key drawnId : String} {grant : PairingGrant}
    {s' : IdentityStore}
    (h : registerVerifiedDevice crypto now grantId secret name key drawnId s =
      .ok ((grant, deviceId), s')) :
    ∃ row ∈ s.grants.rows, ∃ key' devices, row.grantId = strip grantId ∧
      row.accepts crypto now secret = true ∧ row.tag = grant.digest crypto ∧
      publicKey key = .ok key' ∧ Paired s row.principalId key' devices ∧
      s' = { s.consumeGrant row.grantId now with devices } := by
  obtain ⟨grantId', given, name, -, key', normal, h⟩ := of_bind₃ h
  obtain ⟨row, accepted, ⟨paired, between⟩, device, h⟩ := of_bind₂ h
  cases h
  rw [orRaise_ok_iff, Option.filter_eq_some_iff] at accepted
  obtain ⟨found, accepts⟩ := accepted
  have named : row.grantId = grantId' := Table.lookup_key found
  rw [identifier_ok given] at named
  have checked := accepts
  simp only [PairingGrantRow.accepts, Bool.and_eq_true, beq_iff_eq] at checked
  obtain ⟨⟨digest, -⟩, -⟩ := checked
  have tag : row.tag = (PairingGrant.mk grantId' (strip secret) row.principalId).digest crypto := by
    simp only [PairingGrantRow.tag, PairingGrant.digest, named, digest, identifier_ok given]
  unfold pairDevice at device
  split at device
  · next existing known =>
      obtain ⟨_, owner, device⟩ := of_bind device
      cases device
      have of : existing.publicKey = key' := by simpa using List.find?_some known
      have again := @Paired.again s row.principalId key' existing name
        (List.mem_of_find?_eq_some known) of (require_ok_iff.mp owner)
      refine ⟨row, Table.lookup_mem found, key', _, named, accepts, tag, normal, again, ?_⟩
      rw [named, identifier_ok given]
      rfl
  · obtain ⟨deviceId', drawn, devices, inserted, device⟩ := of_bind₂ device
    cases device
    refine ⟨row, Table.lookup_mem found, key', devices, named, accepts, tag, normal,
      .fresh (orRaise_ok_iff.mp inserted) ?_, ?_⟩
    · rw [identifier_ok drawn]
      exact strip_strip _
    · rw [named, identifier_ok given]
      rfl

variable {device : GatewayDevice}

theorem issueSession_ok {sessionId : String} {session : SessionRow} {s : AuthStore}
    (h : issueSession crypto now device ttlSeconds sessionId secret s = .ok (session, s')) :
    ∃ sessions, s.sessions.insert session = some sessions ∧ s' = { s with sessions } ∧
      session.deviceId = device.deviceId ∧ session.revokedAt = none := by
  obtain ⟨_, -, _, -, sessionId, -, h⟩ := of_bind₃ h
  obtain ⟨secret, -, sessions, inserted, h⟩ := of_bind₂ h
  cases h
  exact ⟨sessions, orRaise_ok_iff.mp inserted, rfl, rfl, rfl⟩

theorem readSession_ok {s : AuthStore} {token : String} {session : SessionRow}
    (h : readSession crypto s now token = .ok session) :
    session ∈ s.sessions.rows ∧ session.revokedAt = none := by
  obtain ⟨⟨sessionId, secret⟩, -, sessionId, -, h⟩ := of_bind₂ h
  rw [orRaise_ok_iff, Option.filter_eq_some_iff] at h
  obtain ⟨found, valid⟩ := h
  simp only [Bool.and_eq_true, Option.isNone_iff_eq_none] at valid
  exact ⟨Table.lookup_mem found, valid.1.2⟩

theorem activeDeviceById_ok (h : activeDeviceById s deviceId = .ok device) :
    s.devices.lookup (strip deviceId) = some device ∧ device.state = .active := by
  obtain ⟨deviceId', given, h⟩ := of_bind h
  rw [orRaise_ok_iff, Option.filter_eq_some_iff, identifier_ok given, beq_iff_eq] at h
  exact h

theorem activeDevice_ok {principalId : String}
    (h : activeDevice s principalId deviceId = .ok device) :
    s.devices.lookup (strip deviceId) = some device ∧ device.state = .active := by
  obtain ⟨_, -, deviceId', given, h⟩ := of_bind₂ h
  rw [orRaise_ok_iff, Option.filter_eq_some_iff, identifier_ok given, Bool.and_eq_true,
    beq_iff_eq, beq_iff_eq] at h
  exact ⟨h.1, h.2.2⟩

/-- What the transaction of a call writes; the calls are left aside. -/
inductive Effect (crypto : Crypto) (now : Time) (s : GatewayState) :
    GatewayCall → GatewayState → Prop
  | same {call : GatewayCall} : Effect crypto now s call s
  | granted {call : GatewayCall} {grant : PairingGrant} {row : PairingGrantRow}
      {grants : Table PairingGrantRow.grantId} (inserted : s.identity.grants.insert row = some grants)
      (tag : row.tag = grant.digest crypto) :
      Effect crypto now s call { s with
        identity := { s.identity with grants }, granted := s.granted ++ [grant] }
  | challenged {call : GatewayCall} {challenge : GatewayChallenge} {row : ChallengeRow}
      {challenges : Table ChallengeRow.challengeId}
      (inserted : s.auth.challenges.insert row = some challenges)
      (tag : row.tag = challenge.digest crypto) :
      Effect crypto now s call { s with
        auth := { s.auth with challenges }
        challenged := s.challenged ++ [challenge] }
  | consumed {call : GatewayCall} {challenge : GatewayChallenge} {row : ChallengeRow}
      (stands : row ∈ s.auth.challenges.rows) (tag : row.tag = challenge.digest crypto)
      (unspent : row.unspent = true) :
      Effect crypto now s call { s with
        auth := { s.auth with
          challenges := s.auth.challenges.update
            (fun other => other.challengeId == row.challengeId && other.unspent)
            (fun row => { row with consumedAt := some now }) (fun _ => rfl) }
        consumed := s.consumed ++ [challenge] }
  | paired {request : PairRequest} {grant : PairingGrant} {row : PairingGrantRow}
      {key : String} {devices : Table GatewayDevice.deviceId} (stands : row ∈ s.identity.grants.rows)
      (named : row.grantId = strip request.grantId)
      (accepts : row.accepts crypto now request.grantSecret = true)
      (tag : row.tag = grant.digest crypto) (of : publicKey request.publicKey = .ok key)
      (written : Paired s.identity row.principalId key devices) :
      Effect crypto now s (.register request) { s with
        identity := { s.identity.consumeGrant row.grantId now with devices }
        used := s.used ++ [grant] }
  | issued {device : GatewayDevice} {seen ttlSeconds : Nat} {session : SessionRow}
      {sessions : Table SessionRow.sessionId}
      (inserted : s.auth.sessions.insert session = some sessions)
      (of : session.deviceId = device.deviceId) :
      Effect crypto now s (.issueSession device seen ttlSeconds) { s with
        auth := { s.auth with sessions }
        issued := s.issued ++
          [{ token := session.token, deviceId := session.deviceId, revocations := seen }] }
  | accepted {session : SessionRow} {device : GatewayDevice}
      (active : s.isActive device.deviceId = true) :
      Effect crypto now s (.writeSeen session device) { s with
        identity := s.identity.updateDevices
          (fun row => row.deviceId == device.deviceId && row.state == .active)
          (fun row => { row with lastSeenAt := some now }) (fun _ => rfl)
        authenticated := s.authenticated ++
          [{ token := session.token, deviceId := device.deviceId,
             revocations := s.revocationsOf device.deviceId }] }
  | revoked {call : GatewayCall} {device : GatewayDevice} :
      Effect crypto now s call (s.writeRevoked now device)
  | sessionsRevoked {call : GatewayCall} {p : SessionRow → Bool} :
      Effect crypto now s call (s.putAuth (s.auth.revokeWhere p now))
  | cleaned {call : GatewayCall} {p : ChallengeRow → Bool} {q : SessionRow → Bool} :
      Effect crypto now s call (s.putAuth
        { challenges := s.auth.challenges.delete p, sessions := s.auth.sessions.delete q })

theorem perform_effect (crypto : Crypto) (s : GatewayState) (now : Time)
    (drawnId drawnSecret : String) (call : GatewayCall) :
    Effect crypto now s call (s.perform crypto now drawnId drawnSecret call).1 := by
  cases call with
  | issueChallenge deviceId =>
    simp only [GatewayState.perform]
    split
    · exact .same
    · next challenge auth issued =>
        obtain ⟨row, challenges, inserted, rfl, tag, -⟩ := issueChallenge_ok issued
        exact .challenged inserted tag
  | consumePair request | consumeAuthenticate device seen challengeId nonce ttlSeconds =>
    simp only [GatewayState.perform]
    split
    · exact .same
    · next challenge auth taken =>
        obtain ⟨row, stands, tag, unspent, -, rfl⟩ := consumeChallenge_ok taken
        exact .consumed stands tag unspent
  | register request =>
    simp only [GatewayState.perform]
    split
    · exact .same
    · next grant deviceId identity registered =>
        obtain ⟨row, stands, key, devices, named, accepts, tag, of, written, rfl⟩ :=
          registerVerifiedDevice_ok registered
        exact .paired stands named accepts tag of written
  | readPaired principalId deviceId | ended => exact .same
  | issueSession device seen ttlSeconds =>
    simp only [GatewayState.perform]
    split
    · exact .same
    · next session auth issued =>
        obtain ⟨sessions, inserted, rfl, of, -⟩ := issueSession_ok issued
        exact .issued inserted of
  | checkDevice session | readSeen session deviceId =>
    simp only [GatewayState.perform]
    split <;> exact .same
  | writeSeen session device =>
    simp only [GatewayState.perform]
    split
    · exact .same
    · next after identity written =>
        unfold markSeen at written
        obtain ⟨_, active, written⟩ := of_bind written
        cases written
        exact .accepted (require_ok_iff.mp active)
  | writeRevoked device service => exact .revoked
  | revokeSessions deviceId =>
    simp only [GatewayState.perform]
    split
    · exact .same
    · next auth revoked =>
        unfold revokeSessionsForDevice at revoked
        obtain ⟨_, -, revoked⟩ := of_bind revoked
        cases revoked
        exact .sessionsRevoked

end Knoa.Gateway
