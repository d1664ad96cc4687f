import Knoa.Gateway.Sessions
import Knoa.Library.Transition

/-!
# Pairing and authentication

`GatewayAuthenticationService` over its two repositories. A call is in flight between its
transactions; a crash ends every call.
-/
namespace Knoa.Gateway
open Knoa.Relay (encodeBase64url)
open Knoa.Tasks (Time strip)

/-- `_payload` -/
def proofPayload (purpose : String) (fields : List String) : Option String :=
  let normalized := fields.map strip
  if normalized.any fun field =>
      field == "" || field.toList.contains '\n' || field.toList.contains '\r' then none
  else some ("KNOA-GATEWAY-PROOF-V1\n" ++ purpose ++ "\n" ++ "\n".intercalate normalized)

/-- The arguments of `complete_pairing` but the signature; the name and the key normalized. -/
structure PairRequest where
  grantId : String
  grantSecret : String
  challengeId : String
  nonce : String
  displayName : String
  publicKey : String
  deriving DecidableEq

def pairingPayload (request : PairRequest) : Option String :=
  proofPayload "pair" [request.challengeId, request.grantId, request.nonce,
    joined request.displayName, String.ofList (unpadded request.publicKey.toList)]

def authenticationPayload (challengeId deviceId nonce : String) : Option String :=
  proofPayload "authenticate" [challengeId, deviceId, nonce]

/-- The checks of `complete_pairing` before its first transaction. -/
def provePairing (crypto : Crypto) (request : PairRequest) (signature : List Char) :
    Option PairRequest := do
  let raw ← decodeBytes request.publicKey.toList 32
  let request :=
    { request with
      displayName := joined request.displayName, publicKey := String.ofList (encodeBase64url raw) }
  let payload ← pairingPayload request
  let signature ← decodeBytes signature 64
  if crypto.verify raw signature payload then some request else none

/-- The checks of `complete_authentication` for the device that was read. -/
def proveAuthentication (crypto : Crypto) (device : GatewayDevice)
    (challengeId nonce : String) (signature : List Char) : Bool :=
  match decodeBytes device.publicKey.toList 32, authenticationPayload challengeId device.deviceId nonce,
      decodeBytes signature 64 with
  | some raw, some payload, some signature => crypto.verify raw signature payload
  | _, _, _ => false

/-- What a call does next. `seen` is the number of revocations of the device when it was read. -/
inductive GatewayCall
  | issueChallenge (deviceId : String)
  | consumePair (request : PairRequest)
  | register (request : PairRequest)
  | readPaired (principalId deviceId : String)
  | consumeAuthenticate (device : GatewayDevice) (seen : Nat) (challengeId nonce : String)
      (ttlSeconds : Nat)
  | issueSession (device : GatewayDevice) (seen : Nat) (ttlSeconds : Nat)
  | checkDevice (session : SessionRow)
  | readSeen (session : SessionRow) (deviceId : String)
  | writeSeen (session : SessionRow) (device : GatewayDevice)
  | writeRevoked (device : GatewayDevice) (service : Bool)
  | revokeSessions (deviceId : String)
  | ended
  deriving DecidableEq

/-- A token with the device it stands for and the number of its revocations: when the device was
read that the token is for, or when the token was accepted. -/
structure TokenUse where
  token : TokenKey
  deviceId : String
  revocations : Nat
  deriving DecidableEq

structure GatewayState where
  identity : IdentityStore := .initial
  auth : AuthStore := .initial
  calls : List GatewayCall := []
  /-- The devices that were revoked, in order. -/
  revocations : List String := []
  issued : List TokenUse := []
  authenticated : List TokenUse := []
  challenged : List GatewayChallenge := []
  consumed : List GatewayChallenge := []
  granted : List PairingGrant := []
  used : List PairingGrant := []

inductive GatewayAct
  | createGrant (now : Time) (principalId : String) (ttlSeconds : Nat) (grantId secret : String)
  | beginPairing (now : Time) (grantId challengeId nonce : String)
  | completePairing (request : PairRequest) (signature : List Char)
  | beginAuthentication (deviceId : String)
  | completeAuthentication (deviceId challengeId nonce : String) (signature : List Char)
      (ttlSeconds : Nat)
  | authenticateSession (now : Time) (token : String)
  /-- `revoke_device` of the service, or of the local administration, which leaves the sessions. -/
  | revokeDevice (principalId deviceId : String) (service : Bool)
  | revokeSession (now : Time) (sessionId : String)
  | cleanupExpired (now retentionSeconds : Time)
  /-- The next transaction of a call, with the ID and the secret that it draws. -/
  | advance (i : Nat) (now : Time) (drawnId drawnSecret : String)
  | crash

namespace GatewayState

variable (s : GatewayState)

def revocationsOf (deviceId : String) : Nat := s.revocations.count deviceId

def isActive (deviceId : String) : Bool :=
  (s.identity.devices.lookup deviceId).any fun device => device.state == .active

def start (call : GatewayCall) : GatewayState := { s with calls := s.calls ++ [call] }

def putAuth (auth : AuthStore) : GatewayState := { s with auth }

/-- The write of a `revoke_device` that has read an active device. -/
def writeRevoked (now : Time) (device : GatewayDevice) : GatewayState :=
  { s with
    identity := revokeRow s.identity now device
    revocations :=
      if (s.identity.devices.lookup device.deviceId).any fun row =>
          row.principalId == device.principalId && row.state == .active then
        s.revocations ++ [device.deviceId]
      else s.revocations }

/-- The next transaction of a call; one that raises ends the call. -/
def perform (crypto : Crypto) (now : Time) (drawnId drawnSecret : String) :
    GatewayCall → GatewayState × GatewayCall
  | .issueChallenge deviceId =>
    match issueChallenge crypto now .authenticate deviceId drawnId drawnSecret 60 s.auth with
    | .error _ => (s, .ended)
    | .ok (challenge, auth) => ({ s with auth, challenged := s.challenged ++ [challenge] }, .ended)
  | .consumePair request =>
    match consumeChallenge crypto now request.challengeId .pair request.grantId request.nonce
        s.auth with
    | .error _ => (s, .ended)
    | .ok (challenge, auth) =>
      ({ s with auth, consumed := s.consumed ++ [challenge] }, .register request)
  | .register request =>
    match registerVerifiedDevice crypto now request.grantId request.grantSecret
        request.displayName request.publicKey drawnId s.identity with
    | .error _ => (s, .ended)
    | .ok ((grant, deviceId), identity) =>
      ({ s with identity, used := s.used ++ [grant] }, .readPaired grant.principalId deviceId)
  | .readPaired _ _ => (s, .ended)
  | .consumeAuthenticate device seen challengeId nonce ttlSeconds =>
    match consumeChallenge crypto now challengeId .authenticate device.deviceId nonce s.auth with
    | .error _ => (s, .ended)
    | .ok (challenge, auth) =>
      ({ s with auth, consumed := s.consumed ++ [challenge] }, .issueSession device seen ttlSeconds)
  | .issueSession device seen ttlSeconds =>
    match issueSession crypto now device ttlSeconds drawnId drawnSecret s.auth with
    | .error _ => (s, .ended)
    | .ok (session, auth) =>
      ({ s with
          auth, issued := s.issued ++
            [{ token := session.token, deviceId := session.deviceId, revocations := seen }] },
        .ended)
  | .checkDevice session =>
    match activeDevice s.identity session.principalId session.deviceId with
    | .error _ => (s, .ended)
    | .ok device => (s, .readSeen session device.deviceId)
  | .readSeen session deviceId =>
    match activeDeviceById s.identity deviceId with
    | .error _ => (s, .ended)
    | .ok device => (s, .writeSeen session device)
  | .writeSeen session device =>
    match markSeen s.identity now device with
    | .error _ => (s, .ended)
    | .ok (device, identity) =>
      ({ s with
          identity, authenticated := s.authenticated ++
            [{ token := session.token, deviceId := device.deviceId,
               revocations := s.revocationsOf device.deviceId }] }, .ended)
  | .writeRevoked device service =>
    (s.writeRevoked now device, if service then .revokeSessions device.deviceId else .ended)
  | .revokeSessions deviceId =>
    match revokeSessionsForDevice s.auth now deviceId with
    | .error _ => (s, .ended)
    | .ok auth => (s.putAuth auth, .ended)
  | .ended => (s, .ended)

/-- A call that raises before its first write leaves the state as it was. -/
def step (crypto : Crypto) (s : GatewayState) : GatewayAct → Option GatewayState
  | .createGrant now principalId ttlSeconds grantId secret =>
    match createPairingGrant crypto now principalId ttlSeconds grantId secret s.identity with
    | .error _ => none
    | .ok (grant, identity) => some { s with identity, granted := s.granted ++ [grant] }
  | .beginPairing now grantId challengeId nonce =>
    match issueChallenge crypto now .pair grantId challengeId nonce 60 s.auth with
    | .error _ => none
    | .ok (challenge, auth) => some { s with auth, challenged := s.challenged ++ [challenge] }
  | .completePairing request signature =>
    (provePairing crypto request signature).map fun request => s.start (.consumePair request)
  | .beginAuthentication deviceId =>
    match activeDeviceById s.identity deviceId with
    | .error _ => none
    | .ok device => some (s.start (.issueChallenge device.deviceId))
  | .completeAuthentication deviceId challengeId nonce signature ttlSeconds =>
    match activeDeviceById s.identity deviceId with
    | .error _ => none
    | .ok device =>
      if proveAuthentication crypto device challengeId nonce signature then
        some (s.start (.consumeAuthenticate device (s.revocationsOf device.deviceId)
          challengeId nonce ttlSeconds))
      else none
  | .authenticateSession now token =>
    match readSession crypto s.auth now token with
    | .error _ => none
    | .ok session => some (s.start (.checkDevice session))
  | .revokeDevice principalId deviceId service =>
    match deviceToRevoke s.identity principalId deviceId with
    | .error _ => none
    | .ok device =>
      if device.state = .active then some (s.start (.writeRevoked device service))
      else some (s.start (if service then .revokeSessions device.deviceId else .ended))
  | .revokeSession now sessionId =>
    match revokeSession s.auth now sessionId with
    | .error _ => none
    | .ok auth => some (s.putAuth auth)
  | .cleanupExpired now retentionSeconds =>
    match cleanupExpired s.auth now retentionSeconds with
    | .error _ => none
    | .ok auth => some (s.putAuth auth)
  | .advance i now drawnId drawnSecret =>
    match s.calls[i]? with
    | none => none
    | some call =>
      let (after, next) := s.perform crypto now drawnId drawnSecret call
      some { after with calls := s.calls.set i next }
  | .crash => some { s with calls := [] }

end GatewayState

end Knoa.Gateway
