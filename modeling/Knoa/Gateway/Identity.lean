import Knoa.Relay.Protocol
import Knoa.Tasks.Repository

/-!
# Device identities

`GatewayIdentityRepository`: pairing grants and the devices that were paired with them.
-/
namespace Knoa.Gateway
open Knoa.Relay
open Knoa.Tasks (Time isSpace strip)
open Relational Transaction

inductive GatewayError
  /-- `GatewayAuthenticationRejectedError` -/
  | rejected
  | grantRejected
  | alreadyPaired
  | deviceNotFound
  | value (message : String)
  /-- A primary key that is taken. -/
  | integrity
  deriving DecidableEq, Repr

/-- What is used of `hashlib` and of the Ed25519 keys. -/
structure Crypto where
  sha256 : String → String
  verify : (publicKey signature : List UInt8) → (payload : String) → Bool

def identifier (value label : String) : Except GatewayError String :=
  if strip value = "" ∨ 128 < (strip value).length ∨ (strip value).toList.any isSpace = true then
    .error (.value (label ++ " must contain 1-128 non-space characters"))
  else .ok (strip value)

theorem identifier_ok {value label text : String} (h : identifier value label = .ok text) :
    text = strip value := by
  unfold identifier at h
  split at h <;> cases h
  rfl

def principal (value : String) : Except GatewayError String :=
  if strip value = "" ∨ 256 < (strip value).length then
    .error (.value "Principal ID must contain 1-256 characters")
  else .ok (strip value)

/-- `" ".join(value.split())` -/
def joined (value : String) : String :=
  " ".intercalate (((value.toList.splitOnP isSpace).filter (· ≠ [])).map String.ofList)

def displayName (value : String) : Except GatewayError String :=
  if joined value = "" ∨ 80 < (joined value).length then
    .error (.value "Device name must contain 1-80 characters")
  else .ok (joined value)

/-- `value.strip().rstrip("=")` -/
def unpadded (value : List Char) : List Char :=
  ((value.dropWhile isSpace).rdropWhile isSpace).rdropWhile (· == '=')

/-- The bytes of a base64 text without other characters, where they are as many as expected. -/
def decodeBytes (value : List Char) (expected : Nat) : Option (List UInt8) :=
  if (unpadded value).all fun c => (Base64.digitValue c).isSome then
    (decodeBase64url (unpadded value)).filter fun raw => raw.length == expected
  else none

def publicKey (value : String) : Except GatewayError String :=
  match decodeBytes value.toList 32 with
  | some raw => .ok (String.ofList (encodeBase64url raw))
  | none => .error (.value "Device public key must use URL-safe base64")

def secretText (value : String) : Except GatewayError String :=
  if (strip value).utf8ByteSize < 32 ∨ 256 < (strip value).length then
    .error (.value "Pairing secret must contain 32-256 bytes")
  else .ok (strip value)

structure PairingGrantRow where
  grantId : String
  principalId : String
  secretSha256 : String
  createdAt : Time
  expiresAt : Time
  consumedAt : Option Time
  deriving DecidableEq

inductive DeviceState
  | active
  | revoked
  deriving DecidableEq

structure GatewayDevice where
  deviceId : String
  principalId : String
  displayName : String
  publicKey : String
  state : DeviceState
  createdAt : Time
  lastSeenAt : Option Time
  revokedAt : Option Time
  deriving DecidableEq

/-- `PairingGrant`, without its times. -/
structure PairingGrant where
  grantId : String
  secret : String
  principalId : String
  deriving DecidableEq

structure IdentityStore where
  grants : Table PairingGrantRow.grantId
  devices : Table GatewayDevice.deviceId

namespace IdentityStore

def initial : IdentityStore := ⟨.empty, .empty⟩

def updateDevices (s : IdentityStore) (p : GatewayDevice → Bool)
    (f : GatewayDevice → GatewayDevice) (keep : ∀ device, (f device).deviceId = device.deviceId) :
    IdentityStore :=
  { s with devices := s.devices.update p f keep }

def consumeGrant (s : IdentityStore) (grantId : String) (now : Time) : IdentityStore :=
  { s with
    grants := s.grants.update (fun grant => grant.grantId == grantId && grant.consumedAt.isNone)
      (fun grant => { grant with consumedAt := some now }) (fun _ => rfl) }

end IdentityStore

/-- `create_pairing_grant`, with the ID and the secret that were drawn. -/
def createPairingGrant (crypto : Crypto) (now : Time) (principalId : String) (ttlSeconds : Nat)
    (grantId secret : String) : Body IdentityStore GatewayError PairingGrant := fun s => do
  let principalId ← principal principalId
  require (30 ≤ ttlSeconds ∧ ttlSeconds ≤ 900)
    (.value "Pairing grant TTL must be between 30 and 900 seconds")
  let grantId ← identifier grantId "Pairing grant ID"
  let secret ← secretText secret
  let grants ← orRaise (s.grants.insert
    { grantId, principalId, secretSha256 := crypto.sha256 secret,
      createdAt := now, expiresAt := now + ttlSeconds, consumedAt := none }) .integrity
  return ({ grantId := grantId, secret, principalId }, { s with grants })

def PairingGrantRow.accepts (crypto : Crypto) (grant : PairingGrantRow) (now : Time)
    (secret : String) : Bool :=
  grant.secretSha256 == crypto.sha256 (strip secret) && grant.consumedAt.isNone &&
    decide (now < grant.expiresAt)

def pairDevice (now : Time) (principalId displayName publicKey deviceId : String) :
    Body IdentityStore GatewayError String := fun s =>
  match s.devices.rows.find? fun device => device.publicKey == publicKey with
  | some existing => do
    require (existing.principalId = principalId) .alreadyPaired
    return (existing.deviceId, s.updateDevices (fun device => device.deviceId == existing.deviceId)
      (fun device => { device with displayName, state := .active, revokedAt := none })
      (fun _ => rfl))
  | none => do
    let deviceId ← identifier deviceId "Device ID"
    let devices ← orRaise (s.devices.insert
      { deviceId, principalId, displayName,
        publicKey, state := .active, createdAt := now, lastSeenAt := none,
        revokedAt := none }) .alreadyPaired
    return (deviceId, { s with devices })

/-- The transaction of `register_verified_device`, with the device ID that was drawn; it returns
the grant that was used and the ID of the device. -/
def registerVerifiedDevice (crypto : Crypto) (now : Time)
    (grantId secret name key deviceId : String) :
    Body IdentityStore GatewayError (PairingGrant × String) := fun s => do
  let grantId ← identifier grantId "Pairing grant ID"
  let name ← displayName name
  let key ← publicKey key
  let grant ← orRaise ((s.grants.lookup grantId).filter fun grant => grant.accepts crypto now secret)
    .grantRejected
  let (deviceId, s) ← pairDevice now grant.principalId name key deviceId s
  -- The grant was seen unconsumed in this transaction, so the update meets it.
  return (({ grantId, secret := strip secret, principalId := grant.principalId },
    deviceId), s.consumeGrant grantId now)

def activeDeviceById (s : IdentityStore) (deviceId : String) : Except GatewayError GatewayDevice := do
  let deviceId ← identifier deviceId "Device ID"
  orRaise ((s.devices.lookup deviceId).filter fun device => device.state == .active) .deviceNotFound

def activeDevice (s : IdentityStore) (principalId deviceId : String) :
    Except GatewayError GatewayDevice := do
  let principalId ← principal principalId
  let deviceId ← identifier deviceId "Device ID"
  orRaise ((s.devices.lookup deviceId).filter fun device =>
    device.principalId == principalId && device.state == .active) .deviceNotFound

/-- The update of `mark_seen`. -/
def markSeen (s : IdentityStore) (now : Time) (device : GatewayDevice) :
    Except GatewayError (GatewayDevice × IdentityStore) := do
  require ((s.devices.lookup device.deviceId).any fun row => row.state == .active) .deviceNotFound
  return ({ device with lastSeenAt := some now },
    s.updateDevices (fun row => row.deviceId == device.deviceId && row.state == .active)
      (fun row => { row with lastSeenAt := some now }) (fun _ => rfl))

/-- The read of `revoke_device`. -/
def deviceToRevoke (s : IdentityStore) (principalId deviceId : String) :
    Except GatewayError GatewayDevice := do
  let principalId ← principal principalId
  let deviceId ← identifier deviceId "Device ID"
  orRaise ((s.devices.lookup deviceId).filter fun device => device.principalId == principalId)
    .deviceNotFound

/-- The update of `revoke_device`, where an active device was read. -/
def revokeRow (s : IdentityStore) (now : Time) (device : GatewayDevice) : IdentityStore :=
  s.updateDevices (fun row => row.principalId == device.principalId &&
      row.deviceId == device.deviceId && row.state == .active)
    (fun row => { row with state := .revoked, revokedAt := some now }) (fun _ => rfl)

end Knoa.Gateway
