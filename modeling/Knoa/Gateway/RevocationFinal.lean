import Knoa.Gateway.GatewaySteps
import Mathlib.Data.List.Nodup

/-!
# Is a revocation final?

Revoking the device and its sessions are two writes, and pairing the key again makes the same device
active again.
-/
namespace Knoa.Gateway
open Knoa.Tasks Relational Transition
open Vouchers (Balanced)

variable {crypto : Crypto} {now : Time} {s t : GatewayState} {call : GatewayCall}

/-- What was accepted was issued for the device as it was read since its last revocation; every
challenge and every grant that was consumed was issued, for the same purpose and subject and with
the same nonce or secret. -/
structure RevocationFinal (crypto : Crypto) (s : GatewayState) : Prop where
  current : ∀ use ∈ s.authenticated, use ∈ s.issued
  stale : (s.issued.map TokenUse.token).Nodup → ∀ old ∈ s.issued, ∀ use ∈ s.authenticated,
    old.token = use.token → old.revocations = use.revocations
  challenges : (s.consumed.map (GatewayChallenge.digest crypto)).Subperm
    (s.challenged.map (GatewayChallenge.digest crypto))
  grants : (s.used.map (PairingGrant.digest crypto)).Subperm
    (s.granted.map (PairingGrant.digest crypto))
  secrets : crypto.sha256.Injective → s.consumed.Subperm s.challenged ∧ s.used.Subperm s.granted
  challengesOnce : (s.challenged.map GatewayChallenge.challengeId).Nodup →
    (s.consumed.map GatewayChallenge.challengeId).Nodup
  grantsOnce : (s.granted.map PairingGrant.grantId).Nodup → (s.used.map PairingGrant.grantId).Nodup

def GatewayCall.holds : GatewayCall → Option String
  | .consumeAuthenticate device _ _ _ _ => some device.deviceId
  | .issueSession device _ _ => some device.deviceId
  | .checkDevice session => some session.deviceId
  | .readSeen session _ => some session.deviceId
  | .writeSeen session _ => some session.deviceId
  | _ => none

namespace GatewayState

def held (s : GatewayState) (deviceId : String) : Bool :=
  s.auth.sessions.rows.any (fun session =>
    session.deviceId == deviceId && session.revokedAt.isNone) ||
  s.calls.any fun call => call.holds == some deviceId

def pairsAgain (crypto : Crypto) (now : Time) (s : GatewayState) (request : PairRequest)
    (device : GatewayDevice) : Bool :=
  device.state == .revoked &&
    (match publicKey request.publicKey with
      | .ok key => device.publicKey == key
      | .error _ => false) &&
    (s.identity.grants.lookup (strip request.grantId)).any fun grant =>
      grant.accepts crypto now request.grantSecret && device.principalId == grant.principalId

def CleanCall (crypto : Crypto) (now : Time) (s : GatewayState) : GatewayCall → Prop
  | .register request => ∀ device ∈ s.identity.devices.rows,
      s.pairsAgain crypto now request device = true → s.held device.deviceId = false
  | _ => True

instance (crypto : Crypto) (now : Time) (s : GatewayState) (call : GatewayCall) :
    Decidable (s.CleanCall crypto now call) := by
  unfold CleanCall
  cases call <;> infer_instance

/-- The condition: a revoked device is paired again only when none of its sessions stands and no
call that has read it, or one of its sessions, is in flight. -/
def Clean (crypto : Crypto) (s : GatewayState) : GatewayAct → Prop
  | .advance i now _ _ => ∀ call ∈ s.calls[i]?, s.CleanCall crypto now call
  | _ => True

instance (crypto : Crypto) (s : GatewayState) (a : GatewayAct) :
    Decidable (s.Clean crypto a) := by
  unfold Clean
  cases a <;> infer_instance

end GatewayState

structure VouchersSound (crypto : Crypto) (s : GatewayState) : Prop where
  challenges : Balanced ChallengeRow.tag ChallengeRow.unspent s.auth.challenges
    (s.consumed.map (GatewayChallenge.digest crypto))
    (s.challenged.map (GatewayChallenge.digest crypto))
  grants : Balanced PairingGrantRow.tag PairingGrantRow.unspent s.identity.grants
    (s.used.map (PairingGrant.digest crypto)) (s.granted.map (PairingGrant.digest crypto))

theorem VouchersSound.effect (sound : VouchersSound crypto s) (effect : Effect crypto now s call t) :
    VouchersSound crypto t := by
  cases effect with
  | granted inserted tag =>
    refine ⟨sound.challenges, ?_⟩
    have made := sound.grants.make inserted
    rw [tag] at made
    rw [List.map_append]
    exact made
  | challenged inserted tag =>
    refine ⟨?_, sound.grants⟩
    have made := sound.challenges.make inserted
    rw [tag] at made
    rw [List.map_append]
    exact made
  | consumed stands tag unspent =>
    rename_i challenge row
    refine ⟨?_, sound.grants⟩
    have spent := sound.challenges.spend stands unspent
      (p := fun other => other.challengeId == row.challengeId && other.unspent)
      (f := fun row => { row with consumedAt := some now }) (fun _ => rfl) ?_ rfl
    · rw [tag] at spent
      rw [List.map_append]
      exact spent
    · intro other member
      rw [Bool.and_eq_true, beq_iff_eq]
      constructor
      · rintro ⟨same, -⟩
        exact Table.mem_unique member stands same
      · rintro rfl
        exact ⟨rfl, unspent⟩
  | paired stands named accepts tag of written =>
    rename_i request grant row key devices
    refine ⟨sound.challenges, ?_⟩
    have unspent : row.unspent = true := by
      simp only [PairingGrantRow.accepts, Bool.and_eq_true] at accepts
      exact accepts.1.2
    have spent := sound.grants.spend stands unspent
      (p := fun other => other.grantId == row.grantId && other.consumedAt.isNone)
      (f := fun row => { row with consumedAt := some now }) (fun _ => rfl) ?_ rfl
    · rw [tag] at spent
      rw [List.map_append]
      exact spent
    · intro other member
      rw [Bool.and_eq_true, beq_iff_eq]
      constructor
      · rintro ⟨same, -⟩
        exact Table.mem_unique member stands same
      · rintro rfl
        exact ⟨rfl, unspent⟩
  | cleaned => exact ⟨sound.challenges.delete _, sound.grants⟩
  | same => exact sound
  | issued _ _ | accepted _ | revoked | sessionsRevoked => exact ⟨sound.challenges, sound.grants⟩

def GatewayState.Knows (s : GatewayState) (deviceId : String) : Prop :=
  ∃ device, s.identity.devices.lookup deviceId = some device

structure Steady (s t : GatewayState) (deviceId : String) : Prop where
  known : s.Knows deviceId → t.Knows deviceId
  active : s.Knows deviceId → t.isActive deviceId = true →
    s.isActive deviceId = true ∧ t.revocationsOf deviceId = s.revocationsOf deviceId

variable {deviceId : String}

theorem Steady.of_same (devices : t.identity.devices = s.identity.devices)
    (revocations : t.revocations = s.revocations) : Steady s t deviceId := by
  constructor
  · intro known
    unfold GatewayState.Knows
    rw [devices]
    exact known
  · intro _ active
    unfold GatewayState.isActive GatewayState.revocationsOf at *
    rw [devices] at active
    rw [revocations]
    exact ⟨active, rfl⟩

variable {g : GatewayDevice → GatewayDevice}

theorem knows_map
    (after : t.identity.devices.lookup deviceId = (s.identity.devices.lookup deviceId).map g)
    (known : s.Knows deviceId) : t.Knows deviceId := by
  obtain ⟨device, found⟩ := known
  unfold GatewayState.Knows
  rw [after, found]
  exact ⟨_, rfl⟩

variable {device : GatewayDevice}

theorem isActive_map
    (after : t.identity.devices.lookup deviceId = (s.identity.devices.lookup deviceId).map g)
    (found : s.identity.devices.lookup deviceId = some device) :
    t.isActive deviceId = ((g device).state == .active) := by
  unfold GatewayState.isActive
  rw [after, found]
  rfl

theorem isActive_of_lookup (found : s.identity.devices.lookup deviceId = some device) :
    s.isActive deviceId = (device.state == .active) := by
  unfold GatewayState.isActive
  rw [found]
  rfl

theorem steady_revoked (device : GatewayDevice) (deviceId : String) :
    Steady s (s.writeRevoked now device) deviceId := by
  have after := Table.lookup_update s.identity.devices
    (fun row => row.principalId == device.principalId && row.deviceId == device.deviceId &&
      row.state == .active)
    (fun row => { row with state := .revoked, revokedAt := some now }) (fun _ => rfl) deviceId
  refine ⟨knows_map after, ?_⟩
  rintro ⟨row, found⟩ active
  rw [isActive_map after found] at active
  rw [isActive_of_lookup found]
  have named := Table.lookup_key found
  split at active
  · cases active
  · next untouched =>
      refine ⟨active, ?_⟩
      unfold GatewayState.revocationsOf GatewayState.writeRevoked
      split
      · next wrote =>
          rw [List.count_append, List.count_singleton, if_neg]
          · rfl
          · intro same
            rw [beq_iff_eq] at same
            rw [same, found, Option.any_some, Bool.and_eq_true] at wrote
            simp [named, same, wrote.1, wrote.2] at untouched
      · rfl

theorem Effect.steady (effect : Effect crypto now s call t) (clean : s.CleanCall crypto now call)
    (held : s.held deviceId = true) : Steady s t deviceId := by
  cases effect with
  | paired stands named accepts tag of written =>
    rename_i request grant row key devices
    cases written with
    | again stored same owner =>
      rename_i existing name
      have after := Table.lookup_update s.identity.devices
        (fun device => device.deviceId == existing.deviceId)
        (fun device => { device with displayName := name, state := .active, revokedAt := none })
        (fun _ => rfl) deviceId
      refine ⟨knows_map after, ?_⟩
      rintro ⟨device, found⟩ active
      refine ⟨?_, rfl⟩
      rw [isActive_map after found] at active
      rw [isActive_of_lookup found]
      split at active
      · next chosen =>
          have one : device = existing := by
            refine Table.mem_unique (Table.lookup_mem found) stored ?_
            exact beq_iff_eq.mp chosen
          subst one
          cases standing : device.state with
          | active => rfl
          | revoked =>
            have again : s.pairsAgain crypto now request device = true := by
              unfold GatewayState.pairsAgain
              rw [of, ← named, Table.lookup_of_mem stands]
              simp [standing, same, owner, accepts]
            have free := clean device stored again
            rw [Table.lookup_key found, held] at free
            cases free
      · exact active
    | fresh inserted normal =>
      rename_i device
      have other : ∀ found, s.identity.devices.lookup deviceId = some found →
          devices.lookup deviceId = some found := by
        intro found known
        rw [Table.lookup_insert inserted, if_neg, known]
        intro same
        refine Table.insert_fresh inserted ?_
        rw [same, ← Table.lookup_key known]
        exact List.mem_map_of_mem (Table.lookup_mem known)
      constructor
      · rintro ⟨found, known⟩
        exact ⟨found, other found known⟩
      · rintro ⟨found, known⟩ active
        rw [isActive_of_lookup (other found known)] at active
        rw [isActive_of_lookup known]
        exact ⟨active, rfl⟩
  | accepted standing =>
    rename_i session device
    have after := Table.lookup_update s.identity.devices
      (fun row => row.deviceId == device.deviceId && row.state == .active)
      (fun row => { row with lastSeenAt := some now }) (fun _ => rfl) deviceId
    refine ⟨knows_map after, ?_⟩
    rintro ⟨row, found⟩ active
    refine ⟨?_, rfl⟩
    rw [isActive_map after found] at active
    rw [isActive_of_lookup found]
    split at active <;> exact active
  | revoked => exact steady_revoked _ _
  | same | granted _ _ | challenged _ _ | consumed _ _ _ | issued _ _ | sessionsRevoked | cleaned =>
    exact .of_same rfl rfl

/-- No revocation of the device has come since it was read, unless it is revoked. -/
structure Fresh (s : GatewayState) (deviceId : String) (seen : Nat) : Prop where
  known : s.Knows deviceId
  current : s.isActive deviceId = true → seen = s.revocationsOf deviceId

theorem Fresh.steady {seen : Nat} (fresh : Fresh s deviceId seen) (steady : Steady s t deviceId) :
    Fresh t deviceId seen where
  known := steady.known fresh.known
  current := by
    intro active
    obtain ⟨before, same⟩ := steady.active fresh.known active
    rw [same]
    exact fresh.current before

def Backed (s : GatewayState) (session : SessionRow) : Prop :=
  ∃ use ∈ s.issued, use.token = session.token ∧ use.deviceId = session.deviceId ∧
    Fresh s session.deviceId use.revocations

variable {session : SessionRow}

theorem Backed.steady (backed : Backed s session) (steady : Steady s t session.deviceId)
    (issued : ∀ use ∈ s.issued, use ∈ t.issued) : Backed t session := by
  obtain ⟨use, member, token, of, fresh⟩ := backed
  exact ⟨use, issued use member, token, of, fresh.steady steady⟩

def CallSound (s : GatewayState) : GatewayCall → Prop
  | .consumeAuthenticate device seen _ _ _ => Fresh s device.deviceId seen
  | .issueSession device seen _ => Fresh s device.deviceId seen
  | .checkDevice session => Backed s session
  | .readSeen session deviceId => session.deviceId = deviceId ∧ Backed s session
  | .writeSeen session device => session.deviceId = device.deviceId ∧ Backed s session
  | _ => True

theorem CallSound.steady (sound : CallSound s call)
    (steady : ∀ deviceId, call.holds = some deviceId → Steady s t deviceId)
    (issued : ∀ use ∈ s.issued, use ∈ t.issued) : CallSound t call := by
  cases call with
  | consumeAuthenticate device seen challengeId nonce ttlSeconds =>
    exact Fresh.steady sound (steady _ rfl)
  | issueSession device seen ttlSeconds => exact Fresh.steady sound (steady _ rfl)
  | checkDevice session => exact Backed.steady sound (steady _ rfl) issued
  | readSeen session deviceId | writeSeen session device =>
    exact ⟨sound.1, sound.2.steady (steady _ rfl) issued⟩
  | issueChallenge _ | consumePair _ | register _ | readPaired _ _ | writeRevoked _ _
  | revokeSessions _ | ended => trivial

structure SessionsSound (s : GatewayState) : Prop where
  named : ∀ device ∈ s.identity.devices.rows, strip device.deviceId = device.deviceId
  sessions : ∀ session ∈ s.auth.sessions.rows, session.revokedAt = none → Backed s session
  calls : ∀ call ∈ s.calls, CallSound s call
  authenticated : ∀ use ∈ s.authenticated, use ∈ s.issued

theorem named_update {devices devices' : Table GatewayDevice.deviceId}
    (named : ∀ device ∈ devices.rows, strip device.deviceId = device.deviceId)
    (after : devices'.rows = devices.rows.map g)
    (keep : ∀ device, (g device).deviceId = device.deviceId) :
    ∀ device ∈ devices'.rows, strip device.deviceId = device.deviceId := by
  intro device member
  rw [after] at member
  obtain ⟨old, stands, rfl⟩ := List.mem_map.mp member
  rw [keep]
  exact named old stands

theorem Effect.named (effect : Effect crypto now s call t)
    (named : ∀ device ∈ s.identity.devices.rows, strip device.deviceId = device.deviceId) :
    ∀ device ∈ t.identity.devices.rows, strip device.deviceId = device.deviceId := by
  cases effect with
  | paired stands named' accepts tag of written =>
    cases written with
    | again stored same owner =>
      refine named_update named rfl fun device => ?_
      split <;> rfl
    | fresh inserted normal =>
      intro device member
      have member : device ∈ (_ : Table GatewayDevice.deviceId).rows := member
      rw [Table.insert_rows inserted] at member
      rcases List.mem_concat.mp member with old | new
      · exact named device old
      · rw [new]
        exact normal
  | accepted active | revoked =>
    refine named_update named rfl fun device => ?_
    split <;> rfl
  | same | granted _ _ | challenged _ _ | consumed _ _ _ | issued _ _ | sessionsRevoked | cleaned =>
    exact named

theorem Effect.issued_mono (effect : Effect crypto now s call t) :
    ∀ use ∈ s.issued, use ∈ t.issued := by
  cases effect with
  | issued inserted of => exact fun _ member => List.mem_append_left _ member
  | same | granted _ _ | challenged _ _ | consumed _ _ _ | paired _ _ _ _ _ _ | accepted _
  | revoked | sessionsRevoked | cleaned => exact fun _ member => member

theorem Effect.calls (effect : Effect crypto now s call t) : t.calls = s.calls := by
  cases effect <;> rfl

theorem held_of_session (member : session ∈ s.auth.sessions.rows)
    (stands : session.revokedAt = none) : s.held session.deviceId = true := by
  unfold GatewayState.held
  rw [Bool.or_eq_true]
  refine .inl (List.any_eq_true.mpr ⟨session, member, ?_⟩)
  simp [stands]

theorem held_of_call (member : call ∈ s.calls) (holds : call.holds = some deviceId) :
    s.held deviceId = true := by
  unfold GatewayState.held
  rw [Bool.or_eq_true]
  refine .inr (List.any_eq_true.mpr ⟨call, member, ?_⟩)
  simp [holds]

theorem Effect.sessions (effect : Effect crypto now s call t)
    (member : session ∈ t.auth.sessions.rows) (stands : session.revokedAt = none) :
    session ∈ s.auth.sessions.rows ∨ ∃ device seen ttlSeconds,
      call = .issueSession device seen ttlSeconds ∧ session.deviceId = device.deviceId ∧
        { token := session.token, deviceId := session.deviceId, revocations := seen } ∈ t.issued := by
  cases effect with
  | issued inserted of =>
    rename_i device seen ttlSeconds new sessions
    have member : session ∈ sessions.rows := member
    rw [Table.insert_rows inserted] at member
    rcases List.mem_concat.mp member with old | last
    · exact .inl old
    · rw [last]
      exact .inr ⟨device, seen, ttlSeconds, rfl, of, List.mem_concat_self⟩
  | sessionsRevoked =>
    have member : session ∈ s.auth.sessions.rows.map _ := member
    obtain ⟨old, stood, rfl⟩ := List.mem_map.mp member
    split at stands
    · cases stands
    · next other =>
        rw [if_neg other]
        exact .inl stood
  | cleaned => exact .inl (Table.mem_delete member)
  | same | granted _ _ | challenged _ _ | consumed _ _ _ | paired _ _ _ _ _ _ | accepted _
  | revoked => exact .inl member

theorem Effect.authenticated (effect : Effect crypto now s call t) (called : CallSound s call)
    (before : ∀ use ∈ s.authenticated, use ∈ s.issued) :
    ∀ use ∈ t.authenticated, use ∈ t.issued := by
  cases effect with
  | accepted active =>
    intro use member
    rcases List.mem_concat.mp member with old | new
    · exact before use old
    · obtain ⟨of, issue, issued, token, device_of, fresh⟩ := called
      have counts := fresh.current (of ▸ active)
      rw [of] at device_of counts
      have same : use = issue := by
        rw [new, ← counts, ← token, ← device_of]
      rw [same]
      exact issued
  | issued inserted of => exact fun use member => List.mem_append_left _ (before use member)
  | same | granted _ _ | challenged _ _ | consumed _ _ _ | paired _ _ _ _ _ _ | revoked
  | sessionsRevoked | cleaned => exact before

theorem SessionsSound.effect (sound : SessionsSound s) (called : CallSound s call)
    (listed : ∀ deviceId, call.holds = some deviceId → s.held deviceId = true)
    (effect : Effect crypto now s call t) (clean : s.CleanCall crypto now call) :
    SessionsSound t where
  named := effect.named sound.named
  sessions := by
    intro session member stands
    rcases effect.sessions member stands with old | ⟨device, seen, ttlSeconds, rfl, of, issued⟩
    · exact (sound.sessions session old stands).steady
        (effect.steady clean (held_of_session old stands)) effect.issued_mono
    · have fresh : Fresh t device.deviceId seen := Fresh.steady called
        (effect.steady clean (listed _ rfl))
      rw [← of] at fresh
      exact ⟨_, issued, rfl, rfl, fresh⟩
  calls := by
    intro other member
    rw [effect.calls] at member
    exact (sound.calls other member).steady
      (fun _ holds => effect.steady clean (held_of_call member holds)) effect.issued_mono
  authenticated := effect.authenticated called sound.authenticated

theorem perform_next {drawnId drawnSecret : String} (sound : SessionsSound s)
    (called : CallSound s call)
    (steady : ∀ deviceId, call.holds = some deviceId →
      Steady s (s.perform crypto now drawnId drawnSecret call).1 deviceId)
    (issued : ∀ use ∈ s.issued, use ∈ (s.perform crypto now drawnId drawnSecret call).1.issued) :
    CallSound (s.perform crypto now drawnId drawnSecret call).1
      (s.perform crypto now drawnId drawnSecret call).2 := by
  have named : ∀ deviceId device, s.identity.devices.lookup (strip deviceId) = some device →
      s.Knows deviceId → deviceId = device.deviceId := by
    rintro deviceId device found ⟨known, stored⟩
    have normal := sound.named known (Table.lookup_mem stored)
    rw [Table.lookup_key stored] at normal
    exact normal.symm.trans (Table.lookup_key found).symm
  have kept := called.steady steady issued
  cases call with
  | consumeAuthenticate device seen challengeId nonce ttlSeconds =>
    simp only [GatewayState.perform] at kept ⊢
    split
    · trivial
    · next challenge auth consumed =>
        rw [consumed] at kept
        exact kept
  | checkDevice session =>
    have called : Backed s session := called
    obtain ⟨use, member, token, of, fresh⟩ := called
    simp only [GatewayState.perform]
    split
    · trivial
    · next device active =>
        exact ⟨named _ _ (activeDevice_ok active).1 fresh.known, use, member, token, of, fresh⟩
  | readSeen session deviceId =>
    have called : session.deviceId = deviceId ∧ Backed s session := called
    obtain ⟨same, use, member, token, of, fresh⟩ := called
    simp only [GatewayState.perform]
    split
    · trivial
    · next device active =>
        have one := named _ _ (activeDeviceById_ok active).1 (same ▸ fresh.known)
        exact ⟨same.trans one, use, member, token, of, fresh⟩
  | issueChallenge deviceId | consumePair request | register request
  | issueSession device seen ttlSeconds | writeSeen session device | revokeSessions deviceId =>
    simp only [GatewayState.perform]
    split <;> trivial
  | readPaired principalId deviceId | ended => trivial
  | writeRevoked device service =>
    cases service <;> trivial

theorem SessionsSound.replace (sound : SessionsSound s) {calls : List GatewayCall}
    (called : ∀ call ∈ calls, CallSound s call) : SessionsSound { s with calls } := by
  have steady : ∀ deviceId, Steady s { s with calls } deviceId := fun _ => .of_same rfl rfl
  have issued : ∀ use ∈ s.issued, use ∈ ({ s with calls } : GatewayState).issued :=
    fun _ member => member
  constructor
  · exact sound.named
  · exact fun session member stands =>
      (sound.sessions session member stands).steady (steady _) issued
  · exact fun call member => (called call member).steady (fun _ _ => steady _) issued
  · exact sound.authenticated

theorem SessionsSound.start (sound : SessionsSound s) (called : CallSound s call) :
    SessionsSound (s.start call) := by
  refine sound.replace fun other member => ?_
  rcases List.mem_concat.mp member with old | new
  · exact sound.calls other old
  · rw [new]
    exact called

theorem SessionsSound.direct (sound : SessionsSound s) (effect : Effect crypto now s .ended t) :
    SessionsSound t := by
  have called : CallSound s .ended := trivial
  refine sound.effect called (fun deviceId holds => ?_) effect trivial
  cases holds

theorem VouchersSound.of_same (sound : VouchersSound crypto s)
    (identity : t.identity = s.identity) (auth : t.auth = s.auth)
    (consumed : t.consumed = s.consumed) (challenged : t.challenged = s.challenged)
    (used : t.used = s.used) (granted : t.granted = s.granted) : VouchersSound crypto t := by
  constructor
  · rw [auth, consumed, challenged]
    exact sound.challenges
  · rw [identity, used, granted]
    exact sound.grants

structure GatewaySound (crypto : Crypto) (s : GatewayState) : Prop where
  vouchers : VouchersSound crypto s
  sessions : SessionsSound s

theorem GatewaySound.start (sound : GatewaySound crypto s) (called : CallSound s call) :
    GatewaySound crypto (s.start call) :=
  ⟨sound.vouchers.of_same rfl rfl rfl rfl rfl rfl, sound.sessions.start called⟩

theorem GatewaySound.direct (sound : GatewaySound crypto s)
    (effect : Effect crypto now s .ended t) : GatewaySound crypto t :=
  ⟨sound.vouchers.effect effect, sound.sessions.direct effect⟩

theorem GatewaySound.advance (sound : GatewaySound crypto s) {i : Nat}
    {drawnId drawnSecret : String} (listed : s.calls[i]? = some call)
    (clean : s.CleanCall crypto now call) :
    GatewaySound crypto { (s.perform crypto now drawnId drawnSecret call).1 with
      calls := s.calls.set i (s.perform crypto now drawnId drawnSecret call).2 } := by
  have effect := perform_effect crypto s now drawnId drawnSecret call
  have member : call ∈ s.calls := List.mem_of_getElem? listed
  have called := sound.sessions.calls call member
  have after := sound.sessions.effect called (fun _ => held_of_call member) effect clean
  have next := perform_next sound.sessions called
    (fun _ holds => effect.steady clean (held_of_call member holds)) effect.issued_mono
  refine ⟨(sound.vouchers.effect effect).of_same rfl rfl rfl rfl rfl rfl, ?_⟩
  refine after.replace fun other among => ?_
  rcases List.mem_or_eq_of_mem_set among with old | new
  · rw [← effect.calls] at old
    exact after.calls other old
  · rw [new]
    exact next

theorem fresh_of_active (active : activeDeviceById s.identity deviceId = .ok device) :
    Fresh s device.deviceId (s.revocationsOf device.deviceId) := by
  have found := (activeDeviceById_ok active).1
  refine ⟨⟨device, ?_⟩, fun _ => rfl⟩
  rw [Table.lookup_key found]
  exact found

theorem gateway_step_sound {a : GatewayAct} (sound : GatewaySound crypto s)
    (clean : s.Clean crypto a) (h : s.step crypto a = some t) : GatewaySound crypto t := by
  cases a with
  | createGrant now principalId ttlSeconds grantId secret =>
    simp only [GatewayState.step] at h
    split at h <;> cases h
    next grant identity created =>
      obtain ⟨row, grants, inserted, rfl, tag, -⟩ := createPairingGrant_ok created
      exact @GatewaySound.direct crypto now s _ sound (.granted inserted tag)
  | beginPairing now grantId challengeId nonce =>
    simp only [GatewayState.step] at h
    split at h <;> cases h
    next challenge auth issued =>
      obtain ⟨row, challenges, inserted, rfl, tag, -⟩ := issueChallenge_ok issued
      exact @GatewaySound.direct crypto now s _ sound (.challenged inserted tag)
  | completePairing request signature =>
    simp only [GatewayState.step] at h
    obtain ⟨proved, -, rfl⟩ := Option.map_eq_some_iff.mp h
    exact sound.start trivial
  | beginAuthentication deviceId =>
    simp only [GatewayState.step] at h
    split at h <;> cases h
    exact sound.start trivial
  | completeAuthentication deviceId challengeId nonce signature ttlSeconds =>
    simp only [GatewayState.step] at h
    split at h
    · cases h
    · next device active =>
        split at h <;> cases h
        exact sound.start (fresh_of_active active)
  | authenticateSession now token =>
    simp only [GatewayState.step] at h
    split at h <;> cases h
    next session read =>
      obtain ⟨member, stands⟩ := readSession_ok read
      exact sound.start (sound.sessions.sessions session member stands)
  | revokeDevice principalId deviceId service =>
    simp only [GatewayState.step] at h
    split at h
    · cases h
    · split at h <;> cases h
      · exact sound.start trivial
      · cases service <;> exact sound.start trivial
  | revokeSession now sessionId =>
    simp only [GatewayState.step] at h
    split at h <;> cases h
    next auth revoked =>
      unfold revokeSession at revoked
      obtain ⟨_, -, revoked⟩ := Transaction.of_bind revoked
      cases revoked
      exact @GatewaySound.direct crypto now s _ sound .sessionsRevoked
  | cleanupExpired now retentionSeconds =>
    simp only [GatewayState.step] at h
    split at h <;> cases h
    next auth cleaned =>
      unfold cleanupExpired at cleaned
      obtain ⟨_, -, cleaned⟩ := Transaction.of_bind cleaned
      cases cleaned
      exact @GatewaySound.direct crypto now s _ sound .cleaned
  | advance i now drawnId drawnSecret =>
    simp only [GatewayState.step] at h
    split at h <;> cases h
    next call listed => exact sound.advance listed (clean call listed)
  | crash =>
    cases h
    refine ⟨sound.vouchers.of_same rfl rfl rfl rfl rfl rfl, ?_⟩
    exact sound.sessions.replace fun _ member => absurd member List.not_mem_nil

theorem GatewaySound.revocationFinal (sound : GatewaySound crypto s) : RevocationFinal crypto s := by
  have challenges := sound.vouchers.challenges.subperm
  have grants := sound.vouchers.grants.subperm
  refine ⟨sound.sessions.authenticated, ?_, challenges, grants, ?_, ?_, ?_⟩
  · intro different old issued use accepted same
    have one : old = use :=
      List.inj_on_of_nodup_map different issued (sound.sessions.authenticated use accepted) same
    rw [one]
  · intro injective
    exact ⟨(List.map_subperm_map_iff (digest_challenge_injective injective)).mp challenges,
      (List.map_subperm_map_iff (digest_grant_injective injective)).mp grants⟩
  · intro different
    have once := Vouchers.once (f := GatewayChallenge.challengeId) challenges
      (by rw [List.map_map]; exact different)
    rw [List.map_map] at once
    exact once
  · intro different
    have once := Vouchers.once (f := PairingGrant.grantId) grants
      (by rw [List.map_map]; exact different)
    rw [List.map_map] at once
    exact once

/-- In a run that pairs a revoked device again only when nothing of it stands or is in flight,
revocations are final. -/
theorem revocation_final (crypto : Crypto) (acts : List GatewayAct)
    (clean : ∀ taken ∈ accepted (GatewayState.step crypto) {} acts, taken.1.Clean crypto taken.2) :
    ∀ s ∈ trace (GatewayState.step crypto) {} acts, RevocationFinal crypto s := by
  intro s member
  have nothing : ∀ {α : Type} {P : α → Prop}, ∀ x ∈ ([] : List α), P x :=
    fun _ member => absurd member List.not_mem_nil
  have start : GatewaySound crypto {} :=
    ⟨⟨Vouchers.balanced_empty, Vouchers.balanced_empty⟩, ⟨nothing, nothing, nothing, nothing⟩⟩
  have kept := fun s a t (sound : GatewaySound crypto s) (clean : s.Clean crypto a)
    (h : s.step crypto a = some t) => gateway_step_sound sound clean h
  exact (Transition.trace_safe_of_clean kept start clean s member).revocationFinal

section Sample

/-- Every signature is good. -/
def sampleCrypto : Crypto where
  sha256 := id
  verify _ _ _ := true

def sampleSecret : String := String.ofList (List.replicate 32 's')

def sampleSignature : List Char := List.replicate 86 'A'

def sampleKey : String := String.ofList (List.replicate 43 'A')

/-- A phone is paired; call `i` of the service. -/
def samplePairing (i : Nat) (now : Time) (grantId challengeId : String) : List GatewayAct :=
  [.createGrant now "p" 300 grantId sampleSecret,
    .beginPairing now grantId challengeId sampleSecret, .completePairing
      { grantId, grantSecret := sampleSecret, challengeId,
        nonce := sampleSecret, displayName := "phone", publicKey := sampleKey } sampleSignature,
    .advance i now "" "", .advance i now "d" "", .advance i now "" ""]

/-- The phone asks for a session, up to the read of the device; calls `i` and `i + 1`. -/
def sampleLogin (i : Nat) (now : Time) (challengeId : String) : List GatewayAct :=
  [.beginAuthentication "d", .advance i now challengeId sampleSecret,
    .completeAuthentication "d" challengeId sampleSecret sampleSignature 900,
    .advance (i + 1) now "" ""]

def sampleRevocation (i : Nat) (now : Time) : List GatewayAct :=
  [.revokeDevice "p" "d" true, .advance i now "" "", .advance i now "" ""]

def sampleToken (sessionId : String) : String := "v1." ++ sessionId ++ "." ++ sampleSecret

def sampleUse (i : Nat) (now : Time) (sessionId : String) : List GatewayAct :=
  [.authenticateSession now (sampleToken sessionId), .advance i now "" "", .advance i now "" "",
    .advance i now "" ""]

/-- A session is issued, its device is revoked and paired again, and the session is refused. -/
def sampleFinal : List GatewayAct :=
  samplePairing 0 0 "g1" "c1" ++ sampleLogin 1 1 "c2" ++
    .advance 2 1 "one" sampleSecret :: sampleRevocation 3 2 ++ samplePairing 4 3 "g2" "c3" ++
    sampleUse 5 4 "one"

/-- The session is issued when its device has been revoked, and the device is paired again. -/
def sampleStale : List GatewayAct :=
  samplePairing 0 0 "g1" "c1" ++ sampleLogin 1 1 "c2" ++ sampleRevocation 3 2 ++
    .advance 2 3 "one" sampleSecret :: samplePairing 4 4 "g2" "c3" ++ sampleUse 5 5 "one"

theorem revocation_final_sample : Transition.Along (RevocationFinal sampleCrypto)
    (trace (GatewayState.step sampleCrypto) {} sampleFinal) :=
  revocation_final sampleCrypto sampleFinal (by decide +kernel)

/-- A token that was made from a device as it was before its revocation is good again when the
device is paired again. -/
theorem stale_token_accepted :
    let s := final (GatewayState.step sampleCrypto) {} sampleStale
    s.issued.map TokenUse.revocations = [0] ∧ s.authenticated.map TokenUse.revocations = [1] ∧
      ¬RevocationFinal sampleCrypto s := by
  have run : (fun s : GatewayState => (s.issued.map TokenUse.revocations,
      s.authenticated.map TokenUse.revocations))
        (final (GatewayState.step sampleCrypto) {} sampleStale) = ([0], [1]) := by
    decide +kernel
  generalize final (GatewayState.step sampleCrypto) {} sampleStale = s at run
  obtain ⟨issued, authenticated⟩ := Prod.mk.inj run
  refine ⟨issued, authenticated, fun claimed => ?_⟩
  have accepted : 1 ∈ s.authenticated.map TokenUse.revocations := by
    rw [authenticated]
    exact List.mem_singleton_self 1
  obtain ⟨use, member, seen⟩ := List.mem_map.mp accepted
  have stood := List.mem_map_of_mem (f := TokenUse.revocations) (claimed.current use member)
  rw [issued, seen] at stood
  exact absurd stood (by decide)

end Sample

end Knoa.Gateway
