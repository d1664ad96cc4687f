import Knoa.Library.Interrupt
import Knoa.Release.Manifest

/-!
# The native release store

`verify_bundle` and the `ReleaseStore` of the native installer.
-/
namespace Knoa.Release
open Interrupt (Prog Fault Outcome)

inductive UpdateError
  | io
  | json
  | invalidBundle (text : String)
  | untrustedKey
  | unauthorizedKey
  | invalidSignature
  deriving DecidableEq, Repr

/-- The JSON, digest and signature libraries. `readManifest` is `None` where the bytes are not
the JSON of a signed manifest; `canonicalManifest` is `canonical_json` of its `manifest`. -/
structure ReleaseEnv where
  readManifest : Bytes → Option SignedReleaseManifest
  canonicalManifest : Bytes → Bytes
  verifyingKey : String → Except String Bytes
  signature : String → Option Bytes
  verifies : Bytes → Bytes → Bytes → Bool
  sha256 : Bytes → String

structure ReleaseTrustKey where
  keyId : String
  publicKey : String
  allowedReleaseKinds : List String
  allowedExtensionIds : List String := []
  deriving DecidableEq

structure InstallConstraints where
  releaseKind : ReleaseKind
  role : Option ReleaseRole
  target : TargetPlatform
  agentRuntimeSpiVersion : Nat
  deriving DecidableEq

def ReleaseKind.text : ReleaseKind → String
  | .product => "product"
  | .runtimeExtension => "runtime_extension"

def require (c : Prop) [Decidable c] (e : UpdateError) : Except UpdateError Unit :=
  if c then .ok () else .error e

def authorizedKey (env : ReleaseEnv) (keys : List ReleaseTrustKey) (keyId : String)
    (manifest : ReleaseManifest) : Except UpdateError Bytes :=
  match keys.find? (fun key => key.keyId == keyId) with
  | none => .error .untrustedKey
  | some key => do
    require (manifest.releaseKind.text ∈ key.allowedReleaseKinds) .unauthorizedKey
    let extensionId := (manifest.extension.map (fun e => e.extensionId)).getD ""
    require (manifest.releaseKind = .runtimeExtension →
      "*" ∈ key.allowedExtensionIds ∨ extensionId ∈ key.allowedExtensionIds) .unauthorizedKey
    (env.verifyingKey key.publicKey).mapError .invalidBundle

def validateManifest (manifest : ReleaseManifest) (constraints : InstallConstraints) :
    Except UpdateError Unit := do
  require (manifest.schemaVersion = 1 ∧ manifest.protocols.releaseManifest = 1)
    (.invalidBundle "unsupported Release Manifest version")
  require (manifest.releaseKind = constraints.releaseKind ∧ manifest.role = constraints.role ∧
    manifest.target = constraints.target)
    (.invalidBundle "Release kind, role or target does not match installation")
  require (manifest.protocols.agentRuntimeSpiMin ≤ constraints.agentRuntimeSpiVersion ∧
    constraints.agentRuntimeSpiVersion ≤ manifest.protocols.agentRuntimeSpiMax)
    (.invalidBundle "Agent Runtime SPI is incompatible")

def checkArtifact (env : ReleaseEnv) (files : Files) (root : Place) (artifact : ReleaseArtifact) :
    Except UpdateError Unit :=
  match safeRelativePath artifact.path with
  | none => .error (.invalidBundle "unsafe artifact path")
  | some relative =>
    match files.node (root ++ relative) with
    | none => .error .io
    | some (.file content) =>
      require (content.length = artifact.size ∧ env.sha256 content = artifact.sha256)
        (.invalidBundle ("artifact digest mismatch: " ++ artifact.path))
    | some _ => .error (.invalidBundle "artifact is not a regular file")

def inventory (files : Files) (root : Place) : List String :=
  (((files.walk root).filter (fun place => (files.file (root ++ place)).isSome)).map
    portable).filter (fun path => path ≠ releaseManifestFile)

def checkInventory (env : ReleaseEnv) (files : Files) (root : Place)
    (artifacts : List ReleaseArtifact) : Except UpdateError Unit := do
  require (files.taken root = true) .io
  require ((artifacts.map (fun artifact => artifact.path)).Nodup)
    (.invalidBundle "duplicate artifact path")
  require (∀ place ∈ files.walk root, files.isLink (root ++ place) = false)
    (.invalidBundle "Release Bundle cannot contain symlinks")
  require ((∀ path ∈ inventory files root, path ∈ artifacts.map (fun artifact => artifact.path)) ∧
    ∀ artifact ∈ artifacts, artifact.path ∈ inventory files root)
    (.invalidBundle "Release Bundle inventory does not match manifest")
  artifacts.forM (checkArtifact env files root)

/-- What a verified bundle stands for: its manifest was signed by a key that the trust store has
for releases of its kind. -/
structure Genuine (env : ReleaseEnv) (keys : List ReleaseTrustKey)
    (constraints : InstallConstraints) (signed : SignedReleaseManifest) (bytes : Bytes) : Prop where
  read : env.readManifest bytes = some signed
  valid : validateManifest signed.manifest constraints = .ok ()
  signature : ∃ key raw, authorizedKey env keys signed.signature.keyId signed.manifest = .ok key ∧
    env.signature signed.signature.value = some raw ∧
    env.verifies key (env.canonicalManifest bytes) raw = true

structure VerifiedRelease (env : ReleaseEnv) where
  signed : SignedReleaseManifest
  manifestBytes : Bytes
  genuine : ∃ keys constraints, Genuine env keys constraints signed manifestBytes

def VerifiedRelease.manifest {env : ReleaseEnv} (release : VerifiedRelease env) : ReleaseManifest :=
  release.signed.manifest

def verifyManifest (env : ReleaseEnv) (keys : List ReleaseTrustKey)
    (constraints : InstallConstraints) (bytes : Bytes) : Except UpdateError (VerifiedRelease env) :=
  match read : env.readManifest bytes with
  | none => .error .json
  | some signed =>
    match valid : validateManifest signed.manifest constraints with
    | .error e => .error e
    | .ok () =>
      if signed.signature.algorithm ≠ "ed25519" then
        .error (.invalidBundle "unsupported Release signature algorithm")
      else
        match key : authorizedKey env keys signed.signature.keyId signed.manifest with
        | .error e => .error e
        | .ok public_ =>
          match raw : env.signature signed.signature.value with
          | none => .error .invalidSignature
          | some signature =>
            if verified : env.verifies public_ (env.canonicalManifest bytes) signature =
                true then
              .ok
                { signed, manifestBytes := bytes,
                  genuine := ⟨keys, constraints, read, valid, public_, signature, key, raw,
                    verified⟩ }
            else .error .invalidSignature

def verifyBundle (env : ReleaseEnv) (files : Files) (root : Place) (keys : List ReleaseTrustKey)
    (constraints : InstallConstraints) : Except UpdateError (VerifiedRelease env) :=
  match files.file (root ++ [manifestName]) with
  | none => .error .io
  | some bytes => do
    let release ← verifyManifest env keys constraints bytes
    checkInventory env files root release.manifest.artifacts
    return release

structure ReleaseState where
  schemaVersion : Nat := 1
  current : String := ""
  previous : String := ""
  failed : String := ""
  deriving DecidableEq, Repr

inductive StateFile
  | absent
  | unreadable
  | stored (state : ReleaseState)
  deriving DecidableEq

structure UpdateResult where
  releaseId : String
  previousReleaseId : String
  rolledBack : Bool
  deriving DecidableEq, Repr

structure World where
  files : Files
  state : StateFile := .absent

abbrev StoreProg := Prog World UpdateError

structure ReleaseStore where
  root : Place
  pid : Nat

def versionsName : Name := ⟨"versions", by decide⟩

namespace ReleaseStore

variable (env : ReleaseEnv) (store : ReleaseStore)

def versionsRoot : Place := store.root ++ [versionsName]

def destination (releaseId : String) : Place := joined store.versionsRoot releaseId

/-- An operation that only reads. -/
def look {α : Type} (f : World → Except UpdateError α) : StoreProg α :=
  Prog.act .io (fun w => (f w).map (fun a => (a, w)))

/-- An operation on the directories. -/
def change (f : Files → Except UpdateError Files) : StoreProg Unit :=
  Prog.act .io (fun w => (f w.files).map (fun files => ((), { w with files })))

def readFile (place : Place) : StoreProg Bytes :=
  look (fun w => match w.files.file place with
    | some content => .ok content
    | none => .error .io)

/-- `fs::create_dir_all`. -/
def createDirAll (place : Place) : StoreProg Unit :=
  change (fun files =>
    if ∀ before ∈ place.inits, files.taken before = true → files.isDir before = true then
      .ok (files.mkdirs place)
    else .error .io)

def createDir (place : Place) : StoreProg Unit :=
  change (fun files =>
    if files.isDir place.dropLast = true ∧ files.taken place = false then
      .ok (files.put place .dir)
    else .error .io)

def rename (source target : Place) : StoreProg Unit :=
  change (fun files =>
    if files.isDir source = true ∧ files.isDir target.dropLast = true ∧
        files.taken target = false ∧ ¬ source <+: target then
      .ok (files.move source target)
    else .error .io)

def removeDirAll (place : Place) : StoreProg Unit := change (fun files => .ok (files.remove place))

/-- One entry of `copy_bundle`. A copy that is cut off leaves an empty file. -/
def copyEntry (source target relative : Place) : StoreProg Unit := do
  let node ← look (fun w => .ok (w.files.node (source ++ relative)))
  match node with
  | some .dir => createDirAll (target ++ relative)
  | some (.file content) => do
    createDirAll (target ++ relative).dropLast
    change (fun files => .ok (files.put (target ++ relative) (.file [])))
    change (fun files => .ok (files.put (target ++ relative) (.file content)))
  | some .link => Prog.raise (.invalidBundle "Release Bundle cannot contain symlinks")
  | none => Prog.raise .io

def copyBundle (source target : Place) : StoreProg Unit := do
  let entries ← look (fun w => .ok (w.files.walk source))
  Prog.each (copyEntry source target) entries

/-- `apply_artifact_modes`: the contents stay as they are. -/
def applyArtifactModes (root : Place) (manifest : ReleaseManifest) : StoreProg Unit :=
  look (fun w =>
    if manifest.target.os = .linux then
      manifest.artifacts.forM (fun artifact =>
        match safeRelativePath artifact.path with
        | none => .error (.invalidBundle "unsafe artifact path")
        | some relative => require (w.files.taken (root ++ relative) = true) .io)
    else .ok ())

def stagingName (releaseId : String) (attempt : Nat) : String :=
  "." ++ releaseId ++ "." ++ toString store.pid ++ "." ++ toString attempt

def uniqueStagingPath (releaseId : String) : StoreProg Place :=
  look (fun w =>
    match ((List.range 1000).map
        (fun attempt => joined store.versionsRoot (store.stagingName releaseId attempt))).find?
        (fun place => w.files.taken place = false) with
    | some place => .ok place
    | none => .error (.invalidBundle "could not allocate Release staging directory"))

def readState : StoreProg ReleaseState :=
  look (fun w => match w.state with
    | .absent => .ok {}
    | .unreadable => .error .json
    | .stored state =>
      if state.schemaVersion = 1 then .ok state
      else .error (.invalidBundle "unsupported Release Store state"))

/-- The state file is replaced in one piece. -/
def writeState (state : ReleaseState) : StoreProg Unit :=
  Prog.sure (fun w => ((), { w with state := .stored state }))

def healthCheck (check : Place → Except UpdateError Unit) (candidate : Place) : StoreProg Unit :=
  look (fun _ => check candidate)

/-- The staging of a bundle that has no directory yet. A manifest that cannot be read back
leaves the staging directory behind. -/
def stage (bundleRoot : Place) (release : VerifiedRelease env) : StoreProg Unit := do
  let staging ← store.uniqueStagingPath release.manifest.releaseId
  createDir staging
  let clean := removeDirAll staging
  Prog.cleaning (copyBundle bundleRoot staging) clean
  let bytes ← readFile (staging ++ [manifestName])
  Prog.cleaning
    (look (fun _ => require (bytes = release.manifestBytes)
      (.invalidBundle "staged Release Manifest changed during copy"))) clean
  Prog.cleaning
    (look (fun w => checkInventory env w.files staging release.manifest.artifacts)) clean
  Prog.cleaning (applyArtifactModes staging release.manifest) clean
  Prog.cleaning (rename staging (store.destination release.manifest.releaseId)) clean

/-- The first part of `install`: the release is in its directory. -/
def place (bundleRoot : Place) (release : VerifiedRelease env) : StoreProg Unit := do
  createDirAll store.versionsRoot
  look (fun w => checkInventory env w.files bundleRoot release.manifest.artifacts)
  let bytes ← readFile (bundleRoot ++ [manifestName])
  look (fun _ => require (bytes = release.manifestBytes)
    (.invalidBundle "Release Manifest changed after verification"))
  let destination := store.destination release.manifest.releaseId
  let exists_ ← look (fun w => .ok (w.files.taken destination))
  if exists_ then do
    let existing ← readFile (destination ++ [manifestName])
    let incoming ← readFile (bundleRoot ++ [manifestName])
    look (fun _ => require (existing = incoming ∧ incoming = release.manifestBytes)
      (.invalidBundle "Release ID already exists with different content"))
  else store.stage env bundleRoot release

/-- The second part of `install`: the pointers. -/
def activate (releaseId : String) (check : Place → Except UpdateError Unit) :
    StoreProg UpdateResult := do
  let previousState ← readState
  if previousState.current = releaseId then do
    healthCheck check (store.destination releaseId)
    return { releaseId, previousReleaseId := previousState.previous, rolledBack := false }
  else do
    writeState { current := releaseId, previous := previousState.current }
    Prog.cleaning (healthCheck check (store.destination releaseId))
      (writeState
        { current := previousState.current, previous := previousState.previous,
          failed := releaseId })
    return { releaseId, previousReleaseId := previousState.current, rolledBack := false }

def install (bundleRoot : Place) (release : VerifiedRelease env)
    (check : Place → Except UpdateError Unit) : StoreProg UpdateResult := do
  store.place env bundleRoot release
  store.activate release.manifest.releaseId check

def rollback (check : Place → Except UpdateError Unit) : StoreProg UpdateResult := do
  let state ← readState
  look (fun _ => require (state.current ≠ "" ∧ state.previous ≠ "")
    (.invalidBundle "no previous Release is available"))
  let candidate := store.destination state.previous
  look (fun w => require (w.files.isDir candidate = true)
    (.invalidBundle "previous Release directory is missing"))
  healthCheck check candidate
  writeState { current := state.previous, previous := state.current }
  return { releaseId := state.previous, previousReleaseId := state.current, rolledBack := true }

def rejectCurrent (check : Place → Except UpdateError Unit) : StoreProg UpdateResult := do
  let state ← readState
  look (fun _ => require (state.current ≠ "")
    (.invalidBundle "no active Release is available to reject"))
  if state.previous = "" then do
    writeState { failed := state.current }
    return { releaseId := "", previousReleaseId := state.current, rolledBack := true }
  else do
    let candidate := store.destination state.previous
    look (fun w => require (w.files.isDir candidate = true)
      (.invalidBundle "previous Release directory is missing"))
    healthCheck check candidate
    writeState { current := state.previous, previous := state.current, failed := state.current }
    return { releaseId := state.previous, previousReleaseId := state.current, rolledBack := true }

end ReleaseStore

end Knoa.Release
