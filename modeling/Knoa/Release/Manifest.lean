import Knoa.Library.FileTree

/-!
# Release manifests

The manifest of a release bundle as both installers read it, the keys that may sign one, and
the paths that it names.
-/
namespace Knoa.Release

abbrev Bytes := List UInt8

inductive ReleaseKind
  | product
  | runtimeExtension
  deriving DecidableEq, Repr

inductive ReleaseRole
  | hub
  | node
  | all
  deriving DecidableEq, Repr

inductive TargetOs
  | windows
  | linux
  deriving DecidableEq, Repr

inductive TargetArch
  | x86_64
  | aarch64
  deriving DecidableEq, Repr

structure TargetPlatform where
  os : TargetOs
  arch : TargetArch
  deriving DecidableEq, Repr

structure ProtocolCompatibility where
  releaseManifest : Nat := 1
  agentRuntimeSpiMin : Nat := 1
  agentRuntimeSpiMax : Nat := 1
  deriving DecidableEq, Repr

inductive ArtifactKind
  | pythonRuntime
  | application
  | launcher
  | consoleAssets
  | runtimeExtensionWorker
  | metadata
  deriving DecidableEq, Repr

structure ReleaseArtifact where
  path : String
  kind : ArtifactKind
  size : Nat
  sha256 : String
  executable : Bool := false
  deriving DecidableEq, Repr

/-- The ceiling is a set, held as the list that its iteration gives. -/
structure RuntimeExtensionDescriptor where
  extensionId : String
  runtimeKind : String
  displayName : String
  publisher : String
  entrypoint : List String
  nativeCapabilityCeiling : List String := []
  deriving DecidableEq, Repr

/-- `createdAt` is the text of the time, as it is dumped. -/
structure ReleaseManifest where
  schemaVersion : Nat := 1
  releaseId : String
  version : String
  releaseKind : ReleaseKind
  role : Option ReleaseRole := none
  target : TargetPlatform
  createdAt : String
  protocols : ProtocolCompatibility := {}
  artifacts : List ReleaseArtifact
  extension : Option RuntimeExtensionDescriptor := none
  deriving DecidableEq, Repr

structure ReleaseSignature where
  algorithm : String := "ed25519"
  keyId : String
  value : String
  deriving DecidableEq, Repr

structure SignedReleaseManifest where
  manifest : ReleaseManifest
  signature : ReleaseSignature
  deriving DecidableEq, Repr

def releaseManifestFile : String := "release-manifest.json"

/-- A name that stands for an entry of a directory. -/
def named (text : String) : Prop := text ≠ "" ∧ text ≠ "." ∧ text ≠ ".." ∧ '/' ∉ text.toList

instance (text : String) : Decidable (named text) := by
  unfold named
  infer_instance

def Name := { text : String // named text }

instance : DecidableEq Name := inferInstanceAs (DecidableEq { text : String // named text })

def toName (text : String) : Option Name := if h : named text then some ⟨text, h⟩ else none

def manifestName : Name := ⟨releaseManifestFile, by decide⟩

abbrev Place := List Name

abbrev Files := FileTree.Tree Name Bytes

def parts (path : String) : List String := (path.toList.splitOn '/').map String.ofList

def absolute (path : String) : Bool := path.toList.head? == some '/'

/-- `Path::join`, with `.` and `..` resolved. -/
def joined (base : Place) (path : String) : Place :=
  (parts path).foldl
    (fun place part =>
      if part = ".." then place.dropLast
      else match toName part with
        | some name => place ++ [name]
        | none => place)
    (if absolute path then [] else base)

/-- The names of a place with `/` between them. -/
def portable (place : Place) : String :=
  String.ofList (List.intercalate ['/'] (place.map (fun name => name.val.toList)))

/-- `safe_relative_path`. A `.` is a component of its own only where it comes first. -/
def safeRelativePath (path : String) : Option Place :=
  if path = "" ∨ '\\' ∈ path.toList ∨ ':' ∈ path.toList ∨ absolute path = true then none
  else if (parts path).head? = some "." ∨ ".." ∈ parts path then none
  else some ((parts path).filterMap toName)

@[simp] theorem toName_val (name : Name) : toName name.val = some name := dif_pos name.property

theorem parts_portable {place : Place} (some_ : place ≠ []) :
    parts (portable place) = place.map (fun name => name.val) := by
  unfold parts portable
  rw [String.toList_ofList, List.splitOn_intercalate]
  · rw [List.map_map]
    apply List.map_congr_left
    intro name _
    exact String.ofList_toList
  · intro letters member
    obtain ⟨name, -, rfl⟩ := List.mem_map.mp member
    exact name.property.2.2.2
  · simpa using some_

theorem safeRelativePath_portable {place read : Place} (some_ : place ≠ [])
    (h : safeRelativePath (portable place) = some read) : read = place := by
  unfold safeRelativePath at h
  split at h
  · cases h
  · split at h <;> cases h
    rw [parts_portable some_, List.filterMap_map]
    have same : (toName ∘ fun name : Name => name.val) = some := funext toName_val
    rw [same, List.filterMap_some]

theorem portable_injective {a b : Place} (some_ : a ≠ []) (other : b ≠ [])
    (h : portable a = portable b) : a = b := by
  have same := parts_portable some_
  rw [h, parts_portable other] at same
  exact (List.map_injective_iff.mpr Subtype.val_injective same).symm

end Knoa.Release
