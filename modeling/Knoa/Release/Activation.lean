import Knoa.Release.Pointers

/-!
# What is activated

The directory of a release that `install` makes current, against the
manifest that was signed.
-/
namespace Knoa.Release
open Interrupt
open Transition (accepted trace)

/-- The files under `root` are the artifacts, each with its size and its digest. -/
structure Inventoried (env : ReleaseEnv) (files : Files) (root : Place)
    (artifacts : List ReleaseArtifact) : Prop where
  declared : ∀ place content, place ≠ [] → place ≠ [manifestName] →
    files.file (root ++ place) = some content →
      ∃ artifact ∈ artifacts, artifact.path = portable place
  present : ∀ artifact ∈ artifacts, ∃ place content, place ≠ [] ∧ artifact.path = portable place ∧
    files.file (root ++ place) = some content ∧ content.length = artifact.size ∧
      env.sha256 content = artifact.sha256
  plain : ∀ place, place ≠ [] → files.isLink (root ++ place) = false

/-- The directory has the signed manifest, and what it says. -/
structure Carries {env : ReleaseEnv} (files : Files) (root : Place)
    (release : VerifiedRelease env) : Prop where
  manifest : files.file (root ++ [manifestName]) = some release.manifestBytes
  inventoried : Inventoried env files root release.manifest.artifacts

def ReleaseStore.Inside (store : ReleaseStore) (releaseId : String) : Prop :=
  ∃ name, store.destination releaseId = store.versionsRoot ++ [name]

def StateFile.current (state : StateFile) : Option String := state.pointers.map Prod.fst

def Activates (s t : World) (releaseId : String) : Prop :=
  s.state.current ≠ some releaseId ∧ t.state.current = some releaseId

section Inventory

variable {env : ReleaseEnv} {files files' : Files} {root root' : Place}
  {artifacts : List ReleaseArtifact}

theorem portable_manifest : portable [manifestName] = releaseManifestFile := by decide

theorem mem_inventory {path : String} : path ∈ inventory files root ↔
    ∃ place, place ≠ [] ∧ place ≠ [manifestName] ∧
      (files.file (root ++ place)).isSome = true ∧ path = portable place := by
  simp only [inventory, List.mem_filter, List.mem_map, FileTree.Tree.mem_walk, ne_eq,
    decide_not, Bool.not_eq_true', decide_eq_false_iff_not]
  constructor
  · rintro ⟨⟨place, ⟨⟨some_, -⟩, file⟩, rfl⟩, other⟩
    refine ⟨place, some_, ?_, file, rfl⟩
    rintro rfl
    exact other portable_manifest
  · rintro ⟨place, some_, other, file, rfl⟩
    obtain ⟨content, is⟩ := Option.isSome_iff_exists.mp file
    refine ⟨⟨place, ⟨⟨some_, FileTree.Tree.taken_of_file is⟩, file⟩, rfl⟩, ?_⟩
    rw [← portable_manifest]
    intro same
    exact other (portable_injective some_ (List.cons_ne_nil _ _) same)

theorem bind_ok_iff {α β : Type} {x : Except UpdateError α} {f : α → Except UpdateError β} {b : β} :
    (x >>= f) = .ok b ↔ ∃ a, x = .ok a ∧ f a = .ok b := by
  cases x with
  | error e => exact ⟨nofun, fun ⟨_, h, _⟩ => nomatch h⟩
  | ok a => exact ⟨fun h => ⟨a, rfl, h⟩, fun ⟨_, same, h⟩ => by cases same; exact h⟩

theorem forM_ok {α : Type} {f : α → Except UpdateError Unit} {xs : List α}
    (h : xs.forM f = .ok ()) : ∀ x ∈ xs, f x = .ok () := by
  induction xs with
  | nil => exact nofun
  | cons first rest ih =>
    obtain ⟨_, one, others⟩ := bind_ok_iff.mp h
    intro x member
    rcases List.mem_cons.mp member with rfl | later
    · exact one
    · exact ih others x later

theorem checkArtifact_ok {artifact : ReleaseArtifact} {place : Place} (some_ : place ≠ [])
    (path : artifact.path = portable place) (h : checkArtifact env files root artifact = .ok ()) :
    ∃ content, files.file (root ++ place) = some content ∧ content.length = artifact.size ∧
      env.sha256 content = artifact.sha256 := by
  unfold checkArtifact at h
  rw [path] at h
  split at h
  · cases h
  · rename_i read safe
    rw [safeRelativePath_portable some_ safe] at h
    split at h
    · cases h
    · rename_i content stands
      refine ⟨content, ?_, require_ok_iff.mp h⟩
      rw [FileTree.Tree.file, stands]
    · cases h

theorem checkInventory_ok (h : checkInventory env files root artifacts = .ok ()) :
    Inventoried env files root artifacts := by
  obtain ⟨_, -, h⟩ := bind_ok_iff.mp h
  obtain ⟨_, -, h⟩ := bind_ok_iff.mp h
  obtain ⟨_, plain, h⟩ := bind_ok_iff.mp h
  obtain ⟨_, same, each⟩ := bind_ok_iff.mp h
  have plain := require_ok_iff.mp plain
  have same := require_ok_iff.mp same
  refine ⟨?_, ?_, ?_⟩
  · intro place content some_ other file
    have listed : portable place ∈ inventory files root :=
      mem_inventory.mpr ⟨place, some_, other, by rw [file]; rfl, rfl⟩
    obtain ⟨artifact, member, path⟩ := List.mem_map.mp (same.1 _ listed)
    exact ⟨artifact, member, path⟩
  · intro artifact member
    obtain ⟨place, some_, -, -, path⟩ := mem_inventory.mp (same.2 artifact member)
    obtain ⟨content, is⟩ := checkArtifact_ok some_ path (forM_ok each artifact member)
    exact ⟨place, content, some_, path, is⟩
  · intro place some_
    by_cases taken : files.taken (root ++ place) = true
    · exact plain place (FileTree.Tree.mem_walk.mpr ⟨some_, taken⟩)
    · have absent : files.node (root ++ place) = none := by
        simpa [FileTree.Tree.taken] using taken
      rw [FileTree.Tree.isLink, absent]

theorem Carries.congr {release : VerifiedRelease env}
    (file : ∀ place, files'.file (root' ++ place) = files.file (root ++ place))
    (link : ∀ place, files'.isLink (root' ++ place) = files.isLink (root ++ place))
    (h : Carries files root release) : Carries files' root' release := by
  refine ⟨(file _).trans h.manifest, ?_, ?_, ?_⟩
  · intro place content some_ other is
    exact h.inventoried.declared place content some_ other ((file place).symm.trans is)
  · intro artifact member
    obtain ⟨place, content, some_, path, is, size, digest⟩ := h.inventoried.present artifact member
    exact ⟨place, content, some_, path, (file place).trans is, size, digest⟩
  · intro place some_
    rw [link]
    exact h.inventoried.plain place some_

theorem carries_mkdirs {release : VerifiedRelease env} (place : Place) :
    Carries (files.mkdirs place) root release ↔ Carries files root release :=
  ⟨Carries.congr (fun _ => (FileTree.Tree.file_mkdirs _ _).symm)
    (fun _ => (FileTree.Tree.isLink_mkdirs _ _).symm),
   Carries.congr (fun _ => FileTree.Tree.file_mkdirs _ _)
    (fun _ => FileTree.Tree.isLink_mkdirs _ _)⟩

end Inventory

section Install

variable {env : ReleaseEnv} {store : ReleaseStore} {s : World} {bundleRoot : Place}
  {release : VerifiedRelease env}

/-- What `install` makes of a disk before it sets the pointer: the release is staged, or was
there. -/
def Placed (store : ReleaseStore) (release : VerifiedRelease env) (before after : Files) : Prop :=
  if before.taken (store.destination release.manifest.releaseId) = true then after = before
  else Carries after (store.destination release.manifest.releaseId) release

def SameFiles (s t : World) : Prop := t.files = s.files

theorem sameFiles_trans (s t u : World) (first : SameFiles s t) (second : SameFiles t u) :
    SameFiles s u := second.trans first

theorem sameFiles_look {α : Type} (f : World → Except UpdateError α) :
    Keeps SameFiles (ReleaseStore.look f) :=
  fun _ => wp_look (fun _ _ => rfl) (fun _ => rfl) rfl

theorem wp_onReturn {α β : Type} {p : StoreProg β} {f : β → StoreProg α}
    {R : β → World → Prop} {goal : α → World → Prop}
    (first : Wp p (fun o t => ∀ b, o = .returned b → R b t) s)
    (next : ∀ b t, R b t → Wp (f b) (fun o u => ∀ a, o = .returned a → goal a u) t) :
    Wp (p >>= f) (fun o u => ∀ a, o = .returned a → goal a u) s := by
  apply wp_bind
  refine wp_mono first ?_
  intro o t returned
  cases o with
  | returned b => exact next b t (returned b rfl)
  | raised e | killed => exact nofun

theorem wp_any {β : Type} (p : StoreProg β) : Wp p (fun o _ => ∀ b, o = .returned b → True) s :=
  fun _ _ _ => trivial

theorem wp_lookReturn {β : Type} (g : World → Except UpdateError β) :
    Wp (ReleaseStore.look g) (fun o t => ∀ b, o = .returned b → g s = .ok b ∧ t = s) s := by
  refine wp_look ?_ nofun nofun
  intro b looked _ is
  cases is
  exact ⟨looked, rfl⟩

theorem wp_changeReturn (g : Files → Except UpdateError Files) :
    Wp (ReleaseStore.change g) (fun o t => ∀ b, o = .returned b → g s.files = .ok t.files) s := by
  refine wp_act ?_ nofun nofun nofun
  intro b t changed _ _
  cases result : g s.files with
  | error e => rw [result] at changed; cases changed
  | ok files =>
    rw [result] at changed
    cases changed
    rfl

theorem wp_cleaningReturn {α β : Type} {p : StoreProg α} {clean : StoreProg β}
    {goal : α → World → Prop} (h : Wp p (fun o t => ∀ a, o = .returned a → goal a t) s) :
    Wp (Prog.cleaning p clean) (fun o t => ∀ a, o = .returned a → goal a t) s := by
  apply wp_cleaning
  refine wp_mono h ?_
  intro o t returned
  cases o with
  | returned a => exact returned
  | killed => exact nofun
  | raised e =>
    intro tape
    cases ((clean).run t tape).1 <;> exact nofun

theorem readFile_ok {place : Place} {bytes : Bytes} {w : World} (h : (match w.files.file place with
      | some content => Except.ok content
      | none => .error UpdateError.io) = .ok bytes) : w.files.file place = some bytes := by
  split at h <;> cases h
  rename_i content is
  exact is

theorem stage_carries : Wp (store.stage env bundleRoot release) (fun o t => ∀ a, o = .returned a →
      Carries t.files (store.destination release.manifest.releaseId) release) s := by
  refine wp_onReturn (wp_any _) ?_
  intro staging _ _
  refine wp_onReturn (wp_any _) ?_
  intro _ _ _
  refine wp_onReturn (wp_any _) ?_
  intro _ staged _
  refine wp_onReturn (wp_lookReturn _) ?_
  rintro bytes _ ⟨read, rfl⟩
  have manifest := readFile_ok read
  refine wp_onReturn (wp_cleaningReturn (wp_lookReturn _)) ?_
  rintro _ _ ⟨same, rfl⟩
  rw [require_ok_iff.mp same] at manifest
  refine wp_onReturn (wp_cleaningReturn (wp_lookReturn _)) ?_
  rintro _ _ ⟨checked, rfl⟩
  have carries : Carries _ staging release := ⟨manifest, checkInventory_ok checked⟩
  refine wp_onReturn (wp_cleaningReturn (wp_lookReturn _)) ?_
  rintro _ _ ⟨-, rfl⟩
  refine wp_cleaningReturn (wp_mono (wp_changeReturn _) ?_)
  intro o t moved a is
  have moved := moved a is
  split at moved
  · rw [← Except.ok.inj moved]
    exact carries.congr (FileTree.Tree.file_move staging _) (FileTree.Tree.isLink_move staging _)
  · cases moved

theorem place_placed : Wp (store.place env bundleRoot release) (fun o t => ∀ a, o = .returned a →
      Placed store release (s.files.mkdirs store.versionsRoot) t.files) s := by
  refine wp_onReturn (wp_changeReturn _) ?_
  intro _ made changed
  have here : made.files = s.files.mkdirs store.versionsRoot := by
    split at changed
    · exact (Except.ok.inj changed).symm
    · cases changed
  rw [← here]
  refine wp_onReturn (wp_lookReturn _) ?_
  rintro _ _ ⟨-, rfl⟩
  refine wp_onReturn (wp_lookReturn _) ?_
  rintro _ _ ⟨-, rfl⟩
  refine wp_onReturn (wp_lookReturn _) ?_
  rintro _ _ ⟨-, rfl⟩
  refine wp_onReturn (wp_lookReturn _) ?_
  rintro exists_ _ ⟨taken, rfl⟩
  cases taken
  split
  · rename_i present
    refine wp_onReturn (wp_lookReturn _) ?_
    rintro _ _ ⟨-, rfl⟩
    refine wp_onReturn (wp_lookReturn _) ?_
    rintro _ _ ⟨-, rfl⟩
    refine wp_mono (wp_lookReturn _) ?_
    intro o t same a is
    rw [(same a is).2, Placed, if_pos present]
  · rename_i absent
    refine wp_mono stage_carries ?_
    intro o t carries a is
    rw [Placed, if_neg absent]
    exact carries a is

theorem activate_files (releaseId : String) (check : Place → Except UpdateError Unit) :
    Keeps SameFiles (store.activate releaseId check) := by
  have health : ∀ candidate, Keeps SameFiles (ReleaseStore.healthCheck check candidate) :=
    fun _ _ => wp_healthCheck (fun _ => rfl) (fun _ => rfl) rfl
  have write : ∀ state, Keeps SameFiles (ReleaseStore.writeState state) :=
    fun _ _ => wp_sure rfl rfl
  refine keeps_bind sameFiles_trans (sameFiles_look _) (fun state => ?_)
  split
  · exact keeps_bind sameFiles_trans (health _) (fun _ _ => wp_pure rfl)
  · refine keeps_bind sameFiles_trans (write _) (fun _ => ?_)
    exact keeps_bind sameFiles_trans (keeps_cleaning sameFiles_trans (health _) (write _))
      (fun _ _ => wp_pure rfl)

theorem install_placed (check : Place → Except UpdateError Unit) :
    Wp (store.install env bundleRoot release check) (fun _ t =>
      Activates s t release.manifest.releaseId →
        Placed store release (s.files.mkdirs store.versionsRoot) t.files) s := by
  apply wp_bind
  intro tape
  have placed := @place_placed env store s bundleRoot release tape
  have quiet := @quiet_place env store bundleRoot release s tape
  revert placed quiet
  generalize ((store.place env bundleRoot release).run s tape).1 = o
  generalize ((store.place env bundleRoot release).run s tape).2 = t
  intro placed quiet
  have stays : ¬ Activates s t release.manifest.releaseId := by
    rintro ⟨other, current⟩
    rw [show t.state = s.state from quiet] at current
    exact other current
  cases o with
  | returned a =>
    have goesOn : Wp (store.activate release.manifest.releaseId check) (fun _ u =>
        Activates s u release.manifest.releaseId →
          Placed store release (s.files.mkdirs store.versionsRoot) u.files) t := by
      refine wp_mono (activate_files release.manifest.releaseId check t) ?_
      intro _ u files _
      rw [files]
      exact placed a rfl
    exact goesOn
  | raised e | killed => exact fun activates => absurd activates stays

/-- The release is in a directory of its own, and that directory has what was signed, if it was
there before. -/
def Untampered (store : ReleaseStore) (release : VerifiedRelease env) (files : Files) : Prop :=
  store.Inside release.manifest.releaseId ∧
    (files.taken (store.destination release.manifest.releaseId) = true →
      Carries files (store.destination release.manifest.releaseId) release)

theorem taken_inside (inside : store.Inside release.manifest.releaseId) (files : Files) :
    (files.mkdirs store.versionsRoot).taken (store.destination release.manifest.releaseId) =
      files.taken (store.destination release.manifest.releaseId) := by
  apply FileTree.Tree.taken_mkdirs_of_not_prefix
  obtain ⟨name, is⟩ := inside
  rw [is]
  intro under
  have bound := under.length_le
  rw [List.length_append, List.length_singleton] at bound
  omega

/-- A release that is made current is the signed one, directly inside the versions, exactly
where it was not there before, or was there as it was signed. -/
theorem activates_signed_iff (check : Place → Except UpdateError Unit) (tape : List Fault)
    (activates : Activates s ((store.install env bundleRoot release check).run s tape).2
      release.manifest.releaseId) : store.Inside release.manifest.releaseId ∧
        Carries ((store.install env bundleRoot release check).run s tape).2.files
          (store.destination release.manifest.releaseId) release ↔
      Untampered store release s.files := by
  have placed := install_placed check tape activates
  refine and_congr_right ?_
  intro inside
  rw [Placed, taken_inside inside] at placed
  split at placed
  · rename_i present
    rw [placed, carries_mkdirs]
    exact ⟨fun carries _ => carries, fun carries => carries present⟩
  · rename_i absent
    exact ⟨fun _ present => absurd present absent, fun _ => placed⟩

end Install

structure Installer (env : ReleaseEnv) where
  world : World
  verified : List (VerifiedRelease env) := []

inductive InstallerAct
  | verify (bundleRoot : Place) (keys : List ReleaseTrustKey) (constraints : InstallConstraints)
  | install (bundleRoot : Place) (k : Nat) (check : Place → Except UpdateError Unit)
      (tape : List Fault)
  | disturb (files : Files)

def Installer.installed {env : ReleaseEnv} (store : ReleaseStore) (i : Installer env)
    (bundleRoot : Place) (release : VerifiedRelease env) (check : Place → Except UpdateError Unit)
    (tape : List Fault) : World :=
  ((store.install env bundleRoot release check).run i.world tape).2

def Installer.step {env : ReleaseEnv} (store : ReleaseStore) (i : Installer env) :
    InstallerAct → Option (Installer env)
  | .verify bundleRoot keys constraints =>
    match verifyBundle env i.world.files bundleRoot keys constraints with
    | .ok release => some { i with verified := i.verified ++ [release] }
    | .error _ => none
  | .install bundleRoot k check tape =>
    (i.verified[k]?).map
      (fun release => { i with world := i.installed store bundleRoot release check tape })
  | .disturb files => some { i with world := { i.world with files } }

section Runs

variable {env : ReleaseEnv}

/-- After any run, an install of a verified release makes that release current as it was signed
exactly where its directory was not tampered with. -/
theorem activated_is_signed_iff (store : ReleaseStore) (start : Installer env)
    (acts : List InstallerAct) (bundleRoot : Place) (release : VerifiedRelease env)
    (check : Place → Except UpdateError Unit) (tape : List Fault)
    (activates : Activates (Transition.final (Installer.step store) start acts).world
      ((Transition.final (Installer.step store) start acts).installed store bundleRoot release
        check tape) release.manifest.releaseId) : store.Inside release.manifest.releaseId ∧
        Carries ((Transition.final (Installer.step store) start acts).installed store bundleRoot
          release check tape).files (store.destination release.manifest.releaseId) release ↔
      Untampered store release (Transition.final (Installer.step store) start acts).world.files :=
  activates_signed_iff check tape activates

end Runs

section Sample

def sampleName (text : String) (h : named text := by decide) : Name := ⟨text, h⟩

def sampleStore : ReleaseStore where
  root := []
  pid := 1

def sampleManifest (releaseId : String) : ReleaseManifest where
  releaseId := releaseId
  version := "1.0.0"
  releaseKind := .product
  role := some .hub
  target := { os := .linux, arch := .x86_64 }
  createdAt := "2026-01-01T00:00:00Z"
  artifacts := [{ path := "a", kind := .application, size := 1, sha256 := "d" }]

/-- An environment in which every manifest reads as the one of `releaseId`, and is signed. -/
def sampleReleaseEnv (releaseId : String) : ReleaseEnv where
  readManifest _ := some
    { manifest := sampleManifest releaseId, signature := { keyId := "k", value := "v" } }
  canonicalManifest bytes := bytes
  verifyingKey _ := .ok []
  signature _ := some []
  verifies _ _ _ := true
  sha256 bytes := if bytes = [7] then "d" else "other"

def sampleKeys : List ReleaseTrustKey :=
  [{ keyId := "k", publicKey := "p", allowedReleaseKinds := ["product"] }]

def sampleConstraints : InstallConstraints where
  releaseKind := .product
  role := some .hub
  target := { os := .linux, arch := .x86_64 }
  agentRuntimeSpiVersion := 1

def sampleRelease (releaseId : String) : VerifiedRelease (sampleReleaseEnv releaseId) where
  signed := { manifest := sampleManifest releaseId, signature := { keyId := "k", value := "v" } }
  manifestBytes := [1]
  genuine := ⟨sampleKeys, sampleConstraints, rfl, rfl, [], [], rfl, rfl, rfl⟩

/-- A bundle on the disk, with the artifact `a` of that content. -/
def bundleAt (place : Place) (content : Bytes) (files : Files) : Files :=
  ((files.put place .dir).put (place ++ [manifestName]) (.file [1])).put
    (place ++ [sampleName "a"]) (.file content)

def sampleFiles : Files := bundleAt [sampleName "bundle"] [7] (FileTree.Tree.empty.put [] .dir)

/-- The version directory is there already, with other content. -/
def tamperedFiles : Files :=
  bundleAt [versionsName, sampleName "r"] [8] (sampleFiles.put [versionsName] .dir)

def sampleStart (releaseId : String) (files : Files) : Installer (sampleReleaseEnv releaseId) where
  world := { files := files }

def sampleVerify : List InstallerAct := [.verify [sampleName "bundle"] sampleKeys sampleConstraints]

theorem activated_is_signed_sample :
    let i := Transition.final (Installer.step sampleStore) (sampleStart "r" sampleFiles) sampleVerify
    i.verified[0]? = some (sampleRelease "r") ∧ sampleStore.Inside "r" ∧
      Carries (i.installed sampleStore [sampleName "bundle"] (sampleRelease "r")
        (fun _ => .ok ()) []).files (sampleStore.destination "r") (sampleRelease "r") := by
  have exact_ := activated_is_signed_iff sampleStore (sampleStart "r" sampleFiles) sampleVerify
    [sampleName "bundle"] (sampleRelease "r") (fun _ => .ok ()) [] (by constructor <;> decide +kernel)
  refine ⟨by rfl, exact_.mpr ⟨⟨sampleName "r", by decide +kernel⟩, ?_⟩⟩
  intro present
  exact absurd present (by decide +kernel)

/-- A directory that is there is not checked, and a release id is taken as a path. -/
theorem tampered_release_activated :
    (let i := Transition.final (Installer.step sampleStore) (sampleStart "r" tamperedFiles)
        sampleVerify
      let after := i.installed sampleStore [sampleName "bundle"] (sampleRelease "r")
        (fun _ => .ok ()) []
      i.verified[0]? = some (sampleRelease "r") ∧ Activates i.world after "r" ∧
        ¬ Carries after.files (sampleStore.destination "r") (sampleRelease "r")) ∧
    (let i := Transition.final (Installer.step sampleStore) (sampleStart "../bundle" sampleFiles)
        sampleVerify
      let after := i.installed sampleStore [sampleName "bundle"] (sampleRelease "../bundle")
        (fun _ => .ok ()) []
      i.verified[0]? = some (sampleRelease "../bundle") ∧ Activates i.world after "../bundle" ∧
        ¬ sampleStore.Inside "../bundle") := by
  refine ⟨⟨by rfl, by constructor <;> decide +kernel, ?_⟩,
    by rfl, by constructor <;> decide +kernel, ?_⟩
  · intro carries
    obtain ⟨place, content, some_, path, file, -, digest⟩ :=
      carries.inventoried.present _ List.mem_cons_self
    have here : place = [sampleName "a"] := by
      refine portable_injective some_ (List.cons_ne_nil _ _) ?_
      rw [← path]
      decide
    subst here
    have other : FileTree.Tree.file ((Transition.final (Installer.step sampleStore)
        (sampleStart "r" tamperedFiles) sampleVerify).installed sampleStore [sampleName "bundle"]
          (sampleRelease "r") (fun _ => .ok ()) []).files
        (sampleStore.destination "r" ++ [sampleName "a"]) = some [8] := by decide +kernel
    rw [other] at file
    cases file
    exact absurd digest (by decide)
  · rintro ⟨name, outside⟩
    have length := congrArg List.length outside
    revert length
    simp only [List.length_append, List.length_singleton]
    decide +kernel

end Sample

end Knoa.Release
