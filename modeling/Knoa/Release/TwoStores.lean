import Knoa.Release.Pointers

/-!
# The two installers

The pointers of the Python `ReleaseStore` beside those of the native one, over the same calls.
-/
namespace Knoa.Release
open Interrupt (Prog Fault Outcome)
open Transition (accepted trace)

/-- What both make of the bytes of a manifest: its signed value, and the release that it is of,
which has a name. -/
structure ManifestReader (V : Type) where
  value : Bytes → V
  releaseId : V → String
  nonempty : ∀ v, releaseId v ≠ ""

/-- A store as its calls see it: the manifests of the version directories, and the pointers. -/
structure Versions where
  manifests : List (String × Bytes) := []
  current : String := ""
  previous : String := ""
  failed : String := ""
  deriving DecidableEq

/-- A call with a verified bundle, given by its manifest, and the outcome of its health check. -/
inductive UpdateCall
  | install (bundle : Bytes) (healthy : Bool)
  | rollback (healthy : Bool)
  deriving DecidableEq

namespace Versions

variable (s : Versions)

def manifest (releaseId : String) : Option Bytes := s.manifests.lookup releaseId

def placed (releaseId : String) (bundle : Bytes) : Versions :=
  match s.manifest releaseId with
  | some _ => s
  | none => { s with manifests := s.manifests ++ [(releaseId, bundle)] }

/-- `rollback`, the same in both. -/
def rollback (healthy : Bool) : Versions × Bool :=
  if s.current = "" ∨ s.previous = "" then (s, false)
  else if (s.manifest s.previous).isNone then (s, false)
  else if healthy then
    ({ s with current := s.previous, previous := s.current, failed := "" }, true)
  else (s, false)

def activateNative (releaseId : String) (healthy : Bool) : Versions × Bool :=
  if s.current = releaseId then (s, healthy)
  else if healthy then
    ({ s with current := releaseId, previous := s.current, failed := "" }, true)
  else ({ s with failed := releaseId }, false)

/-- The Python pointers: set with the current release as the previous one, and set back without
a previous one. -/
def activatePython (releaseId : String) (healthy : Bool) : Versions × Bool :=
  if healthy then
    ({ s with current := releaseId, previous := s.current, failed := "" }, true)
  else ({ s with previous := "", failed := releaseId }, false)

variable {V : Type} [DecidableEq V] (reader : ManifestReader V)

def installNative (bundle : Bytes) (healthy : Bool) : Versions × Bool :=
  let releaseId := reader.releaseId (reader.value bundle)
  if (s.manifest releaseId).all (fun existing => existing = bundle) then
    (s.placed releaseId bundle).activateNative releaseId healthy
  else (s, false)

def installPython (bundle : Bytes) (healthy : Bool) : Versions × Bool :=
  let releaseId := reader.releaseId (reader.value bundle)
  if (s.manifest releaseId).all (fun existing => reader.value existing = reader.value bundle) then
    (s.placed releaseId bundle).activatePython releaseId healthy
  else (s, false)

def callNative : UpdateCall → Versions × Bool
  | .install bundle healthy => s.installNative reader bundle healthy
  | .rollback healthy => s.rollback healthy

def callPython : UpdateCall → Versions × Bool
  | .install bundle healthy => s.installPython reader bundle healthy
  | .rollback healthy => s.rollback healthy

end Versions

/-- Both stores, and whether the last calls have both succeeded or both failed. -/
structure BothStores where
  native : Versions := {}
  python : Versions := {}
  agreed : Bool := true

namespace BothStores

variable {V : Type} [DecidableEq V] (reader : ManifestReader V)

def step (s : BothStores) (call : UpdateCall) : Option BothStores :=
  some
    { native := (s.native.callNative reader call).1, python := (s.python.callPython reader call).1,
      agreed := (s.native.callNative reader call).2 == (s.python.callPython reader call).2 }

/-- The same pointers, after calls that have ended the same. -/
def Agree (s : BothStores) : Prop :=
  s.native.current = s.python.current ∧ s.native.previous = s.python.previous ∧ s.agreed = true

end BothStores

/-- Where the two installers do the same: no release is installed while it is current, an
install that is unhealthy finds no previous release, and a directory that exists has the same
bytes, unless its release is another. -/
def UpdateCall.Alike {V : Type} [DecidableEq V] (reader : ManifestReader V) (s : Versions) :
    UpdateCall → Prop
  | .install bundle healthy =>
    (∃ existing ∈ s.manifest (reader.releaseId (reader.value bundle)),
      reader.value existing ≠ reader.value bundle) ∨
    if healthy then
      reader.releaseId (reader.value bundle) ≠ s.current ∧
        ∀ existing ∈ s.manifest (reader.releaseId (reader.value bundle)), existing = bundle
    else s.previous = ""
  | .rollback _ => True

section Agreement

variable {V : Type} [DecidableEq V] {reader : ManifestReader V} {s t : BothStores}
  {call : UpdateCall} {releaseId : String} {bundle : Bytes} {healthy : Bool}

/-- The same directories, and native pointers that name two releases. -/
structure BothSound (s : BothStores) : Prop where
  manifests : s.native.manifests = s.python.manifests
  apart : s.native.current ≠ "" → s.native.previous ≠ s.native.current

@[simp] theorem activateNative_manifests (v : Versions) :
    (v.activateNative releaseId healthy).1.manifests = v.manifests := by
  unfold Versions.activateNative
  split
  · rfl
  · split <;> rfl

@[simp] theorem activatePython_manifests (v : Versions) :
    (v.activatePython releaseId healthy).1.manifests = v.manifests := by
  unfold Versions.activatePython
  split <;> rfl

theorem placed_manifests (v : Versions) : (v.placed releaseId bundle).manifests =
    if (v.manifest releaseId).isSome then v.manifests
    else v.manifests ++ [(releaseId, bundle)] := by
  unfold Versions.placed
  cases v.manifest releaseId <;> rfl

@[simp] theorem placed_current (v : Versions) :
    (v.placed releaseId bundle).current = v.current := by
  unfold Versions.placed
  split <;> rfl

@[simp] theorem placed_previous (v : Versions) :
    (v.placed releaseId bundle).previous = v.previous := by
  unfold Versions.placed
  split <;> rfl

variable {v : Versions}

theorem activateNative_apart (h : v.current ≠ "" → v.previous ≠ v.current) :
    (v.activateNative releaseId healthy).1.current ≠ "" →
      (v.activateNative releaseId healthy).1.previous ≠
        (v.activateNative releaseId healthy).1.current := by
  unfold Versions.activateNative
  split
  · exact h
  · rename_i other
    split
    · exact fun _ => other
    · exact h

theorem rollback_apart (h : v.current ≠ "" → v.previous ≠ v.current) :
    (v.rollback healthy).1.current ≠ "" →
      (v.rollback healthy).1.previous ≠ (v.rollback healthy).1.current := by
  unfold Versions.rollback
  split
  · exact h
  · rename_i both
    rw [not_or] at both
    split
    · exact h
    · split
      · exact fun _ => (h both.1).symm
      · exact h

@[simp] theorem rollback_manifests (v : Versions) :
    (v.rollback healthy).1.manifests = v.manifests := by
  unfold Versions.rollback
  split
  · rfl
  · split
    · rfl
    · split <;> rfl

theorem manifest_congr (same : s.native.manifests = s.python.manifests) (releaseId : String) :
    s.native.manifest releaseId = s.python.manifest releaseId := by
  unfold Versions.manifest
  rw [same]

omit [DecidableEq V] in
theorem installNative_manifests (v : Versions) :
    (v.installNative reader bundle healthy).1.manifests =
    (v.placed (reader.releaseId (reader.value bundle)) bundle).manifests := by
  unfold Versions.installNative
  dsimp only
  split
  · exact activateNative_manifests _
  · rename_i refused
    rw [placed_manifests]
    cases stands : v.manifest (reader.releaseId (reader.value bundle)) with
    | none => rw [stands] at refused; exact absurd rfl refused
    | some existing => rfl

theorem installPython_manifests (v : Versions) :
    (v.installPython reader bundle healthy).1.manifests =
    (v.placed (reader.releaseId (reader.value bundle)) bundle).manifests := by
  unfold Versions.installPython
  dsimp only
  split
  · exact activatePython_manifests _
  · rename_i refused
    rw [placed_manifests]
    cases stands : v.manifest (reader.releaseId (reader.value bundle)) with
    | none => rw [stands] at refused; exact absurd rfl refused
    | some existing => rfl

theorem both_step_sound (sound : BothSound s) (taken : s.step reader call = some t) :
    BothSound t := by
  cases taken
  cases call with
  | install bundle healthy =>
    refine ⟨?_, ?_⟩
    · change (s.native.installNative reader bundle healthy).1.manifests =
        (s.python.installPython reader bundle healthy).1.manifests
      rw [installNative_manifests, installPython_manifests, placed_manifests, placed_manifests,
        manifest_congr sound.manifests, sound.manifests]
    · unfold Versions.callNative Versions.installNative
      dsimp only
      split
      · apply activateNative_apart
        rw [placed_current, placed_previous]
        exact sound.apart
      · exact sound.apart
  | rollback healthy =>
    refine ⟨?_, rollback_apart sound.apart⟩
    change (s.native.rollback healthy).1.manifests = (s.python.rollback healthy).1.manifests
    rw [rollback_manifests, rollback_manifests, sound.manifests]

theorem rollback_agrees {w : Versions} (manifests : v.manifests = w.manifests)
    (current : v.current = w.current) (previous : v.previous = w.previous) :
    (v.rollback healthy).1.current = (w.rollback healthy).1.current ∧
      (v.rollback healthy).1.previous = (w.rollback healthy).1.previous ∧
      ((v.rollback healthy).2 == (w.rollback healthy).2) = true := by
  unfold Versions.rollback Versions.manifest
  rw [manifests, current, previous]
  split
  · exact ⟨current, previous, rfl⟩
  · split
    · exact ⟨current, previous, rfl⟩
    · split
      · exact ⟨rfl, rfl, rfl⟩
      · exact ⟨current, previous, rfl⟩

theorem activates_agree {w : Versions} (current : v.current = w.current)
    (apart : v.current ≠ "" → v.previous ≠ v.current) (named : releaseId ≠ "") :
    (v.activateNative releaseId healthy).1.current = (w.activatePython releaseId healthy).1.current ∧
      (v.activateNative releaseId healthy).1.previous =
        (w.activatePython releaseId healthy).1.previous ∧
      ((v.activateNative releaseId healthy).2 == (w.activatePython releaseId healthy).2) = true ↔
    if healthy then releaseId ≠ v.current else v.previous = "" := by
  unfold Versions.activateNative Versions.activatePython
  by_cases again : v.current = releaseId
  · rw [if_pos again]
    have other : v.previous ≠ v.current := apart (again ▸ named)
    cases healthy with
    | true => simp [← current, again ▸ other, again]
    | false => simp [current]
  · rw [if_neg again]
    cases healthy with
    | true => simp [current, Ne.symm (current ▸ again)]
    | false => simp [current]

theorem both_step_exact (sound : BothSound s) (agree : s.Agree)
    (taken : s.step reader call = some t) : t.Agree ↔ call.Alike reader s.native := by
  cases taken
  obtain ⟨current, previous, -⟩ := agree
  cases call with
  | rollback healthy => exact iff_of_true (rollback_agrees sound.manifests current previous) trivial
  | install bundle healthy =>
    have named := reader.nonempty (reader.value bundle)
    have same := manifest_congr sound.manifests (reader.releaseId (reader.value bundle))
    have both := @activates_agree (reader.releaseId (reader.value bundle)) healthy
      (s.native.placed (reader.releaseId (reader.value bundle)) bundle)
      (s.python.placed (reader.releaseId (reader.value bundle)) bundle)
      (by rw [placed_current, placed_current, current])
      (by rw [placed_current, placed_previous]; exact sound.apart) named
    rw [placed_current, placed_previous] at both
    simp only [BothStores.Agree, Versions.callNative, Versions.callPython,
      Versions.installNative, Versions.installPython, UpdateCall.Alike, ← same]
    cases stands : s.native.manifest (reader.releaseId (reader.value bundle)) with
    | none =>
      simp only [Option.all_none, if_true, both]
      cases healthy <;> simp
    | some existing =>
      simp only [Option.all_some, decide_eq_true_eq]
      by_cases value : reader.value existing = reader.value bundle
      · by_cases bytes : existing = bundle
        · rw [if_pos bytes, if_pos value, both]
          cases healthy <;> simp [bytes]
        · rw [if_neg bytes, if_pos value]
          cases healthy with
          | true => simp [Versions.activatePython, value, bytes]
          | false => simp [Versions.activatePython, value, current]
      · have bytes : existing ≠ bundle := fun is => value (congrArg reader.value is)
        rw [if_neg bytes, if_neg value]
        simp [current, previous, value]

end Agreement

section Runs

variable {V : Type} [DecidableEq V]

/-- Along a run of calls the two installers agree in every state exactly where every call is one
that they treat alike. -/
theorem installers_agree_iff (reader : ManifestReader V) (calls : List UpdateCall) :
    (∀ s ∈ trace (BothStores.step reader) {} calls, s.Agree) ↔
      ∀ taken ∈ accepted (BothStores.step reader) {} calls,
        taken.2.Alike reader taken.1.native := by
  have kept : ∀ s call t, BothSound s → BothStores.step reader s call = some t → BothSound t :=
    fun _ _ _ sound taken => both_step_sound sound taken
  have exact_step : ∀ s call t, True → BothSound s → s.Agree →
      BothStores.step reader s call = some t → (t.Agree ↔ call.Alike reader s.native) :=
    fun _ _ _ _ sound agree taken => both_step_exact sound agree taken
  exact Transition.trace_safe_iff kept exact_step ⟨rfl, fun named => absurd rfl named⟩
    ⟨rfl, rfl, rfl⟩ (fun _ _ => trivial)

def sampleReader : ManifestReader Bytes where
  value bytes := bytes
  releaseId bytes := "r" ++ String.ofList (bytes.map (fun _ => 'i'))
  nonempty v empty := by
    have letters := congrArg String.toList empty
    simp at letters

/-- The current release is installed again; an update fails its health check. -/
def reinstalled : List UpdateCall := [.install [1] true, .install [1] true]

def updateFails : List UpdateCall :=
  [.install [1] true, .install [1, 2] true, .install [1, 2, 3] false]

theorem installers_disagree : Transition.Along (fun calls =>
    ¬ ∀ s ∈ trace (BothStores.step sampleReader) {} calls, s.Agree) [reinstalled, updateFails] := by
  have differ : ∀ calls ∈ [reinstalled, updateFails],
      (Transition.final (BothStores.step sampleReader) {} calls).native.previous ≠
        (Transition.final (BothStores.step sampleReader) {} calls).python.previous := by decide
  intro calls listed agree
  exact differ calls listed (agree _ (Transition.mem_trace_final _ calls)).2.1

end Runs

end Knoa.Release
