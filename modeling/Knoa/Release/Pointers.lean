import Knoa.Library.Transition
import Knoa.Release.Store

/-!
# The pointers of the native store

What a call of the store leaves of `current`, `previous` and `failed`, whatever fails on the way.
-/
namespace Knoa.Release
open Interrupt
open Transition (accepted trace)

/-- `current` and `previous`, where the state file can be read. -/
def StateFile.pointers : StateFile → Option (String × String)
  | .absent => some ("", "")
  | .unreadable => none
  | .stored state => some (state.current, state.previous)

structure ReleaseState.Sound (state : ReleaseState) : Prop where
  apart : state.current ≠ "" → state.previous ≠ "" → state.current ≠ state.previous
  failed : state.failed ≠ "" → state.failed ≠ state.current

def World.Sound (w : World) : Prop := ∀ state, w.state = .stored state → state.Sound

/-- How a call ends: one that raises leaves the pointers, and one that returns has checked the
release that is current. -/
structure Ends (store : ReleaseStore) (check : Place → Except UpdateError Unit) (s : World)
    (o : Outcome UpdateError UpdateResult) (t : World) : Prop where
  raised : ∀ e, o = .raised e → t.state.pointers = s.state.pointers
  checked : ∀ result, o = .returned result → ∀ state, t.state = .stored state →
    state.current ≠ "" → check (store.destination state.current) = .ok ()
  kept : s.Sound → t.Sound

/-- The state file is the same. -/
def Alike (s t : World) : Prop := t.state = s.state

/-- The program leaves the state file alone. -/
def Quiet {α : Type} (p : StoreProg α) : Prop := Keeps Alike p

section Rules

variable {α β : Type} {s : World} {Q : Outcome UpdateError α → World → Prop}

theorem wp_look {f : World → Except UpdateError α} (done : ∀ a, f s = .ok a → Q (.returned a) s)
    (raised : ∀ e, Q (.raised e) s) (killed : Q .killed s) : Wp (ReleaseStore.look f) Q s := by
  apply wp_act
  · intro a t looked
    cases result : f s with
    | error e => rw [result] at looked; cases looked
    | ok b =>
      rw [result] at looked
      cases looked
      exact done a result
  · intro e _
    exact raised e
  · exact raised .io
  · exact killed

theorem wp_healthCheck {Q : Outcome UpdateError Unit → World → Prop}
    {check : Place → Except UpdateError Unit} {candidate : Place}
    (passed : check candidate = .ok () → Q (.returned ()) s)
    (raised : ∀ e, Q (.raised e) s) (killed : Q .killed s) :
    Wp (ReleaseStore.healthCheck check candidate) Q s :=
  wp_look (fun _ => passed) raised killed

theorem quiet_refl (s : World) : Alike s s := rfl

theorem quiet_trans (s t u : World) (first : Alike s t) (second : Alike t u) : Alike s u :=
  second.trans first

theorem quiet_look (f : World → Except UpdateError α) : Quiet (ReleaseStore.look f) :=
  fun s => wp_look (fun _ _ => quiet_refl s) (fun _ => quiet_refl s) (quiet_refl s)

theorem quiet_change (f : Files → Except UpdateError Files) : Quiet (ReleaseStore.change f) := by
  refine keeps_act quiet_refl ?_
  intro s _ t changed
  cases result : f s.files with
  | error e => rw [result] at changed; cases changed
  | ok files =>
    rw [result] at changed
    cases changed
    rfl

theorem quiet_bind {p : StoreProg β} {f : β → StoreProg α} (first : Quiet p)
    (second : ∀ b, Quiet (f b)) : Quiet (p >>= f) :=
  keeps_bind quiet_trans first second

theorem quiet_cleaning {p : StoreProg α} {clean : StoreProg β} (first : Quiet p)
    (second : Quiet clean) : Quiet (Prog.cleaning p clean) :=
  keeps_cleaning quiet_trans first second

end Rules

section Place

variable {env : ReleaseEnv} {store : ReleaseStore}

theorem quiet_copyEntry (source target relative : Place) :
    Quiet (ReleaseStore.copyEntry source target relative) := by
  refine quiet_bind (quiet_look _) ?_
  intro node
  cases node with
  | none => exact keeps_raise quiet_refl UpdateError.io
  | some node =>
    cases node with
    | dir => exact quiet_change _
    | file content =>
      exact quiet_bind (quiet_change _) (fun _ => quiet_bind (quiet_change _)
        (fun _ => quiet_change _))
    | link => exact keeps_raise quiet_refl _

theorem quiet_stage (bundleRoot : Place) (release : VerifiedRelease env) :
    Quiet (store.stage env bundleRoot release) := by
  refine quiet_bind (quiet_look _) (fun staging => ?_)
  have clean : Quiet (ReleaseStore.removeDirAll staging) := quiet_change _
  have copied : Quiet (ReleaseStore.copyBundle bundleRoot staging) :=
    quiet_bind (quiet_look _)
      (keeps_each quiet_refl quiet_trans (quiet_copyEntry bundleRoot staging))
  refine quiet_bind (quiet_change _) (fun _ => ?_)
  refine quiet_bind (quiet_cleaning copied clean) (fun _ => ?_)
  refine quiet_bind (quiet_look _) (fun _ => ?_)
  refine quiet_bind (quiet_cleaning (quiet_look _) clean) (fun _ => ?_)
  refine quiet_bind (quiet_cleaning (quiet_look _) clean) (fun _ => ?_)
  refine quiet_bind (quiet_cleaning (quiet_look _) clean) (fun _ => ?_)
  exact quiet_cleaning (quiet_change _) clean

theorem quiet_place (bundleRoot : Place) (release : VerifiedRelease env) :
    Quiet (store.place env bundleRoot release) := by
  refine quiet_bind (quiet_change _) (fun _ => ?_)
  refine quiet_bind (quiet_look _) (fun _ => ?_)
  refine quiet_bind (quiet_look _) (fun _ => ?_)
  refine quiet_bind (quiet_look _) (fun _ => ?_)
  refine quiet_bind (quiet_look _) (fun exists_ => ?_)
  cases exists_ with
  | true =>
    exact quiet_bind (quiet_look _) (fun _ => quiet_bind (quiet_look _) (fun _ => quiet_look _))
  | false => exact quiet_stage bundleRoot release

end Place

section Pointers

variable {env : ReleaseEnv} {store : ReleaseStore} {s : World}
  {check : Place → Except UpdateError Unit}

def World.Reads (w : World) (state : ReleaseState) : Prop :=
  w.state = .absent ∧ state = {} ∨ w.state = .stored state

theorem readState_wp {α : Type} {f : ReleaseState → StoreProg α}
    {Q : Outcome UpdateError α → World → Prop}
    (read : ∀ state, s.Reads state → Wp (f state) Q s) (raised : ∀ e, Q (.raised e) s)
    (killed : Q .killed s) : Wp (ReleaseStore.readState >>= f) Q s := by
  apply wp_bind
  refine wp_look ?_ raised killed
  intro state looked
  refine read state ?_
  split at looked
  · rename_i absent
    cases looked
    exact Or.inl ⟨absent, rfl⟩
  · cases looked
  · rename_i stored
    split at looked <;> cases looked
    exact Or.inr stored

theorem look_wp {α β : Type} {g : World → Except UpdateError β} {f : β → StoreProg α}
    {Q : Outcome UpdateError α → World → Prop} (done : ∀ b, g s = .ok b → Wp (f b) Q s)
    (raised : ∀ e, Q (.raised e) s) (killed : Q .killed s) : Wp (ReleaseStore.look g >>= f) Q s :=
  wp_bind (wp_look done raised killed)

theorem require_ok_iff {c : Prop} [Decidable c] {e : UpdateError} : require c e = .ok () ↔ c := by
  unfold require
  split
  · rename_i holds
    exact ⟨fun _ => holds, fun _ => rfl⟩
  · rename_i fails
    exact ⟨nofun, fun holds => absurd holds fails⟩

variable {state : ReleaseState}

theorem World.Reads.pointers (h : s.Reads state) :
    s.state.pointers = some (state.current, state.previous) := by
  rcases h with ⟨absent, rfl⟩ | stored
  · rw [absent]
    rfl
  · rw [stored]
    rfl

theorem World.Reads.sound (h : s.Reads state) (sound : s.Sound) : state.Sound := by
  rcases h with ⟨-, rfl⟩ | stored
  · exact ⟨nofun, nofun⟩
  · exact sound state stored

theorem ends_same {o : Outcome UpdateError UpdateResult} (open_ : ∀ result, o ≠ .returned result) :
    Ends store check s o s :=
  ⟨fun _ _ => rfl, fun result is => absurd is (open_ result), id⟩

theorem ends_raised {e : UpdateError} : Ends store check s (.raised e) s := ends_same nofun

theorem ends_killed : Ends store check s .killed s := ends_same nofun

theorem sound_stored {files : Files} (sound : state.Sound) :
    World.Sound { files, state := .stored state } := by
  intro other is
  cases is
  exact sound

theorem activate_ends (releaseId : String) :
    Wp (store.activate releaseId check) (Ends store check s) s := by
  refine readState_wp ?_ (fun e => ends_raised) ends_killed
  intro state reads
  split
  · rename_i again
    apply wp_bind
    refine wp_healthCheck ?_ (fun e => ends_raised) ends_killed
    intro passed
    refine wp_pure ⟨nofun, ?_, id⟩
    intro _ _ stored here _
    have same : stored.current = releaseId := by
      rcases reads with ⟨absent, rfl⟩ | is
      · rw [absent] at here
        cases here
      · rw [is] at here
        cases here
        exact again
    rw [same]
    exact passed
  · rename_i other
    apply wp_bind
    refine wp_sure ?_ ends_killed
    have written : s.Sound → ReleaseState.Sound
        { current := releaseId, previous := state.current } :=
      fun _ => ⟨fun _ _ => Ne.symm other, nofun⟩
    refine wp_bind (wp_cleaning (wp_healthCheck ?_ ?_ ?_))
    · intro passed
      refine wp_pure ⟨nofun, ?_, fun sound => sound_stored (written sound)⟩
      intro _ _ stored here _
      cases here
      exact passed
    · intro e
      refine wp_sure ?_ ⟨nofun, nofun, fun sound => sound_stored (written sound)⟩
      refine ⟨?_, nofun, ?_⟩
      · intro _ _
        exact reads.pointers.symm
      · intro sound
        exact sound_stored ⟨(reads.sound sound).apart, fun _ => Ne.symm other⟩
    · exact ⟨nofun, nofun, fun sound => sound_stored (written sound)⟩

theorem rollback_ends : Wp (store.rollback check) (Ends store check s) s := by
  refine readState_wp ?_ (fun e => ends_raised) ends_killed
  intro state reads
  refine look_wp ?_ (fun e => ends_raised) ends_killed
  intro _ present
  have present := require_ok_iff.mp present
  refine look_wp ?_ (fun e => ends_raised) ends_killed
  intro _ _
  apply wp_bind
  refine wp_healthCheck ?_ (fun e => ends_raised) ends_killed
  intro passed
  apply wp_bind
  refine wp_sure ?_ ⟨nofun, nofun, id⟩
  refine wp_pure ⟨nofun, ?_, ?_⟩
  · intro _ _ stored here _
    cases here
    exact passed
  · intro sound
    exact sound_stored ⟨fun _ _ => Ne.symm ((reads.sound sound).apart present.1 present.2), nofun⟩

theorem rejectCurrent_ends : Wp (store.rejectCurrent check) (Ends store check s) s := by
  refine readState_wp ?_ (fun e => ends_raised) ends_killed
  intro state reads
  refine look_wp ?_ (fun e => ends_raised) ends_killed
  intro _ present
  have present := require_ok_iff.mp present
  split
  · apply wp_bind
    refine wp_sure ?_ ends_killed
    refine wp_pure ⟨nofun, ?_, ?_⟩
    · intro _ _ stored here named
      cases here
      exact absurd rfl named
    · intro _
      exact sound_stored ⟨nofun, fun named => named⟩
  · rename_i previous
    refine look_wp ?_ (fun e => ends_raised) ends_killed
    intro _ _
    apply wp_bind
    refine wp_healthCheck ?_ (fun e => ends_raised) ends_killed
    intro passed
    apply wp_bind
    refine wp_sure ?_ ⟨nofun, nofun, id⟩
    refine wp_pure ⟨nofun, ?_, ?_⟩
    · intro _ _ stored here _
      cases here
      exact passed
    · intro sound
      have apart := (reads.sound sound).apart present previous
      exact sound_stored ⟨fun _ _ => Ne.symm apart, fun _ => apart⟩

theorem install_ends (bundleRoot : Place) (release : VerifiedRelease env) :
    Wp (store.install env bundleRoot release check) (Ends store check s) s := by
  apply wp_bind
  refine wp_mono (quiet_place bundleRoot release s) ?_
  intro o t state
  unfold Alike at state
  have kept : s.Sound → t.Sound := fun sound other is => sound other (state ▸ is)
  cases o with
  | returned _ =>
    refine wp_mono (activate_ends release.manifest.releaseId) ?_
    intro o u ends
    exact ⟨fun e is => (ends.raised e is).trans (congrArg _ state), ends.checked,
      fun sound => ends.kept (kept sound)⟩
  | raised e => exact ⟨fun _ _ => congrArg _ state, nofun, kept⟩
  | killed => exact ⟨nofun, nofun, kept⟩

end Pointers

inductive StoreCall (env : ReleaseEnv)
  | install (bundleRoot : Place) (release : VerifiedRelease env)
  | rollback
  | rejectCurrent

def ReleaseStore.call {env : ReleaseEnv} (store : ReleaseStore) (call : StoreCall env)
    (check : Place → Except UpdateError Unit) : StoreProg UpdateResult :=
  match call with
  | .install bundleRoot release => store.install env bundleRoot release check
  | .rollback => store.rollback check
  | .rejectCurrent => store.rejectCurrent check

/-- A call with its health check and all that fails on its way, or a change to the disk by
somebody else, who leaves the state file alone. -/
inductive StoreAct (env : ReleaseEnv)
  | call (call : StoreCall env) (check : Place → Except UpdateError Unit) (tape : List Fault)
  | disturb (files : Files)

def ReleaseStore.ended {env : ReleaseEnv} (store : ReleaseStore) (call : StoreCall env)
    (check : Place → Except UpdateError Unit) (tape : List Fault) (w : World) :
    Outcome UpdateError UpdateResult × World :=
  (store.call call check).run w tape

def ReleaseStore.step {env : ReleaseEnv} (store : ReleaseStore) (w : World) :
    StoreAct env → Option World
  | .call call check tape => some (store.ended call check tape w).2
  | .disturb files => some { w with files }

section Runs

variable {env : ReleaseEnv} {store : ReleaseStore} {s : World}

theorem call_ends (call : StoreCall env) (check : Place → Except UpdateError Unit)
    (tape : List Fault) :
    Ends store check s (store.ended call check tape s).1 (store.ended call check tape s).2 := by
  have ends : Wp (store.call call check) (Ends store check s) s := by
    cases call with
    | install bundleRoot release => exact install_ends bundleRoot release
    | rollback => exact rollback_ends
    | rejectCurrent => exact rejectCurrent_ends
  exact ends tape

theorem store_step_sound {t : World} {act : StoreAct env} (sound : s.Sound)
    (taken : store.step s act = some t) : t.Sound := by
  cases act with
  | call call check tape =>
    cases taken
    exact (call_ends call check tape).kept sound
  | disturb files =>
    cases taken
    exact sound

/-- In every run of a store the pointers name two releases and none that has failed, a call
that returns an error leaves them, and one that returns has checked the release it leaves. -/
theorem release_pointers (files : Files) (acts : List (StoreAct env)) :
    (∀ w ∈ trace store.step { files := files } acts, w.Sound) ∧
      ∀ taken ∈ accepted store.step { files := files } acts, ∀ call check tape,
        taken.2 = .call call check tape →
          Ends store check taken.1 (store.ended call check tape taken.1).1
            (store.ended call check tape taken.1).2 := by
  refine ⟨?_, fun taken _ call check tape _ => call_ends call check tape⟩
  refine Transition.trace_invariant (fun _ _ _ sound taken => store_step_sound sound taken) ?_ acts
  intro state is
  cases is

end Runs

end Knoa.Release
