import Knoa.Library.Loops
import Knoa.Release.Pointers

/-!
# An update of the Host

`HostLifecycleManager.act` for `update`: the installed roles are stopped, the bundle is
installed, and the roles are started and have to become healthy. How each step ends is given.
-/
namespace Knoa.Release.Lifecycle
open Loops

inductive HostRole
  | hub | node
  deriving DecidableEq

inductive Command
  | stop | start
  deriving DecidableEq

/-- How `_wait_healthy` ends for a role; only a `RuntimeError` is caught. -/
inductive Health
  | passed | failed | raised

/-- How the updater's `install` ends. One that its time limit kills, or whose undoing fails, is cut
off, and leaves the new pointers if it had written them. -/
inductive InstallEnd
  | done
  | failed
  | cutOff (written : Bool)

structure Fates where
  stopFails : HostRole → Bool
  didNotStop : HostRole → Bool
  portsHeld : HostRole → Bool
  install : InstallEnd
  startFails : HostRole → Bool
  health : HostRole → Health
  /-- The stop commands of the recovery. -/
  stopFailsAgain : HostRole → Bool

inductive HostError
  | command (role : HostRole)
  | serviceDidNotStop (role : HostRole)
  | portsNotReleased (role : HostRole)
  | installer
  | healthFailed (role : HostRole)
  | unexpected (role : HostRole)

/-- The release pointers, and the last command for each role that has succeeded. -/
structure Host where
  release : ReleaseState
  last : HostRole → Option Command := fun _ => none

def Host.take (command : Command) (host : Host) (role : HostRole) : Host :=
  { host with last := Function.update host.last role (some command) }

/-- What an `install` that ends well leaves of the pointers. -/
def installed (bundle : String) (release : ReleaseState) : ReleaseState :=
  if release.current = bundle then release
  else { current := bundle, previous := release.current }

def InstallEnd.leaves (bundle : String) (release : ReleaseState) : InstallEnd → ReleaseState
  | .done | .cutOff true => installed bundle release
  | .failed | .cutOff false => release

/-- What `reject_current` leaves of them. -/
def rejected (release : ReleaseState) : ReleaseState :=
  { current := release.previous, failed := release.current
    previous := if release.previous = "" then "" else release.current }

def service (fails : HostRole → Bool) (command : Command) (role : HostRole) (host : Host) :
    Option HostError × Host :=
  if fails role then (some (.command role), host) else (none, host.take command role)

def waitReleased (fates : Fates) (role : HostRole) : Option HostError :=
  if fates.didNotStop role then some (.serviceDidNotStop role)
  else if fates.portsHeld role then some (.portsNotReleased role)
  else none

def waitHealthy (fates : Fates) (role : HostRole) : Option HostError :=
  match fates.health role with
  | .passed => none
  | .failed => some (.healthFailed role)
  | .raised => some (.unexpected role)

/-- The handler of the health checks. -/
def recover (fates : Fates) (active : List HostRole) (error : HostError) (host : Host) :
    Option HostError × Host :=
  match untilStop (service fates.stopFailsAgain .stop) active host with
  | (some raised, host) => (some raised, host)
  | (none, host) =>
    (some error, active.foldl (Host.take .start) { host with release := rejected host.release })

def launch (fates : Fates) (active : List HostRole) (host : Host) : Option HostError × Host :=
  match untilStop (service fates.startFails .start) active host with
  | (some raised, host) => (some raised, host)
  | (none, host) =>
    match active.findSome? (waitHealthy fates) with
    | some (.healthFailed role) => recover fates active (.healthFailed role) host
    | raised => (raised, host)

def update (fates : Fates) (bundle : String) (active : List HostRole) (host : Host) :
    Option HostError × Host :=
  match untilStop (service fates.stopFails .stop) active host with
  | (some raised, host) => (some raised, host)
  | (none, host) =>
    match active.findSome? (waitReleased fates) with
    | some raised => (some raised, host)
    | none =>
      let host := { host with release := fates.install.leaves bundle host.release }
      match fates.install with
      | .done => launch fates active host
      | _ => (some .installer, active.foldl (Host.take .start) host)

/-- `tuple(role for role in ("hub", "node") if role in roles)` -/
def activeRoles (roles : List HostRole) : List HostRole := [HostRole.hub, .node].filter (· ∈ roles)

/-- No role was stopped last. -/
def Host.Standing (host : Host) : Prop := ∀ role, host.last role ≠ some .stop

/-- The update is done and every role is up and healthy, or it raises, the release is the old one
and every role that it stopped is up. -/
def Atomic (fates : Fates) (bundle : String) (roles : List HostRole) (release : ReleaseState) :
    Prop :=
  match update fates bundle (activeRoles roles) { release } with
  | (none, host) => host.release.current = bundle ∧ ∀ role ∈ activeRoles roles,
      host.last role = some .start ∧ waitHealthy fates role = none
  | (some _, host) => host.release.current = release.current ∧ host.Standing

/-- The first of the commands fails, so that none has an effect. -/
def FailsAtOnce (fails : HostRole → Bool) (active : List HostRole) : Prop :=
  ∃ role ∈ active.head?, fails role = true

/-- The stops of the recovery succeed and it goes back to the release of before; or the release was
not new and they have no effect. -/
def Recovers (fates : Fates) (bundle : String) (active : List HostRole) (release : ReleaseState) :
    Prop :=
  (∀ role ∈ active, fates.stopFailsAgain role = false) ∧
      (release.current = bundle → release.previous = bundle) ∨
    release.current = bundle ∧ FailsAtOnce fates.stopFailsAgain active

/-- The first stop fails, or between the first stop and the health checks nothing fails but the
installation, which is not cut off with new pointers written, and a failing check can be recovered
from. -/
def Orderly (fates : Fates) (bundle : String) (active : List HostRole) (release : ReleaseState) :
    Prop :=
  FailsAtOnce fates.stopFails active ∨
    (∀ role ∈ active, fates.stopFails role = false ∧ waitReleased fates role = none) ∧
    match fates.install with
    | .failed | .cutOff false => True
    | .cutOff true => release.current = bundle
    | .done => (∀ role ∈ active, fates.startFails role = false) ∧
      match active.findSome? (waitHealthy fates) with
      | none => True
      | some (.healthFailed _) => Recovers fates bundle active release
      | some _ => release.current = bundle

variable {fates : Fates} {bundle : String} {active done : List HostRole} {release : ReleaseState}
  {host : Host} {fails : HostRole → Bool} {command : Command} {role : HostRole}

theorem foldl_take : active.foldl (Host.take command) host =
    { host with last := fun role => if role ∈ active then some command else host.last role } := by
  induction active generalizing host with
  | nil => simp
  | cons first rest ih =>
    simp only [List.foldl_cons, ih, Host.take, List.mem_cons, Host.mk.injEq, true_and]
    ext1 role
    by_cases listed : role ∈ rest <;> by_cases same : role = first <;> simp [listed, same]

theorem untilStop_service (fine : ∀ role ∈ active, fails role = false) :
    untilStop (service fails command) active host = (none, active.foldl (Host.take command) host) := by
  induction active generalizing host with
  | nil => rfl
  | cons role rest ih =>
    rw [List.forall_mem_cons] at fine
    simp [untilStop, service, fine.1, ih fine.2]

theorem untilStop_service_raised (command : Command) (host : Host)
    (failing : ¬ ∀ role ∈ active, fails role = false) :
    ∃ done role rest, active = done ++ role :: rest ∧ fails role = true ∧
      (∀ role ∈ done, fails role = false) ∧ untilStop (service fails command) active host =
        (some (.command role), done.foldl (Host.take command) host) := by
  induction active generalizing host with
  | nil => simp at failing
  | cons first rest ih =>
    cases known : fails first with
    | true => exact ⟨[], first, rest, rfl, known, by simp, by simp [untilStop, service, known]⟩
    | false =>
      obtain ⟨done, role, others, rfl, raises, before, ran⟩ :=
        ih (host.take command first) (by simpa [known] using failing)
      refine ⟨first :: done, role, others, rfl, raises, by simpa [known] using before, ?_⟩
      simp [untilStop, service, known, ran]

theorem failsAtOnce_iff {rest : List HostRole} (before : ∀ role ∈ done, fails role = false)
    (raises : fails role = true) : FailsAtOnce fails (done ++ role :: rest) ↔ done = [] := by
  cases done with
  | nil => simp [FailsAtOnce, raises]
  | cons first done => simp [FailsAtOnce, before first List.mem_cons_self]

theorem not_failsAtOnce (fine : ∀ role ∈ active, fails role = false) :
    ¬ FailsAtOnce fails active := by
  rintro ⟨role, head, raises⟩
  rw [fine role (List.mem_of_head? head)] at raises
  cases raises

theorem standing_stopped_iff (before : host.Standing) :
    (done.foldl (Host.take .stop) host).Standing ↔ done = [] := by
  rw [foldl_take]
  constructor
  · intro standing
    apply List.eq_nil_iff_forall_not_mem.mpr
    intro role listed
    exact standing role (if_pos listed)
  · rintro rfl
    simpa using before

theorem standing_started (before : ∀ role ∉ active, host.last role ≠ some .stop) :
    (active.foldl (Host.take .start) host).Standing := by
  rw [foldl_take]
  intro role
  by_cases listed : role ∈ active
  · simp [listed]
  · simpa [listed] using before role listed

theorem installed_current : (installed bundle release).current = bundle := by
  unfold installed
  split <;> simp [*]

theorem installed_previous : (installed bundle release).previous = release.current ↔
    (release.current = bundle → release.previous = bundle) := by
  unfold installed
  split <;> simp [*]

theorem recover_iff (error : HostError) (standing : host.Standing)
    (new : host.release = installed bundle release) :
    ∃ raised after, recover fates active error host = (some raised, after) ∧
      (after.release.current = release.current ∧ after.Standing ↔
        Recovers fates bundle active release) := by
  by_cases stops : ∀ role ∈ active, fates.stopFailsAgain role = false
  · refine ⟨error, _, by rw [recover, untilStop_service stops], ?_⟩
    rw [and_iff_left (standing_started ?_)]
    · simp only [foldl_take, rejected, new, installed_previous, Recovers, not_failsAtOnce stops,
        and_iff_right stops, and_false, or_false]
    · intro role unlisted
      simpa [foldl_take, unlisted] using standing role
  · obtain ⟨done, role, rest, parts, fails, before, ran⟩ :=
      untilStop_service_raised .stop host stops
    refine ⟨.command role, _, by rw [recover, ran], ?_⟩
    rw [Recovers, or_iff_right fun both => stops both.1, parts, failsAtOnce_iff before fails,
      standing_stopped_iff standing]
    simp only [foldl_take, new, installed_current, @eq_comm _ bundle]

theorem launch_iff (stopped : host.last = fun role => if role ∈ active then some .stop else none)
    (new : host.release = installed bundle release) : (match launch fates active host with
      | (none, after) => after.release.current = bundle ∧ ∀ role ∈ active,
          after.last role = some .start ∧ waitHealthy fates role = none
      | (some _, after) => after.release.current = release.current ∧ after.Standing) ↔
    (∀ role ∈ active, fates.startFails role = false) ∧
      match active.findSome? (waitHealthy fates) with
      | none => True
      | some (.healthFailed _) => Recovers fates bundle active release
      | some _ => release.current = bundle := by
  by_cases starts : ∀ role ∈ active, fates.startFails role = false
  · have standing : (active.foldl (Host.take .start) host).Standing :=
      standing_started fun role unlisted => by simp [stopped, unlisted]
    rw [launch, untilStop_service starts, and_iff_right starts]
    cases checked : active.findSome? (waitHealthy fates) with
    | none =>
      rw [List.findSome?_eq_none_iff] at checked
      simp only [foldl_take, new, installed_current, true_and, iff_true]
      exact fun role member => ⟨if_pos member, checked role member⟩
    | some error =>
      have kept : (active.foldl (Host.take .start) host).release = installed bundle release := by
        rw [foldl_take, new]
      cases error with
      | healthFailed role =>
        obtain ⟨raised, after, ran, exactly⟩ :=
          @recover_iff fates bundle active release _ (.healthFailed role) standing kept
        dsimp only
        rw [ran]
        exact exactly
      | _ =>
        simp only [kept, installed_current, standing, and_true]
        exact eq_comm
  · obtain ⟨done, role, rest, parts, fails, before, ran⟩ :=
      untilStop_service_raised .start host starts
    rw [launch, ran, foldl_take, stopped]
    simp only [starts, false_and, iff_false, not_and]
    intro _ standing
    have unstarted : role ∉ done := fun listed => by simp [before role listed] at fails
    exact standing role (by simp [parts, unstarted])

/-- The pointers are those that an end of this outcome leaves. -/
def Leaves (bundle : String) (release : ReleaseState)
    (o : Interrupt.Outcome UpdateError UpdateResult) (w : World) : Prop :=
  ∃ ending : InstallEnd, w.state.pointers = some ((ending.leaves bundle release).current,
      (ending.leaves bundle release).previous) ∧
    match o with
    | .returned _ => ending = .done
    | .raised _ => ending = .failed
    | .killed => ∃ written, ending = .cutOff written

/-- The ends of the store's own program, whatever fails or kills it on its way. -/
theorem activate_leaves {store : ReleaseStore} {check : Place → Except UpdateError Unit} {s : World}
    (reads : s.Reads release) :
    Interrupt.Wp (store.activate bundle check) (Leaves bundle release) s := by
  have before := reads.pointers
  refine readState_wp ?_ (fun _ => ⟨.failed, before, rfl⟩) ⟨.cutOff false, before, false, rfl⟩
  intro state again
  obtain ⟨current, previous⟩ : state.current = release.current ∧ state.previous = release.previous :=
    Prod.mk.inj (Option.some.inj (again.pointers.symm.trans before))
  rw [current, previous]
  split
  · rename_i same
    apply Interrupt.wp_bind
    refine wp_healthCheck ?_ (fun _ => ⟨.failed, before, rfl⟩) ⟨.cutOff false, before, false, rfl⟩
    intro _
    refine Interrupt.wp_pure ⟨.done, ?_, rfl⟩
    rw [InstallEnd.leaves, installed, if_pos same]
    exact before
  · rename_i other
    have new : installed bundle release = { current := bundle, previous := release.current } :=
      if_neg other
    apply Interrupt.wp_bind
    refine Interrupt.wp_sure ?_ ⟨.cutOff false, before, false, rfl⟩
    refine Interrupt.wp_bind (Interrupt.wp_cleaning (wp_healthCheck ?_ ?_ ?_))
    · intro _
      exact Interrupt.wp_pure ⟨.done, by rw [InstallEnd.leaves, new]; rfl, rfl⟩
    · intro _
      exact Interrupt.wp_sure ⟨.failed, rfl, rfl⟩
        ⟨.cutOff true, by rw [InstallEnd.leaves, new]; rfl, true, rfl⟩
    · exact ⟨.cutOff true, by rw [InstallEnd.leaves, new]; rfl, true, rfl⟩

/-- The Host runs after every update but those that leave it between two steps. -/
theorem atomic_iff (fates : Fates) (bundle : String) (roles : List HostRole)
    (release : ReleaseState) :
    Atomic fates bundle roles release ↔ Orderly fates bundle (activeRoles roles) release := by
  unfold Atomic
  generalize activeRoles roles = active
  have standing : Host.Standing { release } := fun role => by simp
  by_cases stops : ∀ role ∈ active, fates.stopFails role = false
  · rw [update, untilStop_service stops, Orderly, or_iff_right (not_failsAtOnce stops)]
    cases waited : active.findSome? (waitReleased fates) with
    | none =>
      rw [List.findSome?_eq_none_iff] at waited
      rw [and_iff_right fun role member => ⟨stops role member, waited role member⟩, foldl_take]
      have restarted : ∀ release, (active.foldl (Host.take .start)
          { release, last := fun role => if role ∈ active then some .stop else none }).Standing :=
        fun _ => standing_started fun role unlisted => by simp [unlisted]
      cases installs : fates.install with
      | done => exact launch_iff rfl rfl
      | failed => exact iff_of_true ⟨by rw [foldl_take]; rfl, restarted _⟩ trivial
      | cutOff written =>
        have kept := restarted ((InstallEnd.cutOff written).leaves bundle release)
        dsimp only
        rw [and_iff_left kept, foldl_take]
        cases written with
        | true =>
          change (installed bundle release).current = _ ↔ _
          rw [installed_current]
          exact eq_comm
        | false => exact iff_of_true rfl trivial
    | some raised =>
      obtain ⟨role, member, raises⟩ := List.exists_of_findSome?_eq_some waited
      have halted : ¬ (active.foldl (Host.take .stop) { release }).Standing := by
        rw [standing_stopped_iff standing]
        exact List.ne_nil_of_mem member
      simp only [halted, and_false, false_iff]
      exact fun orderly => by simp [(orderly.1 role member).2] at raises
  · obtain ⟨done, role, rest, parts, fails, before, ran⟩ :=
      untilStop_service_raised .stop { release } stops
    rw [update, ran, Orderly, or_iff_left fun both => stops fun role member => (both.1 role member).1,
      parts, failsAtOnce_iff before fails]
    dsimp only
    rw [standing_stopped_iff standing, foldl_take, and_iff_right rfl]

/-- The service of the second role cannot be stopped, and the first role stays down. -/
theorem second_stop_fails : ¬ Atomic
    { stopFails := (· = .node), didNotStop := fun _ => false, portsHeld := fun _ => false
      install := .done, startFails := fun _ => false, health := fun _ => .passed
      stopFailsAgain := fun _ => false } "new" [.hub, .node] { current := "old" } := by
  rintro ⟨-, standing⟩
  exact standing .hub (by decide)

end Knoa.Release.Lifecycle
