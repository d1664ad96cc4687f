import Knoa.Extensions.CapabilityRecords

/-!
# What the operations know

An operation knows its draft until it has published it, and what its call has applied until its
record is written.
-/
namespace Knoa.Extensions.Installs
open Knoa.Configuration
open Knoa.Capabilities (Time)
open Relational (Table)

variable {Settings : Type} {owner : ComponentId → Option String}
  {s s' : CapabilityInstaller Settings} {r r' : Registry (ManagedConfig Settings)}
  {op : Nat} {purpose : Purpose} {stage stage' : Stage Settings}

variable {d d' : ManagedConfig Settings}

theorem allEnabled_congr {ids : List ComponentId} (same : ∀ c ∈ ids, d.Same d' c) :
    d'.AllEnabled ids ↔ d.AllEnabled ids := by
  constructor
  · intro enabled c member
    exact (same c member).enabled?.symm.trans (enabled c member)
  · intro enabled c member
    exact (same c member).enabled?.trans (enabled c member)

/-- An operation leaves the components of another Capability as they are. -/
theorem Edits.foreign (edits : Edits owner purpose d d') {capabilityId : String}
    {ids : List ComponentId} (owned : Owned owner capabilityId ids)
    (other : capabilityId ≠ purpose.capabilityId) : ∀ c ∈ ids, d.Same d' c := by
  intro c member
  refine edits.only.components c fun mine => other ?_
  rw [owned.owned c member] at mine
  exact Option.some.inj mine

theorem owned_bundle (bundle : CapabilityBundle)
    (mine : ∀ c ∈ bundle.components, owner c = some bundle.capabilityId) :
    Owned owner bundle.capabilityId (bundle.componentPackages.map Prod.fst) := by
  refine ⟨fun empty => ?_, fun c member => mine c ((mem_componentPackages bundle c).mp member)⟩
  have none_in : ∀ c, c ∉ bundle.components := by
    intro c member
    have listed := (mem_componentPackages bundle c).mpr member
    rw [empty] at listed
    cases listed
  rcases bundle.nonempty with some_server | some_skill
  · obtain ⟨server, member⟩ := List.exists_mem_of_ne_nil _ some_server
    exact none_in _ (List.mem_append_left _ (List.mem_map_of_mem member))
  · obtain ⟨skill, member⟩ := List.exists_mem_of_ne_nil _ some_skill
    exact none_in _ (List.mem_append_right _ (List.mem_map_of_mem member))

theorem mem_componentIds (plan : CapabilityInstallPlan) (c : ComponentId) :
    c ∈ plan.componentIds ↔ c ∈ plan.componentPackages.map Prod.fst :=
  List.mem_insertionSort _

/-- Installing a bundle enables its own components. -/
theorem edits_install (bundle : CapabilityBundle) (d : ManagedConfig Settings)
    (mine : ∀ c ∈ bundle.components, owner c = some bundle.capabilityId) :
    Edits owner (.prepare bundle) d (bundle.install d) := by
  refine ⟨changesOnly_install bundle d mine, ?_⟩
  refine ⟨fun _ => rfl, fun _ c member => ?_⟩
  exact allEnabled_install bundle d c ((mem_componentPackages bundle c).mp member)

/-- Only what is configured can be enabled. -/
theorem edits_setComponents (installation : CapabilityInstallation) (enabled : Bool)
    (d : ManagedConfig Settings)
    (owned : Owned owner installation.capabilityId installation.componentIds)
    (present : enabled = true → ∀ c ∈ installation.componentIds, d.enabled? c ≠ none) :
    Edits owner (.setEnabled installation enabled) d
      (d.setComponents installation.componentIds enabled) := by
  refine ⟨changesOnly_setComponents _ enabled d owned.owned, ?_⟩
  constructor
  · intro all
    obtain ⟨c, member⟩ := List.exists_mem_of_ne_nil _ owned.nonempty
    have flagged := enabled_setComponents _ enabled d member
    rw [all c member] at flagged
    obtain ⟨-, -, same⟩ := Option.map_eq_some_iff.mp flagged.symm
    exact same
  · intro on c member
    have listed : c ∈ installation.componentIds := member
    obtain ⟨before, found⟩ := Option.ne_none_iff_exists'.mp (present on c listed)
    refine (enabled_setComponents installation.componentIds enabled d listed).trans ?_
    rw [found, Option.map_some]
    exact congrArg some on

theorem Edits.plan {bundle : CapabilityBundle} (edits : Edits owner (.prepare bundle) d d')
    (digest : CapabilityInstallPlan → String) (operationId draftId : String) (version : Nat)
    (previous : String) :
    Edits owner (.confirm (bundle.plan digest operationId draftId version previous)) d d' := by
  refine ⟨edits.only, fun _ => rfl, fun _ c member => ?_⟩
  exact edits.flag.mpr rfl c ((mem_componentIds _ c).mp member)

variable {o : Operation Settings}

/-- What an operation knows lasts while the registry grows and no draft is created under its own id. -/
theorem StageSound.mono {created : String → Prop} (known : StageSound owner r o.purpose o.stage)
    (grows : r.Grows created r') (old : ∀ draftId, o.Uses draftId → ¬ created draftId)
    (force : o.stage.Landed → ∀ d, r.inForce = some d → ∃ d', r'.inForce = some d' ∧
      (d'.AllEnabled o.purpose.componentIds ↔ d.AllEnabled o.purpose.componentIds)) :
    StageSound owner r' o.purpose o.stage := by
  obtain ⟨purpose, stage⟩ := o
  cases stage with
  | reading | drafting previous => trivial
  | editing previous draft =>
    have prepared : r.Prepared draft.draftId draft.draftVersion
        fun base _ => base = draft.document := known
    exact prepared.mono grows (old _ (.inr rfl))
  | edited previous draft =>
    have prepared : r.Prepared draft.draftId draft.draftVersion (Edits owner purpose) := known
    exact prepared.mono grows (old _ (.inr rfl))
  | validating =>
    intro plan same
    exact (known plan same).mono grows (old _ (.inl ⟨plan, same, rfl⟩))
  | calling call previous =>
    cases call with
    | publish draftId version => exact ⟨known.1, known.2.mono grows (old _ (.inr rfl))⟩
    | rollback revisionId => exact known
  | called previous reply =>
    refine ⟨known.1, fun given replied idle => ?_⟩
    obtain ⟨applied, d, found, flag⟩ := known.2 given replied idle
    obtain ⟨d', found', same⟩ := force ⟨given, replied, idle⟩ d found
    exact ⟨applied, d', found', same.trans flag⟩
  | restoring previous | restored reply => exact known

theorem Serves.mono {call : ServiceCall (ManagedConfig Settings)} (serves : Serves owner r o call)
    (force : r'.inForce = r.inForce) : Serves owner r' o call :=
  ⟨serves.awaits, fun revision target d found =>
    serves.brings revision target d (force.symm.trans found)⟩

theorem operations_set (s : CapabilityInstaller Settings) (op : Nat)
    (operation : Option (Operation Settings)) (op' : Nat) :
    (s.setOperation op operation).operations op' =
      if op' = op then operation else s.operations op' :=
  Function.update_apply s.operations op operation op'

variable {operation : Option (Operation Settings)} {op' : Nat}

theorem operation_of_set (h : (s.setOperation op operation).operations op' = some o) :
    op' = op ∧ operation = some o ∨ op' ≠ op ∧ s.operations op' = some o := by
  rw [operations_set] at h
  split at h
  next same => exact .inl ⟨same, h⟩
  next other => exact .inr ⟨other, h⟩

theorem operation_of_end (h : (s.setOperation op none).operations op' = some o) :
    op' ≠ op ∧ s.operations op' = some o := by
  rcases operation_of_set h with ⟨-, ended⟩ | kept
  · cases ended
  · exact kept

theorem set_other (other : op' ≠ op) :
    (s.setOperation op operation).operations op' = s.operations op' := by
  rw [operations_set, if_neg other]

theorem set_here : (s.setOperation op operation).operations op = operation := by
  rw [operations_set, if_pos rfl]

namespace OperationsSound

theorem of_plans (sound : OperationsSound owner s) (plans : Table CapabilityInstallPlan.operationId)
    (confirmed : List String) (changes : List (Change Settings)) : OperationsSound owner
      { s with plans, confirmed, changes } :=
  ⟨sound.stands, sound.stages, sound.purposes, sound.held, sound.exclusive, sound.records⟩

/-- An operation that no call serves does not hold the lock. -/
theorem not_held (sound : OperationsSound owner s) (here : s.operations op = some o)
    (waits : ∀ call, ¬ Serves owner s.configuration.registry o call) : s.holder ≠ some op := by
  intro holds
  obtain ⟨o', call, here', -, serves⟩ := sound.held op holds
  rw [here] at here'
  cases here'
  exact waits call serves

variable {previous : String}

theorem calling_writes (sound : OperationsSound owner s) {call : Call}
    (here : s.operations op = some ⟨purpose, .calling call previous⟩) : purpose.writes = true := by
  have known := sound.stages op _ here
  cases call with
  | publish draftId version => exact known.1
  | rollback revisionId => exact known

theorem landed_writes (sound : OperationsSound owner s) (here : s.operations op = some o)
    (landed : o.stage.Landed) : o.purpose.writes = true := by
  have known := sound.stages op o here
  obtain ⟨purpose, stage⟩ := o
  cases stage with
  | called previous reply => exact known.1
  | _ => exact landed.elim

/-- The holder keeps its call while another operation moves. -/
theorem held_set (sound : OperationsSound owner s) (free : s.holder ≠ some op)
    (operation : Option (Operation Settings)) : ∀ op', s.holder = some op' →
      ∃ o call, (s.setOperation op operation).operations op' = some o ∧
        s.configuration.call = some call ∧ Serves owner s.configuration.registry o call := by
  intro op' holds
  obtain ⟨o, call, here, awaited, serves⟩ := sound.held op' holds
  refine ⟨o, call, (set_other ?_).trans here, awaited, serves⟩
  rintro rfl
  exact free holds

theorem set_purpose (here : s.operations op = some ⟨purpose, stage⟩) : ∀ op' o,
    (s.setOperation op (some ⟨purpose, stage'⟩)).operations op' = some o →
      ∃ o', s.operations op' = some o' ∧ o'.purpose = o.purpose := by
  intro op' o here'
  rcases operation_of_set here' with ⟨rfl, moved⟩ | ⟨-, kept⟩
  · cases moved
    exact ⟨_, here, rfl⟩
  · exact ⟨o, kept, rfl⟩

section
variable {operations : Nat → Option (Operation Settings)} (sound : OperationsSound owner s)
  (before : ∀ op o, operations op = some o →
    ∃ o', s.operations op = some o' ∧ o'.purpose = o.purpose)
include sound before

theorem purposes_of (op : Nat) (o : Operation Settings) (here : operations op = some o) :
    Owned owner o.purpose.capabilityId o.purpose.componentIds := by
  obtain ⟨o', kept, same⟩ := before op o here
  exact same ▸ sound.purposes op o' kept

theorem exclusive_of (op op' : Nat) (o o' : Operation Settings) (here : operations op = some o)
    (here' : operations op' = some o') (writes : o.purpose.writes = true)
    (writes' : o'.purpose.writes = true)
    (about : o.purpose.capabilityId = o'.purpose.capabilityId) : op = op' := by
  obtain ⟨p, kept, same⟩ := before op o here
  obtain ⟨p', kept', same'⟩ := before op' o' here'
  exact sound.exclusive op op' p p' kept kept' (same ▸ writes) (same' ▸ writes')
    (same ▸ same' ▸ about)

end

variable {after : ConfigurationService (ManagedConfig Settings)}

theorem enabled_congr {ids : List ComponentId} (force : s.inForce = some d)
    (force' : after.registry.inForce = some d') (same : d'.AllEnabled ids ↔ d.AllEnabled ids) :
    s.Enabled ids ↔ ∃ d, after.registry.inForce = some d ∧ d.AllEnabled ids := by
  simp [CapabilityInstaller.Enabled, force, force', same]

section
variable (sound : OperationsSound owner s)
include sound

/-- Another client changes the registry, and not what is in force. -/
theorem configures (stands : ServiceStands after)
    {created : String → Prop} (grows : s.configuration.registry.Grows created after.registry)
    (unused : ∀ draftId, created draftId → s.Unused draftId)
    (force : after.registry.inForce = s.inForce) {holder : Option Nat}
    (held : ∀ op, holder = some op → ∃ o call, s.operations op = some o ∧ after.call = some call ∧
      Serves owner after.registry o call) :
    OperationsSound owner { s with configuration := after, holder } where
  stands := stands
  stages := by
    intro op o here
    refine (sound.stages op o here).mono grows
      (fun draftId uses new => (unused draftId new).2 op o here uses) fun _ d found => ?_
    exact ⟨d, force.trans found, Iff.rfl⟩
  purposes := sound.purposes
  held := held
  exclusive := sound.exclusive
  records := by
    intro capabilityId installation found
    obtain ⟨owned, agrees⟩ := sound.records capabilityId installation found
    refine ⟨owned, fun rest => (agrees rest).trans ?_⟩
    unfold CapabilityInstaller.Enabled CapabilityInstaller.inForce
    rw [force]
    rfl

/-- A writing operation starts only where none of its Capability is under way. -/
theorem starts (idle : s.operations op = none)
    (owned : Owned owner purpose.capabilityId purpose.componentIds)
    (rest : purpose.writes = true → s.AtRest purpose.capabilityId)
    (known : StageSound owner s.configuration.registry purpose stage) :
    OperationsSound owner (s.setOperation op (some ⟨purpose, stage⟩)) where
  stands := sound.stands
  stages := by
    intro op' o here
    rcases operation_of_set here with ⟨rfl, started⟩ | ⟨-, kept⟩
    · cases started
      exact known
    · exact sound.stages op' o kept
  purposes := by
    intro op' o here
    rcases operation_of_set here with ⟨rfl, started⟩ | ⟨-, kept⟩
    · cases started
      exact owned
    · exact sound.purposes op' o kept
  held := by
    refine sound.held_set (fun holds => ?_) _
    obtain ⟨o, call, here, -⟩ := sound.held op holds
    rw [idle] at here
    cases here
  exclusive := by
    intro op' op'' o o' here here' writes writes' about
    rcases operation_of_set here with ⟨rfl, started⟩ | ⟨-, kept⟩
    · rcases operation_of_set here' with ⟨rfl, -⟩ | ⟨-, kept'⟩
      · rfl
      · cases started
        exact absurd about.symm (rest writes op'' o' kept' writes')
    · rcases operation_of_set here' with ⟨rfl, started'⟩ | ⟨-, kept'⟩
      · cases started'
        exact absurd about (rest writes' op' o kept writes)
      · exact sound.exclusive op' op'' o o' kept kept' writes writes' about
  records := by
    intro capabilityId installation found
    obtain ⟨owned, agrees⟩ := sound.records capabilityId installation found
    refine ⟨owned, fun still => agrees ?_⟩
    rintro ⟨op', o, here, writes, about, landed⟩
    refine still ⟨op', o, (set_other ?_).trans here, writes, about, landed⟩
    rintro rfl
    rw [idle] at here
    cases here

theorem moves (here : s.operations op = some ⟨purpose, stage⟩)
    (free : s.holder ≠ some op) (same : stage'.Landed ↔ stage.Landed)
    (known : StageSound owner s.configuration.registry purpose stage') :
    OperationsSound owner (s.setOperation op (some ⟨purpose, stage'⟩)) where
  stands := sound.stands
  stages := by
    intro op' o here'
    rcases operation_of_set here' with ⟨rfl, moved⟩ | ⟨-, kept⟩
    · cases moved
      exact known
    · exact sound.stages op' o kept
  purposes := sound.purposes_of (set_purpose here)
  held := sound.held_set free _
  exclusive := sound.exclusive_of (set_purpose here)
  records := by
    intro capabilityId installation found
    obtain ⟨owned, agrees⟩ := sound.records capabilityId installation found
    refine ⟨owned, fun rest => agrees ?_⟩
    rintro ⟨op', o, here', writes, about, landed⟩
    by_cases itself : op' = op
    · subst itself
      rw [here] at here'
      cases here'
      exact rest ⟨op', ⟨purpose, stage'⟩, set_here, writes, about, same.mpr landed⟩
    · exact rest ⟨op', o, (set_other itself).trans here', writes, about, landed⟩

theorem ends (here : s.operations op = some ⟨purpose, stage⟩)
    (free : s.holder ≠ some op) (rest : ¬ stage.Landed) :
    OperationsSound owner (s.setOperation op none) where
  stands := sound.stands
  stages := fun op' o here' => sound.stages op' o (operation_of_end here').2
  purposes := fun op' o here' => sound.purposes op' o (operation_of_end here').2
  held := sound.held_set free none
  exclusive := fun op' op'' o o' here' here'' =>
    sound.exclusive op' op'' o o' (operation_of_end here').2 (operation_of_end here'').2
  records := by
    intro capabilityId installation found
    obtain ⟨owned, agrees⟩ := sound.records capabilityId installation found
    refine ⟨owned, fun still => agrees ?_⟩
    rintro ⟨op', o, here', writes, about, landed⟩
    by_cases itself : op' = op
    · subst itself
      rw [here] at here'
      cases here'
      exact rest landed
    · exact still ⟨op', o, (set_other itself).trans here', writes, about, landed⟩

/-- The record is written as the purpose says, and the operation returns. -/
theorem settles {given : String × ConfigControlState}
    (here : s.operations op = some ⟨purpose, .called previous (some given)⟩)
    (free : s.holder ≠ some op) (idle : given.2.applyStatus = .idle)
    (installation : CapabilityInstallation)
    (about : installation.capabilityId = purpose.capabilityId)
    (lists : installation.componentIds = purpose.componentIds)
    (flag : installation.enabled = purpose.enables) :
    OperationsSound owner ((s.putInstallation installation).setOperation op none) where
  stands := sound.stands
  stages := fun op' o here' => sound.stages op' o (operation_of_end here').2
  purposes := fun op' o here' => sound.purposes op' o (operation_of_end here').2
  held := sound.held_set free none
  exclusive := fun op' op'' o o' here' here'' =>
    sound.exclusive op' op'' o o' (operation_of_end here').2 (operation_of_end here'').2
  records := by
    intro capabilityId row found
    have looked := (Table.lookup_upsert s.installations installation capabilityId).symm.trans found
    split at looked
    next same =>
      cases looked
      have owned := sound.purposes op _ here
      obtain ⟨-, landed⟩ := sound.stages op _ here
      obtain ⟨-, d, force, agrees⟩ := landed given rfl idle
      rw [← same, about, lists]
      refine ⟨owned, fun _ => ?_⟩
      rw [flag]
      constructor
      · exact fun on => ⟨d, force, agrees.mpr on⟩
      · rintro ⟨d', force', enabled⟩
        have force : s.configuration.registry.inForce = some d := force
        rw [show s.configuration.registry.inForce = some d' from force'] at force
        cases force
        exact agrees.mp enabled
    next other =>
      obtain ⟨owned, agrees⟩ := sound.records capabilityId row looked
      refine ⟨owned, fun still => agrees ?_⟩
      rintro ⟨op', o, here', writes, names, landed⟩
      by_cases itself : op' = op
      · subst itself
        rw [here] at here'
        cases here'
        exact other (about.trans names)
      · exact still ⟨op', o, (set_other itself).trans here', writes, names, landed⟩

/-- The call of an operation is applied, and its edit is what changes. -/
theorem applies {given : String × ConfigControlState}
    {call : Call} (here : s.operations op = some ⟨purpose, .calling call previous⟩)
    (stands : ServiceStands after)
    (grows : s.configuration.registry.Grows (fun _ => False) after.registry)
    (force : s.inForce = some d) (force' : after.registry.inForce = some d')
    (edits : Edits owner purpose d d') (idle : given.2.applyStatus = .idle)
    (applied : given.2.appliedRevisionId = given.1) : OperationsSound owner
      { s.setOperation op (some ⟨purpose, .called previous (some given)⟩) with
        configuration := after, holder := none } where
  stands := stands
  stages := by
    intro op' o here'
    rcases operation_of_set here' with ⟨rfl, moved⟩ | ⟨other, kept⟩
    · cases moved
      refine ⟨sound.calling_writes here, fun reply replied _ => ?_⟩
      cases replied
      exact ⟨applied, d', force', edits.flag⟩
    · refine (sound.stages op' o kept).mono grows (fun _ _ => not_false) fun landed d₀ found => ?_
      have force : s.configuration.registry.inForce = some d := force
      rw [found] at force
      cases force
      refine ⟨d', force', allEnabled_congr ?_⟩
      refine edits.foreign (sound.purposes op' o kept) fun same => other ?_
      exact sound.exclusive op' op o _ kept here (sound.landed_writes kept landed)
        (sound.calling_writes here) same
  purposes := sound.purposes_of (set_purpose here)
  held := fun _ held => nomatch held
  exclusive := sound.exclusive_of (set_purpose here)
  records := by
    intro capabilityId installation found
    obtain ⟨owned, agrees⟩ := sound.records capabilityId installation found
    refine ⟨owned, fun rest => ?_⟩
    have other : capabilityId ≠ purpose.capabilityId := by
      rintro rfl
      exact rest ⟨op, _, set_here, sound.calling_writes here, rfl, _, rfl, idle⟩
    have before : ¬ s.Landed capabilityId := by
      rintro ⟨op', o, here', writes, about, landed⟩
      refine rest ⟨op', o, (set_other ?_).trans here', writes, about, landed⟩
      rintro rfl
      rw [here] at here'
      cases here'
      exact other about.symm
    exact (agrees before).trans
      (enabled_congr force force' (allEnabled_congr (edits.foreign owned other)))

/-- Another client's revision is applied, the same on every owned component. -/
theorem outside (free : s.holder = none) (stands : ServiceStands after)
    (grows : s.configuration.registry.Grows (fun _ => False) after.registry)
    (force : s.inForce = some d) (force' : after.registry.inForce = some d')
    (apart : ∀ c, owner c ≠ none → d.Same d' c) :
    OperationsSound owner { s with configuration := after } where
  stands := stands
  stages := by
    intro op' o here'
    refine (sound.stages op' o here').mono grows (fun _ _ => not_false) fun landed d₀ found => ?_
    have force : s.configuration.registry.inForce = some d := force
    rw [found] at force
    cases force
    refine ⟨d', force', allEnabled_congr fun c member => apart c ?_⟩
    rw [(sound.purposes op' o here').owned c member]
    exact Option.some_ne_none _
  purposes := sound.purposes
  held := by
    intro op' holds
    have holds : s.holder = some op' := holds
    rw [free] at holds
    cases holds
  exclusive := sound.exclusive
  records := by
    intro capabilityId installation found
    obtain ⟨owned, agrees⟩ := sound.records capabilityId installation found
    have same : d'.AllEnabled installation.componentIds ↔ d.AllEnabled installation.componentIds := by
      refine allEnabled_congr fun c member => apart c ?_
      rw [owned.owned c member]
      exact Option.some_ne_none _
    exact ⟨owned, fun rest => (agrees rest).trans (enabled_congr force force' same)⟩

end

end OperationsSound

end Knoa.Extensions.Installs
