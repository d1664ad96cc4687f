import Knoa.Extensions.OperationKnowledge

/-!
# Plans

A plan waits for its confirmation, and while its operation is under way nobody else changes its
state.
-/
namespace Knoa.Extensions.Installs
open Knoa.Configuration
open Knoa.Capabilities (Time)
open Relational (Table)

variable {Settings : Type} {owner : ComponentId → Option String}
  {s s' : CapabilityInstaller Settings} {op : Nat} {purpose : Purpose}
  {stage stage' : Stage Settings}

namespace PlansSound

section
variable (sound : PlansSound owner s)
include sound

theorem of_records
    (installations : Table CapabilityInstallation.capabilityId) (holder : Option Nat) :
    PlansSound owner { s with installations, holder } :=
  ⟨sound.confirming, sound.waiting, sound.installing, sound.failed, sound.confirmed, sound.once,
    sound.causes, sound.own⟩

theorem configures {after : ConfigurationService (ManagedConfig Settings)} {created : String → Prop}
    (grows : s.configuration.registry.Grows created after.registry)
    (unused : ∀ draftId, created draftId → s.Unused draftId) :
    PlansSound owner { s with configuration := after } :=
  { sound with
    waiting := by
      intro id plan found state
      obtain ⟨owned, prepared⟩ := sound.waiting id plan found state
      exact ⟨owned, prepared.mono grows fun new => (unused _ new).1 id plan found rfl⟩ }

theorem starts (idle : s.operations op = none) (other : ∀ plan, purpose ≠ .confirm plan) :
    PlansSound owner (s.setOperation op (some ⟨purpose, stage⟩)) :=
  { sound with
    confirming := by
      intro op' plan stage' here
      rcases operation_of_set here with ⟨-, started⟩ | ⟨-, kept⟩
      · cases started
        exact absurd rfl (other plan)
      · exact sound.confirming op' plan stage' kept
    installing := by
      intro id plan found state
      obtain ⟨op', plan', stage', here, names⟩ := sound.installing id plan found state
      refine ⟨op', plan', stage', (set_other ?_).trans here, names⟩
      rintro rfl
      rw [idle] at here
      cases here }

theorem moves (here : s.operations op = some ⟨purpose, stage⟩)
    (landed : stage.Landed → stage'.Landed) :
    PlansSound owner (s.setOperation op (some ⟨purpose, stage'⟩)) :=
  { sound with
    confirming := by
      intro op' plan stage'' here'
      rcases operation_of_set here' with ⟨rfl, moved⟩ | ⟨-, kept⟩
      · cases moved
        obtain ⟨member, row, quiet⟩ := sound.confirming op' plan stage here
        exact ⟨member, row, fun on_way => quiet fun was => on_way (landed was)⟩
      · exact sound.confirming op' plan stage'' kept
    installing := by
      intro id plan found state
      obtain ⟨op', plan', st, here', names⟩ := sound.installing id plan found state
      by_cases itself : op' = op
      · subst itself
        rw [here] at here'
        cases here'
        exact ⟨op', plan', stage', set_here, names⟩
      · exact ⟨op', plan', st, (set_other itself).trans here', names⟩ }

/-- An operation that confirms no plan may end anywhere. -/
theorem ends (here : s.operations op = some ⟨purpose, stage⟩)
    (other : ∀ plan, purpose ≠ .confirm plan) : PlansSound owner (s.setOperation op none) :=
  { sound with
    confirming := fun op' plan st here' => sound.confirming op' plan st (operation_of_end here').2
    installing := by
      intro id plan found state
      obtain ⟨op', plan', st, here', names⟩ := sound.installing id plan found state
      refine ⟨op', plan', st, (set_other ?_).trans here', names⟩
      rintro rfl
      rw [here] at here'
      cases here'
      exact other plan' rfl }

end

variable {plan : CapabilityInstallPlan}

section
variable (sound : PlansSound owner s)
include sound

theorem plans (fresh : s.plans.lookup plan.operationId = none)
    (waits : plan.state = .awaitingConfirmation)
    (owned : Owned owner plan.capabilityId plan.componentIds)
    (prepared : s.configuration.registry.Prepared plan.draftId plan.draftVersion
      (Edits owner (.confirm plan))) :
    PlansSound owner (s.putPlan plan) := by
  have looked := Table.lookup_upsert s.plans plan
  have old : ∀ id row, s.plans.lookup id = some row →
      (s.putPlan plan).plans.lookup id = some row := by
    intro id row found
    refine (looked id).trans ?_
    rw [if_neg, found]
    rintro rfl
    rw [fresh] at found
    cases found
  have new : ∀ id row, (s.putPlan plan).plans.lookup id = some row →
      row.state ≠ .awaitingConfirmation → s.plans.lookup id = some row := by
    intro id row found state
    have found := (looked id).symm.trans found
    split at found
    · cases found
      exact absurd waits state
    · exact found
  exact
    { confirming := by
        intro op' plan' st here
        obtain ⟨member, row, quiet⟩ := sound.confirming op' plan' st here
        exact ⟨member, old _ _ row, quiet⟩
      waiting := by
        intro id row found state
        have found := (looked id).symm.trans found
        split at found
        · cases found
          exact ⟨owned, prepared⟩
        · exact sound.waiting id row found state
      installing := by
        intro id row found state
        refine sound.installing id row (new id row found ?_) state
        rw [state]
        decide
      failed := by
        intro id row found state
        refine sound.failed id row (new id row found ?_) state
        rw [state]
        decide
      confirmed := by
        intro id member
        obtain ⟨row, found, state⟩ := sound.confirmed id member
        exact ⟨row, old id row found, state⟩
      once := sound.once
      causes := sound.causes
      own := sound.own }

/-- Only a plan that waits is confirmed, so none is confirmed twice. -/
theorem confirms (idle : s.operations op = none) {id : String}
    (found : s.plans.lookup id = some plan) (waits : plan.state = .awaitingConfirmation) :
    PlansSound owner
      ({ s.putPlan { plan with state := .installing } with
        confirmed := s.confirmed ++ [id] }.setOperation op
          (some ⟨.confirm plan, .validating⟩)) := by
  have key : plan.operationId = id := Table.lookup_key found
  have fresh : id ∉ s.confirmed := by
    intro member
    obtain ⟨row, found', state⟩ := sound.confirmed id member
    rw [found] at found'
    cases found'
    exact state waits
  have looked := Table.lookup_upsert s.plans { plan with state := .installing }
  have here : ∀ id', id' = id → (s.plans.upsert { plan with state := .installing }).lookup id' =
      some { plan with state := .installing } := by
    rintro id' rfl
    exact (looked _).trans (if_pos key)
  have other : ∀ id', id' ≠ id → (s.plans.upsert { plan with state := .installing }).lookup id' =
      s.plans.lookup id' := by
    intro id' apart
    exact (looked id').trans (if_neg fun same => apart (same.symm.trans key))
  exact
    { confirming := by
        intro op' plan' st here'
        rcases operation_of_set here' with ⟨-, started⟩ | ⟨-, kept⟩
        · cases started
          refine ⟨List.mem_append_right _ (List.mem_singleton.mpr key), here _ key, fun _ => ?_⟩
          intro change member plan'' caused names
          rw [key] at names
          exact absurd (names ▸ sound.causes change member plan'' caused) fresh
        · obtain ⟨member, row, quiet⟩ := sound.confirming op' plan' st kept
          refine ⟨List.mem_append_left _ member, (other _ ?_).trans row, quiet⟩
          rintro same
          exact fresh (same ▸ member)
      waiting := by
        intro id' row found' state
        by_cases same : id' = id
        · cases (here id' same).symm.trans found'
          cases state
        · exact sound.waiting id' row ((other id' same).symm.trans found') state
      installing := by
        intro id' row found' state
        by_cases same : id' = id
        · exact ⟨op, plan, .validating, set_here, key.trans same.symm⟩
        · obtain ⟨op', plan', st, running, names⟩ :=
            sound.installing id' row ((other id' same).symm.trans found') state
          refine ⟨op', plan', st, (set_other ?_).trans running, names⟩
          rintro rfl
          rw [idle] at running
          cases running
      failed := by
        intro id' row found' state
        by_cases same : id' = id
        · cases (here id' same).symm.trans found'
          cases state
        · exact sound.failed id' row ((other id' same).symm.trans found') state
      confirmed := by
        intro id' member
        by_cases same : id' = id
        · refine ⟨_, here id' same, ?_⟩
          intro state
          cases state
        · rcases List.mem_concat.mp member with old | new
          · obtain ⟨row, found', state⟩ := sound.confirmed id' old
            exact ⟨row, (other id' same).trans found', state⟩
          · exact absurd new same
      once := by
        rw [CapabilityInstaller.setOperation]
        exact List.nodup_append.mpr ⟨sound.once, List.nodup_singleton id, fun a member b single =>
          fun same => fresh (List.mem_singleton.mp single ▸ same ▸ member)⟩
      causes := fun change member plan' caused =>
        List.mem_append_left _ (sound.causes change member plan' caused)
      own := sound.own }

/-- The operation of a plan ends, and leaves it in a final state. -/
theorem concludes (here : s.operations op = some ⟨.confirm plan, stage⟩)
    (alone : ∀ op' plan' st, s.operations op' = some ⟨.confirm plan', st⟩ →
      plan'.capabilityId = plan.capabilityId → op' = op)
    {state : PlanState} (isOver : state = .installed ∨ state = .failed)
    (quiet : state = .failed → s.Quiet plan.operationId) :
    PlansSound owner ((s.putPlan { plan with state }).setOperation op none) := by
  obtain ⟨-, row, -⟩ := sound.confirming op plan stage here
  have looked := Table.lookup_upsert s.plans { plan with state }
  have mine : ∀ id, id = plan.operationId → (s.plans.upsert { plan with state }).lookup id =
      some { plan with state } := by
    rintro id rfl
    exact (looked _).trans (if_pos rfl)
  have other : ∀ id, id ≠ plan.operationId →
      (s.plans.upsert { plan with state }).lookup id = s.plans.lookup id := by
    intro id apart
    exact (looked id).trans (if_neg fun same => apart same.symm)
  exact
    { confirming := by
        intro op' plan' st here'
        obtain ⟨itself, running⟩ := operation_of_end here'
        obtain ⟨member, row', quiet'⟩ := sound.confirming op' plan' st running
        refine ⟨member, (other _ fun same => itself ?_).trans row', quiet'⟩
        rw [same, row] at row'
        exact alone op' plan' st running
          (congrArg CapabilityInstallPlan.capabilityId (Option.some.inj row')).symm
      waiting := by
        intro id row' found waits
        by_cases same : id = plan.operationId
        · cases (mine id same).symm.trans found
          rcases isOver with rfl | rfl <;> cases waits
        · exact sound.waiting id row' ((other id same).symm.trans found) waits
      installing := by
        intro id row' found state'
        by_cases same : id = plan.operationId
        · cases (mine id same).symm.trans found
          rcases isOver with rfl | rfl <;> cases state'
        · obtain ⟨op', plan', st, running, names⟩ :=
            sound.installing id row' ((other id same).symm.trans found) state'
          refine ⟨op', plan', st, (set_other ?_).trans running, names⟩
          rintro rfl
          rw [here] at running
          cases running
          exact same names.symm
      failed := by
        intro id row' found state'
        by_cases same : id = plan.operationId
        · cases (mine id same).symm.trans found
          rw [same]
          exact quiet state'
        · exact sound.failed id row' ((other id same).symm.trans found) state'
      confirmed := by
        intro id member
        by_cases same : id = plan.operationId
        · refine ⟨_, mine id same, ?_⟩
          rcases isOver with rfl | rfl <;> exact PlanState.noConfusion
        · obtain ⟨row', found, state'⟩ := sound.confirmed id member
          exact ⟨row', (other id same).trans found, state'⟩
      once := sound.once
      causes := sound.causes
      own := sound.own }

theorem applies (change : Change Settings)
    (only : ∀ purpose, change.cause = some purpose → ∃ d d', change.before = some d ∧
      change.after = some d' ∧ ChangesOnly (fun c => owner c = some purpose.capabilityId) d d')
    (running : ∀ plan, change.cause = some (.confirm plan) → ∃ op stage,
      s.operations op = some ⟨.confirm plan, stage⟩ ∧
        (change.after = change.before ∨ stage.Landed) ∧
        ∀ op' plan' st, s.operations op' = some ⟨.confirm plan', st⟩ →
          plan'.capabilityId = plan.capabilityId → op' = op) :
    PlansSound owner { s with changes := s.changes ++ [change] } := by
  have quiet : ∀ id, s.Quiet id → (∀ plan, change.cause = some (.confirm plan) →
      plan.operationId = id → change.after = change.before) →
        { s with changes := s.changes ++ [change] }.Quiet id := by
    intro id before same earlier member plan caused names
    rcases List.mem_concat.mp member with old | rfl
    · exact before earlier old plan caused names
    · exact same plan caused names
  exact
    { confirming := by
        intro op' plan' st here
        obtain ⟨member, row, on_way⟩ := sound.confirming op' plan' st here
        refine ⟨member, row, fun waiting => quiet _ (on_way waiting) fun plan caused names => ?_⟩
        obtain ⟨op, stage, here', same | landed, alone⟩ := running plan caused
        · exact same
        · obtain ⟨-, row', -⟩ := sound.confirming op plan stage here'
          rw [names, row] at row'
          have about := congrArg CapabilityInstallPlan.capabilityId (Option.some.inj row')
          have itself := alone op' plan' st here about
          rw [itself, here'] at here
          cases here
          exact absurd landed waiting
      waiting := sound.waiting
      installing := sound.installing
      failed := by
        intro id row found state
        refine quiet id (sound.failed id row found state) fun plan caused names => ?_
        obtain ⟨op, stage, here', -⟩ := running plan caused
        obtain ⟨-, row', -⟩ := sound.confirming op plan stage here'
        rw [names, found] at row'
        rw [Option.some.inj row'] at state
        cases state
      confirmed := sound.confirmed
      once := sound.once
      causes := by
        intro earlier member plan caused
        rcases List.mem_concat.mp member with old | rfl
        · exact sound.causes earlier old plan caused
        · obtain ⟨op, stage, here, -⟩ := running plan caused
          exact (sound.confirming op plan stage here).1
      own := by
        intro earlier member purpose caused
        rcases List.mem_concat.mp member with old | rfl
        · exact sound.own earlier old purpose caused
        · exact only purpose caused }

end

end PlansSound

end Knoa.Extensions.Installs
