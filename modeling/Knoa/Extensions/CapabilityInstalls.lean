import Knoa.Extensions.PlanStates
import Knoa.Library.Transition

/-!
# Installing Capabilities

Under the condition every step keeps what the operations know and what the plans say, and so the
records agree with the configuration.
-/
namespace Knoa.Extensions.Installs
open Knoa.Configuration
open Knoa.Capabilities (Time)
open Relational Transition

variable {Settings : Type} {owner : ComponentId → Option String}
  {digest : ManagedConfig Settings → String} {planDigest : CapabilityInstallPlan → String}
  {s s' : CapabilityInstaller Settings} {op : Nat} {purpose : Purpose}
  {stage stage' : Stage Settings}

section Service
variable {c c' : ConfigurationService (ManagedConfig Settings)} {now : Time}
  {draftId actor summary : String}

theorem createDraft_step (h : c.step digest (.createDraft now draftId actor) = some c') :
    c'.call = c.call ∧ ∃ draft, c'.registry.drafts.lookup draftId = some draft ∧
      draft.draftId = draftId ∧ draft.draftVersion = 1 ∧
      c'.registry.document? draft.baseRevisionId = some draft.document := by
  simp only [ConfigurationService.step] at h
  split at h <;> cases h
  next draft registry created =>
    obtain ⟨grows, -, stored, version, base⟩ := createDraft_grows created
    exact ⟨rfl, draft, stored, Table.lookup_key stored, version, grows.document? base⟩

theorem replaceDraft_step {document : ManagedConfig Settings} {version : Nat}
    (h : c.step digest (.replaceDraft now draftId (some document) version actor) = some c') :
    c'.call = c.call ∧ ∃ before draft, c.registry.drafts.lookup draftId = some before ∧
      before.draftVersion = version ∧ c'.registry.drafts.lookup draftId = some draft ∧
      draft.draftVersion = version + 1 ∧ draft.document = document ∧
      draft.baseRevisionId = before.baseRevisionId := by
  have edited : c.editDraft now draftId document version actor = some c' := h
  obtain ⟨draft, registry, replaced, rfl⟩ := editDraft_ok edited
  obtain ⟨-, -, before, found, version, stored, next, written, base⟩ := replaceDraft_grows replaced
  exact ⟨rfl, before, draft, found, version, stored, next, written, base⟩

theorem publish_step {draft : ConfigDraft (ManagedConfig Settings)} {version : Nat}
    (found : c.registry.drafts.lookup draftId = some draft)
    (h : c.step digest (.publish now draftId (some draft.document) version actor summary) =
      some c') : c.call = none ∧ ∃ publish, c'.call = some (.validating publish) ∧
      publish.draftId = draftId ∧ publish.expectedVersion = version := by
  simp only [ConfigurationService.step] at h
  split at h
  next => cases h
  next idle =>
    refine ⟨idle, ?_⟩
    obtain ⟨document, given, begun⟩ := Option.bind_eq_some_iff.mp h
    cases given
    obtain ⟨draft', found', begun⟩ := Option.bind_eq_some_iff.mp begun
    rw [found] at found'
    cases found'
    rw [if_pos rfl] at begun
    obtain ⟨between, same, begun⟩ := Option.bind_eq_some_iff.mp begun
    cases same
    obtain ⟨draft', -, begun⟩ := Option.bind_eq_some_iff.mp begun
    cases begun
    exact ⟨_, rfl, rfl, rfl⟩

theorem rollback_step {revisionId newId : String} {document : ManagedConfig Settings}
    (h : c.step digest (.rollback now revisionId (some document) newId actor summary) = some c') :
    c.call = none ∧ ∃ revision, c'.call = some (.rollingBack revision) ∧
      revision.document = document := by
  simp only [ConfigurationService.step] at h
  split at h
  next => cases h
  next idle =>
    refine ⟨idle, ?_⟩
    obtain ⟨document', given, begun⟩ := Option.bind_eq_some_iff.mp h
    cases given
    split at begun <;> cases begun
    next revision registry _ rolled =>
      obtain ⟨-, written, -⟩ := rollbackTo_desired rolled
      exact ⟨revision, rfl, written⟩

theorem fail_status {revision : ConfigRevision (ManagedConfig Settings)} (code : String)
    (desired : c.registry.state.desiredRevisionId = revision.revisionId) :
    (c.fail now revision.revisionId code).registry.state.applyStatus = .failed := by
  unfold ConfigurationService.fail markFailed
  rw [if_pos desired]

variable {call : ServiceCall (ManagedConfig Settings)}

theorem failed_reply {revision : ConfigRevision (ManagedConfig Settings)} (stands : ServiceStands c)
    (held : c.call = some call) (target : call.target? = some revision) (code : String) :
    ¬ Reply.idle
      (some (revision.revisionId, (c.fail now revision.revisionId code).registry.state)) := by
  rintro ⟨given, replied, idle⟩
  cases replied
  have failed : (c.fail now revision.revisionId code).registry.state.applyStatus = .failed :=
    fail_status code (stands.targeted call held revision target).2
  rw [idle] at failed
  cases failed

theorem idle_reply (stands : ServiceStands c) (held : c.call = some call)
    {a : ConfigAct (ManagedConfig Settings)} (h : c.step digest a = some c')
    (ended : c'.call = none) (idle : (replyOf a call c'.registry).idle) :
    ∃ now revision preflighted, a = .applierEnded now .ok ∧ call = .applying revision preflighted ∧
      c'.registry.state.appliedRevisionId = revision.revisionId := by
  obtain ⟨given, replied, status⟩ := idle
  cases a with
  | createDraft now draftId actor =>
    rw [(createDraft_step h).1, held] at ended
    cases ended
  | replaceDraft now draftId normalized version actor =>
    cases normalized with
    | none => cases h
    | some document =>
      rw [(replaceDraft_step h).1, held] at ended
      cases ended
  | publish now draftId normalized version actor summary
  | rollback now revisionId normalized newId actor summary =>
    simp only [ConfigurationService.step, held] at h
    cases h
  | validated verdict =>
    simp only [ConfigurationService.step, held] at h
    split at h
    next publish same =>
      cases same
      cases replied
    next => cases h
  | preflighted now outcome revisionId =>
    simp only [ConfigurationService.step, held] at h
    split at h
    next publish document same =>
      cases same
      cases replied
    next revision same =>
      cases same
      split at h <;> cases h
      next => cases ended
      next code => exact absurd ⟨given, replied, status⟩ (failed_reply stands held rfl code)
      next => exact absurd ⟨given, replied, status⟩ (failed_reply stands held rfl "apply_failed")
    next => cases h
  | applierEnded now outcome =>
    simp only [ConfigurationService.step, held] at h
    split at h
    next revision preflighted same =>
      cases same
      split at h <;> cases h
      next =>
        refine ⟨now, revision, preflighted, rfl, rfl, ?_⟩
        by_contra other
        simp only [replyOf, ServiceCall.target?, if_neg other] at replied
        cases replied
      next code => exact absurd ⟨given, replied, status⟩ (failed_reply stands held rfl code)
      next => exact absurd ⟨given, replied, status⟩ (failed_reply stands held rfl "apply_failed")
    next => cases h
  | cancel => cases replied

theorem ended_reply (stands : ServiceStands c) (held : c.call = some call)
    {a : ConfigAct (ManagedConfig Settings)} (h : c.step digest a = some c')
    (ended : c'.call = none) : (∃ now revision preflighted given, a = .applierEnded now .ok ∧
      call = .applying revision preflighted ∧ replyOf a call c'.registry = some given ∧
      given.2.applyStatus = .idle ∧ given.2.appliedRevisionId = given.1 ∧
      c'.registry.inForce = some revision.document) ∨
    c'.registry.inForce = c.registry.inForce ∧ ¬ (replyOf a call c'.registry).idle := by
  have stepped := service_step stands a h
  by_cases idle : (replyOf a call c'.registry).idle
  · obtain ⟨now, revision, preflighted, rfl, rfl, applied⟩ :=
      idle_reply stands held h ended idle
    obtain ⟨given, replied, status⟩ := idle
    have stored := stepped.grows.revisions _ _ (stands.targeted _ held revision rfl).1
    refine .inl ⟨now, revision, preflighted, given, rfl, rfl, replied, status, ?_, ?_⟩
    · simp only [replyOf, ServiceCall.target?, if_pos applied] at replied
      cases replied
      exact applied
    · rw [Registry.inForce, Registry.document?, applied, stored]
      rfl
  · rcases stepped.applied with same | ⟨now, revision, preflighted, rfl, awaited, applied, status,
      -, -⟩
    · exact .inr ⟨same, idle⟩
    · rw [held] at awaited
      cases awaited
      exact absurd ⟨_, if_pos applied, status⟩ idle

end Service

theorem start_ok (h : s.start op purpose stage = some s') :
    s.operations op = none ∧ s' = s.setOperation op (some ⟨purpose, stage⟩) := by
  unfold CapabilityInstaller.start at h
  split at h <;> cases h
  next idle => exact ⟨idle, rfl⟩

namespace Sound

section
variable (sound : Sound owner s)
include sound

theorem confirms {operationId given : String}
    (steady : Steady owner s (.confirm op operationId given))
    (h : s.confirm op operationId given = some s') : Sound owner s' := by
  unfold CapabilityInstaller.confirm at h
  split at h
  next => cases h
  next plan found =>
    split at h
    next waits =>
      obtain ⟨idle, rfl⟩ := start_ok h
      obtain ⟨owned, prepared⟩ := sound.plans.waiting operationId plan found waits.1
      refine ⟨?_, sound.plans.confirms idle found waits.1⟩
      have started : OperationsSound owner
          (s.setOperation op (some ⟨.confirm plan, .validating⟩)) := by
        refine sound.operations.starts idle owned (fun _ => steady plan found) ?_
        rintro plan' ⟨⟩
        exact prepared
      exact started.of_plans _ _ s.changes
    next => cases h

theorem starts {capabilityId : String} {installation : CapabilityInstallation}
    (found : s.installations.lookup capabilityId = some installation)
    (about : purpose.capabilityId = installation.capabilityId)
    (lists : purpose.componentIds = installation.componentIds)
    (other : ∀ plan, purpose ≠ .confirm plan) (rest : s.AtRest capabilityId)
    (known : StageSound owner s.configuration.registry purpose stage)
    (h : s.start op purpose stage = some s') : Sound owner s' := by
  obtain ⟨idle, rfl⟩ := start_ok h
  obtain ⟨owned, -⟩ := sound.operations.records capabilityId installation found
  have key : installation.capabilityId = capabilityId := Table.lookup_key found
  refine ⟨sound.operations.starts idle ?_ (fun _ => ?_) known, sound.plans.starts idle other⟩
  · rw [about, key, lists]
    exact owned
  · rw [about, key]
    exact rest

theorem moves (here : s.operations op = some ⟨purpose, stage⟩)
    (free : s.holder ≠ some op) (same : stage'.Landed ↔ stage.Landed)
    (known : StageSound owner s.configuration.registry purpose stage') :
    Sound owner (s.setOperation op (some ⟨purpose, stage'⟩)) :=
  ⟨sound.operations.moves here free same known, sound.plans.moves here same.mpr⟩

theorem ends (here : s.operations op = some ⟨purpose, stage⟩)
    (free : s.holder ≠ some op) (other : ∀ plan, purpose ≠ .confirm plan)
    (rest : ¬ stage.Landed) : Sound owner (s.setOperation op none) :=
  ⟨sound.operations.ends here free rest, sound.plans.ends here other⟩

theorem alone {plan : CapabilityInstallPlan}
    (here : s.operations op = some ⟨.confirm plan, stage⟩) : ∀ op' plan' st,
      s.operations op' = some ⟨.confirm plan', st⟩ → plan'.capabilityId = plan.capabilityId →
        op' = op :=
  fun op' _ _ here' same => sound.operations.exclusive op' op _ _ here' here rfl rfl same

end

variable {after : ConfigurationService (ManagedConfig Settings)}

theorem drafts (sound : Sound owner s) {a : ConfigAct (ManagedConfig Settings)}
    (unused : ∀ draftId, a.creates draftId → s.Unused draftId)
    (stepped : ServiceStep a s.configuration after) (call : after.call = s.configuration.call)
    (other : ∀ now, a ≠ .applierEnded now .ok) : Sound owner { s with configuration := after } := by
  have force : after.registry.inForce = s.inForce := by
    rcases stepped.applied with same | ⟨now, -, -, ended, -⟩
    · exact same
    · exact absurd ended (other now)
  refine ⟨sound.operations.configures stepped.stands stepped.grows unused force ?_,
    sound.plans.configures stepped.grows unused⟩
  intro op' holds
  obtain ⟨o, held, here, awaited, serves⟩ := sound.operations.held op' holds
  exact ⟨o, held, here, call.trans awaited, serves.mono force⟩

variable {now : Time} {actor previous : String}

theorem draftCreated (sound : Sound owner s) {draftId : String} (unused : s.Unused draftId)
    (here : s.operations op = some ⟨purpose, .drafting previous⟩)
    (created : s.configuration.step digest (.createDraft now draftId actor) = some after)
    {draft : ConfigDraft (ManagedConfig Settings)}
    (found : after.registry.drafts.lookup draftId = some draft) :
    Sound owner ({ s with configuration := after }.setOperation op
      (some ⟨purpose, .editing previous draft⟩)) := by
  obtain ⟨call, draft', found', names, version, base⟩ := createDraft_step created
  rw [found] at found'
  cases found'
  have stepped := service_step sound.operations.stands _ created
  have drafted : Sound owner { s with configuration := after } := by
    refine sound.drafts ?_ stepped call ?_
    · rintro draftId' rfl
      exact unused
    · nofun
  refine drafted.moves here ?_ Iff.rfl ?_
  · exact drafted.operations.not_held here fun call serves => serves.awaits
  · intro stored looked
    rw [names, found] at looked
    cases looked
    exact ⟨le_rfl, fun _ => ⟨draft.document, base, rfl⟩⟩

theorem edits (sound : Sound owner s) {d d' : ManagedConfig Settings}
    (here : s.operations op = some ⟨purpose, stage⟩) (edit : purpose.edit d = some d')
    (present : ∀ installation, purpose = .setEnabled installation true →
      ∀ c ∈ installation.componentIds, d.enabled? c ≠ none) : Edits owner purpose d d' := by
  have owned := sound.operations.purposes op _ here
  cases purpose with
  | prepare bundle =>
    simp only [Purpose.edit] at edit
    split at edit <;> cases edit
    exact edits_install bundle d fun c member =>
      owned.owned c ((mem_componentPackages bundle c).mpr member)
  | confirm plan | rollback installation => cases edit
  | setEnabled installation enabled =>
    cases edit
    refine edits_setComponents installation enabled d owned ?_
    rintro rfl
    exact present installation rfl

variable {normalize : Normalizer Settings}

theorem draftReplaced (sound : Sound owner s)
    (steady : Steady owner s (.draftReplaced op now normalize actor))
    (h : s.draftReplaced digest op now normalize actor = some s') : Sound owner s' := by
  unfold CapabilityInstaller.draftReplaced at h
  split at h
  next purpose previous draft here =>
    obtain ⟨normal, present⟩ := steady purpose previous draft here
    obtain ⟨document, edit, h⟩ := Option.bind_eq_some_iff.mp h
    obtain ⟨after, replaced, h⟩ := Option.bind_eq_some_iff.mp h
    obtain ⟨draft', found, h⟩ := Option.bind_eq_some_iff.mp h
    rw [normal document edit] at replaced
    have edits := sound.edits here edit present
    have known := sound.operations.stages op _ here
    obtain ⟨call, before, stored, looked, version, found', next, written, base⟩ :=
      replaceDraft_step replaced
    rw [found] at found'
    cases found'
    have stepped := service_step sound.operations.stands _ replaced
    have drafted : Sound owner { s with configuration := after } := by
      refine sound.drafts ?_ stepped call ?_
      · rintro draftId ⟨⟩
      · rintro now' ⟨⟩
    have prepared : after.registry.Prepared draft'.draftId draft'.draftVersion
        (Edits owner purpose) := by
      obtain ⟨-, based⟩ := known before looked
      obtain ⟨d, documented, same⟩ := based version
      intro stored' looked'
      rw [Table.lookup_key found, found] at looked'
      cases looked'
      refine ⟨le_rfl, fun _ => ⟨d, ?_, ?_⟩⟩
      · rw [base]
        exact stepped.grows.document? documented
      · rw [written, same]
        exact edits
    have free : s.holder ≠ some op :=
      sound.operations.not_held here fun call serves => serves.awaits
    cases purpose with
    | prepare bundle =>
      cases h
      exact drafted.moves here free Iff.rfl prepared
    | setEnabled installation enabled =>
      cases h
      exact drafted.moves here free Iff.rfl ⟨rfl, prepared⟩
    | _ => cases edit
  next => cases h

theorem planned (sound : Sound owner s) {operationId : String}
    (fresh : s.plans.lookup operationId = none) {bundle : CapabilityBundle}
    {draft : ConfigDraft (ManagedConfig Settings)}
    (here : s.operations op = some ⟨.prepare bundle, .edited previous draft⟩) :
    Sound owner ((s.putPlan (bundle.plan planDigest operationId draft.draftId draft.draftVersion
      previous)).setOperation op none) := by
  have owned := sound.operations.purposes op _ here
  have known : s.configuration.registry.Prepared draft.draftId draft.draftVersion
      (Edits owner (.prepare bundle)) := sound.operations.stages op _ here
  have free : s.holder ≠ some op := sound.operations.not_held here fun call serves => serves.awaits
  have stored : PlansSound owner (s.putPlan
      (bundle.plan planDigest operationId draft.draftId draft.draftVersion previous)) := by
    refine sound.plans.plans fresh rfl ⟨?_, fun c member => ?_⟩ ?_
    · intro empty
      obtain ⟨c, member⟩ := List.exists_mem_of_ne_nil _ owned.nonempty
      have listed : c ∈ (bundle.plan planDigest operationId draft.draftId draft.draftVersion
        previous).componentIds := (mem_componentIds _ c).mpr member
      rw [empty] at listed
      cases listed
    · exact owned.owned c ((mem_componentIds _ c).mp member)
    · intro stored looked
      obtain ⟨bound, based⟩ := known stored looked
      refine ⟨bound, fun version => ?_⟩
      obtain ⟨base, documented, edits⟩ := based version
      exact ⟨base, documented, edits.plan planDigest operationId _ _ previous⟩
  refine ⟨?_, stored.ends here nofun⟩
  have ended := sound.operations.ends here free id
  exact ended.of_plans _ s.confirmed s.changes

theorem givesUp (sound : Sound owner s) {plan : CapabilityInstallPlan}
    (here : s.operations op = some ⟨.confirm plan, stage⟩) (free : s.holder ≠ some op)
    (rest : ¬ stage.Landed) : Sound owner (s.giveUp op (.confirm plan)) := by
  refine ⟨?_, ?_⟩
  · have ended := sound.operations.ends here free rest
    exact ended.of_plans _ s.confirmed s.changes
  · obtain ⟨-, -, quiet⟩ := sound.plans.confirming op plan stage here
    exact sound.plans.concludes here (sound.alone here) (.inr rfl) fun _ => quiet rest

variable {o : Operation Settings}

section
variable (sound : Sound owner s)
include sound

variable {a : ConfigAct (ManagedConfig Settings)}

theorem holds
    (stepped : ServiceStep a s.configuration after) (creates : ∀ draftId, ¬ a.creates draftId)
    (other : ∀ now, a ≠ .applierEnded now .ok) {call : ServiceCall (ManagedConfig Settings)}
    (here : s.operations op = some o) (awaited : after.call = some call)
    (serves : Serves owner s.configuration.registry o call) :
    Sound owner { s with configuration := after, holder := some op } := by
  have force : after.registry.inForce = s.inForce := by
    rcases stepped.applied with same | ⟨now, -, -, ended, -⟩
    · exact same
    · exact absurd ended (other now)
  have unused : ∀ draftId, a.creates draftId → s.Unused draftId :=
    fun draftId created => absurd created (creates draftId)
  refine ⟨sound.operations.configures stepped.stands stepped.grows unused force ?_, ?_⟩
  · rintro op' ⟨⟩
    exact ⟨o, call, here, awaited, serves.mono force⟩
  · have plans := sound.plans.configures stepped.grows unused
    exact plans.of_records s.installations (some op)

theorem publishBegins (steady : Steady owner s (.publishBegins op now normalize actor))
    (h : s.publishBegins digest op now normalize actor = some s') : Sound owner s' := by
  unfold CapabilityInstaller.publishBegins at h
  split at h
  next purpose draftId version previous here =>
    obtain ⟨draft, found, h⟩ := Option.bind_eq_some_iff.mp h
    obtain ⟨after, published, h⟩ := Option.bind_eq_some_iff.mp h
    cases h
    rw [steady purpose draftId version previous draft here found] at published
    obtain ⟨-, publish, call, names, expected⟩ := publish_step found published
    have stepped := service_step sound.operations.stands _ published
    refine sound.holds stepped (fun _ created => created) nofun here call ⟨?_, ?_⟩
    · rintro publish' ⟨⟩
      exact ⟨names, expected⟩
    · rintro revision ⟨⟩
  next => cases h

theorem rollbackBegins {newId : String}
    (steady : Steady owner s (.rollbackBegins op now normalize newId actor))
    (h : s.rollbackBegins digest op now normalize newId actor = some s') : Sound owner s' := by
  obtain ⟨o, here, h⟩ := Option.bind_eq_some_iff.mp h
  obtain ⟨revisionId, goes, h⟩ := Option.bind_eq_some_iff.mp h
  obtain ⟨target, found, h⟩ := Option.bind_eq_some_iff.mp h
  obtain ⟨after, rolled, h⟩ := Option.bind_eq_some_iff.mp h
  cases h
  obtain ⟨normal, restores⟩ := steady o revisionId target here goes found
  rw [normal] at rolled
  obtain ⟨-, revision, call, written⟩ := rollback_step rolled
  have stepped := service_step sound.operations.stands _ rolled
  refine sound.holds stepped (fun _ created => created) nofun here call ⟨?_, ?_⟩
  · obtain ⟨purpose, stage⟩ := o
    cases stage with
    | calling asked previous =>
      cases asked with
      | publish draftId version => cases goes
      | rollback revisionId' => rfl
    | restoring previous => rfl
    | _ => cases goes
  · rintro revision' ⟨⟩ d force
    rw [written]
    exact restores d force

theorem serves_others (free : s.holder = none) (allowed : Allowed owner s (.configured a))
    (stepped : ServiceStep a s.configuration after) : Sound owner (s.configure a after) := by
  have unused : ∀ draftId, a.creates draftId → s.Unused draftId := by
    cases a with
    | createDraft now draftId actor =>
      rintro draftId' rfl
      exact allowed
    | _ => rintro draftId ⟨⟩
  have nobody : s.cause = none := by
    rw [CapabilityInstaller.cause, free]
    rfl
  refine ⟨?_, ?_⟩
  · refine OperationsSound.of_plans (s := { s with configuration := after }) ?_ s.plans s.confirmed _
    rcases stepped.applied with same | ⟨now, revision, preflighted, rfl, awaited, -, -, force, -⟩
    · refine sound.operations.configures stepped.stands stepped.grows unused same fun op holds => ?_
      rw [free] at holds
      cases holds
    · obtain ⟨applied, found⟩ := Option.isSome_iff_exists.mp sound.operations.stands.applied
      have before : s.inForce = some applied.document := Option.map_eq_some_iff.mpr ⟨_, found, rfl⟩
      exact sound.operations.outside free stepped.stands stepped.grows before force
        (allowed free revision preflighted awaited _ before)
  · have plans := sound.plans.configures stepped.grows unused
    have applied := plans.applies
      { cause := s.cause, before := s.inForce, after := after.registry.inForce }
      (fun purpose caused => by
        rw [nobody] at caused
        cases caused)
      (fun plan caused => by
        rw [nobody] at caused
        cases caused)
    unfold CapabilityInstaller.configure
    split
    · exact applied
    · exact plans

theorem serves_on (holds : s.holder = some op) (here : s.operations op = some o)
    (stands : ServiceStands after) (grows : s.configuration.registry.Grows a.creates after.registry)
    (unused : ∀ draftId, a.creates draftId → s.Unused draftId)
    (force : after.registry.inForce = s.inForce) {holder : Option Nat}
    (held : ∀ op, holder = some op → ∃ o call, s.operations op = some o ∧ after.call = some call ∧
      Serves owner after.registry o call) :
    Sound owner { s.configure a after with holder } := by
  have cause : s.cause = some o.purpose := by
    rw [CapabilityInstaller.cause, holds, Option.bind_some, here]
    rfl
  obtain ⟨applied, found⟩ := Option.isSome_iff_exists.mp sound.operations.stands.applied
  have before : s.inForce = some applied.document := Option.map_eq_some_iff.mpr ⟨_, found, rfl⟩
  refine ⟨?_, ?_⟩
  · have kept := sound.operations.configures stands grows unused force held
    exact kept.of_plans s.plans s.confirmed _
  · have plans := sound.plans.configures grows unused
    have changed := plans.applies
      { cause := s.cause, before := s.inForce, after := after.registry.inForce }
      (fun purpose _ => ⟨_, _, before, force.trans before, ChangesOnly.refl _⟩)
      (fun plan caused => by
        rw [cause] at caused
        obtain ⟨purpose, stage⟩ := o
        cases caused
        exact ⟨op, stage, here, .inl force, sound.alone here⟩)
    have configured : PlansSound owner (s.configure a after) := by
      unfold CapabilityInstaller.configure
      split
      · exact changed
      · exact plans
    exact configured.of_records s.installations holder

end

variable {reply : Reply}

theorem deliver_calling {call : Call} (holds : s.holder = some op)
    (here : s.operations op = some ⟨purpose, .calling call previous⟩) : s.deliver reply =
      { s.setOperation op (some ⟨purpose, .called previous reply⟩) with holder := none } := by
  simp only [CapabilityInstaller.deliver, holds, here]

theorem deliver_restoring (holds : s.holder = some op)
    (here : s.operations op = some ⟨purpose, .restoring previous⟩) : s.deliver reply =
      { s.setOperation op (some ⟨purpose, .restored reply⟩) with holder := none } := by
  simp only [CapabilityInstaller.deliver, holds, here]

theorem delivers (sound : Sound owner s) (holds : s.holder = some op)
    (here : s.operations op = some o) {call : ServiceCall (ManagedConfig Settings)}
    (serves : Serves owner s.configuration.registry o call) {a : ConfigAct (ManagedConfig Settings)}
    (stepped : ServiceStep a s.configuration after)
    (unused : ∀ draftId, a.creates draftId → s.Unused draftId)
    (force : after.registry.inForce = s.inForce)
    (calling : ∀ call previous, o.stage = .calling call previous → ¬ reply.idle) :
    Sound owner ((s.configure a after).deliver reply) := by
  have freed : Sound owner { s.configure a after with holder := none } :=
    sound.serves_on holds here stepped.stands stepped.grows unused force nofun
  obtain ⟨purpose, stage⟩ := o
  have known := sound.operations.stages op _ here
  have free : ({ s.configure a after with holder := none } : CapabilityInstaller Settings).holder ≠
      some op := nofun
  cases stage with
  | calling asked previous =>
    rw [deliver_calling (s := s.configure a after) holds here]
    refine freed.moves here free ⟨fun idle => (calling asked previous rfl idle).elim, False.elim⟩
      ⟨sound.operations.calling_writes here, fun given replied idle => ?_⟩
    exact absurd ⟨given, replied, idle⟩ (calling asked previous rfl)
  | restoring previous =>
    rw [deliver_restoring (s := s.configure a after) holds here]
    exact freed.moves here free Iff.rfl known
  | _ => exact serves.awaits.elim

variable {given : String × ConfigControlState}

section
variable (sound : Sound owner s)
include sound

theorem lands {call : Call} (holds : s.holder = some op)
    (here : s.operations op = some ⟨purpose, .calling call previous⟩) (stands : ServiceStands after)
    (grows : s.configuration.registry.Grows (fun _ => False) after.registry)
    {d d' : ManagedConfig Settings} (force : s.inForce = some d)
    (force' : after.registry.inForce = some d') (edits : Edits owner purpose d d')
    (idle : given.2.applyStatus = .idle) (applied : given.2.appliedRevisionId = given.1) :
    Sound owner ((s.configure (.applierEnded now .ok) after).deliver (some given)) := by
  have cause : s.cause = some purpose := by
    rw [CapabilityInstaller.cause, holds, Option.bind_some, here]
    rfl
  rw [deliver_calling (s := s.configure (.applierEnded now .ok) after) holds here]
  refine ⟨?_, ?_⟩
  · have landed := sound.operations.applies here stands grows force force' edits idle applied
    exact landed.of_plans s.plans s.confirmed _
  · have moved : PlansSound owner
        (s.setOperation op (some ⟨purpose, .called previous (some given)⟩)) :=
      sound.plans.moves here False.elim
    have plans := moved.configures grows (fun _ created => created.elim)
    have changed := plans.applies
      { cause := s.cause, before := s.inForce, after := after.registry.inForce }
      (fun purpose' caused => by
        rw [cause] at caused
        cases caused
        exact ⟨d, d', force, force', edits.only⟩)
      (fun plan caused => by
        rw [cause] at caused
        cases caused
        refine ⟨op, .called previous (some given), set_here, .inr ⟨given, rfl, idle⟩, ?_⟩
        intro op' plan' st here' same
        rcases operation_of_set here' with ⟨rfl, -⟩ | ⟨-, kept⟩
        · rfl
        · exact sound.alone here op' plan' st kept same)
    exact changed.of_records s.installations none

theorem goes_on (holds : s.holder = some op)
    (here : s.operations op = some o) {call : ServiceCall (ManagedConfig Settings)}
    (awaited : s.configuration.call = some call)
    (serves : Serves owner s.configuration.registry o call) {a : ConfigAct (ManagedConfig Settings)}
    (steady : Steady owner s (.configured a)) (stepped : ServiceStep a s.configuration after)
    (force : after.registry.inForce = s.inForce) {call' : ServiceCall (ManagedConfig Settings)}
    (kept : call'.publish? = call.publish? ∧ call'.target? = call.target? ∨
      Chooses a s.configuration.registry call call') :
    Serves owner after.registry o call' := by
  rcases kept with ⟨publish, target⟩ | chooses
  · refine ⟨?_, ?_⟩
    · rw [publish]
      exact serves.awaits
    · rw [target]
      exact (serves.mono force).brings
  · obtain ⟨publish, document, revision, now, revisionId, draft, rfl, rfl, no_publish, target, found,
      version, base, copied⟩ := chooses.chosen
    have desired := steady publish document (by rw [holds]; exact Option.some_ne_none _) awaited
    obtain ⟨purpose, stage⟩ := o
    have known := sound.operations.stages op _ here
    have awaits := serves.awaits
    cases stage with
    | calling asked previous =>
      cases asked with
      | publish draftId expected =>
        obtain ⟨names, expects⟩ := awaits publish rfl
        refine ⟨fun publish' seen => ?_, fun revision' target' d force' => ?_⟩
        · rw [no_publish] at seen
          cases seen
        · rw [target] at target'
          cases target'
          obtain ⟨-, prepared⟩ := known
          obtain ⟨-, based⟩ := prepared draft (names ▸ found)
          obtain ⟨d₀, documented, edits⟩ := based (version.trans expects)
          rw [base, desired] at documented
          rw [force, documented] at force'
          cases force'
          rw [copied]
          exact edits
      | rollback revisionId => cases awaits
    | restoring previous => cases awaits
    | _ => exact awaits.elim

theorem configured {a : ConfigAct (ManagedConfig Settings)}
    (allowed : Allowed owner s (.configured a)) (steady : Steady owner s (.configured a))
    (h : s.configured digest a = some s') : Sound owner s' := by
  unfold CapabilityInstaller.configured at h
  split at h
  next => cases h
  next after ran =>
    have stepped := service_step sound.operations.stands a ran
    have unused : ∀ draftId, a.creates draftId → s.Unused draftId := by
      cases a with
      | createDraft now draftId actor =>
        rintro draftId' rfl
        exact allowed
      | _ => rintro draftId ⟨⟩
    cases holder : s.holder with
    | none =>
      have configured := sound.serves_others holder allowed stepped
      have nobody : ∀ reply, (s.configure a after).deliver reply = s.configure a after := by
        intro reply
        have free : (s.configure a after).holder = none := holder
        simp only [CapabilityInstaller.deliver, free]
      split at h <;> cases h
      next => exact (nobody _).symm ▸ configured
      next => exact configured
    | some op =>
      obtain ⟨o, call, here, awaited, serves⟩ := sound.operations.held op holder
      rcases call_goes_on awaited a ran with ended | ⟨call', goes, kept⟩
      · rw [awaited, ended] at h
        cases h
        rcases ended_reply sound.operations.stands awaited ran ended with
          ⟨now, revision, preflighted, given, rfl, rfl, replied, idle, applied, force⟩ |
            ⟨force, busy⟩
        · obtain ⟨before, found⟩ :=
            Option.isSome_iff_exists.mp sound.operations.stands.applied
          have in_force : s.inForce = some before.document :=
            Option.map_eq_some_iff.mpr ⟨_, found, rfl⟩
          have restores := serves.brings revision rfl _ in_force
          have awaits := serves.awaits
          obtain ⟨purpose, stage⟩ := o
          cases stage with
          | calling asked previous =>
            rw [replied]
            have grows : s.configuration.registry.Grows (fun _ => False) after.registry :=
              ⟨stepped.grows.revisions, fun id draft _ => stepped.grows.drafts id draft not_false⟩
            exact sound.lands holder here stepped.stands grows in_force force restores idle applied
          | restoring previous =>
            have same : revision.document = before.document := restores
            refine sound.delivers holder here serves stepped unused ?_ nofun
            rw [force, same, in_force]
          | _ => exact awaits.elim
        · exact sound.delivers holder here serves stepped unused force fun _ _ _ => busy
      · have force : after.registry.inForce = s.inForce := by
          rcases stepped.applied with same | ⟨now, revision, preflighted, -, -, -, -, -, ended⟩
          · exact same
          · rw [goes] at ended
            cases ended
        rw [awaited, goes] at h
        cases h
        refine sound.serves_on holder here stepped.stands stepped.grows unused force ?_
        intro op' holds
        rw [holder] at holds
        cases holds
        exact ⟨o, call', here, goes,
          sound.goes_on holder here awaited serves steady stepped force kept⟩

theorem writes_record (here : s.operations op = some ⟨purpose, .called previous (some given)⟩)
    (free : s.holder ≠ some op) (idle : given.2.applyStatus = .idle)
    (other : ∀ plan, purpose ≠ .confirm plan) (installation : CapabilityInstallation)
    (about : installation.capabilityId = purpose.capabilityId)
    (lists : installation.componentIds = purpose.componentIds)
    (flag : installation.enabled = purpose.enables) :
    Sound owner ((s.putInstallation installation).setOperation op none) := by
  refine ⟨sound.operations.settles here free idle installation about lists flag, ?_⟩
  have ended := sound.plans.ends here other
  exact ended.of_records _ s.holder

theorem settles (here : s.operations op = some ⟨purpose, .called previous (some given)⟩)
    (free : s.holder ≠ some op) : Sound owner (s.settle op now purpose previous given) := by
  obtain ⟨writes, landed⟩ := sound.operations.stages op _ here
  unfold CapabilityInstaller.settle
  by_cases accepts : purpose.accepts given = true
  · rw [if_pos accepts]
    cases purpose with
    | prepare bundle => cases writes
    | confirm plan =>
      have idle : given.2.applyStatus = .idle := by
        have both := Bool.and_eq_true_iff.mp accepts
        exact beq_iff_eq.mp both.1
      refine ⟨?_, ?_⟩
      · have settled := sound.operations.settles here free idle
          (plan.installation now given.1) rfl rfl rfl
        exact settled.of_plans _ s.confirmed s.changes
      · have concluded : PlansSound owner
            ((s.putPlan { plan with state := .installed }).setOperation op none) :=
          sound.plans.concludes here (sound.alone here) (.inl rfl) nofun
        exact concluded.of_records _ s.holder
    | setEnabled installation enabled | rollback installation =>
      exact sound.writes_record here free (beq_iff_eq.mp accepts) nofun _ rfl rfl rfl
  · rw [if_neg accepts]
    have busy : ¬ @Stage.Landed Settings (.called previous (some given)) := by
      rintro ⟨reply, replied, idle⟩
      cases replied
      refine accepts ?_
      cases purpose with
      | confirm plan =>
        exact Bool.and_eq_true_iff.mpr
          ⟨beq_iff_eq.mpr idle, beq_iff_eq.mpr (landed given rfl idle).1⟩
      | _ => exact beq_iff_eq.mpr idle
    cases purpose with
    | prepare bundle => cases writes
    | rollback installation => exact sound.ends here free nofun busy
    | _ => exact sound.moves here free ⟨False.elim, fun was => busy was⟩ rfl

theorem replied (steady : Steady owner s (.replied op now))
    (h : s.replied op now = some s') : Sound owner s' := by
  unfold CapabilityInstaller.replied at h
  split at h
  next purpose previous reply here =>
    have free : s.holder ≠ some op :=
      sound.operations.not_held here fun call serves => serves.awaits
    cases reply with
    | none =>
      cases h
      refine sound.ends here free ?_ ?_
      · rintro plan rfl
        exact (steady plan previous).1 here
      · rintro ⟨given, replied, -⟩
        cases replied
    | some given =>
      cases h
      exact sound.settles here free
  next purpose reply here =>
    have free : s.holder ≠ some op :=
      sound.operations.not_held here fun call serves => serves.awaits
    cases reply with
    | none =>
      cases h
      refine sound.ends here free ?_ id
      rintro plan rfl
      exact (steady plan "").2 here
    | some given =>
      cases h
      cases purpose with
      | confirm plan => exact sound.givesUp here free id
      | _ => exact sound.ends here free nofun id
  next => cases h

theorem raised (steady : Steady owner s (.raised op))
    (h : s.raised op = some s') : Sound owner s' := by
  obtain ⟨free, others⟩ := steady
  unfold CapabilityInstaller.raised at h
  split at h
  next => cases h
  next o here =>
    obtain ⟨other, rest⟩ := others o here
    rw [if_neg free] at h
    cases h
    exact sound.ends here free other rest

end

end Sound

theorem step_sound {a : InstallerAct Settings} (sound : Sound owner s)
    (allowed : Allowed owner s a) (steady : Steady owner s a)
    (h : s.step digest planDigest a = some s') : Sound owner s' := by
  cases a with
  | prepare op bundle =>
    obtain ⟨idle, rfl⟩ := start_ok h
    refine ⟨sound.operations.starts idle (owned_bundle bundle allowed) ?_ trivial,
      sound.plans.starts idle nofun⟩
    intro writes
    cases writes
  | confirm op operationId given => exact sound.confirms steady h
  | setEnabled op capabilityId enabled =>
    simp only [CapabilityInstaller.step] at h
    split at h
    next => cases h
    next installation found =>
      refine sound.starts found ?_ ?_ (fun plan same => by cases same) steady ?_ h
      · rfl
      · rfl
      · trivial
  | rollback op capabilityId =>
    simp only [CapabilityInstaller.step] at h
    split at h
    next => cases h
    next installation found =>
      refine sound.starts found ?_ ?_ (fun plan same => by cases same) steady ?_ h
      · rfl
      · rfl
      · rfl
  | gotCurrent op =>
    simp only [CapabilityInstaller.step] at h
    split at h <;> cases h
    next purpose current here read =>
      refine sound.moves here ?_ Iff.rfl trivial
      exact sound.operations.not_held here fun call serves => serves.awaits
  | draftCreated op now draftId actor =>
    simp only [CapabilityInstaller.step] at h
    split at h
    next purpose previous here =>
      obtain ⟨after, created, h⟩ := Option.bind_eq_some_iff.mp h
      obtain ⟨draft, found, h⟩ := Option.bind_eq_some_iff.mp h
      cases h
      exact sound.draftCreated allowed here created found
    next => cases h
  | draftReplaced op now normalize actor => exact sound.draftReplaced steady h
  | planned op operationId =>
    simp only [CapabilityInstaller.step] at h
    split at h <;> cases h
    next bundle previous draft here => exact sound.planned allowed here
  | validated op valid =>
    simp only [CapabilityInstaller.step] at h
    split at h
    next plan here =>
      have free : s.holder ≠ some op :=
        sound.operations.not_held here fun call serves => serves.awaits
      have known := sound.operations.stages op _ here
      split at h
      next =>
        split at h <;> cases h
        next => exact sound.moves here free Iff.rfl ⟨rfl, known plan rfl⟩
      next =>
        cases h
        exact sound.givesUp here free id
    next => cases h
  | publishBegins op now normalize actor => exact sound.publishBegins steady h
  | rollbackBegins op now normalize newId actor => exact sound.rollbackBegins steady h
  | configured act => exact sound.configured allowed steady h
  | replied op now => exact sound.replied steady h
  | raised op => exact sound.raised steady h

structure Start (s : CapabilityInstaller Settings) : Prop where
  stands : ServiceStands s.configuration
  plans : s.plans = Table.empty
  installations : s.installations = Table.empty
  operations : ∀ op, s.operations op = none
  holder : s.holder = none
  confirmed : s.confirmed = []
  changes : s.changes = []

theorem Start.sound (start : Start s) : Sound owner s where
  operations := by
    refine ⟨start.stands, ?_, ?_, ?_, ?_, ?_⟩
    · intro op o here
      rw [start.operations] at here
      cases here
    · intro op o here
      rw [start.operations] at here
      cases here
    · intro op holds
      rw [start.holder] at holds
      cases holds
    · intro op op' o o' here
      rw [start.operations] at here
      cases here
    · intro capabilityId installation found
      rw [start.installations] at found
      cases found
  plans := by
    have no_row : ∀ id plan, s.plans.lookup id ≠ some plan := by
      intro id plan found
      rw [start.plans] at found
      cases found
    have no_change : ∀ change, change ∉ s.changes := by
      intro change member
      rw [start.changes] at member
      cases member
    refine ⟨?_, fun id plan found => absurd found (no_row id plan),
      fun id plan found => absurd found (no_row id plan),
      fun id plan found => absurd found (no_row id plan), ?_, ?_,
      fun change member => absurd member (no_change change),
      fun change member => absurd member (no_change change)⟩
    · intro op plan stage here
      rw [start.operations] at here
      cases here
    · intro id member
      rw [start.confirmed] at member
      cases member
    · rw [start.confirmed]
      exact List.nodup_nil

/-- In every run whose steps meet the condition the records agree with the configuration. -/
theorem agree_of_steady (owner : ComponentId → Option String)
    (digest : ManagedConfig Settings → String) (planDigest : CapabilityInstallPlan → String)
    (s : CapabilityInstaller Settings) (start : Start s) (acts : List (InstallerAct Settings))
    (clean : ∀ taken ∈ accepted (CapabilityInstaller.step digest planDigest) s acts,
      Allowed owner taken.1 taken.2 ∧ Steady owner taken.1 taken.2) :
    ∀ t ∈ trace (CapabilityInstaller.step digest planDigest) s acts, Agree owner t := by
  have kept : ∀ s a s', Sound owner s → Allowed owner s a ∧ Steady owner s a →
      CapabilityInstaller.step digest planDigest s a = some s' → Sound owner s' :=
    fun s a s' sound clean taken => step_sound sound clean.1 clean.2 taken
  intro t member
  exact (Transition.trace_safe_of_clean kept start.sound clean t member).agree

section Runs

def skillBundle : CapabilityBundle where
  capabilityId := "A"
  version := "1.0.0"
  displayName := "A"
  packageId := "capability-a"
  packageDigest := ""
  mcp := []
  skills := [{ skillId := "a", packageId := "skill-a", source := "", contentDigest := "" }]
  requestedTools := []
  setupInputs := []
  checks := []
  nonempty := .inr (List.cons_ne_nil _ _)

def skillOwner : ComponentId → Option String
  | .skill "a" => some "A"
  | _ => none

def emptyRevision : ConfigRevision (ManagedConfig Unit) where
  revisionId := "r0"
  parentRevisionId := ""
  document := { mcpServers := fun _ => none, skills := fun _ => none, settings := () }
  configDigest := ""
  changeSummary := ""
  createdBy := ""
  createdAt := 0

def newNode : CapabilityInstaller Unit where
  configuration :=
    { registry :=
        { revisions := ⟨[emptyRevision], List.nodup_singleton _⟩
          drafts := Table.empty
          state :=
            { desiredRevisionId := "r0", appliedRevisionId := "r0", applyStatus := .idle,
              applyErrorCode := "", updatedAt := 0 } } }
  plans := Table.empty
  installations := Table.empty
  operations := fun _ => none
  holder := none
  confirmed := []
  changes := []

theorem newNode_start : Start newNode where
  stands := ⟨rfl, nofun⟩
  plans := rfl
  installations := rfl
  operations := fun _ => rfl
  holder := rfl
  confirmed := rfl
  changes := rfl

abbrev skillStep : CapabilityInstaller Unit → InstallerAct Unit →
    Option (CapabilityInstaller Unit) :=
  CapabilityInstaller.step (fun d => if (d.skills "a").isSome then "a" else "")
    CapabilityInstallPlan.capabilityId

/-- The installation up to the confirmation of its plan. -/
def beginRun : List (InstallerAct Unit) :=
  [.prepare 0 skillBundle, .gotCurrent 0, .draftCreated 0 0 "d1" "", .draftReplaced 0 0 id "",
    .planned 0 "p1", .confirm 0 "p1" "A"]

/-- The rest of it. -/
def publishRun : List (InstallerAct Unit) :=
  [.validated 0 true, .publishBegins 0 0 id "", .configured (.validated .valid),
    .configured (.preflighted 0 .ok "r1"), .configured (.applierEnded 0 .ok), .replied 0 0]

/-- The Capability is disabled. -/
def disableRun : List (InstallerAct Unit) :=
  [.setEnabled 0 "A" false, .gotCurrent 0, .draftCreated 0 1 "d2" "", .draftReplaced 0 1 id "",
    .publishBegins 0 1 id "", .configured (.validated .valid),
    .configured (.preflighted 1 .ok "r2"), .configured (.applierEnded 1 .ok), .replied 0 1]

theorem forall_operations {s : CapabilityInstaller Unit} {P : Operation Unit → Prop}
    (rest : ∀ op, s.operations (op + 1) = none) (zero : ∀ o, s.operations 0 = some o → P o)
    (op : Nat) (o : Operation Unit) (here : s.operations op = some o) : P o := by
  cases op with
  | zero => exact zero o here
  | succ op =>
    rw [rest] at here
    cases here

theorem beginRun_clean : ∀ taken ∈ accepted skillStep newNode beginRun,
    Allowed skillOwner taken.1 taken.2 ∧ Steady skillOwner taken.1 taken.2 := by
  refine accepted_forall_cons (by with_unfolding_all rfl) ⟨?_, trivial⟩ ?_
  · intro c member
    cases List.mem_singleton.mp member
    rfl
  refine accepted_forall_cons (by with_unfolding_all rfl) ⟨trivial, trivial⟩ ?_
  refine accepted_forall_cons (by with_unfolding_all rfl) ⟨⟨?_, ?_⟩, trivial⟩ ?_
  · nofun
  · refine forall_operations (fun op => by with_unfolding_all rfl) ?_
    rintro o ⟨⟩ (⟨_, confirm, _⟩ | used)
    · cases confirm
    · exact used
  refine accepted_forall_cons (by with_unfolding_all rfl) ⟨trivial, ?_⟩ ?_
  · rintro purpose previous draft ⟨⟩
    refine ⟨fun d _ => rfl, ?_⟩
    nofun
  refine accepted_forall_cons (by with_unfolding_all rfl) ⟨by with_unfolding_all rfl, trivial⟩ ?_
  refine accepted_forall_cons (by with_unfolding_all rfl) ⟨trivial, ?_⟩ ?_
  · intro plan _
    refine forall_operations (fun op => by with_unfolding_all rfl) ?_
    rintro o ⟨⟩
  exact List.forall_mem_nil _

theorem publishRun_clean : ∀ taken ∈ accepted skillStep
    (final skillStep newNode beginRun) publishRun,
    Allowed skillOwner taken.1 taken.2 ∧ Steady skillOwner taken.1 taken.2 := by
  refine accepted_forall_cons (by with_unfolding_all rfl) ⟨trivial, trivial⟩ ?_
  refine accepted_forall_cons (by with_unfolding_all rfl) ⟨trivial, fun _ _ _ _ _ _ _ => rfl⟩ ?_
  refine accepted_forall_cons (by with_unfolding_all rfl) ⟨trivial, trivial⟩ ?_
  refine accepted_forall_cons (by with_unfolding_all rfl) ⟨trivial, ?_⟩ ?_
  · intro _ _ _ _
    with_unfolding_all rfl
  refine accepted_forall_cons (by with_unfolding_all rfl) ⟨?_, trivial⟩ ?_
  · nofun
  refine accepted_forall_cons (by with_unfolding_all rfl) ⟨trivial, ?_⟩ ?_
  · intro plan previous
    constructor <;> nofun
  exact List.forall_mem_nil _

theorem disableRun_clean : ∀ taken ∈ accepted skillStep
    (final skillStep newNode (beginRun ++ publishRun)) disableRun,
    Allowed skillOwner taken.1 taken.2 ∧ Steady skillOwner taken.1 taken.2 := by
  refine accepted_forall_cons (by with_unfolding_all rfl) ⟨trivial, ?_⟩ ?_
  · refine forall_operations (fun op => by with_unfolding_all rfl) ?_
    rintro o ⟨⟩
  refine accepted_forall_cons (by with_unfolding_all rfl) ⟨trivial, trivial⟩ ?_
  refine accepted_forall_cons (by with_unfolding_all rfl) ⟨⟨?_, ?_⟩, trivial⟩ ?_
  · intro id plan found
    have planned : ∀ plan ∈ (final skillStep newNode (beginRun ++ publishRun)).plans.rows,
        plan.draftId = "d1" := by
      with_unfolding_all decide
    rw [planned plan (Table.lookup_mem found)]
    decide
  · refine forall_operations (fun op => by with_unfolding_all rfl) ?_
    rintro o ⟨⟩ (⟨_, confirm, _⟩ | used)
    · cases confirm
    · exact used
  refine accepted_forall_cons (by with_unfolding_all rfl) ⟨trivial, ?_⟩ ?_
  · rintro purpose previous draft ⟨⟩
    refine ⟨fun d _ => rfl, ?_⟩
    intro installation enables
    cases (Purpose.setEnabled.inj enables).2
  refine accepted_forall_cons (by with_unfolding_all rfl) ⟨trivial, fun _ _ _ _ _ _ _ => rfl⟩ ?_
  refine accepted_forall_cons (by with_unfolding_all rfl) ⟨trivial, trivial⟩ ?_
  refine accepted_forall_cons (by with_unfolding_all rfl) ⟨trivial, ?_⟩ ?_
  · intro _ _ _ _
    with_unfolding_all rfl
  refine accepted_forall_cons (by with_unfolding_all rfl) ⟨?_, trivial⟩ ?_
  · nofun
  refine accepted_forall_cons (by with_unfolding_all rfl) ⟨trivial, ?_⟩ ?_
  · intro plan previous
    constructor <;> nofun
  exact List.forall_mem_nil _

theorem installed_skill_agrees :
    Along (Agree skillOwner) (trace skillStep newNode (beginRun ++ publishRun ++ disableRun)) := by
  refine agree_of_steady _ _ _ _ newNode_start _ ?_
  rw [accepted_append, accepted_append]
  refine List.forall_mem_append.mpr ⟨?_, disableRun_clean⟩
  exact List.forall_mem_append.mpr ⟨beginRun_clean, publishRun_clean⟩

/-- A confirmation whose validation raises leaves its plan `installing`. -/
theorem raised_confirmation : ¬ ∀ (owner : ComponentId → Option String)
    (digest : ManagedConfig Unit → String) (planDigest : CapabilityInstallPlan → String)
    (s : CapabilityInstaller Unit), Start s → ∀ acts : List (InstallerAct Unit),
      (∀ taken ∈ accepted (CapabilityInstaller.step digest planDigest) s acts,
        Allowed owner taken.1 taken.2) →
      ∀ t ∈ trace (CapabilityInstaller.step digest planDigest) s acts, Agree owner t := by
  intro claim
  have allowed : ∀ taken ∈ accepted skillStep newNode (beginRun ++ [.raised 0]),
      Allowed skillOwner taken.1 taken.2 := by
    rw [accepted_append]
    refine List.forall_mem_append.mpr ⟨fun taken member => (beginRun_clean taken member).1, ?_⟩
    exact accepted_forall_cons (by with_unfolding_all rfl) trivial (List.forall_mem_nil _)
  have agree := claim skillOwner _ _ newNode newNode_start _ allowed _
    (Transition.mem_trace_final _ _)
  rcases agree.final "p1" (by with_unfolding_all decide) with
    ⟨op, plan, stage, here, -⟩ | ⟨plan, found, ended⟩
  · refine @forall_operations _ (fun _ => False) (fun op => by with_unfolding_all rfl) ?_ op _ here
    rintro o ⟨⟩
  · cases found
    rcases ended with ended | ended <;> cases ended

end Runs

end Knoa.Extensions.Installs
