import Knoa.Configuration.PublishChecks

/-!
# What the service keeps

No revision is changed or lost, a draft is changed only together with its version, and the revision
in force changes only when an applier has succeeded.
-/
namespace Knoa.Configuration
open Knoa.Tasks (Time)
open Relational Transaction Transition

variable {Doc : Type} {digest : Doc → String} {r r' : Registry Doc} {s s' : ConfigurationService Doc}

namespace Registry

def document? (r : Registry Doc) (revisionId : String) : Option Doc :=
  (r.revisions.lookup revisionId).map ConfigRevision.document

def inForce (r : Registry Doc) : Option Doc := r.document? r.state.appliedRevisionId

/-- Revisions stay, and a draft that was not created is the one there was or a later version of
it. -/
structure Grows (created : String → Prop) (r r' : Registry Doc) : Prop where
  revisions : ∀ id revision, r.revisions.lookup id = some revision →
    r'.revisions.lookup id = some revision
  drafts : ∀ id after, ¬ created id → r'.drafts.lookup id = some after →
    ∃ before, r.drafts.lookup id = some before ∧ after.baseRevisionId = before.baseRevisionId ∧
      (after = before ∨ before.draftVersion < after.draftVersion)

variable {created : String → Prop}

theorem Grows.of_eq (revisions : r'.revisions = r.revisions) (drafts : r'.drafts = r.drafts) :
    Grows created r r' := by
  constructor
  · intro id revision found
    rw [revisions, found]
  · intro id after _ found
    rw [drafts] at found
    exact ⟨after, found, rfl, .inl rfl⟩

theorem Grows.refl (r : Registry Doc) : Grows created r r := .of_eq rfl rfl

theorem Grows.document? (grows : Grows created r r') {id : String} {document : Doc}
    (found : r.document? id = some document) : r'.document? id = some document := by
  obtain ⟨revision, looked, rfl⟩ := Option.map_eq_some_iff.mp found
  exact Option.map_eq_some_iff.mpr ⟨revision, grows.revisions id revision looked, rfl⟩

def Prepared (r : Registry Doc) (draftId : String) (version : Nat) (Edits : Doc → Doc → Prop) :
    Prop :=
  ∀ draft, r.drafts.lookup draftId = some draft → version ≤ draft.draftVersion ∧
    (draft.draftVersion = version → ∃ base, r.document? draft.baseRevisionId = some base ∧
      Edits base draft.document)

theorem Prepared.mono {draftId : String} {version : Nat} {Edits : Doc → Doc → Prop}
    (prepared : Prepared r draftId version Edits) (grows : Grows created r r')
    (old : ¬ created draftId) : Prepared r' draftId version Edits := by
  intro after found
  obtain ⟨before, looked, base, same | later⟩ := grows.drafts draftId after old found
  · subst same
    obtain ⟨bound, edits⟩ := prepared after looked
    refine ⟨bound, fun current => ?_⟩
    obtain ⟨document, documented, edited⟩ := edits current
    exact ⟨document, grows.document? documented, edited⟩
  · have bound := (prepared before looked).1
    refine ⟨bound.trans later.le, fun current => ?_⟩
    omega

end Registry

section Operations
variable {now : Time} {draftId actor summary : String} {draft : ConfigDraft Doc}

theorem createDraft_grows (h : createDraft now draftId actor r = .ok (draft, r')) :
    r.Grows (· = draftId) r' ∧ r'.state = r.state ∧ r'.drafts.lookup draftId = some draft ∧
      draft.draftVersion = 1 ∧ r.document? draft.baseRevisionId = some draft.document := by
  obtain ⟨desired, target, drafts, inserted, h⟩ := of_bind₂ h
  cases h
  rw [orRaise_ok_iff] at inserted
  rw [Registry.desired, orRaise_ok_iff] at target
  refine ⟨⟨fun _ _ found => found, fun id after other found => ?_⟩, rfl, ?_, rfl, ?_⟩
  · have looked := (Table.lookup_insert inserted id).symm.trans found
    rw [if_neg (fun same => other same.symm)] at looked
    exact ⟨after, looked, rfl, .inl rfl⟩
  · exact (Table.lookup_insert inserted draftId).trans (if_pos rfl)
  · have key := Table.lookup_key target
    exact Option.map_eq_some_iff.mpr ⟨desired, key ▸ target, rfl⟩

theorem replaceDraft_grows {document : Doc} {expectedVersion : Nat}
    (h : replaceDraft now draftId document expectedVersion actor r = .ok (draft, r')) :
    r.Grows (fun _ => False) r' ∧ r'.state = r.state ∧ ∃ before,
      r.drafts.lookup draftId = some before ∧ before.draftVersion = expectedVersion ∧
        r'.drafts.lookup draftId = some draft ∧ draft.draftVersion = expectedVersion + 1 ∧
        draft.document = document ∧ draft.baseRevisionId = before.baseRevisionId := by
  obtain ⟨stored, found, _, version, after, reread, h⟩ := of_bind₃ h
  cases h
  rw [Registry.draft, orRaise_ok_iff] at found reread
  rw [require_ok_iff] at version
  have looked := fun id => Table.lookup_update r.drafts (fun draft => draft.draftId == draftId)
    (fun draft => { draft with
      document, draftVersion := expectedVersion + 1, updatedBy := actor,
      updatedAt := now }) (fun _ => rfl) id
  refine ⟨⟨fun _ _ found => found, fun id draft' _ found' => ?_⟩, rfl, stored, found, version,
    reread, ?_⟩
  · have before := (looked id).symm.trans found'
    obtain ⟨old, held, changed⟩ := Option.map_eq_some_iff.mp before
    refine ⟨old, held, ?_⟩
    split at changed
    next selected =>
      have same : id = draftId := (Table.lookup_key held).symm.trans (beq_iff_eq.mp selected)
      rw [same, found] at held
      cases held
      cases changed
      exact ⟨rfl, .inr (version ▸ Nat.lt_succ_self _)⟩
    next => exact ⟨changed ▸ rfl, .inl changed.symm⟩
  · have written := (looked draftId).symm.trans reread
    rw [found, Option.map_some, if_pos (beq_iff_eq.mpr (Table.lookup_key found))] at written
    cases written
    exact ⟨rfl, rfl, rfl⟩

variable {revision : ConfigRevision Doc}

theorem insertRevision_ok (h : r.insertRevision revision = .ok r') :
    r'.drafts = r.drafts ∧ r'.state = r.state ∧
      r'.revisions.lookup revision.revisionId = some revision ∧
      ∀ id stored, r.revisions.lookup id = some stored → r'.revisions.lookup id = some stored := by
  obtain ⟨revisions, inserted, h⟩ := of_bind h
  cases h
  rw [orRaise_ok_iff] at inserted
  refine ⟨rfl, rfl, (Table.lookup_insert inserted _).trans (if_pos rfl), fun id stored found => ?_⟩
  refine (Table.lookup_insert inserted id).trans ?_
  rw [if_neg, found]
  intro same
  refine Table.insert_fresh inserted ?_
  rw [same, ← Table.lookup_key found]
  exact List.mem_map_of_mem (Table.lookup_mem found)

structure Desired (r r' : Registry Doc) (revision : ConfigRevision Doc) : Prop where
  grows : r.Grows (fun _ => False) r'
  stored : r'.revisions.lookup revision.revisionId = some revision
  desired : r'.state.desiredRevisionId = revision.revisionId
  applied : r'.state.appliedRevisionId = r.state.appliedRevisionId

theorem publishDraft_desired {expectedVersion : Nat} {revisionId : String}
    (h : publishDraft digest now draftId expectedVersion revisionId actor summary r =
      .ok (revision, r')) :
    Desired r r' revision ∧ ∃ draft, r.drafts.lookup draftId = some draft ∧
      draft.draftVersion = expectedVersion ∧ draft.baseRevisionId = r.state.desiredRevisionId ∧
      revision.document = draft.document := by
  obtain ⟨draft, found, _, version, _, base, between, inserted, h⟩ := of_bind₄ h
  cases h
  obtain ⟨drafts, state, stored, revisions⟩ := insertRevision_ok inserted
  refine ⟨⟨⟨revisions, fun id after _ found' => ?_⟩, stored, rfl, ?_⟩, draft,
    orRaise_ok_iff.mp found, require_ok_iff.mp version, require_ok_iff.mp base, rfl⟩
  · have kept := (Table.lookup_delete _ _ id).symm.trans found'
    obtain ⟨held, -⟩ := Option.filter_eq_some_iff.mp kept
    exact ⟨after, (congrArg (Table.lookup · id) drafts).symm.trans held, rfl, .inl rfl⟩
  · have kept := congrArg ConfigControlState.appliedRevisionId state
    exact kept

theorem rollbackTo_desired {revisionId newId : String} {document : Doc}
    (h : rollbackTo digest now revisionId document newId actor summary r = .ok (revision, r')) :
    Desired r r' revision ∧ revision.document = document ∧
      (r.revisions.lookup revisionId).isSome := by
  obtain ⟨target, found, _, -, between, inserted, h⟩ := of_bind₃ h
  cases h
  obtain ⟨drafts, state, stored, revisions⟩ := insertRevision_ok inserted
  refine ⟨⟨⟨revisions, fun id after _ found' => ?_⟩, stored, rfl, ?_⟩, rfl, ?_⟩
  · exact ⟨after, (congrArg (Table.lookup · id) drafts).symm.trans found', rfl, .inl rfl⟩
  · have kept := congrArg ConfigControlState.appliedRevisionId state
    exact kept
  · rw [orRaise_ok_iff.mp found]
    rfl

end Operations

def ServiceCall.target? : ServiceCall Doc → Option (ConfigRevision Doc)
  | .rollingBack revision => some revision
  | .applying revision _ => some revision
  | _ => none

structure ServiceStands (s : ConfigurationService Doc) : Prop where
  applied : (s.registry.revisions.lookup s.registry.state.appliedRevisionId).isSome
  /-- Nobody else chooses a revision while a call is bringing one into force. -/
  targeted : ∀ call ∈ s.call, ∀ revision ∈ call.target?,
    s.registry.revisions.lookup revision.revisionId = some revision ∧
      s.registry.state.desiredRevisionId = revision.revisionId

def ConfigAct.creates : ConfigAct Doc → String → Prop
  | .createDraft _ draftId _ => (· = draftId)
  | _ => fun _ => False

structure ServiceStep (a : ConfigAct Doc) (s s' : ConfigurationService Doc) : Prop where
  stands : ServiceStands s'
  grows : s.registry.Grows a.creates s'.registry
  applied : s'.registry.inForce = s.registry.inForce ∨
    ∃ now revision preflighted, a = .applierEnded now .ok ∧
      s.call = some (.applying revision preflighted) ∧
      s'.registry.state.appliedRevisionId = revision.revisionId ∧
      s'.registry.state.applyStatus = .idle ∧
      s'.registry.inForce = some revision.document ∧ s'.call = none

/-- A step that leaves the revision in force. -/
structure ServiceStill (s s' : ConfigurationService Doc) : Prop where
  stands : ServiceStands s'
  grows : s.registry.Grows (fun _ => False) s'.registry
  force : s'.registry.inForce = s.registry.inForce

theorem ServiceStands.still (stands : ServiceStands s)
    (grows : s.registry.Grows (fun _ => False) s'.registry)
    (applied : s'.registry.state.appliedRevisionId = s.registry.state.appliedRevisionId)
    (targeted : ∀ call ∈ s'.call, ∀ revision ∈ call.target?,
      s'.registry.revisions.lookup revision.revisionId = some revision ∧
        s'.registry.state.desiredRevisionId = revision.revisionId) : ServiceStill s s' := by
  obtain ⟨revision, found⟩ := Option.isSome_iff_exists.mp stands.applied
  have kept := grows.revisions _ revision found
  rw [← applied] at kept
  refine ⟨⟨Option.isSome_iff_exists.mpr ⟨revision, kept⟩, targeted⟩, grows, ?_⟩
  rw [Registry.inForce, Registry.document?, kept, Registry.inForce, Registry.document?, found]

theorem ServiceStill.step (still : ServiceStill s s') (a : ConfigAct Doc) : ServiceStep a s s' where
  stands := still.stands
  grows := ⟨still.grows.revisions, fun id after _ => still.grows.drafts id after not_false⟩
  applied := .inl still.force

theorem ServiceStands.releases (stands : ServiceStands s)
    (grows : s.registry.Grows (fun _ => False) s'.registry)
    (applied : s'.registry.state.appliedRevisionId = s.registry.state.appliedRevisionId)
    (free : s'.call = none) : ServiceStill s s' := by
  refine stands.still grows applied fun call held => ?_
  rw [free] at held
  cases held

theorem ServiceStands.frees (stands : ServiceStands s) : ServiceStill s { s with call := none } :=
  stands.releases (.refl _) rfl rfl

theorem ServiceStands.moves (stands : ServiceStands s) {call : ServiceCall Doc}
    (targeted : ∀ revision ∈ call.target?,
      s.registry.revisions.lookup revision.revisionId = some revision ∧
        s.registry.state.desiredRevisionId = revision.revisionId) :
    ServiceStill s { s with call := some call } := by
  refine stands.still (.refl _) rfl ?_
  rintro _ ⟨⟩
  exact targeted

variable {now : Time}

section
variable (stands : ServiceStands s)
include stands

theorem ServiceStands.edits {draftId : String} {document : Doc}
    {expectedVersion : Nat} {actor : String}
    (h : s.editDraft now draftId document expectedVersion actor = some s') :
    ServiceStill s s' ∧ s'.call = s.call := by
  obtain ⟨draft, registry, replaced, rfl⟩ := editDraft_ok h
  obtain ⟨grows, state, -⟩ := replaceDraft_grows replaced
  refine ⟨stands.still grows (congrArg _ state) fun call held revision target => ?_, rfl⟩
  obtain ⟨stored, desired⟩ := stands.targeted call held revision target
  exact ⟨grows.revisions _ _ stored, (congrArg _ state).trans desired⟩

theorem ServiceStands.begins {draftId : String} {normalized : Doc}
    {expectedVersion : Nat} {actor summary : String}
    (h : s.beginPublish digest now draftId normalized expectedVersion actor summary = some s') :
    ServiceStill s s' := by
  obtain ⟨draft, found, h⟩ := Option.bind_eq_some_iff.mp h
  by_cases same : digest normalized = digest draft.document
  · rw [if_pos same] at h
    obtain ⟨between, edited, h⟩ := Option.bind_eq_some_iff.mp h
    cases edited
    obtain ⟨draft', -, h⟩ := Option.bind_eq_some_iff.mp h
    cases h
    exact stands.moves (fun revision target => nomatch target)
  · rw [if_neg same] at h
    obtain ⟨between, edited, h⟩ := Option.bind_eq_some_iff.mp h
    obtain ⟨after, wrote, edited⟩ := Option.map_eq_some_iff.mp edited
    cases edited
    obtain ⟨draft', -, h⟩ := Option.bind_eq_some_iff.mp h
    cases h
    obtain ⟨still, -⟩ := stands.edits wrote
    refine ⟨⟨still.stands.applied, ?_⟩, still.grows, still.force⟩
    rintro call ⟨⟩ revision ⟨⟩

theorem ServiceStands.desires (now : Time) (revisionId : String)
    (publish : PublishCall Doc) (document : Doc) :
    ServiceStill s (s.desire digest now revisionId publish document) := by
  unfold ConfigurationService.desire
  split
  next revision registry _ published =>
    obtain ⟨desired, -⟩ := publishDraft_desired published
    refine stands.still desired.grows desired.applied ?_
    rintro call ⟨⟩ other ⟨⟩
    exact ⟨desired.stored, desired.desired⟩
  next => exact stands.frees

theorem ServiceStands.fails (now : Time) (revisionId code : String) :
    ServiceStill s (s.fail now revisionId code) := by
  refine stands.releases ?_ (markFailed_applied _ _ _ _) rfl
  unfold ConfigurationService.fail markFailed
  split <;> exact .of_eq rfl rfl

theorem ServiceStands.succeeds {revision : ConfigRevision Doc}
    {preflighted : Doc} (held : s.call = some (.applying revision preflighted)) :
    ServiceStep (.applierEnded now .ok) s (s.succeed now revision preflighted .ok) := by
  unfold ConfigurationService.succeed
  split
  next => exact stands.frees.step _
  next registry marked =>
    have applied := markApplied_ok marked
    obtain ⟨_, -, marked⟩ := of_bind marked
    cases marked
    obtain ⟨stored, -⟩ := stands.targeted _ held revision rfl
    refine ⟨⟨Option.isSome_iff_exists.mpr ⟨revision, stored⟩, ?_⟩, .of_eq rfl rfl, .inr ?_⟩
    · rintro call ⟨⟩
    · refine ⟨now, revision, preflighted, rfl, held, applied, rfl, ?_, rfl⟩
      exact Option.map_eq_some_iff.mpr ⟨revision, stored, rfl⟩

theorem service_step (a : ConfigAct Doc) (h : s.step digest a = some s') : ServiceStep a s s' := by
  cases a with
  | createDraft now draftId actor =>
    simp only [ConfigurationService.step] at h
    split at h <;> cases h
    next draft registry created =>
      obtain ⟨grows, state, -⟩ := createDraft_grows created
      obtain ⟨revision, found⟩ := Option.isSome_iff_exists.mp stands.applied
      have kept := grows.revisions _ revision found
      refine ⟨⟨?_, fun call held revision target => ?_⟩, grows, .inl ?_⟩
      · rw [state, kept]
        rfl
      · obtain ⟨stored, desired⟩ := stands.targeted call held revision target
        exact ⟨grows.revisions _ _ stored, (congrArg _ state).trans desired⟩
      · simp only [Registry.inForce, Registry.document?, state, kept, found]
  | replaceDraft now draftId normalized expectedVersion actor =>
    obtain ⟨document, -, edited⟩ := Option.bind_eq_some_iff.mp h
    exact (stands.edits edited).1.step _
  | publish now draftId normalized expectedVersion actor summary =>
    simp only [ConfigurationService.step] at h
    split at h
    next => cases h
    next =>
      obtain ⟨document, -, begun⟩ := Option.bind_eq_some_iff.mp h
      exact (stands.begins begun).step _
  | validated verdict =>
    simp only [ConfigurationService.step] at h
    split at h
    next publish held =>
      split at h
      next =>
        split at h <;> cases h
        next => exact stands.frees.step _
        next draft read =>
          refine (stands.moves ?_).step _
          rintro other ⟨⟩
      next =>
        cases h
        exact stands.frees.step _
    next => cases h
  | preflighted now outcome revisionId =>
    simp only [ConfigurationService.step] at h
    split at h
    next publish document held =>
      split at h <;> cases h
      next => exact (stands.desires now revisionId publish document).step _
      next => exact stands.frees.step _
    next revision held =>
      split at h <;> cases h
      next =>
        refine (stands.moves ?_).step _
        rintro other ⟨⟩
        exact stands.targeted _ held revision rfl
      next code => exact (stands.fails now revision.revisionId code).step _
      next => exact (stands.fails now revision.revisionId "apply_failed").step _
    next => cases h
  | applierEnded now outcome =>
    simp only [ConfigurationService.step] at h
    split at h
    next revision preflighted held =>
      split at h <;> cases h
      next => exact stands.succeeds held
      next code => exact (stands.fails now revision.revisionId code).step _
      next => exact (stands.fails now revision.revisionId "apply_failed").step _
    next => cases h
  | rollback now revisionId normalized newId actor summary =>
    simp only [ConfigurationService.step] at h
    split at h
    next => cases h
    next =>
      obtain ⟨document, -, begun⟩ := Option.bind_eq_some_iff.mp h
      split at begun <;> cases begun
      next revision registry _ rolled =>
        obtain ⟨desired, -⟩ := rollbackTo_desired rolled
        refine (stands.still desired.grows desired.applied ?_).step _
        rintro call ⟨⟩ other ⟨⟩
        exact ⟨desired.stored, desired.desired⟩
  | cancel =>
    cases h
    exact stands.frees.step _

end

/-- The step in which a publish chooses its revision: the draft is still the one of its base, and
the base is the desired revision. -/
structure Chooses (a : ConfigAct Doc) (r : Registry Doc) (call call' : ServiceCall Doc) : Prop where
  chosen : ∃ publish document revision now revisionId draft,
    a = .preflighted now .ok revisionId ∧ call = .preflighting publish document ∧
      call'.publish? = none ∧ call'.target? = some revision ∧
      r.drafts.lookup publish.draftId = some draft ∧
      draft.draftVersion = publish.expectedVersion ∧
      draft.baseRevisionId = r.state.desiredRevisionId ∧ revision.document = draft.document

theorem desire_call {publish : PublishCall Doc} {document : Doc} (now : Time)
    (revisionId : String) :
    (s.desire digest now revisionId publish document).call = none ∨
      ∃ call', (s.desire digest now revisionId publish document).call = some call' ∧
        Chooses (.preflighted now .ok revisionId) s.registry (.preflighting publish document)
          call' := by
  unfold ConfigurationService.desire
  split
  next revision registry _ published =>
    obtain ⟨-, draft, found, version, base, copied⟩ := publishDraft_desired published
    exact .inr ⟨_, rfl, ⟨publish, document, revision, now, revisionId, draft, rfl, rfl, rfl, rfl,
      found, version, base, copied⟩⟩
  next => exact .inl rfl

theorem succeed_call (now : Time) (revision : ConfigRevision Doc) (preflighted : Doc) :
    (s.succeed now revision preflighted .ok).call = none := by
  unfold ConfigurationService.succeed
  split <;> rfl

theorem call_goes_on {call : ServiceCall Doc} (held : s.call = some call) (a : ConfigAct Doc)
    (h : s.step digest a = some s') : s'.call = none ∨ ∃ call', s'.call = some call' ∧
      (call'.publish? = call.publish? ∧ call'.target? = call.target? ∨
        Chooses a s.registry call call') := by
  cases a with
  | createDraft now draftId actor =>
    simp only [ConfigurationService.step] at h
    split at h <;> cases h
    exact .inr ⟨call, held, .inl ⟨rfl, rfl⟩⟩
  | replaceDraft now draftId normalized expectedVersion actor =>
    obtain ⟨document, -, edited⟩ := Option.bind_eq_some_iff.mp h
    obtain ⟨draft, registry, -, rfl⟩ := editDraft_ok edited
    exact .inr ⟨call, held, .inl ⟨rfl, rfl⟩⟩
  | publish now draftId normalized expectedVersion actor summary
  | rollback now revisionId normalized newId actor summary =>
    simp only [ConfigurationService.step, held] at h
    cases h
  | validated verdict =>
    simp only [ConfigurationService.step, held] at h
    split at h
    next publish same =>
      cases same
      split at h
      next =>
        split at h <;> cases h
        next => exact .inl rfl
        next => exact .inr ⟨_, rfl, .inl ⟨rfl, rfl⟩⟩
      next =>
        cases h
        exact .inl rfl
    next => cases h
  | preflighted now outcome revisionId =>
    simp only [ConfigurationService.step, held] at h
    split at h
    next publish document same =>
      cases same
      split at h <;> cases h
      next =>
        rcases @desire_call _ digest s publish document now revisionId with ended | ⟨call', after, chooses⟩
        · exact .inl ended
        · exact .inr ⟨call', after, .inr chooses⟩
      next => exact .inl rfl
    next revision same =>
      cases same
      split at h <;> cases h
      next => exact .inr ⟨_, rfl, .inl ⟨rfl, rfl⟩⟩
      next => exact .inl rfl
      next => exact .inl rfl
    next => cases h
  | applierEnded now outcome =>
    simp only [ConfigurationService.step, held] at h
    split at h
    next revision preflighted same =>
      split at h <;> cases h
      next => exact .inl (succeed_call now revision preflighted)
      next => exact .inl rfl
      next => exact .inl rfl
    next => cases h
  | cancel =>
    cases h
    exact .inl rfl

def RevisionsKept (s s' : ConfigurationService Doc) : Prop :=
  ∀ id revision, s.registry.revisions.lookup id = some revision →
    s'.registry.revisions.lookup id = some revision

theorem configuration_kept (digest : Doc → String) (registry : Registry Doc)
    (stored : (registry.revisions.lookup registry.state.appliedRevisionId).isSome)
    (acts : List (ConfigAct Doc)) :
    (trace (ConfigurationService.step digest) { registry := registry } acts).Pairwise RevisionsKept ∧
      ∀ taken ∈ accepted (ConfigurationService.step digest) { registry := registry } acts,
        ServiceStep taken.2 taken.1 (next (ConfigurationService.step digest) taken.1 taken.2) := by
  have start : ServiceStands ({ registry := registry } : ConfigurationService Doc) :=
    ⟨stored, by rintro _ ⟨⟩⟩
  have stands : ∀ s ∈ trace (ConfigurationService.step digest) { registry := registry } acts,
      ServiceStands s :=
    trace_invariant (fun _ a _ stands taken => (service_step stands a taken).stands) start acts
  refine ⟨?_, fun taken member => ?_⟩
  · refine trace_pairwise_of_clean (fun _ _ _ found => found)
      (fun _ _ _ h h' id revision found => h' id revision (h id revision found))
      (fun _ a _ stands taken => (service_step stands a taken).grows.revisions)
      fun taken member => stands _ (accepted_mem_trace member).1
  · obtain ⟨reached, s', stepped⟩ := accepted_mem_trace member
    rw [next_of_some stepped]
    exact service_step (stands _ reached) _ stepped

theorem configuration_kept_changes :
    (trace (ConfigurationService.step id) { registry := sampleRegistry } sampleChanges).Pairwise
      RevisionsKept :=
  (configuration_kept id sampleRegistry (by decide) sampleChanges).1

end Knoa.Configuration
