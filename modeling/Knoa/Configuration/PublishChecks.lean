import Knoa.Configuration.ConfigurationService

/-!
# What is published was checked

A publish reads its draft before the validator and before the preflight, and compares the version
when it makes the revision the desired one.
-/
namespace Knoa.Configuration
open Knoa.Tasks (Time)
open Relational Transaction Transition

variable {Doc : Type} {digest : Doc → String} {initial : ConfigControlState}
  {s s' : ConfigurationService Doc}

structure PublishSound (digest : Doc → String) (initial : ConfigControlState)
    (s : ConfigurationService Doc) : Prop where
  /-- What was published is what the call has normalized, validated and preflighted. -/
  checked : ∀ p ∈ s.published, digest p.normalized = digest p.revision.document ∧
    p.validated = p.revision.document ∧ p.preflighted = p.revision.document
  based : ∀ p ∈ s.published, p.base = p.desired
  applied : ∀ a ∈ s.applied, a.preflighted = a.revision.document ∧ a.applier = .ok
  current : s.registry.state.appliedRevisionId =
    (s.applied.getLast?.map fun a => a.revision.revisionId).getD initial.appliedRevisionId
  /-- What was replaced or published is the version that the caller has named. -/
  edits : ∀ e ∈ s.edits, e.replaced = some e.expectedVersion
  versions : ∀ p ∈ s.published, p.draftVersion = some p.expectedVersion

/-- The publish that is on its way to its write. -/
def ServiceCall.publish? : ServiceCall Doc → Option (PublishCall Doc)
  | .validating publish => some publish
  | .preflighting publish _ => some publish
  | _ => none

/-- The condition: an edit of a draft that is being published finds a version that is not below
the one that the publish expects. -/
def ConfigurationService.Clean (s : ConfigurationService Doc) : ConfigAct Doc → Prop
  | .replaceDraft _ draftId _ _ _ => ∀ publish ∈ s.call.bind ServiceCall.publish?,
      publish.draftId = draftId → ∀ version ∈ s.version? draftId, publish.expectedVersion ≤ version
  | _ => True

instance (s : ConfigurationService Doc) (a : ConfigAct Doc) : Decidable (s.Clean a) := by
  unfold ConfigurationService.Clean
  cases a <;> infer_instance

section Registry
variable {registry registry' : Registry Doc} {now : Time} {draftId actor summary : String}

theorem createDraft_ok {draft : ConfigDraft Doc}
    (h : createDraft now draftId actor registry = .ok (draft, registry')) :
    registry'.state = registry.state ∧ ∀ id draft', registry.drafts.lookup id = some draft' →
      registry'.drafts.lookup id = some draft' := by
  obtain ⟨desired, -, drafts, inserted, h⟩ := of_bind₂ h
  cases h
  rw [orRaise_ok_iff] at inserted
  refine ⟨rfl, fun id draft' found => ?_⟩
  refine (Table.lookup_insert inserted id).trans ?_
  rw [if_neg, found]
  intro same
  refine Table.insert_fresh inserted ?_
  rw [same, ← Table.lookup_key found]
  exact List.mem_map_of_mem (Table.lookup_mem found)

theorem replaceDraft_ok {document : Doc} {expectedVersion : Nat} {draft : ConfigDraft Doc}
    (h : replaceDraft now draftId document expectedVersion actor registry = .ok (draft, registry')) :
    registry'.state = registry.state ∧
      (registry.drafts.lookup draftId).map ConfigDraft.draftVersion = some expectedVersion ∧
      (∃ after, registry'.drafts.lookup draftId = some after ∧ after.document = document ∧
        after.draftVersion = expectedVersion + 1) ∧
      ∀ id, id ≠ draftId → registry'.drafts.lookup id = registry.drafts.lookup id := by
  obtain ⟨stored, found, _, version, _, -, h⟩ := of_bind₃ h
  cases h
  rw [Registry.draft, orRaise_ok_iff] at found
  rw [require_ok_iff] at version
  have after := fun id => Table.lookup_update registry.drafts
    (fun draft => draft.draftId == draftId)
    (fun draft => { draft with
      document, draftVersion := expectedVersion + 1, updatedBy := actor,
      updatedAt := now }) (fun _ => rfl) id
  refine ⟨rfl, ?_, ?_, fun id other => ?_⟩
  · rw [found, Option.map_some, version]
  · refine ⟨{ stored with
        document, draftVersion := expectedVersion + 1, updatedBy := actor,
        updatedAt := now }, (after draftId).trans ?_, rfl, rfl⟩
    rw [found, Option.map_some, if_pos]
    rw [Table.lookup_key found, beq_self_eq_true]
  · refine (after id).trans ?_
    cases looked : registry.drafts.lookup id with
    | none => rfl
    | some draft =>
      rw [Option.map_some, if_neg]
      rw [Table.lookup_key looked, beq_iff_eq]
      exact other

variable {revisionId : String}

theorem publishDraft_ok {expectedVersion : Nat} {revision : ConfigRevision Doc}
    (h : publishDraft digest now draftId expectedVersion revisionId actor summary registry =
      .ok (revision, registry')) :
    ∃ draft, registry.drafts.lookup draftId = some draft ∧ draft.draftVersion = expectedVersion ∧
      revision.document = draft.document ∧
      revision.parentRevisionId = registry.state.desiredRevisionId ∧
      registry'.state.appliedRevisionId = registry.state.appliedRevisionId := by
  obtain ⟨draft, found, _, version, _, base, between, inserted, h⟩ := of_bind₄ h
  obtain ⟨revisions, -, inserted⟩ := of_bind inserted
  cases inserted
  cases h
  exact ⟨draft, orRaise_ok_iff.mp found, require_ok_iff.mp version, rfl, require_ok_iff.mp base,
    rfl⟩

theorem rollbackTo_ok {newId : String} {document : Doc} {revision : ConfigRevision Doc}
    (h : rollbackTo digest now revisionId document newId actor summary registry =
      .ok (revision, registry')) :
    registry'.state.appliedRevisionId = registry.state.appliedRevisionId := by
  obtain ⟨_, -, _, -, between, inserted, h⟩ := of_bind₃ h
  obtain ⟨revisions, -, inserted⟩ := of_bind inserted
  cases inserted
  cases h
  rfl

theorem markApplied_ok (h : markApplied now revisionId registry = .ok ((), registry')) :
    registry'.state.appliedRevisionId = revisionId := by
  obtain ⟨_, -, h⟩ := of_bind h
  cases h
  rfl

theorem markFailed_applied (registry : Registry Doc) (now : Time) (revisionId errorCode : String) :
    (markFailed registry now revisionId errorCode).state.appliedRevisionId =
      registry.state.appliedRevisionId := by
  unfold markFailed
  split <;> rfl

end Registry

def CallSound (digest : Doc → String) (registry : Registry Doc) : ServiceCall Doc → Prop
  | .validating publish => digest publish.normalized = digest publish.validated ∧
      ∃ draft, registry.drafts.lookup publish.draftId = some draft ∧
        (publish.expectedVersion < draft.draftVersion ∨ draft.document = publish.validated)
  | .preflighting publish document => digest publish.normalized = digest publish.validated ∧
      ∃ draft, registry.drafts.lookup publish.draftId = some draft ∧
        (publish.expectedVersion < draft.draftVersion ∨
          draft.document = publish.validated ∧ document = publish.validated)
  | .rollingBack _ => True
  | .applying revision preflighted => preflighted = revision.document

structure ServiceSound (digest : Doc → String) (initial : ConfigControlState)
    (s : ConfigurationService Doc) : Prop where
  sound : PublishSound digest initial s
  call : ∀ call ∈ s.call, CallSound digest s.registry call

variable {registry : Registry Doc}

theorem CallSound.mono {registry' : Registry Doc} {call : ServiceCall Doc}
    (sound : CallSound digest registry call)
    (drafts : ∀ publish ∈ call.publish?, ∀ draft,
      registry.drafts.lookup publish.draftId = some draft →
      ∃ draft', registry'.drafts.lookup publish.draftId = some draft' ∧
      (draft' = draft ∨ publish.expectedVersion < draft'.draftVersion)) :
    CallSound digest registry' call := by
  cases call with
  | validating publish | preflighting publish document =>
    obtain ⟨normal, draft, found, seen⟩ := sound
    obtain ⟨draft', found', rfl | passed⟩ := drafts publish rfl draft found
    · exact ⟨normal, draft', found', seen⟩
    · exact ⟨normal, draft', found', .inl passed⟩
  | rollingBack revision => trivial
  | applying revision preflighted => exact sound

theorem ServiceSound.release (sound : ServiceSound digest initial s)
    (applied : registry.state.appliedRevisionId = s.registry.state.appliedRevisionId) :
    ServiceSound digest initial { s with registry, call := none } := by
  obtain ⟨checked, based, marked, current, edits, versions⟩ := sound.sound
  refine ⟨⟨checked, based, marked, applied.trans current, edits, versions⟩, ?_⟩
  intro call none_left
  cases none_left

theorem ServiceSound.goOn (sound : ServiceSound digest initial s) {call : ServiceCall Doc}
    (applied : registry.state.appliedRevisionId = s.registry.state.appliedRevisionId)
    (seen : CallSound digest registry call) :
    ServiceSound digest initial { s with registry, call := some call } := by
  obtain ⟨checked, based, marked, current, edits, versions⟩ := sound.sound
  refine ⟨⟨checked, based, marked, applied.trans current, edits, versions⟩, ?_⟩
  intro other held
  cases held
  exact seen

variable {now : Time} {draftId actor : String}

theorem editDraft_ok {document : Doc} {expectedVersion : Nat}
    (h : s.editDraft now draftId document expectedVersion actor = some s') : ∃ draft registry,
      replaceDraft now draftId document expectedVersion actor s.registry = .ok (draft, registry) ∧
      s' = { s with
        registry, edits := s.edits ++
          [{ draftId, expectedVersion, replaced := s.version? draftId }] } := by
  unfold ConfigurationService.editDraft at h
  split at h <;> cases h
  next draft registry replaced => exact ⟨draft, registry, replaced, rfl⟩

theorem ServiceSound.edit (sound : ServiceSound digest initial s) {document : Doc}
    {expectedVersion : Nat}
    (clean : ∀ publish ∈ s.call.bind ServiceCall.publish?, publish.draftId = draftId →
      ∀ version ∈ s.version? draftId, publish.expectedVersion ≤ version)
    (h : s.editDraft now draftId document expectedVersion actor = some s') :
    ServiceSound digest initial s' := by
  obtain ⟨_, registry, replaced, rfl⟩ := editDraft_ok h
  obtain ⟨state, version, ⟨draft', found', -, later⟩, others⟩ := replaceDraft_ok replaced
  obtain ⟨checked, based, marked, current, edits, versions⟩ := sound.sound
  refine ⟨⟨checked, based, marked, ?_, ?_, versions⟩, ?_⟩
  · rw [← current]
    exact congrArg ConfigControlState.appliedRevisionId state
  · intro edit member
    rcases List.mem_concat.mp member with old | new
    · exact edits edit old
    · rw [new]
      exact version
  · intro call held
    refine (sound.call call held).mono fun publish mine draft found => ?_
    by_cases same : publish.draftId = draftId
    · refine ⟨draft', same ▸ found', .inr ?_⟩
      have bound := clean publish (Option.bind_eq_some_iff.mpr ⟨call, held, mine⟩) same
        expectedVersion version
      omega
    · exact ⟨draft, (others _ same).trans found, .inl rfl⟩

section
variable (sound : ServiceSound digest initial s)
include sound

theorem ServiceSound.begins (idle : s.call = none)
    {normalized : Doc} {expectedVersion : Nat} {summary : String}
    (h : s.beginPublish digest now draftId normalized expectedVersion actor summary = some s') :
    ServiceSound digest initial s' := by
  obtain ⟨draft, found, h⟩ := Option.bind_eq_some_iff.mp h
  by_cases same : digest normalized = digest draft.document
  · rw [if_pos same] at h
    obtain ⟨between, edited, h⟩ := Option.bind_eq_some_iff.mp h
    cases edited
    obtain ⟨draft', found', h⟩ := Option.bind_eq_some_iff.mp h
    cases h
    rw [found] at found'
    cases found'
    exact sound.goOn rfl ⟨same, draft, found, .inr rfl⟩
  · rw [if_neg same] at h
    obtain ⟨between, edited, h⟩ := Option.bind_eq_some_iff.mp h
    obtain ⟨after, wrote, edited⟩ := Option.map_eq_some_iff.mp edited
    cases edited
    obtain ⟨draft', found', h⟩ := Option.bind_eq_some_iff.mp h
    cases h
    have kept : ServiceSound digest initial after := by
      refine sound.edit ?_ wrote
      rw [idle]
      intro publish none_held
      cases none_held
    have written : draft'.document = normalized := by
      obtain ⟨_, registry, replaced, rfl⟩ := editDraft_ok wrote
      obtain ⟨-, -, ⟨draft'', looked, written, -⟩, -⟩ := replaceDraft_ok replaced
      rw [looked] at found'
      cases found'
      exact written
    exact kept.goOn rfl ⟨congrArg digest written.symm, draft', found', .inr rfl⟩

/-- The draft becomes the desired revision: the write finds the expected version, so the draft is
still the one that was seen. -/
theorem ServiceSound.desires {publish : PublishCall Doc} {document : Doc}
    (held : s.call = some (.preflighting publish document)) (now : Time) (revisionId : String) :
    ServiceSound digest initial (s.desire digest now revisionId publish document) := by
  unfold ConfigurationService.desire
  split
  next revision registry _ published =>
    obtain ⟨draft, found, version, copied, base, kept⟩ := publishDraft_ok published
    obtain ⟨normal, seen, found', unchanged⟩ := sound.call _ held
    rw [found] at found'
    cases found'
    have still : draft.document = publish.validated ∧ document = publish.validated := by
      rcases unchanged with passed | unchanged
      · omega
      · exact unchanged
    obtain ⟨checked, based, marked, current, edits, versions⟩ := sound.sound
    refine ⟨⟨?_, ?_, marked, kept.trans current, edits, ?_⟩, ?_⟩
    · intro p member
      rcases List.mem_concat.mp member with old | new
      · exact checked p old
      · rw [new, copied, still.1, still.2]
        exact ⟨normal, rfl, rfl⟩
    · intro p member
      rcases List.mem_concat.mp member with old | new
      · exact based p old
      · rw [new]
        exact base
    · intro p member
      rcases List.mem_concat.mp member with old | new
      · exact versions p old
      · rw [new]
        exact (congrArg (Option.map _) found).trans (congrArg some version)
    · intro call taken
      cases taken
      exact still.2.trans (copied.trans still.1).symm
  · exact sound.release rfl

theorem ServiceSound.fails (now : Time) (revisionId errorCode : String) :
    ServiceSound digest initial (s.fail now revisionId errorCode) :=
  sound.release (markFailed_applied s.registry now revisionId errorCode)

theorem ServiceSound.succeeds
    {revision : ConfigRevision Doc} {preflighted : Doc} (checked : preflighted = revision.document)
    (now : Time) : ServiceSound digest initial (s.succeed now revision preflighted .ok) := by
  unfold ConfigurationService.succeed
  split
  · exact sound.release rfl
  next registry applied =>
    obtain ⟨published, based, marked, -, edits, versions⟩ := sound.sound
    refine ⟨⟨published, based, ?_, ?_, edits, versions⟩, ?_⟩
    · intro a member
      rcases List.mem_concat.mp member with old | new
      · exact marked a old
      · rw [new]
        exact ⟨checked, rfl⟩
    · rw [List.getLast?_append_of_ne_nil _ (List.cons_ne_nil _ _)]
      exact markApplied_ok applied
    · nofun

theorem ServiceSound.step {a : ConfigAct Doc}
    (clean : s.Clean a) (h : s.step digest a = some s') : ServiceSound digest initial s' := by
  cases a with
  | createDraft now draftId actor =>
    simp only [ConfigurationService.step] at h
    split at h <;> cases h
    next created =>
      obtain ⟨state, kept⟩ := createDraft_ok created
      obtain ⟨checked, based, marked, current, edits, versions⟩ := sound.sound
      refine ⟨⟨checked, based, marked, ?_, edits, versions⟩, ?_⟩
      · rw [← current]
        exact congrArg ConfigControlState.appliedRevisionId state
      · intro call held
        exact (sound.call call held).mono fun publish _ draft found =>
          ⟨draft, kept _ _ found, .inl rfl⟩
  | replaceDraft now draftId normalized expectedVersion actor =>
    obtain ⟨document, -, wrote⟩ := Option.bind_eq_some_iff.mp h
    exact sound.edit clean wrote
  | publish now draftId normalized expectedVersion actor summary =>
    simp only [ConfigurationService.step] at h
    split at h
    · cases h
    next idle =>
      obtain ⟨document, -, began⟩ := Option.bind_eq_some_iff.mp h
      exact sound.begins idle began
  | validated verdict =>
    simp only [ConfigurationService.step] at h
    split at h
    next publish held =>
      obtain ⟨normal, draft, found, seen⟩ := sound.call _ held
      cases verdict with
      | valid =>
        rw [Registry.draft, found] at h
        cases h
        refine sound.goOn rfl ⟨normal, draft, found, ?_⟩
        exact seen.imp_right fun same => ⟨same, same⟩
      | invalid | raised =>
        cases h
        exact sound.release rfl
    · cases h
  | preflighted now outcome revisionId =>
    simp only [ConfigurationService.step] at h
    split at h
    next publish document held =>
      cases outcome with
      | ok =>
        cases h
        exact sound.desires held now revisionId
      | failed code | raised =>
        cases h
        exact sound.release rfl
    next revision held =>
      cases outcome with
      | ok =>
        cases h
        exact sound.goOn rfl rfl
      | failed code =>
        cases h
        exact sound.fails now _ code
      | raised =>
        cases h
        exact sound.fails now _ _
    · cases h
  | applierEnded now outcome =>
    simp only [ConfigurationService.step] at h
    split at h
    next revision preflighted held =>
      cases outcome with
      | ok =>
        cases h
        exact sound.succeeds (sound.call _ held) now
      | failed code =>
        cases h
        exact sound.fails now _ code
      | raised =>
        cases h
        exact sound.fails now _ _
    · cases h
  | rollback now revisionId normalized newId actor summary =>
    simp only [ConfigurationService.step] at h
    split at h
    · cases h
    next =>
      obtain ⟨document, -, h⟩ := Option.bind_eq_some_iff.mp h
      split at h
      next rolled =>
        cases h
        exact sound.goOn (rollbackTo_ok rolled) trivial
      · cases h
  | cancel =>
    cases h
    exact sound.release rfl

end

/-- A run in which no edit slips in below the version that a publish expects publishes only what
it has checked. -/
theorem publish_checked (digest : Doc → String) (registry : Registry Doc)
    (acts : List (ConfigAct Doc))
    (clean : ∀ taken ∈ accepted (ConfigurationService.step digest) { registry := registry } acts,
      taken.1.Clean taken.2) :
    ∀ s ∈ trace (ConfigurationService.step digest) { registry := registry } acts,
      PublishSound digest registry.state s := by
  have start : ServiceSound digest registry.state
      ({ registry := registry } : ConfigurationService Doc) := by
    refine ⟨⟨?_, ?_, ?_, rfl, ?_, ?_⟩, ?_⟩
    all_goals
      intro x member
      cases member
  intro s reached
  exact (Transition.trace_safe_of_clean (fun s a s' sound clean h => sound.step clean h) start
    clean s reached).sound

section Sample

def sampleRevision : ConfigRevision String where
  revisionId := "r0"
  parentRevisionId := ""
  document := "first"
  configDigest := "first"
  changeSummary := ""
  createdBy := "boot"
  createdAt := 0

def sampleRegistry : Registry String where
  revisions := ⟨[sampleRevision], by decide⟩
  drafts := ⟨[], by decide⟩
  state :=
    { desiredRevisionId := "r0", appliedRevisionId := "r0", applyStatus := .idle,
      applyErrorCode := "", updatedAt := 0 }

/-- A publish that names the given version, with an edit while it awaits the preflight. -/
def samplePublish (expectedVersion : Nat) : List (ConfigAct String) :=
  [.createDraft 1 "d" "ann", .publish 2 "d" (some "first") expectedVersion "ann" "",
    .validated .valid, .replaceDraft 3 "d" (some "second") 1 "bob", .preflighted 4 .ok "r1",
    .applierEnded 5 .ok]

def sampleChanges : List (ConfigAct String) :=
  [.createDraft 1 "d" "ann", .replaceDraft 2 "d" (some "Second") 1 "ann",
    .rollback 3 "r0" (some "first") "r1" "bob" "", .preflighted 4 .ok "",
    .applierEnded 5 (.failed "apply_failed"), .createDraft 6 "e" "ann",
    .replaceDraft 7 "e" (some "Second") 1 "ann", .publish 8 "e" (some "second") 2 "ann" "",
    .validated .valid, .replaceDraft 9 "e" (some "third") 3 "bob", .preflighted 10 .ok "r2",
    .applierEnded 11 .ok, .createDraft 12 "f" "ann", .publish 13 "f" (some "FIRST") 1 "ann" "",
    .validated .valid, .preflighted 14 .ok "r3", .applierEnded 15 .ok]

theorem publish_checked_changes :
    (∀ s ∈ trace (ConfigurationService.step id) { registry := sampleRegistry } sampleChanges,
      PublishSound id sampleRegistry.state s) ∧
    (final (ConfigurationService.step id) { registry := sampleRegistry }
      sampleChanges).registry.state.appliedRevisionId = "r3" :=
  ⟨publish_checked id sampleRegistry sampleChanges (by decide +kernel), by decide +kernel⟩

/-- The edit brings the draft to the version that the publish has named, so a document is applied
that was neither validated nor preflighted. -/
theorem unchecked_published :
    let s := final (ConfigurationService.step id) { registry := sampleRegistry } (samplePublish 2)
    ¬PublishSound id sampleRegistry.state s ∧
      s.registry.state.appliedRevisionId = "r1" ∧
      s.applied.map (fun a => (a.revision.document, a.preflighted)) = [("second", "first")] := by
  intro s
  refine ⟨fun sound => ?_, by decide +kernel, by decide +kernel⟩
  have unchecked : ¬∀ p ∈ s.published, p.validated = p.revision.document := by decide +kernel
  exact unchecked fun p member => (sound.checked p member).2.1

end Sample

end Knoa.Configuration
