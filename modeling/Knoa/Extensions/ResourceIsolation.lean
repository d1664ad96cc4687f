import Knoa.Extensions.ChangeDetection

/-!
# A Resource that cannot be read

A failing read is passed over while a definition is baselined; later it ends the reconciliation.
-/
namespace Knoa.Extensions
open BridgeEnv (Work ownDefinitions)
open Knoa.Automation Knoa.Tasks Relational Loops Transition

variable {env : BridgeEnv} {round : Round} {s s' t : Bridge}

/-- No call of the repository has ended the round. -/
def RoundReport.unrefused (report : RoundReport) : Bool :=
  match report.stop with
  | none => true
  | some (.unread _ _) => true
  | _ => false

structure ResourcesIsolated (s : Bridge) : Prop where
  /-- What could be read was handed over, every baseline was called, and the subscriptions of the
  Resources without a failing read were changed. -/
  isolated : ∀ r report, s.rounds[r]? = some report → report.unrefused = true →
    (∀ e ∈ report.emissions, e.2.2 = true → (e.1, e.2.1) ∈ s.emitted r) ∧
    (∀ task ∈ report.baselines, (r, task) ∈ s.baselineCalls) ∧
    ∀ uri ∈ report.subscriptions, (∀ e ∈ report.emissions, e.1 = uri → e.2.2 = true) →
      (r, uri) ∈ s.subscriptionCalls
  /-- Nothing is delivered that was there when the definition was baselined. -/
  quiet : ∀ o ∈ s.observed, o.handling = .delivered → ∀ e ∈ s.existing, e.taskId = o.taskId →
    e.triggerId = o.triggerId → e.uri = o.uri → e.contents ≠ o.contents

/-- No read fails, or nothing is left to do from the first failing read on. -/
def RoundReport.Undisturbed (report : RoundReport) : Prop :=
  (∀ e ∈ report.emissions, e.2.2 = true) ∨
    (∀ e ∈ report.emissions.dropWhile fun e => e.2.2, e.2.2 = false) ∧ report.baselines = [] ∧
      ∀ uri ∈ report.subscriptions, ∃ e ∈ report.emissions, e.1 = uri ∧ e.2.2 = false

instance (report : RoundReport) : Decidable report.Undisturbed := by
  unfold RoundReport.Undisturbed
  infer_instance

/-- The condition: of the reads for baselined definitions none fails unless nothing is left to do,
and none finds the content that could not be read when the definition was baselined. -/
def Bridge.Clean (env : BridgeEnv) (s : Bridge) : BridgeAct → Prop
  | .reconcile round =>
    match ownDefinitions round round.definitions.rows s with
    | (.error _, _) => True
    | (.ok owned, t) =>
      (env.report round owned t).Undisturbed ∧
        ∀ e ∈ s.existing, e.wasRead = false →
          (e.uri, e.taskId, true) ∈ (env.report round owned t).emissions →
            round.content e.uri e.taskId ≠ e.contents
  | _ => True

instance (env : BridgeEnv) (s : Bridge) (a : BridgeAct) : Decidable (s.Clean env a) := by
  cases a with
  | reconcile round =>
    unfold Bridge.Clean
    dsimp only
    split <;> infer_instance
  | repository op => exact .isTrue trivial
  | rebind bindings => exact .isTrue trivial

structure Quiet (env : BridgeEnv) (s : Bridge) : Prop where
  read : ∀ e ∈ s.existing, e.wasRead = true →
    ∃ o ∈ s.observed, o.key = some (e.triggerId, env.resourceEventId e.uri e.contents)
  quiet : ∀ o ∈ s.observed, o.handling = .delivered → ∀ e ∈ s.existing, e.taskId = o.taskId →
    e.triggerId = o.triggerId → e.uri = o.uri → e.contents ≠ o.contents

theorem Quiet.calm (h : Quiet env s) (calm : Calm env s t) : Quiet env t := by
  obtain ⟨read, quiet⟩ := h
  rw [← calm.existing, ← calm.observed] at read quiet
  exact ⟨read, quiet⟩

theorem Emitted.existing {uri : String} {definition : EventDefinition}
    (emitted : Emitted env round uri definition s s') : s'.existing = s.existing := by
  obtain ⟨calm, -, -, -, -, -, -⟩ := emitted
  exact calm.existing

theorem Quiet.emitted {uri : String} {definition : EventDefinition} (h : Quiet env s)
    (log : LogSound env s)
    (missed : ∀ e ∈ s.existing, e.wasRead = false → e.uri = uri → e.taskId = definition.taskId →
      round.content uri definition.taskId ≠ e.contents)
    (emitted : Emitted env round uri definition s s') : Quiet env s' := by
  have after := log.emitted emitted
  obtain ⟨calm, -, task, named, contents, event, handled⟩ := emitted
  next t triggers o =>
  have before := h.calm calm
  refine ⟨fun e member read => ?_, fun p member delivered e there sameTask sameTrigger sameUri => ?_⟩
  · obtain ⟨p, seen, is⟩ := before.read e member read
    exact ⟨p, List.mem_append_left _ seen, is⟩
  · rcases List.mem_concat.mp member with old | rfl
    · exact before.quiet p old delivered e there sameTask sameTrigger sameUri
    · intro same
      cases read : e.wasRead with
      | false =>
        rw [calm.existing] at there
        refine missed e there read (sameUri.trans named) (sameTask.trans task) ?_
        exact contents.symm.trans same.symm
      | true =>
        obtain ⟨q, seen, is⟩ := before.read e there read
        have fresh := (after.news t.observed p [] rfl (.inr delivered)).mp delivered q seen
        refine fresh (is.trans ?_)
        rw [Observation.key_of (by rw [delivered]; decide), sameTrigger, sameUri, same, event, named]

theorem Quiet.baselined {owned : OwnedDefinition} (h : Quiet env s) (log : LogSound env s)
    (baselined : Baselined env round owned s s') : Quiet env s' := by
  cases baselined with
  | skipped => exact h
  | same => exact ⟨h.read, h.quiet⟩
  | recorded taken found unseen only listed =>
    refine ⟨fun e member read => ?_, fun o member delivered e there sameTask trigger => ?_⟩
    · rcases List.mem_append.mp member with old | new
      · obtain ⟨o, seen, is⟩ := h.read e old read
        exact ⟨o, List.mem_append_left _ seen, is⟩
      · obtain ⟨entry, among, rfl⟩ := List.mem_map.mp new
        refine ⟨_, List.mem_append_right _ (List.mem_map.mpr
          ⟨entry, List.mem_filter.mpr ⟨among, read⟩, rfl⟩), rfl⟩
    · have observed : o ∈ s.observed := by
        rcases List.mem_append.mp member with old | new
        · exact old
        · obtain ⟨entry, -, rfl⟩ := List.mem_map.mp new
          cases delivered
      rcases List.mem_append.mp there with old | new
      · exact h.quiet o observed delivered e old sameTask trigger
      · -- a trigger without an event has delivered nothing
        obtain ⟨entry, -, rfl⟩ := List.mem_map.mp new
        obtain ⟨inbox, received⟩ := log.inbox
        obtain ⟨event, stored, keyed, -⟩ := log.stored o observed delivered
        rw [Observation.key_of (by rw [delivered]; decide), Option.some.injEq] at keyed
        have apart := received.unseen _ (Table.lookup_mem found) unseen event stored
        refine absurd ?_ apart
        rw [Table.lookup_key found]
        exact (congrArg Prod.fst keyed).symm.trans trigger.symm

theorem processWork_cases {work : Work} {raised : Option Stop}
    (ran : env.processWork round work s = (raised, s')) :
    Calm env s s' ∨ ∃ uri resource owned, work = .resource uri resource owned ∧
      work.emission round = some (uri, owned.definition.taskId, true) ∧
      Emitted env round uri owned.definition s s' := by
  cases work with
  | invalid uri =>
    cases ran
    exact .inl (Calm.refl s)
  | resource uri resource owned =>
    simp only [BridgeEnv.processWork] at ran
    split at ran
    · cases ran
      exact .inl (Calm.refl s)
    next seen =>
      cases raised with
      | some stop => exact .inl (emitResourceEvent_some ran).1
      | none =>
        obtain ⟨readable, emitted⟩ := emitResourceEvent_none ran
        refine .inr ⟨uri, resource, owned, rfl, ?_, emitted⟩
        simp only [Work.emission]
        rw [if_neg seen, readable]

theorem loop_quiet {owned : List OwnedDefinition} (log : LogSound env s) (quiet : Quiet env s)
    (missed : ∀ e ∈ s.existing, e.wasRead = false →
      (e.uri, e.taskId, true) ∈ (env.report round owned s).emissions →
        round.content e.uri e.taskId ≠ e.contents) :
    let u := (untilStop (env.processWork round) (env.worklist round owned) s).2
    LogSound env u ∧ Quiet env u ∧ u.existing = s.existing := by
  let P := fun u : Bridge => LogSound env u ∧ Quiet env u ∧ u.existing = s.existing
  have kept : ∀ work ∈ env.worklist round owned, ∀ u, P u →
      P (env.processWork round work u).2 := by
    rintro work listed u ⟨log, quiet, same⟩
    rcases @processWork_cases env round u _ work _ rfl with calm | ⟨uri, resource, own, rfl, due, emitted⟩
    · exact ⟨log.calm calm, quiet.calm calm, calm.existing.trans same⟩
    · refine ⟨log.emitted emitted, quiet.emitted log ?_ emitted, ?_⟩
      · rintro e there unread rfl task
        rw [same] at there
        have among : (e.uri, own.definition.taskId, true) ∈
            (env.report round owned s).emissions := List.mem_filterMap.mpr ⟨_, listed, due⟩
        rw [← task] at among ⊢
        exact missed e there unread among
      · exact emitted.existing.trans same
  exact untilStop_rule kept (P := P) ⟨log, quiet, rfl⟩

theorem baselines_quiet (owned : List OwnedDefinition) (log : LogSound env s)
    (quiet : Quiet env s) : Quiet env (owned.foldl (env.baselineDefinition round) s) := by
  induction owned generalizing s with
  | nil => exact quiet
  | cons own rest ih =>
    have baselined := @baselineDefinition_baselined env round s own
    exact ih (log.baselined baselined) (quiet.baselined log baselined)

/-- What a run of clean steps keeps. -/
structure BridgeIsolated (env : BridgeEnv) (s : Bridge) : Prop where
  sound : BridgeSound env s
  quiet : Quiet env s
  undisturbed : ∀ report ∈ s.rounds, report.unrefused = true → report.Undisturbed

theorem reconcileProvider_quiet (h : BridgeIsolated env s)
    (clean : s.Clean env (.reconcile round)) : Quiet env (env.reconcileProvider round s) ∧
      ∃ report, (env.reconcileProvider round s).rounds = s.rounds ++ [report] ∧
        (report.unrefused = true → report.Undisturbed) := by
  have sound := reconcileProvider_sound h.sound round
  have calm := @ownDefinitions_calm env round round.definitions.rows s
  unfold Bridge.Clean at clean
  dsimp only at clean
  unfold BridgeEnv.reconcileProvider at sound ⊢
  cases listed : ownDefinitions round round.definitions.rows s with
  | mk result t =>
  rw [listed] at clean calm
  cases result with
  | error error =>
    have quiet := h.quiet.calm calm
    refine ⟨⟨quiet.read, quiet.quiet⟩, ⟨[], [], [], some (.refused error)⟩, ?_, ?_⟩
    · exact congrArg (· ++ _) calm.rounds
    · nofun
  | ok owned =>
    obtain ⟨undisturbed, missed⟩ := clean
    rw [← calm.existing] at missed
    have log := h.sound.log.calm calm
    have rounds := h.sound.rounds.calm calm
    obtain ⟨loopLog, loopQuiet, existing⟩ := loop_quiet log (h.quiet.calm calm) missed
    dsimp only
    split
    next stop u ran =>
      rw [ran] at loopQuiet
      obtain ⟨none, -⟩ | ⟨stop', same, come⟩ := loop_inRound log rounds ran
      · cases none
      · obtain ⟨done, reached, -⟩ := come.come
        refine ⟨⟨loopQuiet.read, loopQuiet.quiet⟩,
          { env.report round owned t with stop := some stop }, ?_, fun _ => undisturbed⟩
        exact congrArg (· ++ _) (reached.rounds.trans calm.rounds)
    next u ran =>
      rw [ran] at loopLog loopQuiet
      obtain ⟨-, reached⟩ | ⟨stop', same, -⟩ := loop_inRound log rounds ran
      · have baselined := @baselines_quiet env round u owned loopLog loopQuiet
        have start : Baselining env u [] u :=
          ⟨loopLog, Grows.refl u, rfl, fun _ => rfl, rfl, by simp, fun _ member _ => member⟩
        have same := (@Baselining.all env round u u [] owned start).rounds
        generalize owned.foldl (env.baselineDefinition round) u = v at baselined same
        have synced : ∃ uris, Syncing v uris
            (if (round.subscribable && round.attached) = true then
              env.syncSubscriptions round owned v else v) := by
          split
          · exact ⟨_, syncSubscriptions_syncing owned v⟩
          · exact ⟨[], rfl, rfl, rfl, rfl, rfl, fun _ h => h, by simp⟩
        obtain ⟨uris, synced⟩ := synced
        generalize (if (round.subscribable && round.attached) = true then
          env.syncSubscriptions round owned v else v) = w at synced
        obtain ⟨read, quiet⟩ := baselined
        rw [← synced.existing, ← synced.observed] at read quiet
        refine ⟨⟨read, quiet⟩, _, ?_, fun _ => undisturbed⟩
        exact congrArg (· ++ _) (synced.rounds.trans (same.trans (reached.rounds.trans calm.rounds)))
      · cases same

theorem bridge_step_isolated (h : BridgeIsolated env s) {a : BridgeAct} (clean : s.Clean env a)
    (step : s.step env a = some s') : BridgeIsolated env s' := by
  have sound := bridge_step_sound h.sound step
  cases a with
  | reconcile round =>
    cases step
    obtain ⟨quiet, report, rounds, undisturbed⟩ := reconcileProvider_quiet h clean
    refine ⟨sound, quiet, ?_⟩
    rw [rounds]
    intro other member
    rcases List.mem_concat.mp member with old | new
    · exact h.undisturbed other old
    · rw [new]
      exact undisturbed
  | repository op =>
    obtain ⟨triggers, -, rfl⟩ := Option.map_eq_some_iff.mp step
    refine ⟨sound, ⟨fun e member read => ?_, fun o member delivered => ?_⟩, h.undisturbed⟩
    · obtain ⟨o, seen, is⟩ := h.quiet.read e member read
      exact ⟨o, List.mem_append_left _ seen, is⟩
    · rcases List.mem_append.mp member with old | new
      · exact h.quiet.quiet o old delivered
      · obtain ⟨key, -, rfl⟩ := List.mem_map.mp new
        cases delivered
  | rebind bindings =>
    cases step
    exact ⟨sound, ⟨h.quiet.read, h.quiet.quiet⟩, h.undisturbed⟩

theorem BridgeIsolated.resources (h : BridgeIsolated env s) : ResourcesIsolated s where
  isolated r report listed unrefused := by
    have done := h.sound.rounds.told r report listed
    have undisturbed := h.undisturbed report (List.mem_of_getElem? listed) unrefused
    cases ended : report.stop with
    | none =>
      obtain ⟨-, emitted, baselines, subscriptions⟩ := done.finished ended
      refine ⟨fun e member _ => ?_, baselines, fun uri member _ => subscriptions uri member⟩
      rw [emitted]
      exact List.mem_map.mpr ⟨e, member, rfl⟩
    | some stop =>
      cases stop with
      | refused error | invalidUri uri =>
        unfold RoundReport.unrefused at unrefused
        rw [ended] at unrefused
        cases unrefused
      | unread uri task =>
        obtain ⟨before, rest, split, readable, emitted⟩ := done.unread uri task ended
        have failing : (uri, task, false) ∈ report.emissions := by
          rw [split]
          exact List.mem_append_right _ List.mem_cons_self
        rcases undisturbed with all | ⟨left, noBaselines, ownSubscriptions⟩
        · cases all _ failing
        · have dropped : report.emissions.dropWhile (fun e => e.2.2) =
              (uri, task, false) :: rest := by
            rw [split, List.dropWhile_append_of_pos readable, List.dropWhile_cons_of_neg]
            exact Bool.false_ne_true
          rw [dropped] at left
          refine ⟨fun e member wasRead => ?_, ?_, fun uri member all => ?_⟩
          · rw [split] at member
            rcases List.mem_append.mp member with done | later
            · rw [emitted]
              exact List.mem_map.mpr ⟨e, done, rfl⟩
            · rw [left e later] at wasRead
              cases wasRead
          · rw [noBaselines]
            intro task member
            cases member
          · obtain ⟨e, among, named, unread⟩ := ownSubscriptions uri member
            rw [all e among named] at unread
            cases unread
  quiet := h.quiet.quiet

/-- A run whose reconciliations meet the condition leaves no Resource out because of another, and
delivers nothing that was there before. -/
theorem resources_isolated (env : BridgeEnv) (sessions : Table SessionRow.sessionHandle)
    (bindings : List LaunchBindingRow) (acts : List BridgeAct)
    (clean : ∀ taken ∈ accepted (Bridge.step env) (.initial sessions bindings) acts,
      taken.1.Clean env taken.2) :
    ∀ s ∈ trace (Bridge.step env) (.initial sessions bindings) acts, ResourcesIsolated s := by
  have start : BridgeIsolated env (.initial sessions bindings) := by
    refine ⟨initial_bridgeSound env sessions bindings, ⟨?_, ?_⟩, ?_⟩
    all_goals
      intro x member
      cases member
  intro s reached
  exact (Transition.trace_safe_of_clean (fun _ _ _ h clean step => bridge_step_isolated h clean step)
    start clean s reached).resources

section Sample

def sampleReads (a b : Bool) (contents : List ResourceContent) : BridgeAct :=
  .reconcile (sampleRound ["a", "b"] (fun _ => contents) fun uri => if uri = "a" then a else b)

/-- Two definitions are baselined, one without a read, and the Resources change. -/
theorem resources_isolated_sample :
    Transition.Along ResourcesIsolated (trace (Bridge.step sampleEnv) sampleBridge
      [sampleReads true false [], sampleReads true true [sampleContent]]) :=
  resources_isolated sampleEnv ⟨[⟨"s", "p", "agent"⟩], by decide⟩ [] _ (by decide +kernel)

/-- A failing read keeps another Resource from its trigger, and a Resource that could not be read
for the baseline triggers with the content that it has had all along. -/
theorem failing_reads_spread :
    let failed := final (Bridge.step sampleEnv) sampleBridge
      [sampleReads true true [], sampleReads false true [sampleContent]]
    let unread := final (Bridge.step sampleEnv) sampleBridge
      [sampleReads true false [], sampleReads true true []]
    ¬ResourcesIsolated failed ∧ ¬ResourcesIsolated unread := by
  intro failed unread
  constructor
  · intro claimed
    have run : failed.rounds[1]? = some
        { emissions := [("a", "ta", false), ("b", "tb", true)]
          stop := some (.unread "a" "ta") } ∧ ("b", "tb") ∉ failed.emitted 1 := by decide +kernel
    exact run.2 ((claimed.isolated 1 _ run.1 rfl).1 ("b", "tb", true) (by decide) rfl)
  · intro claimed
    let o : Observation :=
      { round := 1, taskId := "tb", uri := "b", contents := []
        triggerId := "tb", eventId := "mcp-resource:b1", handling := .delivered }
    let e : Existing :=
      { taskId := "tb", triggerId := "tb", uri := "b", contents := [], wasRead := false }
    have run : o ∈ unread.observed ∧ e ∈ unread.existing := by decide +kernel
    exact claimed.quiet o run.1 rfl e run.2 rfl rfl rfl rfl

end Sample

end Knoa.Extensions
