import Knoa.Capabilities.Gateway
import Mathlib.Data.List.Count

/-!
# Enforcement of the grants

The registry is asked once, when a call is let in, and the budget is charged in that step.
-/
namespace Knoa.Capabilities
open Transition

variable {env : Env} {w w' : World} {a : Act}

/-- A call goes on to its tool: it waited for its confirmation, and its invocation is not
cancelled, or for its durable begin. -/
inductive Resumed (w : World) (call : Call) : Prop
  | confirmed (tool : RegisteredTool) (schema : String) (policy : ToolPolicy)
      (normalized : Arguments) (waited : call.phase = .confirming tool schema policy normalized)
      (uncancelled : w.cancelled call.grant.token = false)
  | begun (normalized : Arguments) (waited : call.phase = .beginning normalized)

/-- What the gateway has seen when it lets a call in. -/
structure Admitted (w : World) (grant : CapabilityGrant) (name : String) : Prop where
  registered : grant ∈ w.grants
  unexpired : w.now < grant.expiresAt
  allowed : grant.allowTools = true
  within : name ∈ grant.toolNames
  unchanged : grant.toolDigests name = some (w.fingerprint name)
  budget : w.toolCalls grant.token < grant.maxToolCalls

inductive Effect (w : World) (a : Act) (w' : World) : Prop
  | issued (grant : CapabilityGrant) (fresh : grant.token ∉ w.issued.map CapabilityGrant.token)
      (issued : w'.issued = w.issued ++ [grant])
      (held : ∀ g ∈ w'.grants, g ∈ w.grants ∨ g = grant)
      (charged : w'.toolCalls = w.toolCalls) (calls : w'.calls = w.calls)
  | quiet (issued : w'.issued = w.issued) (held : ∀ g ∈ w'.grants, g ∈ w.grants)
      (charged : w'.toolCalls = w.toolCalls) (calls : w'.calls = w.calls)
  | letIn (call : Call) (prepared : Bool)
      (asked : a = .call call.grant.token call.name call.arguments prepared)
      (admitted : Admitted w call.grant call.name)
      (uncancelled : call.ran = true → w.cancelled call.grant.token = false)
      (issued : w'.issued = w.issued) (held : ∀ g ∈ w'.grants, g ∈ w.grants)
      (charged : w'.toolCalls =
        Function.update w.toolCalls call.grant.token (w.toolCalls call.grant.token + 1))
      (calls : w'.calls = w.calls ++ [call])
  | proceeded (i : Nat) (call : Call) (phase : Phase) (stands : w.calls[i]? = some call)
      (resumed : phase.isRunning = true → Resumed w call)
      (after : w' = w.proceed i call phase)

@[simp] theorem settle_isRunning (grant : CapabilityGrant) (status code : String) :
    (World.settle grant status code).isRunning = false := by
  unfold World.settle
  split <;> rfl

variable {grant : CapabilityGrant}

theorem purgeExpired_subset (h : grant ∈ w.purgeExpired.grants) :
    grant ∈ w.grants ∧ w.now < grant.expiresAt := by
  obtain ⟨member, unexpired⟩ := List.mem_filter.mp h
  exact ⟨member, of_decide_eq_true unexpired⟩

variable {token : String}

theorem resolve_some (h : (w.resolve token).2 = some grant) :
    grant ∈ w.grants ∧ w.now < grant.expiresAt ∧ grant.token = token := by
  have found : w.purgeExpired.grants.find? (fun grant => grant.token == token) = some grant := h
  have same := List.find?_some found
  obtain ⟨member, unexpired⟩ := purgeExpired_subset (List.mem_of_find?_eq_some found)
  exact ⟨member, unexpired, eq_of_beq same⟩

variable {name : String} {prepared : Bool}

theorem commit_uncancelled {normalized : Arguments}
    (h : (w.commit grant name normalized prepared).isRunning = true) :
    w.cancelled grant.token = false := by
  unfold World.commit at h
  split at h
  · cases h
  · next clear => exact Bool.not_eq_true _ ▸ clear

variable {arguments : Arguments}

theorem execute_uncancelled (h : (w.execute env grant name arguments prepared).isRunning = true) :
    w.cancelled grant.token = false := by
  simp only [World.execute] at h
  repeat' split at h
  all_goals first
    | exact commit_uncancelled h
    | cases h

theorem confirmed_uncancelled {schema : String} {normalized : Arguments} {tool : RegisteredTool}
    {policy : ToolPolicy} {answer : Option Bool}
    (h : (w.confirmed env grant name arguments tool schema policy normalized answer
      prepared).isRunning = true) :
    w.cancelled grant.token = false := by
  unfold World.confirmed at h
  repeat' split at h
  all_goals first
    | exact commit_uncancelled h
    | cases h

theorem issue_effect {request : IssueRequest} (h : w.issue token request = some w') :
    Effect w (.issue token request) w' := by
  unfold World.issue at h
  split at h
  · cases h
  · next fresh =>
      split at h
      · cases h
        exact .quiet rfl (fun _ member => member) rfl rfl
      · cases h
        refine .issued _ fresh rfl ?_ rfl rfl
        intro g member
        rcases List.mem_append.mp member with old | new
        · exact .inl (purgeExpired_subset old).1
        · exact .inr (List.mem_singleton.mp new)

theorem callTool_effect : Effect w (.call token name arguments prepared)
      (w.callTool env token name arguments prepared) := by
  have purged : ∀ g ∈ w.purgeExpired.grants, g ∈ w.grants := fun _ member =>
    (purgeExpired_subset member).1
  unfold World.callTool
  cases found : w.resolve token with
  | mk purge result =>
    have purge_eq : purge = w.purgeExpired := (congrArg Prod.fst found).symm
    subst purge_eq
    cases result with
    | none => exact .quiet rfl purged rfl rfl
    | some grant =>
      obtain ⟨member, unexpired, rfl⟩ := resolve_some (congrArg Prod.snd found)
      simp only
      split
      · exact .quiet rfl purged rfl rfl
      · next admitted =>
          rw [not_or, Bool.not_eq_false, Nat.not_le] at admitted
          obtain ⟨admits, budget⟩ := admitted
          simp only [World.admits, Bool.and_eq_true, decide_eq_true_eq, beq_iff_eq] at admits
          refine .letIn ⟨grant, name, arguments, _, _⟩ prepared rfl ?_ ?_ rfl purged rfl rfl
          · exact ⟨member, unexpired, admits.1.1, admits.1.2, admits.2, budget⟩
          · exact fun running => execute_uncancelled running

theorem step_effect (h : step env w a = some w') : Effect w a w' := by
  cases a with
  | issue token request => exact issue_effect h
  | revoke token =>
    cases h
    exact .quiet rfl (fun _ member => (List.mem_filter.mp member).1) rfl rfl
  | tick now | retool name tool | cancel token =>
    cases h
    exact .quiet rfl (fun _ member => member) rfl rfl
  | list token =>
    cases h
    exact .quiet rfl (fun _ member => (purgeExpired_subset member).1) rfl rfl
  | call token name arguments prepared =>
    cases h
    exact callTool_effect
  | confirmed i answer prepared =>
    simp only [step] at h
    split at h
    · cases h
    · next call stands =>
        split at h
        · next tool schema policy normalized waited =>
            cases h
            refine .proceeded i call _ stands ?_ rfl
            exact fun running => .confirmed tool schema policy normalized waited
              (confirmed_uncancelled running)
        · cases h
  | begun i outcome =>
    simp only [step] at h
    split at h
    · cases h
    · next call stands =>
        split at h
        · next normalized waited =>
            cases h
            exact .proceeded i call _ stands (fun _ => .begun normalized waited) rfl
        · cases h
  | returned i status code =>
    simp only [step] at h
    split at h
    · cases h
    · next call stands =>
        split at h <;> cases h
        exact .proceeded i call _ stands (by simp) rfl
  | finished i stored =>
    simp only [step] at h
    split at h
    · cases h
    · next call stands =>
        split at h <;> cases h
        refine .proceeded i call _ stands ?_ rfl
        intro running
        split at running <;> cases running
  | dropped i =>
    simp only [step] at h
    split at h
    · cases h
    · next call stands =>
        split at h <;> cases h
        exact .proceeded i call _ stands (fun running => by cases running) rfl

def callTokens (w : World) : List String := w.calls.map fun call => call.grant.token

structure Sound (w : World) : Prop where
  unique : (w.issued.map CapabilityGrant.token).Nodup
  held : ∀ grant ∈ w.grants, grant ∈ w.issued
  letIn : ∀ call ∈ w.calls, call.grant ∈ w.issued ∧ call.grant.allowTools = true ∧
    call.name ∈ call.grant.toolNames
  charged : ∀ token, (callTokens w).count token = w.toolCalls token
  bounded : ∀ grant ∈ w.issued, w.toolCalls grant.token ≤ grant.maxToolCalls

variable {i : Nat}

theorem map_set_same {α β : Type} {l : List α} {a b : α} (f : α → β) (stands : l[i]? = some a)
    (same : f b = f a) : (l.set i b).map f = l.map f := by
  apply List.ext_getElem?
  intro j
  simp only [List.getElem?_map]
  by_cases here : i = j
  · subst here
    have bound := (List.getElem?_eq_some_iff.mp stands).1
    rw [List.getElem?_set_self bound, stands]
    exact congrArg some same
  · rw [List.getElem?_set_ne here]

theorem Sound.uncharged (sound : Sound w) (fresh : token ∉ w.issued.map CapabilityGrant.token) :
    w.toolCalls token = 0 := by
  rw [← sound.charged token]
  apply List.count_eq_zero_of_not_mem
  intro member
  obtain ⟨call, stands, rfl⟩ := List.mem_map.mp member
  exact fresh (List.mem_map_of_mem (sound.letIn call stands).1)

theorem Sound.step (sound : Sound w) (h : step env w a = some w') : Sound w' := by
  cases step_effect h with
  | issued grant fresh issued held charged calls =>
    constructor
    · rw [issued, List.map_append]
      refine List.nodup_append.mpr ⟨sound.unique, List.nodup_singleton _, ?_⟩
      rintro token old _ new rfl
      exact fresh (List.mem_singleton.mp new ▸ old)
    · intro g member
      rw [issued]
      rcases held g member with old | rfl
      · exact List.mem_append_left _ (sound.held g old)
      · exact List.mem_concat_self
    · intro call member
      rw [calls] at member
      rw [issued]
      have known := sound.letIn call member
      exact ⟨List.mem_append_left _ known.1, known.2⟩
    · rw [callTokens, calls, charged]
      exact sound.charged
    · rw [issued, charged]
      apply Parties.forall_append sound.bounded
      rw [sound.uncharged fresh]
      exact Nat.zero_le _
  | quiet issued held charged calls =>
    constructor
    · rw [issued]
      exact sound.unique
    · intro g member
      rw [issued]
      exact sound.held g (held g member)
    · rw [calls, issued]
      exact sound.letIn
    · rw [callTokens, calls, charged]
      exact sound.charged
    · rw [issued, charged]
      exact sound.bounded
  | letIn call prepared asked admitted uncancelled issued held charged calls =>
    have known := sound.held call.grant admitted.registered
    constructor
    · rw [issued]
      exact sound.unique
    · intro g member
      rw [issued]
      exact sound.held g (held g member)
    · rw [calls, issued]
      exact Parties.forall_append sound.letIn ⟨known, admitted.allowed, admitted.within⟩
    · intro token
      rw [callTokens, calls, charged, List.map_append, List.count_append, ← callTokens,
        sound.charged]
      by_cases same : token = call.grant.token
      · subst same
        simp
      · rw [Function.update_of_ne same]
        simp [Ne.symm same]
    · intro g member
      rw [issued] at member
      rw [charged]
      by_cases same : g.token = call.grant.token
      · have one : g = call.grant := List.inj_on_of_nodup_map sound.unique member known same
        subst one
        rw [Function.update_self]
        exact admitted.budget
      · rw [Function.update_of_ne same]
        exact sound.bounded g member
  | proceeded i call phase stands resumed after =>
    subst after
    constructor
    · exact sound.unique
    · exact sound.held
    · have member := List.mem_of_getElem? stands
      exact Parties.forall_set sound.letIn (sound.letIn call member)
    · intro token
      have same : callTokens (w.proceed i call phase) = callTokens w := map_set_same _ stands rfl
      rw [same]
      exact sound.charged token
    · exact sound.bounded

/-- The gateway before the first grant. -/
def start (now : Time) (tools : String → Option RegisteredTool) : World := { now, tools }

theorem sound_start (now : Time) (tools : String → Option RegisteredTool) :
    Sound (start now tools) where
  unique := List.nodup_nil
  held := fun _ member => nomatch member
  letIn := fun _ member => nomatch member
  charged := fun _ => rfl
  bounded := fun _ member => nomatch member

theorem sound_trace (now : Time) (tools : String → Option RegisteredTool) (acts : List Act) :
    ∀ w ∈ trace (step env) (start now tools) acts, Sound w :=
  Transition.trace_invariant (fun _ _ _ sound taken => sound.step taken) (sound_start now tools)
    acts

def Gone (token : String) (w : World) : Prop :=
  token ∈ w.issued.map CapabilityGrant.token ∧ ∀ grant ∈ w.grants, grant.token ≠ token

theorem Gone.step (gone : Gone token w) (h : step env w a = some w') : Gone token w' := by
  cases step_effect h with
  | issued grant fresh issued held charged calls =>
    constructor
    · rw [issued, List.map_append]
      exact List.mem_append_left _ gone.1
    · intro g member
      rcases held g member with old | rfl
      · exact gone.2 g old
      · rintro rfl
        exact fresh gone.1
  | quiet issued held charged calls
  | letIn call prepared asked admitted uncancelled issued held charged calls =>
    rw [Gone, issued]
    exact ⟨gone.1, fun g member => gone.2 g (held g member)⟩
  | proceeded i call phase stands resumed after =>
    subst after
    exact gone

theorem gone_revoke (known : token ∈ w.issued.map CapabilityGrant.token) :
    Gone token (w.revoke token) := by
  refine ⟨known, fun grant member => ?_⟩
  have kept := (List.mem_filter.mp member).2
  exact of_decide_eq_true kept

theorem letIn_admitted (h : step env w a = some w') {call : Call} (new : w.calls[i]? = none)
    (stands : w'.calls[i]? = some call) :
    (∃ prepared, a = .call call.grant.token call.name call.arguments prepared) ∧
      Admitted w call.grant call.name ∧
      (call.ran = true → w.cancelled call.grant.token = false) := by
  cases step_effect h with
  | issued grant fresh issued held charged calls | quiet issued held charged calls =>
    rw [calls, new] at stands
    cases stands
  | letIn entered prepared asked admitted uncancelled issued held charged calls =>
    rw [calls] at stands
    rcases Parties.getElem?_append_cases stands with ⟨-, rfl⟩ | old
    · exact ⟨⟨prepared, asked⟩, admitted, uncancelled⟩
    · rw [new] at old
      cases old
  | proceeded j before phase waited resumed after =>
    subst after
    rcases Parties.getElem?_set_cases stands with ⟨rfl, -⟩ | ⟨-, old⟩
    · rw [new] at waited
      cases waited
    · rw [new] at old
      cases old

theorem call_resumed (h : step env w a = some w') {before call : Call}
    (old : w.calls[i]? = some before) (stands : w'.calls[i]? = some call) :
    call.grant = before.grant ∧ call.name = before.name ∧ call.arguments = before.arguments ∧
      (before.ran = true → call.ran = true) ∧
      (call.ran = true → before.ran = true ∨ Resumed w before) := by
  have unmoved : w.calls[i]? = some call → call = before := by
    intro same
    rw [old] at same
    exact (Option.some.inj same).symm
  have kept : call = before → call.grant = before.grant ∧ call.name = before.name ∧
      call.arguments = before.arguments ∧ (before.ran = true → call.ran = true) ∧
      (call.ran = true → before.ran = true ∨ Resumed w before) := by
    rintro rfl
    exact ⟨rfl, rfl, rfl, id, .inl⟩
  cases step_effect h with
  | issued grant fresh issued held charged calls | quiet issued held charged calls =>
    rw [calls] at stands
    exact kept (unmoved stands)
  | letIn entered prepared asked admitted uncancelled issued held charged calls =>
    rw [calls] at stands
    rcases Parties.getElem?_append_cases stands with ⟨last, -⟩ | same
    · have bound := (List.getElem?_eq_some_iff.mp old).1
      omega
    · exact kept (unmoved same)
  | proceeded j moved phase waited resumed after =>
    subst after
    rcases Parties.getElem?_set_cases stands with ⟨rfl, rfl⟩ | ⟨-, same⟩
    · rw [old] at waited
      cases waited
      refine ⟨rfl, rfl, rfl, fun ran => by simp [ran], fun ran => ?_⟩
      rw [Bool.or_eq_true] at ran
      exact ran.imp_right resumed
    · exact kept (unmoved same)

/-- The calls that a grant let in, whatever became of them. -/
def callsOf (w : World) (token : String) : Nat :=
  w.calls.countP fun call => call.grant.token == token

def ranOf (w : World) (token : String) : Nat :=
  w.calls.countP fun call => call.grant.token == token && call.ran

theorem ranOf_le (w : World) (token : String) : ranOf w token ≤ callsOf w token := by
  apply List.countP_mono_left
  intro call _ counted
  exact (Bool.and_eq_true_iff.mp counted).1

theorem Sound.callsOf_le (sound : Sound w) (known : grant ∈ w.issued) :
    callsOf w grant.token ≤ grant.maxToolCalls := by
  have charged : callsOf w grant.token = w.toolCalls grant.token := by
    rw [← sound.charged grant.token, callTokens, List.count, List.countP_map]
    rfl
  rw [charged]
  exact sound.bounded grant known

theorem revoked_stays {now : Time} {tools : String → Option RegisteredTool}
    {before after : List Act}
    (known : token ∈ (final (Capabilities.step env) (start now tools) before).issued.map
      CapabilityGrant.token) :
    ∀ w ∈ trace (Capabilities.step env)
      ((final (Capabilities.step env) (start now tools) before).revoke token) after,
      Gone token w :=
  Transition.trace_invariant (fun _ _ _ gone taken => gone.step taken) (gone_revoke known) after

/-- In every run: a call is let in with a registered, unexpired token and within its grant, and its
tool runs in that step or later, for that call only; no grant lets in more calls than it has,
however they end; and a revoked token stays away. -/
theorem grants_enforced (env : Env) (now : Time) (tools : String → Option RegisteredTool)
    (acts : List Act) :
    (∀ taken ∈ accepted (step env) (start now tools) acts, ∀ (i : Nat) (call : Call),
      (Transition.next (step env) taken.1 taken.2).calls[i]? = some call →
        (taken.1.calls[i]? = none →
          (∃ prepared, taken.2 = .call call.grant.token call.name call.arguments prepared) ∧
            Admitted taken.1 call.grant call.name ∧
            (call.ran = true → taken.1.cancelled call.grant.token = false)) ∧
        ∀ before, taken.1.calls[i]? = some before →
          call.grant = before.grant ∧ call.name = before.name ∧
            call.arguments = before.arguments ∧ (before.ran = true → call.ran = true) ∧
            (call.ran = true → before.ran = true ∨ Resumed taken.1 before)) ∧
      (∀ w ∈ trace (step env) (start now tools) acts,
        (∀ call ∈ w.calls, call.grant ∈ w.issued ∧ call.name ∈ call.grant.toolNames) ∧
        ∀ grant ∈ w.issued, ranOf w grant.token ≤ callsOf w grant.token ∧
          callsOf w grant.token ≤ grant.maxToolCalls) ∧
      ∀ before token after, acts = before ++ .revoke token :: after →
        token ∈ (final (step env) (start now tools) before).issued.map CapabilityGrant.token →
        ∀ w ∈ trace (step env) ((final (step env) (start now tools) before).revoke token) after,
          ∀ grant ∈ w.grants, grant.token ≠ token := by
  refine ⟨?_, ?_, ?_⟩
  · intro taken member i call stands
    obtain ⟨-, w', accepts⟩ := Transition.accepted_mem_trace member
    rw [Transition.next_of_some accepts] at stands
    exact ⟨fun new => letIn_admitted accepts new stands,
      fun before old => call_resumed accepts old stands⟩
  · intro w member
    have sound := @sound_trace env now tools acts w member
    refine ⟨fun call stands => ?_, fun grant known => ⟨ranOf_le w _, sound.callsOf_le known⟩⟩
    have letIn := sound.letIn call stands
    exact ⟨letIn.1, letIn.2.2⟩
  · intro before token after _ known w member
    exact (revoked_stays known w member).2

/-- A tool that asks for confirmation. -/
def shellTool : RegisteredTool where
  object := 0
  policy := { effect := .localWrite, capabilities := {.shell}, risk := .medium }
  policyFor := fun _ => { effect := .localWrite, capabilities := {.shell}, risk := .medium }
  validationSchema := some "{}"
  fingerprint := "f"

def shellRequest : IssueRequest where
  capabilities := {.shell}
  confirmation := true
  toolCommit := false
  toolNames := {"shell"}

/-- The confirmation comes after the revocation, and the tool runs. -/
theorem revoked_call_runs :
    ∃ (env : Env) (now : Time) (tools : String → Option RegisteredTool) (before : List Act)
      (a : Act), (let w := final (step env) (start now tools) before
        w.issued.map CapabilityGrant.token = ["t"] ∧ w.grants.map CapabilityGrant.token = [] ∧
        (w.calls.map fun call => (call.grant.token, call.ran)) = [("t", false)] ∧
        ((Transition.next (step env) w a).calls.map fun call => (call.grant.token, call.ran)) =
          [("t", true)]) :=
  ⟨⟨fun _ _ => true, fun _ arguments => some arguments⟩, 0, fun _ => some shellTool,
    [.issue "t" shellRequest, .call "t" "shell" "{}" true, .revoke "t"],
    .confirmed 0 (some true) true, by decide +kernel⟩

end Knoa.Capabilities
