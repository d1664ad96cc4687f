import Knoa.Library.Table
import Knoa.Library.Transaction
import Knoa.Library.Transition
import Knoa.Tasks.Repository
import Mathlib.Logic.Function.Basic

/-!
# The start of a Codex Turn

`start_turn` and `_start_exec_turn` of `CodexAgentRuntime` over
`CodexSessionRepository`: a read, a request to the upstream or a transaction is a step of its own,
and a call may end after it.
-/
namespace Knoa.Codex

open Knoa.Tasks (strip)
open Relational Transaction

inductive SessionError
  | lookup (message : String)
  | value (message : String)
  | runtime (message : String)
  | integrity
  deriving DecidableEq

structure CodexSessionRow where
  runtimeSessionRef : String
  upstreamThreadRef : Option String := none
  operationId : String
  bindingEpoch : Nat

structure TurnOperationRow where
  operationId : String
  runtimeSessionRef : String
  runtimeTurnRef : String

structure CodexStore where
  sessions : Table CodexSessionRow.runtimeSessionRef := .empty
  turns : Table TurnOperationRow.operationId := .empty

/-- `create` with the handles that it draws, five at most. -/
def createSession (operationId : String) (bindingEpoch : Nat) :
    List String → Body CodexStore SessionError String
  | [], _ => .error (.runtime "Could not allocate a unique Codex Agent Session")
  | handle :: handles, s =>
    let runtimeSessionRef := strip handle
    if runtimeSessionRef = "" then createSession operationId bindingEpoch handles s
    else match s.sessions.rows.find? (·.operationId == operationId) with
      | some existing => .ok (existing.runtimeSessionRef, s)
      | none =>
        match s.sessions.insert { runtimeSessionRef, operationId, bindingEpoch } with
        | some sessions => .ok (runtimeSessionRef, { s with sessions })
        | none => createSession operationId bindingEpoch handles s

def getSession (s : CodexStore) (runtimeSessionRef : String) : Except SessionError CodexSessionRow :=
  orRaise (s.sessions.lookup runtimeSessionRef) (.lookup "Codex Agent Session not found")

/-- `bind_upstream_thread` -/
def bindUpstreamThread (runtimeSessionRef upstreamThreadRef : String) :
    Body CodexStore SessionError Unit := fun s => do
  let normalized := strip upstreamThreadRef
  require (normalized ≠ "") (.value "Codex upstream Thread ID must not be empty")
  let row ← getSession s runtimeSessionRef
  require (row.upstreamThreadRef = none ∨ row.upstreamThreadRef = some normalized)
    (.runtime "Codex Agent Session is already bound to another Thread")
  require (∀ other ∈ s.sessions.rows, other.upstreamThreadRef = some normalized →
    other.runtimeSessionRef = runtimeSessionRef) .integrity
  return ((), { s with
    sessions := s.sessions.update (fun other => other.runtimeSessionRef == runtimeSessionRef)
      (fun other => { other with upstreamThreadRef := some normalized }) (fun _ => rfl) })

/-- `record_turn`: the Turn that the operation has. -/
def recordTurn (operationId runtimeSessionRef runtimeTurnRef : String) :
    Body CodexStore SessionError String := fun s => do
  match s.turns.lookup operationId with
  | some existing => return (existing.runtimeTurnRef, s)
  | none =>
    let _ ← orRaise (s.sessions.lookup runtimeSessionRef) .integrity
    require (∀ other ∈ s.turns.rows, ¬(other.runtimeSessionRef = runtimeSessionRef ∧
      other.runtimeTurnRef = runtimeTurnRef)) .integrity
    let turns ← orRaise
      (s.turns.insert { operationId, runtimeSessionRef, runtimeTurnRef })
      .integrity
    return (runtimeTurnRef, { s with turns })

inductive Backend
  | appServer
  | execJson
  deriving DecidableEq

/-- Where a call of `start_turn` is. -/
inductive StartStage
  | read
  /-- `find_turn` has found nothing. -/
  | searched
  /-- App Server: the thread is started or resumed. -/
  | threaded (thread : String)
  /-- `turn/start` is sent, or the exec process launched. -/
  | launched (thread : Option String)
  | answered (thread turnId : String)
  | bound (turnId : String)
  deriving DecidableEq

structure StartCall where
  operationId : String
  session : String
  thread : Option String
  stage : StartStage := .read

/-- A Turn launched upstream; `none` is a new thread. -/
structure Launch where
  operationId : String
  session : String
  thread : Option String
  /-- The thread of the Session at the launch. -/
  boundTo : Option String

structure CodexRuntime where
  store : CodexStore := {}
  calls : Nat → Option StartCall := fun _ => none
  launches : List Launch := []
  bindings : List (String × String) := []

inductive StartStep
  | createSession (operationId : String) (bindingEpoch : Nat) (handles : List String)
  /-- A call reads its Session. -/
  | begin (i : Nat) (operationId session : String)
  | search (i : Nat)
  /-- `thread/start` gives a thread, or the thread of the Session is resumed. -/
  | thread (i : Nat) (started : String)
  | launch (i : Nat)
  /-- The response; for exec the thread that the process reports. -/
  | answer (i : Nat) (thread turnId : String)
  | bind (i : Nat)
  | record (i : Nat)
  /-- A call fails, times out or is cancelled. -/
  | drop (i : Nat)
  | crash

namespace CodexRuntime

def threadOf (s : CodexStore) (session : String) : Option String :=
  (s.sessions.lookup session).bind CodexSessionRow.upstreamThreadRef

def setCall (s : CodexRuntime) (i : Nat) (call : Option StartCall) : CodexRuntime :=
  { s with calls := Function.update s.calls i call }

def advance (s : CodexRuntime) (i : Nat) (call : StartCall) (stage : StartStage) : CodexRuntime :=
  s.setCall i (some { call with stage })

def launchOn (s : CodexRuntime) (i : Nat) (call : StartCall) (thread : Option String) :
    CodexRuntime :=
  { s.advance i call (.launched thread) with
    launches :=
      { operationId := call.operationId, session := call.session, thread,
        boundTo := threadOf s.store call.session } :: s.launches }

variable (backend : Backend)

def step (s : CodexRuntime) : StartStep → Option CodexRuntime
  | .createSession operationId bindingEpoch handles =>
    match Codex.createSession operationId bindingEpoch (handles.take 5) s.store with
    | .ok (_, store) => some { s with store }
    | .error _ => none
  | .begin i operationId session =>
    match s.calls i, getSession s.store session with
    | none, .ok row => some (s.setCall i (some
        { operationId, session, thread := row.upstreamThreadRef }))
    | _, _ => none
  | .search i =>
    match s.calls i with
    | some call =>
      if call.stage = .read then
        match s.store.turns.lookup call.operationId with
        | none => some (s.advance i call .searched)
        | some _ => some (s.setCall i none)
      else none
    | none => none
  | .thread i started =>
    match s.calls i with
    | some call =>
      if backend = .appServer ∧ call.stage = .searched then
        some (s.advance i call (.threaded (call.thread.getD started)))
      else none
    | none => none
  | .launch i =>
    match s.calls i with
    | some call =>
      match backend, call.stage with
      | .appServer, .threaded thread => some (s.launchOn i call (some thread))
      | .execJson, .searched => some (s.launchOn i call call.thread)
      | _, _ => none
    | none => none
  | .answer i thread turnId =>
    match s.calls i with
    | some call =>
      match call.stage with
      | .launched known => some (s.advance i call (.answered (known.getD thread) turnId))
      | _ => none
    | none => none
  | .bind i =>
    match s.calls i with
    | some call =>
      match call.stage with
      | .answered thread turnId =>
        if call.thread.isSome then some (s.advance i call (.bound turnId))
        else match bindUpstreamThread call.session thread s.store with
          | .ok (_, store) => some { s.advance i call (.bound turnId) with
              store, bindings := (call.session, strip thread) :: s.bindings }
          | .error _ => some (s.setCall i none)
      | _ => none
    | none => none
  | .record i =>
    match s.calls i with
    | some call =>
      match call.stage with
      | .bound turnId =>
        match recordTurn call.operationId call.session turnId s.store with
        | .ok (_, store) => some { s.setCall i none with store }
        | .error _ => some (s.setCall i none)
      | _ => none
    | none => none
  | .drop i => some (s.setCall i none)
  | .crash => some { s with calls := fun _ => none }

structure StartedOnce (s : CodexRuntime) : Prop where
  once : (s.launches.map Launch.operationId).Nodup
  /-- Once the Session is bound, it goes on there. -/
  continued : ∀ launch ∈ s.launches, ∀ thread, launch.boundTo = some thread →
    launch.thread = some thread
  fixed : ∀ session thread thread', (session, thread) ∈ s.bindings →
    (session, thread') ∈ s.bindings → thread = thread'

/-- A call that finds no Turn of its operation is the only one of the operation past its search,
and every launch of the operation has been recorded; a call launches on the binding it has read. -/
def Separate (s : CodexRuntime) : StartStep → Prop
  | .search i => ∀ call, s.calls i = some call → s.store.turns.lookup call.operationId = none →
      (∀ j other, j ≠ i → s.calls j = some other → other.operationId = call.operationId →
        other.stage = .read) ∧
      ∀ launch ∈ s.launches, launch.operationId = call.operationId →
        (s.store.turns.lookup call.operationId).isSome = true
  | .launch i => ∀ call, s.calls i = some call → threadOf s.store call.session = call.thread
  | _ => True

variable {session thread : String}

theorem threadOf_eq_some_iff {s : CodexStore} : threadOf s session = some thread ↔
      ∃ row, s.sessions.lookup session = some row ∧ row.upstreamThreadRef = some thread := by
  unfold threadOf
  rw [Option.bind_eq_some_iff]

variable {made : CodexStore}

theorem createSession_threadOf {operationId : String} {bindingEpoch : Nat} {handles : List String}
    {s : CodexStore} {returned : String}
    (created : Codex.createSession operationId bindingEpoch handles s = .ok (returned, made))
    (bound : threadOf s session = some thread) : threadOf made session = some thread := by
  induction handles with
  | nil => cases created
  | cons handle handles ih =>
    unfold Codex.createSession at created
    dsimp only at created
    split at created
    · exact ih created
    · split at created
      · cases created
        exact bound
      · split at created
        · rename_i inserted
          cases created
          obtain ⟨row, found, held⟩ := threadOf_eq_some_iff.mp bound
          refine threadOf_eq_some_iff.mpr ⟨row, ?_, held⟩
          rw [Table.lookup_insert inserted, if_neg, found]
          intro same
          exact Table.insert_fresh inserted (List.mem_map.mpr
            ⟨row, Table.lookup_mem found, (Table.lookup_key found).trans same.symm⟩)
        · exact ih created

theorem bindUpstreamThread_ok {s : CodexStore} {returned : Unit}
    (bound : bindUpstreamThread session thread s = .ok (returned, made)) :
    threadOf made session = some (strip thread) ∧
      ∀ other held, threadOf s other = some held → threadOf made other = some held := by
  unfold bindUpstreamThread getSession at bound
  simp only [bind_ok_iff, require_ok_iff, orRaise_ok_iff] at bound
  obtain ⟨_, _, row, found, _, free, _, _, returned⟩ := bound
  cases returned
  have named : (row.runtimeSessionRef == session) = true := beq_iff_eq.mpr (Table.lookup_key found)
  have after : ∀ other, threadOf { s with
      sessions := s.sessions.update (fun row => row.runtimeSessionRef == session)
        (fun row => { row with upstreamThreadRef := some (strip thread) }) (fun _ => rfl) } other =
      ((s.sessions.lookup other).map fun row =>
        if row.runtimeSessionRef == session then
          { row with upstreamThreadRef := some (strip thread) }
        else row).bind CodexSessionRow.upstreamThreadRef := by
    intro other
    simp only [threadOf, Table.lookup_update]
  refine ⟨?_, ?_⟩
  · rw [after, found, Option.map_some, if_pos named]
    rfl
  · intro other held bound
    obtain ⟨row', found', held'⟩ := threadOf_eq_some_iff.mp bound
    rw [after, found', Option.map_some]
    by_cases same : (row'.runtimeSessionRef == session) = true
    · have one : row' = row := by
        have key := (Table.lookup_key found').symm.trans (beq_iff_eq.mp same)
        rw [key, found] at found'
        exact (Option.some.inj found').symm
      subst one
      rcases free with none | other
      · rw [none] at held'
        cases held'
      · rw [if_pos same, ← held', other]
        rfl
    · rw [if_neg same]
      exact held'

theorem recordTurn_sessions {s : CodexStore} {operationId turnId returned : String}
    (recorded : recordTurn operationId session turnId s = .ok (returned, made)) :
    made.sessions = s.sessions := by
  unfold recordTurn at recorded
  split at recorded
  · cases recorded
    rfl
  · simp only [bind_ok_iff, require_ok_iff, orRaise_ok_iff] at recorded
    obtain ⟨_, _, _, _, _, _, returned⟩ := recorded
    cases returned
    rfl

structure Ordered (s : CodexRuntime) : Prop where
  apart : ∀ i j a b, i ≠ j → s.calls i = some a → s.calls j = some b → a.stage ≠ .read →
    b.stage ≠ .read → a.operationId ≠ b.operationId
  fresh : ∀ i call, s.calls i = some call →
    (call.stage = .searched ∨ ∃ thread, call.stage = .threaded thread) →
      ∀ launch ∈ s.launches, launch.operationId ≠ call.operationId
  resumed : ∀ i call thread, s.calls i = some call → call.stage = .threaded thread →
    ∀ bound, call.thread = some bound → thread = bound
  once : (s.launches.map Launch.operationId).Nodup
  continued : ∀ launch ∈ s.launches, ∀ thread, launch.boundTo = some thread →
    launch.thread = some thread
  held : ∀ session thread, (session, thread) ∈ s.bindings → threadOf s.store session = some thread

theorem start_ordered : Ordered {} where
  apart := fun _ _ _ _ _ found => by cases found
  fresh := fun _ _ found => by cases found
  resumed := fun _ _ _ found => by cases found
  once := List.nodup_nil
  continued := fun _ member => by cases member
  held := fun _ _ member => by cases member

variable {s : CodexRuntime}

theorem Ordered.startedOnce (inv : Ordered s) : StartedOnce s :=
  { inv with
    fixed := by
      intro session thread thread' first second
      have held := inv.held session thread first
      rw [inv.held session thread' second] at held
      exact (Option.some.inj held).symm }

variable {s' : CodexRuntime} {i : Nat}

theorem Ordered.moved (inv : Ordered s) {call : Option StartCall}
    (calls : s'.calls = Function.update s.calls i call) (launches : s'.launches = s.launches)
    (held : ∀ session thread, (session, thread) ∈ s'.bindings →
      threadOf s'.store session = some thread)
    (apart : ∀ moved, call = some moved → moved.stage ≠ .read → ∀ j other, j ≠ i →
      s.calls j = some other → other.stage ≠ .read → other.operationId ≠ moved.operationId)
    (fresh : ∀ moved, call = some moved →
      (moved.stage = .searched ∨ ∃ thread, moved.stage = .threaded thread) →
      ∀ launch ∈ s.launches, launch.operationId ≠ moved.operationId)
    (resumed : ∀ moved thread, call = some moved → moved.stage = .threaded thread →
      ∀ bound, moved.thread = some bound → thread = bound) :
    Ordered s' where
  apart := by
    intro j k a b different first second past past'
    rw [calls] at first second
    by_cases here : j = i
    · subst here
      rw [Function.update_self] at first
      rw [Function.update_of_ne (Ne.symm different)] at second
      exact (apart a first past k b (Ne.symm different) second past').symm
    · rw [Function.update_of_ne here] at first
      by_cases there : k = i
      · subst there
        rw [Function.update_self] at second
        exact apart b second past' j a here first past
      · rw [Function.update_of_ne there] at second
        exact inv.apart j k a b different first second past past'
  fresh := by
    intro j other found stage
    rw [calls] at found
    rw [launches]
    by_cases here : j = i
    · subst here
      rw [Function.update_self] at found
      exact fresh other found stage
    · rw [Function.update_of_ne here] at found
      exact inv.fresh j other found stage
  resumed := by
    intro j other thread found stage
    rw [calls] at found
    by_cases here : j = i
    · subst here
      rw [Function.update_self] at found
      exact resumed other thread found stage
    · rw [Function.update_of_ne here] at found
      exact inv.resumed j other thread found stage
  once := by
    rw [launches]
    exact inv.once
  continued := by
    rw [launches]
    exact inv.continued
  held := held

variable {call : StartCall}

theorem Ordered.still_apart (inv : Ordered s) (found : s.calls i = some call)
    (past : call.stage ≠ .read) : ∀ j other, j ≠ i → s.calls j = some other → other.stage ≠ .read →
      other.operationId ≠ call.operationId :=
  fun j other different found' past' => inv.apart j i other call different found' found past' past

theorem Ordered.ended (inv : Ordered s) (i : Nat) : Ordered (s.setCall i none) :=
  inv.moved rfl rfl inv.held (by simp) (by simp) (by simp)

theorem Ordered.later (inv : Ordered s) {stage : StartStage} (found : s.calls i = some call)
    (past : call.stage ≠ .read)
    (calls : s'.calls = Function.update s.calls i (some { call with stage }))
    (launches : s'.launches = s.launches)
    (held : ∀ session thread, (session, thread) ∈ s'.bindings →
      threadOf s'.store session = some thread)
    (done : stage ≠ .searched ∧ ∀ thread, stage ≠ .threaded thread) : Ordered s' := by
  refine inv.moved calls launches held ?_ ?_ ?_
  · rintro moved ⟨⟩ _
    have alone := inv.still_apart found past
    exact alone
  · rintro moved ⟨⟩ (here | ⟨thread, here⟩)
    · exact absurd here done.1
    · exact absurd here (done.2 thread)
  · rintro moved thread ⟨⟩ here
    exact absurd here (done.2 thread)

theorem Ordered.launched (inv : Ordered s) {thread : Option String} (found : s.calls i = some call)
    (past : call.stage ≠ .read)
    (unlaunched : ∀ launch ∈ s.launches, launch.operationId ≠ call.operationId)
    (continues : ∀ bound, threadOf s.store call.session = some bound → thread = some bound) :
    Ordered (s.launchOn i call thread) where
  apart := by
    have later : Ordered (s.advance i call (.launched thread)) :=
      inv.later found past rfl rfl inv.held ⟨by simp, by simp⟩
    exact later.apart
  fresh := by
    intro j other found' stage launch member
    by_cases here : j = i
    · subst here
      have moved : other = { call with stage := .launched thread } := by
        have found'' : Function.update s.calls j
          (some { call with stage := .launched thread }) j = some other := found'
        rw [Function.update_self] at found''
        exact (Option.some.inj found'').symm
      subst moved
      rcases stage with stage | ⟨_, stage⟩ <;> cases stage
    · have found'' : Function.update s.calls i
        (some { call with stage := .launched thread }) j = some other := found'
      rw [Function.update_of_ne here] at found''
      rcases List.mem_cons.mp member with rfl | member
      · have past' : other.stage ≠ .read := by
          rcases stage with stage | ⟨_, stage⟩ <;> rw [stage] <;> simp
        exact (inv.still_apart found past j other here found'' past').symm
      · exact inv.fresh j other found'' stage launch member
  resumed := by
    have later : Ordered (s.advance i call (.launched thread)) :=
      inv.later found past rfl rfl inv.held ⟨by simp, by simp⟩
    exact later.resumed
  once := by
    refine List.nodup_cons.mpr ⟨?_, inv.once⟩
    intro member
    obtain ⟨launch, earlier, same⟩ := List.mem_map.mp member
    exact unlaunched launch earlier same
  continued := by
    intro launch member bound known
    rcases List.mem_cons.mp member with rfl | member
    · exact continues bound known
    · exact inv.continued launch member bound known
  held := inv.held

variable {backend}

theorem step_ordered {label : StartStep} (inv : Ordered s) (separate : s.Separate label)
    (taken : s.step backend label = some s') : Ordered s' := by
  cases label with
  | createSession operationId bindingEpoch handles =>
    simp only [step] at taken
    split at taken <;> cases taken
    rename_i made
    exact { inv with
      held := fun session thread member =>
        createSession_threadOf made (inv.held session thread member) }
  | begin i operationId session =>
    simp only [step] at taken
    split at taken <;> cases taken
    refine inv.moved rfl rfl inv.held ?_ ?_ ?_
    · rintro moved ⟨⟩ past
      exact absurd rfl past
    · rintro moved ⟨⟩ (stage | ⟨_, stage⟩) <;> cases stage
    · rintro moved thread ⟨⟩ stage
      cases stage
  | search i =>
    simp only [step] at taken
    split at taken
    · rename_i call found
      split at taken
      · split at taken
        · rename_i unrecorded
          cases taken
          obtain ⟨alone, recorded⟩ := separate call found unrecorded
          refine inv.moved rfl rfl inv.held ?_ ?_ ?_
          · rintro moved ⟨⟩ _ j other different found' past same
            exact past (alone j other different found' same)
          · rintro moved ⟨⟩ _ launch member same
            have seen := recorded launch member same
            rw [unrecorded] at seen
            cases seen
          · rintro moved thread ⟨⟩ stage
            cases stage
        · cases taken
          exact inv.ended i
      · cases taken
    · cases taken
  | thread i started =>
    simp only [step] at taken
    split at taken
    · rename_i call found
      split at taken <;> cases taken
      rename_i searched
      have past : call.stage ≠ .read := by
        rw [searched.2]
        simp
      refine inv.moved rfl rfl inv.held ?_ ?_ ?_
      · rintro moved ⟨⟩ _
        have alone := inv.still_apart found past
        exact alone
      · rintro moved ⟨⟩ _
        have unlaunched := inv.fresh i call found (.inl searched.2)
        exact unlaunched
      · rintro moved thread ⟨⟩ stage bound known
        have known' : call.thread = some bound := known
        cases stage
        rw [known']
        rfl
    · cases taken
  | launch i =>
    simp only [step] at taken
    split at taken
    · rename_i call found
      have current := separate call found
      split at taken
      · rename_i threaded stage
        cases taken
        refine inv.launched found (by rw [stage]; simp)
          (inv.fresh i call found (.inr ⟨threaded, stage⟩)) ?_
        intro bound known
        rw [current] at known
        rw [inv.resumed i call threaded found stage bound known]
      · rename_i stage
        cases taken
        refine inv.launched found (by rw [stage]; simp) (inv.fresh i call found (.inl stage)) ?_
        intro bound known
        exact current.symm.trans known
      · cases taken
    · cases taken
  | answer i thread turnId =>
    simp only [step] at taken
    split at taken
    · rename_i call found
      split at taken <;> cases taken
      rename_i stage
      exact inv.later found (by rw [stage]; simp) rfl rfl inv.held ⟨by simp, by simp⟩
    · cases taken
  | bind i =>
    simp only [step] at taken
    split at taken
    · rename_i call found
      split at taken
      · rename_i thread turnId stage
        have past : call.stage ≠ .read := by
          rw [stage]
          simp
        split at taken
        · cases taken
          exact inv.later found past rfl rfl inv.held ⟨by simp, by simp⟩
        · split at taken
          · rename_i bound
            cases taken
            obtain ⟨now, kept⟩ := bindUpstreamThread_ok bound
            refine inv.later found past rfl rfl ?_ ⟨by simp, by simp⟩
            intro session other member
            rcases List.mem_cons.mp member with here | member
            · cases here
              exact now
            · exact kept session other (inv.held session other member)
          · cases taken
            exact inv.ended i
      · cases taken
    · cases taken
  | record i =>
    simp only [step] at taken
    split at taken
    · rename_i call found
      split at taken
      · split at taken
        · rename_i recorded
          cases taken
          refine inv.moved rfl rfl ?_ (by simp) (by simp) (by simp)
          intro session thread member
          have held := inv.held session thread member
          unfold threadOf at held ⊢
          rw [recordTurn_sessions recorded]
          exact held
        · cases taken
          exact inv.ended i
      · cases taken
    · cases taken
  | drop i =>
    cases taken
    exact inv.ended i
  | crash =>
    cases taken
    exact { inv with
      apart := fun _ _ _ _ _ found => by cases found
      fresh := fun _ _ found => by cases found
      resumed := fun _ _ _ found => by cases found }

/-- An operation is launched at most once, and its Session goes on where it is bound, in every run
in which a call that finds no Turn is alone past its search with every launch recorded, and a call
launches on the binding it has read. -/
theorem started_once (labels : List StartStep)
    (separate : ∀ taken ∈ Transition.accepted (step backend) {} labels, taken.1.Separate taken.2) :
    ∀ t ∈ Transition.trace (step backend) {} labels, StartedOnce t :=
  fun t member => (Transition.trace_safe_of_clean
    (fun _ _ _ inv separate taken => step_ordered inv separate taken) start_ordered separate
    t member).startedOnce

/-- A Turn is launched, bound and recorded, and retried. -/
theorem started_once_retried : Transition.Along StartedOnce (Transition.trace (step .appServer) {}
      [.createSession "create" 1 ["session"], .begin 0 "first" "session", .search 0,
        .thread 0 "thread", .launch 0, .answer 0 "" "turn", .bind 0, .record 0,
        .begin 0 "first" "session", .search 0]) := by
  refine started_once _ ?_
  have next := @Transition.accepted_forall_cons _ _ (step .appServer)
    (fun taken => taken.1.Separate taken.2)
  refine next (by with_unfolding_all rfl) trivial ?_
  refine next (by with_unfolding_all rfl) trivial ?_
  refine next (by with_unfolding_all rfl) ?_ ?_
  · intro call found _
    refine ⟨?_, nofun⟩
    intro j other different found'
    have elsewhere : Function.update (fun _ => none) 0 _ j = some other := found'
    rw [Function.update_of_ne different] at elsewhere
    cases elsewhere
  refine next (by with_unfolding_all rfl) trivial ?_
  refine next (by with_unfolding_all rfl) ?_ ?_
  · rintro call ⟨⟩
    rfl
  refine next (by with_unfolding_all rfl) trivial ?_
  refine next (by with_unfolding_all rfl) trivial ?_
  refine next (by with_unfolding_all rfl) trivial ?_
  refine next (by with_unfolding_all rfl) trivial ?_
  refine next (by with_unfolding_all rfl) ?_ ?_
  · rintro call ⟨⟩ unrecorded
    have recorded : (some _ : Option TurnOperationRow) = none := unrecorded
    cases recorded
  · nofun

/-- The runtime stops when `turn/start` is sent, and the call is retried. -/
def lostLaunch : List StartStep :=
  [.createSession "create" 1 ["session"],
    .begin 0 "first" "session", .search 0, .thread 0 "thread", .launch 0, .crash,
    .begin 0 "first" "session", .search 0, .thread 0 "thread-2", .launch 0]

/-- The retry launches the operation again. -/
theorem lost_launch_repeats :
    ¬∀ t ∈ Transition.trace (step .appServer) {} lostLaunch, StartedOnce t := by
  intro started
  have once := (started _ (Transition.mem_trace_final _ lostLaunch)).once
  have launched : (Transition.final (step .appServer) {} lostLaunch).launches.map
      Launch.operationId = ["first", "first"] := by
    decide +kernel
  rw [launched] at once
  simp at once

end CodexRuntime

end Knoa.Codex
