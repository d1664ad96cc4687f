import Knoa.Library.Transition
import Knoa.Models.StreamAccumulators

/-!
# Remote model invocations

`RemoteModelEndpoint` and its repository, for one invocation id. No body under the lock of the
endpoint awaits, so an admission and the registration of its task are one step. The provider is
`HttpModelProvider`, which no error code of its own calls "running".
-/
namespace Knoa.Models

structure InvocationMaterial where
  requestDigest : String
  deploymentId : String
  materializedDigest : String
  deriving DecidableEq

structure InvocationRow where
  material : InvocationMaterial
  executionEpoch : String
  state : String

structure InvocationStore where
  row : Option InvocationRow := none
  events : List ProviderChunk := []

def errorEvent (errorCode : String) (providerModel : String := "") : ProviderChunk :=
  .failure errorCode providerModel

/-- The recovery in `__init__`. -/
def recoverInvocation (s : InvocationStore) : InvocationStore :=
  match s.row with
  | some row =>
    if row.state = "running" then
      { row := some { row with state := "outcome_unknown" }
        events := s.events ++ [errorEvent "outcome_unknown"] }
    else s
  | none => s

/-- `admit`; `none` is "Invocation identity was reused with different material". -/
def admitInvocation (material : InvocationMaterial) (epoch : String) (s : InvocationStore) :
    Option ((InvocationRow × Bool) × InvocationStore) :=
  match s.row with
  | none =>
    let row : InvocationRow := { material, executionEpoch := epoch, state := "running" }
    some ((row, true), { s with row := some row })
  | some row => if row.material = material then some ((row, false), s) else none

def settledState (chunk : ProviderChunk) : String :=
  if chunk.finishReason ≠ .error then "completed"
  else if chunk.errorCode = "" then "failed"
  else chunk.errorCode

/-- `append`; without a row it raises and leaves the store. -/
def append (chunk : ProviderChunk) (s : InvocationStore) : InvocationStore :=
  match s.row with
  | some row =>
    if row.state = "running" then
      { row := some (if chunk.terminal then { row with state := settledState chunk } else row)
        events := s.events ++ [chunk] }
    else s
  | none => s

/-- Where `_execute` is. -/
inductive Execution
  /-- Before the semaphore. -/
  | waiting
  | streaming (emittedTerminal : Bool)
  | finished
  /-- Cancelled in the stream: it has left `_tasks`, and who awaits it is cancelled. -/
  | cancelled
  /-- Cancelled before the semaphore: it stays in `_tasks`. -/
  | lost
  deriving DecidableEq

def Execution.registered : Execution → Bool
  | .waiting | .streaming _ | .lost => true
  | .finished | .cancelled => false

/-- The endpoint, and below it what the provider has been asked and what callers were given. -/
structure RemoteEndpoint where
  store : InvocationStore := {}
  task : Option Execution := none
  cancellation : Bool := false
  /-- The callers that await the task. -/
  waiters : List Nat := []
  started : Nat := 0
  produced : List ProviderChunk := []
  returned : List (List ProviderChunk) := []

inductive RemoteStep
  | invoke (material : InvocationMaterial) (epoch : String) (caller : Nat)
  /-- A caller goes on after the task. -/
  | resume (i : Nat)
  /-- A caller gives up. -/
  | abandon (i : Nat)
  | cancel
  /-- The semaphore is acquired; the model resolves or raises. -/
  | start (resolved : Bool)
  /-- The provider yields its next chunk. -/
  | chunk
  | finish (providerModel : String)
  | fail
  /-- `asyncio.CancelledError` in the task. -/
  | interrupt
  | restart

namespace RemoteEndpoint

def conclude (s : RemoteEndpoint) (chunk : ProviderChunk) (task : Execution) : RemoteEndpoint :=
  { s with store := append chunk s.store, task := some task }

section
variable (provided : List ProviderChunk)

/-- The steps over a provider whose stream is `provided`, or as much of it as is awaited. -/
def step (s : RemoteEndpoint) : RemoteStep → Option RemoteEndpoint
  | .invoke material epoch caller =>
    match admitInvocation material epoch s.store with
    | none => none
    | some ((_, created), store) =>
      if created then some { s with
        store, task := some .waiting, cancellation := false, waiters := s.waiters ++ [caller] }
      else match s.task.filter Execution.registered with
        | some _ => some { s with waiters := s.waiters ++ [caller] }
        | none => some { s with returned := store.events :: s.returned }
  | .resume i =>
    match s.waiters[i]?, s.task with
    | some _, some .finished => some { s with
        waiters := s.waiters.eraseIdx i, returned := s.store.events :: s.returned }
    | some _, some .cancelled | some _, some .lost => some { s with
        waiters := s.waiters.eraseIdx i }
    | _, _ => none
  | .abandon i => some { s with waiters := s.waiters.eraseIdx i }
  | .cancel =>
    if (s.task.filter Execution.registered).isSome then some { s with cancellation := true }
    else none
  | .start resolved =>
    match s.task with
    | some .waiting =>
      if s.cancellation then some (s.conclude (errorEvent "cancelled") .finished)
      else if resolved then some { s with
        task := some (.streaming false), started := s.started + 1 }
      else some (s.conclude (errorEvent "provider_failed") .finished)
    | _ => none
  | .chunk =>
    match s.task, provided[s.produced.length]? with
    | some (.streaming emittedTerminal), some chunk => some { s with
        store := append chunk s.store
        task := some (.streaming (emittedTerminal || chunk.terminal))
        produced := s.produced ++ [chunk] }
    | _, _ => none
  | .finish providerModel =>
    match s.task with
    | some (.streaming true) => some { s with task := some .finished }
    | some (.streaming false) => some (s.conclude
        (errorEvent (if s.cancellation then "cancelled" else "provider_failed") providerModel)
        .finished)
    | _ => none
  | .fail =>
    match s.task with
    | some (.streaming _) => some (s.conclude (errorEvent "provider_failed") .finished)
    | _ => none
  | .interrupt =>
    match s.task with
    | some .waiting => some { s with task := some .lost }
    | some (.streaming _) => some (s.conclude (errorEvent "outcome_unknown") .cancelled)
    | _ => none
  | .restart => some { s with
      store := recoverInvocation s.store, task := none, cancellation := false, waiters := [] }

end

def uptoTerminal : List ProviderChunk → List ProviderChunk
  | [] => []
  | chunk :: rest => if chunk.terminal then [chunk] else chunk :: uptoTerminal rest

def Open (chunks : List ProviderChunk) : Prop := ∀ chunk ∈ chunks, chunk.terminal = false

def Complete (log : List ProviderChunk) : Prop :=
  ∃ earlier last, log = earlier ++ [last] ∧ Open earlier ∧ last.terminal = true

def Synthesized (chunk : ProviderChunk) : Prop :=
  ∃ code ∈ ["cancelled", "provider_failed", "outcome_unknown"], ∃ providerModel,
    chunk = errorEvent code providerModel

def LogOf (produced log : List ProviderChunk) : Prop :=
  log = uptoTerminal produced ∨
    Open produced ∧ ∃ chunk, Synthesized chunk ∧ log = produced ++ [chunk]

structure Sound (provided : List ProviderChunk) (s : RemoteEndpoint) : Prop where
  once : s.started ≤ 1
  log : LogOf s.produced s.store.events
  settled : ∀ row, s.store.row = some row → row.state ≠ "running" → Complete s.store.events
  returned : ∀ log ∈ s.returned, log = s.store.events ∧ Complete log
  foreign : ∀ row, s.store.row = some row → ∀ material, material ≠ row.material →
    ∀ epoch caller, step provided s (.invoke material epoch caller) = none

/-- No chunk gives "running" as its error. -/
def Settles (provided : List ProviderChunk) : Prop :=
  ∀ chunk ∈ provided, chunk.finishReason = .error → chunk.errorCode ≠ "running"

variable {chunks : List ProviderChunk}

theorem uptoTerminal_of_open (none : Open chunks) : uptoTerminal chunks = chunks := by
  induction chunks with
  | nil => rfl
  | cons chunk rest ih =>
    rw [uptoTerminal, none chunk List.mem_cons_self, if_neg Bool.false_ne_true,
      ih fun other member => none other (List.mem_cons_of_mem _ member)]

theorem uptoTerminal_append_of_open {rest : List ProviderChunk} (none : Open chunks) :
    uptoTerminal (chunks ++ rest) = chunks ++ uptoTerminal rest := by
  induction chunks with
  | nil => rfl
  | cons chunk chunks ih =>
    rw [List.cons_append, uptoTerminal, none chunk List.mem_cons_self,
      if_neg Bool.false_ne_true, ih fun other member => none other (List.mem_cons_of_mem _ member)]
    rfl

theorem uptoTerminal_append_of_terminal {rest : List ProviderChunk} (terminal : ¬Open chunks) :
    uptoTerminal (chunks ++ rest) = uptoTerminal chunks := by
  induction chunks with
  | nil => exact absurd nofun terminal
  | cons chunk chunks ih =>
    rw [List.cons_append, uptoTerminal, uptoTerminal]
    cases last : chunk.terminal with
    | true => rfl
    | false =>
      rw [if_neg Bool.false_ne_true, if_neg Bool.false_ne_true, ih]
      intro none
      apply terminal
      intro other member
      rcases List.mem_cons.mp member with rfl | later
      · exact last
      · exact none other later

variable {chunk : ProviderChunk}

theorem Open.snoc (none : Open chunks) (also : chunk.terminal = false) :
    Open (chunks ++ [chunk]) := by
  intro other member
  rcases List.mem_append.mp member with earlier | new
  · exact none other earlier
  · rw [List.mem_singleton.mp new]
    exact also

theorem not_open_snoc (last : ¬Open chunks ∨ chunk.terminal = true) :
    ¬Open (chunks ++ [chunk]) := by
  intro none
  rcases last with some | terminal
  · exact some fun other member => none other (List.mem_append_left _ member)
  · have open_ := none chunk (List.mem_concat_self)
    rw [terminal] at open_
    cases open_

theorem Synthesized.terminal (made : Synthesized chunk) :
    chunk.terminal = true ∧ settledState chunk ≠ "running" := by
  obtain ⟨code, listed, providerModel, rfl⟩ := made
  refine ⟨rfl, ?_⟩
  simp only [List.mem_cons, List.not_mem_nil, or_false] at listed
  rcases listed with rfl | rfl | rfl <;> simp [settledState, errorEvent]

def Given (s : RemoteEndpoint) : Prop :=
  Complete s.store.events ∧ ∀ log ∈ s.returned, log = s.store.events

inductive Reached (s : RemoteEndpoint) : Prop
  | unknown (row : s.store.row = none) (events : s.store.events = []) (task : s.task = none)
      (produced : s.produced = []) (started : s.started = 0) (returned : s.returned = [])
  | queued (row : InvocationRow) (stored : s.store.row = some row) (state : row.state = "running")
      (events : s.store.events = []) (task : s.task = some .waiting ∨ s.task = some .lost)
      (produced : s.produced = []) (started : s.started = 0) (returned : s.returned = [])
  | streaming (row : InvocationRow) (stored : s.store.row = some row)
      (state : row.state = "running") (events : s.store.events = s.produced)
      (open_ : Open s.produced) (task : s.task = some (.streaming false)) (started : s.started = 1)
      (returned : s.returned = [])
  | draining (row : InvocationRow) (stored : s.store.row = some row)
      (state : row.state ≠ "running") (events : s.store.events = uptoTerminal s.produced)
      (terminal : ¬Open s.produced) (task : s.task = some (.streaming true))
      (started : s.started = 1) (given : Given s)
  | settled (row : InvocationRow) (stored : s.store.row = some row) (state : row.state ≠ "running")
      (log : LogOf s.produced s.store.events)
      (task : s.task = none ∨ s.task = some .finished ∨ s.task = some .cancelled)
      (started : s.started ≤ 1) (given : Given s)

variable {provided : List ProviderChunk} {s : RemoteEndpoint} {row : InvocationRow}

theorem foreign_refused (stored : s.store.row = some row) {material : InvocationMaterial}
    (other : material ≠ row.material) (epoch : String) (caller : Nat) :
    step provided s (.invoke material epoch caller) = none := by
  simp only [step, admitInvocation, stored, if_neg (Ne.symm other)]

theorem Given.returned (given : Given s) :
    ∀ log ∈ s.returned, log = s.store.events ∧ Complete log := by
  intro log member
  have same := given.2 log member
  exact ⟨same, same ▸ given.1⟩

theorem Reached.sound (reached : Reached s) : Sound provided s := by
  have foreign : ∀ row, s.store.row = some row → ∀ material, material ≠ row.material →
      ∀ epoch caller, step provided s (.invoke material epoch caller) = none :=
    fun row stored material other => foreign_refused stored other
  cases reached with
  | unknown row events task produced started returned =>
    refine ⟨by omega, .inl (by rw [events, produced]; rfl), ?_, ?_, foreign⟩
    · intro row' stored
      rw [row] at stored
      cases stored
    · rw [returned]
      exact nofun
  | queued row stored state events task produced started returned =>
    refine ⟨by omega, .inl (by rw [events, produced]; rfl), ?_, ?_, foreign⟩
    · intro row' stored' settled
      rw [stored] at stored'
      cases stored'
      exact absurd state settled
    · rw [returned]
      exact nofun
  | streaming row stored state events open_ task started returned =>
    refine ⟨by omega, .inl (by rw [events, uptoTerminal_of_open open_]), ?_, ?_, foreign⟩
    · intro row' stored' settled
      rw [stored] at stored'
      cases stored'
      exact absurd state settled
    · rw [returned]
      exact nofun
  | draining row stored state events terminal task started given =>
    exact ⟨by omega, .inl events, fun _ _ _ => given.1, given.returned, foreign⟩
  | settled row stored state log task started given =>
    exact ⟨started, log, fun _ _ _ => given.1, given.returned, foreign⟩

variable {task : Execution}

theorem conclude_open (stored : s.store.row = some row) (state : row.state = "running")
    (events : s.store.events = s.produced) (open_ : Open s.produced) (started : s.started ≤ 1)
    (returned : s.returned = []) (made : Synthesized chunk)
    (ended : task = .finished ∨ task = .cancelled) : Reached (s.conclude chunk task) := by
  obtain ⟨terminal, other⟩ := made.terminal
  have store : (s.conclude chunk task).store =
      { row := some { row with state := settledState chunk }, events := s.produced ++ [chunk] } := by
    simp only [conclude, append, stored, if_pos state, terminal, if_true, events]
  refine .settled { row with state := settledState chunk } (by rw [store]) other ?_ ?_ started ?_
  · rw [store]
    exact .inr ⟨open_, chunk, made, rfl⟩
  · rcases ended with rfl | rfl
    · exact .inr (.inl rfl)
    · exact .inr (.inr rfl)
  · constructor
    · rw [store]
      exact ⟨s.produced, chunk, rfl, open_, terminal⟩
    · change ∀ log ∈ s.returned, _
      rw [returned]
      exact nofun

theorem conclude_settled (stored : s.store.row = some row) (state : row.state ≠ "running")
    (log : LogOf s.produced s.store.events) (started : s.started ≤ 1) (given : Given s)
    (chunk : ProviderChunk) (ended : task = .finished ∨ task = .cancelled) :
    Reached (s.conclude chunk task) := by
  have store : (s.conclude chunk task).store = s.store := by
    simp only [conclude, append, stored, if_neg state]
  refine .settled row (by rw [store, stored]) state (by rw [store]; exact log) ?_ started ?_
  · rcases ended with rfl | rfl
    · exact .inr (.inl rfl)
    · exact .inr (.inr rfl)
  · unfold Given
    rw [store]
    exact given

theorem errorEvent_synthesized {code : String}
    (listed : code ∈ ["cancelled", "provider_failed", "outcome_unknown"]) (providerModel : String) :
    Synthesized (errorEvent code providerModel) := ⟨code, listed, providerModel, rfl⟩

variable {s' : RemoteEndpoint}

theorem Reached.congr (reached : Reached s) (store : s'.store = s.store) (task : s'.task = s.task)
    (produced : s'.produced = s.produced) (started : s'.started = s.started)
    (returned : s'.returned = s.returned) : Reached s' := by
  obtain ⟨store', task', cancellation, waiters, started', produced', returned'⟩ := s'
  subst store task produced started returned
  cases reached with
  | unknown row events task produced started returned =>
    exact .unknown row events task produced started returned
  | queued row stored state events task produced started returned =>
    exact .queued row stored state events task produced started returned
  | streaming row stored state events open_ task started returned =>
    exact .streaming row stored state events open_ task started returned
  | draining row stored state events terminal task started given =>
    exact .draining row stored state events terminal task started given
  | settled row stored state log task started given =>
    exact .settled row stored state log task started given

theorem given_again (given : Given s) (store : s'.store = s.store)
    (returned : s'.returned = s.store.events :: s.returned) : Given s' := by
  unfold Given
  rw [store, returned]
  refine ⟨given.1, ?_⟩
  intro log member
  rcases List.mem_cons.mp member with rfl | earlier
  · rfl
  · exact given.2 log earlier

section
variable (reached : Reached s)
include reached

theorem invoke_reached {material : InvocationMaterial} {epoch : String} {caller : Nat}
    (taken : step provided s (.invoke material epoch caller) = some s') : Reached s' := by
  have joins : ∀ {row : InvocationRow} {task : Execution}, s.store.row = some row →
      s.task = some task → task.registered = true → Reached s' := by
    intro row task stored running registered
    by_cases same : row.material = material
    · simp only [step, admitInvocation, stored, if_pos same, running, Option.filter_some, registered,
        Bool.false_eq_true, if_false, if_true] at taken
      cases taken
      exact reached.congr rfl running.symm rfl rfl rfl
    · simp only [step, admitInvocation, stored, if_neg same] at taken
      cases taken
  cases reached with
  | unknown row events task produced started returned =>
    simp only [step, admitInvocation, row, if_true] at taken
    cases taken
    exact .queued _ rfl rfl events (.inl rfl) produced started returned
  | queued row stored state events task produced started returned =>
    rcases task with running | running <;> exact joins stored running rfl
  | streaming row stored state events open_ task started returned
  | draining row stored state events terminal task started given => exact joins stored task rfl
  | settled row stored state log task started given =>
    have free : s.task.filter Execution.registered = none := by
      rcases task with none | ended | ended
      · rw [none]
        rfl
      · rw [ended]
        rfl
      · rw [ended]
        rfl
    by_cases same : row.material = material
    · simp only [step, admitInvocation, stored, if_pos same, free, Bool.false_eq_true, if_false]
        at taken
      cases taken
      exact .settled row stored state log task started (given_again given rfl rfl)
    · simp only [step, admitInvocation, stored, if_neg same] at taken
      cases taken

theorem resume_reached {i : Nat} (taken : step provided s (.resume i) = some s') : Reached s' := by
  simp only [step] at taken
  split at taken
  · rename_i caller waiting ended
    cases taken
    cases reached with
    | unknown _ _ task | streaming _ _ _ _ _ task | draining _ _ _ _ _ task =>
      rw [task] at ended; cases ended
    | queued _ _ _ _ task => rcases task with task | task <;> rw [task] at ended <;> cases ended
    | settled row stored state log task started given =>
      exact .settled row stored state log task started (given_again given rfl rfl)
  · cases taken
    exact reached.congr rfl rfl rfl rfl rfl
  · cases taken
    exact reached.congr rfl rfl rfl rfl rfl
  · cases taken

theorem start_reached {resolved : Bool}
    (taken : step provided s (.start resolved) = some s') : Reached s' := by
  simp only [step] at taken
  split at taken
  · rename_i waiting
    cases reached with
    | unknown _ _ task | streaming _ _ _ _ _ task | draining _ _ _ _ _ task =>
      rw [task] at waiting; cases waiting
    | settled _ _ _ _ task =>
      rcases task with task | task | task <;> rw [task] at waiting <;> cases waiting
    | queued row stored state events task produced started returned =>
      have open_ : Open s.produced := by
        rw [produced]
        exact nofun
      have ends : ∀ code ∈ ["cancelled", "provider_failed", "outcome_unknown"],
          Reached (s.conclude (errorEvent code) .finished) := fun code listed =>
        conclude_open stored state (events.trans produced.symm) open_ (by omega) returned
          (errorEvent_synthesized listed "") (.inl rfl)
      split at taken
      · cases taken
        exact ends _ (by simp)
      · split at taken
        · cases taken
          exact .streaming row stored state (events.trans produced.symm) open_ rfl
            (by simp [started]) returned
        · cases taken
          exact ends _ (by simp)
  · cases taken

theorem chunk_reached (settles : Settles provided) (taken : step provided s .chunk = some s') :
    Reached s' := by
  simp only [step] at taken
  split at taken <;> cases taken
  rename_i emitted chunk streams next
  cases reached with
  | unknown _ _ task => rw [task] at streams; cases streams
  | queued _ _ _ _ task => rcases task with task | task <;> rw [task] at streams <;> cases streams
  | settled _ _ _ _ task =>
    rcases task with task | task | task <;> rw [task] at streams <;> cases streams
  | streaming row stored state events open_ task started returned =>
    rw [task] at streams
    cases streams
    cases last : chunk.terminal with
    | false =>
      have store : append chunk s.store =
          { row := some row, events := s.produced ++ [chunk] } := by
        simp only [append, stored, if_pos state, last, Bool.false_eq_true, if_false, events]
      refine .streaming row (by simp only [store]) state (by simp only [store])
        (open_.snoc last) (by simp) started returned
    | true =>
      have other : settledState chunk ≠ "running" := by
        unfold settledState
        split
        · simp
        · rename_i error
          split
          · simp
          · exact settles chunk (List.mem_of_getElem? next) (not_not.mp error)
      have store : append chunk s.store =
          { row := some { row with state := settledState chunk }
            events := s.produced ++ [chunk] } := by
        simp only [append, stored, if_pos state, last, if_true, events]
      have upto : uptoTerminal (s.produced ++ [chunk]) = s.produced ++ [chunk] := by
        rw [uptoTerminal_append_of_open open_, uptoTerminal, if_pos last]
      refine .draining { row with state := settledState chunk } (by simp only [store]) other
        (by simp only [store, upto]) (not_open_snoc (.inr last)) (by simp) started ?_
      refine ⟨by simp only [store]; exact ⟨s.produced, chunk, rfl, open_, last⟩, ?_⟩
      rw [returned]
      exact nofun
  | draining row stored state events terminal task started given =>
    rw [task] at streams
    cases streams
    have store : append chunk s.store = s.store := by
      simp only [append, stored, if_neg state]
    refine .draining row (by simp only [store, stored]) state
      (by simp only [store, events, uptoTerminal_append_of_terminal terminal])
      (not_open_snoc (.inl terminal)) (by simp) started ?_
    simp only [store]
    exact given

theorem conclude_reached {emitted : Bool}
    (streams : s.task = some (.streaming emitted)) {code : String}
    (listed : code ∈ ["cancelled", "provider_failed", "outcome_unknown"]) (providerModel : String)
    (ended : task = .finished ∨ task = .cancelled) :
    Reached (s.conclude (errorEvent code providerModel) task) := by
  cases reached with
  | unknown _ _ task => rw [task] at streams; cases streams
  | queued _ _ _ _ task => rcases task with task | task <;> rw [task] at streams <;> cases streams
  | settled _ _ _ _ task =>
    rcases task with task | task | task <;> rw [task] at streams <;> cases streams
  | streaming row stored state events open_ task started returned =>
    exact conclude_open stored state events open_ (by omega) returned
      (errorEvent_synthesized listed providerModel) ended
  | draining row stored state events terminal task started given =>
    exact conclude_settled stored state (.inl events) (by omega) given _ ended

theorem finish_reached {providerModel : String}
    (taken : step provided s (.finish providerModel) = some s') : Reached s' := by
  simp only [step] at taken
  split at taken
  · rename_i streams
    cases taken
    cases reached with
    | unknown _ _ task | streaming _ _ _ _ _ task => rw [task] at streams; cases streams
    | queued _ _ _ _ task => rcases task with task | task <;> rw [task] at streams <;> cases streams
    | settled _ _ _ _ task =>
      rcases task with task | task | task <;> rw [task] at streams <;> cases streams
    | draining row stored state events terminal task started given =>
      exact .settled row stored state (.inl events) (.inr (.inl rfl)) started.le given
  · rename_i streams
    cases taken
    refine conclude_reached reached streams ?_ providerModel (.inl rfl)
    split <;> simp
  · cases taken

theorem restart_reached (taken : step provided s .restart = some s') : Reached s' := by
  have recovers : ∀ {row : InvocationRow}, s.store.row = some row → row.state = "running" →
      s.store.events = s.produced → Open s.produced → s.started ≤ 1 → s.returned = [] →
        Reached s' := by
    intro row stored state events open_ started returned
    have store : recoverInvocation s.store =
        { row := some { row with state := "outcome_unknown" }
          events := s.produced ++ [errorEvent "outcome_unknown"] } := by
      simp only [recoverInvocation, stored, if_pos state, events]
    cases taken
    refine .settled { row with state := "outcome_unknown" } (by simp only [store]) (by simp) ?_
      (.inl rfl) started ?_
    · simp only [store]
      exact .inr ⟨open_, _, errorEvent_synthesized (by simp) "", rfl⟩
    · refine ⟨by simp only [store]; exact ⟨s.produced, _, rfl, open_, rfl⟩, ?_⟩
      rw [returned]
      exact nofun
  have stays : ∀ {row : InvocationRow}, s.store.row = some row → row.state ≠ "running" →
      LogOf s.produced s.store.events → s.started ≤ 1 → Given s → Reached s' := by
    intro row stored state log started given
    have store : recoverInvocation s.store = s.store := by
      simp only [recoverInvocation, stored, if_neg state]
    cases taken
    refine .settled row (by simp only [store, stored]) state (by simp only [store]; exact log)
      (.inl rfl) started ?_
    simp only [store]
    exact given
  cases reached with
  | unknown row events task produced started returned =>
    have store : recoverInvocation s.store = s.store := by
      simp only [recoverInvocation, row]
    cases taken
    exact .unknown (by simp only [store, row]) (by simp only [store, events]) rfl produced started
      returned
  | queued row stored state events task produced started returned =>
    refine recovers stored state (events.trans produced.symm) ?_ (by omega) returned
    rw [produced]
    exact nofun
  | streaming row stored state events open_ task started returned =>
    exact recovers stored state events open_ started.le returned
  | draining row stored state events terminal task started given =>
    exact stays stored state (.inl events) started.le given
  | settled row stored state log task started given => exact stays stored state log started given

theorem interrupt_reached (taken : step provided s .interrupt = some s') : Reached s' := by
  simp only [step] at taken
  split at taken
  · rename_i waiting
    cases taken
    cases reached with
    | unknown _ _ task | streaming _ _ _ _ _ task | draining _ _ _ _ _ task =>
      rw [task] at waiting; cases waiting
    | settled _ _ _ _ task =>
      rcases task with task | task | task <;> rw [task] at waiting <;> cases waiting
    | queued row stored state events task produced started returned =>
      exact .queued row stored state events (.inr rfl) produced started returned
  · rename_i streams
    cases taken
    exact conclude_reached reached streams (by simp) "" (.inr rfl)
  · cases taken

theorem step_reached (settles : Settles provided) {label : RemoteStep}
    (taken : step provided s label = some s') : Reached s' := by
  cases label with
  | invoke material epoch caller => exact invoke_reached reached taken
  | resume i => exact resume_reached reached taken
  | abandon i =>
    cases taken
    exact reached.congr rfl rfl rfl rfl rfl
  | cancel =>
    simp only [step] at taken
    split at taken <;> cases taken
    exact reached.congr rfl rfl rfl rfl rfl
  | start resolved => exact start_reached reached taken
  | chunk => exact chunk_reached reached settles taken
  | finish providerModel => exact finish_reached reached taken
  | fail =>
    simp only [step] at taken
    split at taken <;> cases taken
    rename_i streams
    exact conclude_reached reached streams (by simp) "" (.inl rfl)
  | interrupt => exact interrupt_reached reached taken
  | restart => exact restart_reached reached taken

end

end RemoteEndpoint

/-- The error codes of `HttpModelProvider`. -/
def HttpErrorCode (code : String) : Prop :=
  code ∈ ["unsupported_input", "image_input_rejected", "provider_failed", "provider_timeout",
    "provider_unreachable", "provider_protocol_error"] ∨
    ∃ status : Nat, code = "provider_http_" ++ toString status

def HttpErrors (chunks : List ProviderChunk) : Prop :=
  ∀ chunk ∈ chunks, chunk.finishReason = .error → HttpErrorCode chunk.errorCode

theorem HttpErrorCode.ne_running {code : String} (named : HttpErrorCode code) :
    code ≠ "running" := by
  rcases named with listed | ⟨status, rfl⟩
  · rintro rfl
    exact absurd listed (by decide)
  · intro same
    have first := congrArg (fun text : String => text.toList.head?) same
    simp [String.toList_append] at first

theorem providerErrorCode_named (fault : ProviderFault) :
    HttpErrorCode (providerErrorCode fault) := by
  cases fault with
  | status code =>
    rw [providerErrorCode]
    split
    · exact .inr ⟨code, rfl⟩
    · exact .inl (by decide)
  | timeout | connect | malformed | other => exact .inl (by decide)

theorem HttpErrors.nil : HttpErrors [] := nofun

theorem HttpErrors.append {xs ys : List ProviderChunk} (first : HttpErrors xs)
    (then_ : HttpErrors ys) : HttpErrors (xs ++ ys) := by
  intro chunk member
  rcases List.mem_append.mp member with here | there
  · exact first chunk here
  · exact then_ chunk there

theorem errorChunk_errors {code : String} (named : HttpErrorCode code) (model : String) :
    HttpErrors [errorChunk model code] := by
  intro chunk member
  rw [List.mem_singleton.mp member]
  exact fun _ => named

theorem terminalChunk_errors (model raw : String) (rawCalls : List RawCall)
    (usage : List (String × Json)) : HttpErrors [terminalChunk model raw rawCalls usage] := by
  intro chunk member
  rw [List.mem_singleton.mp member, terminalChunk]
  split
  · exact errorChunk_errors (.inl (by simp)) model _ List.mem_cons_self
  · intro error
    rw [if_pos error]
    exact .inl (by simp)

theorem passOn_errors (chunks : List StreamChunk) : HttpErrors (chunks.flatMap passOn) := by
  intro chunk member error
  obtain ⟨read, -, passed⟩ := List.mem_flatMap.mp member
  rcases List.mem_append.mp passed with content | thinking
  · split at content
    · cases content
    · rw [List.mem_singleton.mp content] at error
      cases error
  · split at thinking
    · cases thinking
    · rw [List.mem_singleton.mp thinking] at error
      cases error

theorem interrupted_errors (model : String) (fault : Option ProviderFault) :
    HttpErrors (interrupted model (connectionOf fault)) := by
  cases fault with
  | none => exact .nil
  | some fault => exact errorChunk_errors (providerErrorCode_named fault) model

theorem streamOpenAI_errors (model : String) (fault : Option ProviderFault)
    (lines : List ChatLine) (acc : OpenAIStreamAccumulator) :
    HttpErrors (streamOpenAI model (connectionOf fault) acc lines) := by
  induction lines generalizing acc with
  | nil =>
    cases fault with
    | none =>
      rw [connectionOf, streamOpenAI]
      split
      · exact .nil
      · exact terminalChunk_errors model _ _ _
    | some fault => exact errorChunk_errors (providerErrorCode_named fault) model
  | cons line lines ih =>
    cases line with
    | data chunk => exact (passOn_errors _).append (ih _)
    | done => exact terminalChunk_errors model _ _ _

theorem streamAnthropic_errors (model : String) (fault : Option ProviderFault)
    (events : List AnthropicEvent) (acc : AnthropicStreamAccumulator) (calls : List RawCall) :
    HttpErrors (streamAnthropic model (connectionOf fault) acc calls events) := by
  induction events generalizing acc calls with
  | nil => exact interrupted_errors model fault
  | cons event events ih =>
    rw [streamAnthropic]
    refine (passOn_errors _).append ?_
    split
    · exact terminalChunk_errors model _ _ _
    · exact ih _ _

theorem streamResponses_errors (model : String) (fault : Option ProviderFault)
    (events : List ResponsesEvent) (acc : ResponsesStreamAccumulator) :
    HttpErrors (streamResponses model (connectionOf fault) acc events) := by
  induction events generalizing acc with
  | nil => exact interrupted_errors model fault
  | cons event events ih =>
    rw [streamResponses]
    refine (passOn_errors _).append ?_
    split
    · exact terminalChunk_errors model _ _ _
    · exact ih _

theorem httpStream_errors (model : String) (reply : ProviderReply) :
    HttpErrors (httpStream model reply) := by
  cases reply with
  | unsupportedInput | imageInputRejected => exact errorChunk_errors (.inl (by decide)) model
  | openAI lines fault => exact streamOpenAI_errors model fault lines {}
  | anthropic events fault => exact streamAnthropic_errors model fault events {} []
  | responses events fault => exact streamResponses_errors model fault events {}

namespace RemoteEndpoint

/-- Every run of one invocation of an `HttpModelProvider` is sound. -/
theorem remote_invocation_sound (model : String) (reply : ProviderReply)
    (labels : List RemoteStep) :
    ∀ t ∈ Transition.trace (step (httpStream model reply)) {} labels,
      Sound (httpStream model reply) t := by
  have settles : Settles (httpStream model reply) := fun chunk member error =>
    (httpStream_errors model reply chunk member error).ne_running
  have start : Reached {} := .unknown rfl rfl rfl rfl rfl rfl
  intro t member
  exact (Transition.trace_invariant (fun _ _ _ reached taken =>
    step_reached reached settles taken) start labels t member).sound

def plainMaterial : InvocationMaterial where
  requestDigest := "request"
  deploymentId := "deployment"
  materializedDigest := "material"

def plainReply : ProviderReply :=
  .openAI [.data { choice := some { content := "a", finishReason := "stop" } }, .done] none

/-- Two callers of one id, of which the first gives up, and a third after a restart. -/
def threeCallers : List RemoteStep :=
  [.invoke plainMaterial "e" 1, .start true, .chunk, .abandon 0, .invoke plainMaterial "f" 2, .chunk,
    .finish "m", .resume 0, .restart, .invoke plainMaterial "g" 3]

theorem threeCallers_sound :
    Sound (httpStream "m" plainReply)
      (Transition.final (step (httpStream "m" plainReply)) {} threeCallers) ∧
    (Transition.final (step (httpStream "m" plainReply)) {} threeCallers).returned.map
      (·.map ProviderChunk.terminal) = [[false, true], [false, true]] :=
  ⟨remote_invocation_sound "m" plainReply threeCallers _ (Transition.mem_trace_final _ _), rfl⟩

end RemoteEndpoint

end Knoa.Models
