import Mathlib.Data.Option.Basic
import Mathlib.Logic.Function.Basic
import Knoa.Library.Transition

/-!
# The watcher of chat turns

`ChatTurnWatcher`: five maps that its methods and the callbacks of its streams, timers and fetches
update.
-/
namespace Knoa.Mobile

inductive ChatTurnState
  | running
  | waitingApproval
  | completed
  | failed
  | cancelled
  deriving DecidableEq

def ChatTurnState.terminal : ChatTurnState → Bool
  | .completed | .failed | .cancelled => true
  | _ => false

structure Subscription where
  id : Nat
  turnId : String
  generation : Nat
  deriving DecidableEq

structure Timer where
  generation : Nat
  delay : Nat
  deriving DecidableEq

/-- A `recover` that awaits its fetch. -/
structure Recovery where
  turnId : String
  generation : Nat
  deriving DecidableEq

structure Watcher where
  active : String → Option Nat := fun _ => none
  timers : String → Option Timer := fun _ => none
  failures : String → Option Nat := fun _ => none
  generations : String → Nat := fun _ => 0
  watched : List String := []
  /-- The subscriptions that it has opened and not closed. -/
  subscriptions : List Subscription := []
  nextId : Nat := 0
  recoveries : List Recovery := []
  /-- The turns that it has reported unavailable. -/
  unavailable : List String := []

def Watcher.isCurrent (s : Watcher) (turnId : String) (generation : Nat) : Bool :=
  decide (turnId ∈ s.watched) && s.generations turnId == generation

def Watcher.closeSubscription (s : Watcher) (id : Option Nat) : Watcher :=
  { s with subscriptions := s.subscriptions.filter fun sub => some sub.id != id }

def Watcher.close (s : Watcher) (turnId : String) : Watcher :=
  let closed := s.closeSubscription (s.active turnId)
  { closed with
    generations := Function.update s.generations turnId (s.generations turnId + 1)
    active := Function.update s.active turnId none
    timers := Function.update s.timers turnId none
    failures := Function.update s.failures turnId none
    watched := s.watched.filter fun other => other != turnId }

def Watcher.closeAll (s : Watcher) : Watcher := s.watched.foldl Watcher.close s

/-- `connected`: whether `connection()` returns one. -/
def Watcher.openTurn (s : Watcher) (turnId : String) (generation : Nat) (connected : Bool) :
    Watcher :=
  if s.isCurrent turnId generation && connected then
    { s with
      active := Function.update s.active turnId (some s.nextId)
      subscriptions := s.subscriptions ++ [{ id := s.nextId, turnId, generation }]
      nextId := s.nextId + 1 }
  else s

def Watcher.watch (s : Watcher) (turnId : String) (connected : Bool) : Watcher :=
  if (s.active turnId).isSome || (s.timers turnId).isSome then s
  else
    let watching :=
      { s with watched := if turnId ∈ s.watched then s.watched else s.watched ++ [turnId] }
    watching.openTurn turnId (s.generations turnId) connected

def Watcher.schedule (s : Watcher) (turnId : String) (generation delay : Nat) : Watcher :=
  if !s.isCurrent turnId generation || (s.timers turnId).isSome then s
  else
    { s with
      timers := Function.update s.timers turnId (some { generation := generation, delay }) }

def Watcher.forgive (s : Watcher) (turnId : String) : Watcher :=
  { s with failures := Function.update s.failures turnId none }

/-- `onSnapshot` of a stream, and of a fetch -/
def Watcher.onSnapshot (s : Watcher) (turnId : String) (state : ChatTurnState) : Watcher :=
  if state.terminal then (s.forgive turnId).close turnId else s.forgive turnId

def Watcher.onError (s : Watcher) (sub : Subscription) : Watcher :=
  if s.isCurrent sub.turnId sub.generation then
    let closed := s.closeSubscription (s.active sub.turnId)
    { closed with
      active := Function.update s.active sub.turnId none
      recoveries := s.recoveries ++ [{ turnId := sub.turnId, generation := sub.generation }] }
  else s

def retryDelays (delays : List Nat) : List Nat := if delays.isEmpty then [750] else delays

/-- `recover` after its fetch; `none` for one that fails. -/
def Watcher.recovered (delays : List Nat) (s : Watcher) (recovery : Recovery) :
    Option ChatTurnState → Watcher
  | none =>
    let turnId := recovery.turnId
    if s.isCurrent turnId recovery.generation then
      let failures := (s.failures turnId).getD 0 + 1
      let counted := { s with failures := Function.update s.failures turnId (some failures) }
      if (retryDelays delays).length < failures then
        { counted with unavailable := turnId :: s.unavailable }.close turnId
      else
        let delay := ((retryDelays delays)[failures - 1]?).getD
          ((retryDelays delays).getLast?.getD 1000)
        counted.schedule turnId recovery.generation delay
    else s
  | some state =>
    let turnId := recovery.turnId
    if s.isCurrent turnId recovery.generation then
      let seen := s.onSnapshot turnId state
      if state.terminal then seen
      else seen.schedule turnId recovery.generation ((retryDelays delays).head?.getD 750)
    else s

inductive WatcherLabel
  | watch (turnId : String) (connected : Bool)
  | close (turnId : String)
  | closeAll
  | opened (sub : Subscription)
  | snapshot (sub : Subscription) (state : ChatTurnState)
  | delta (sub : Subscription)
  | error (sub : Subscription)
  | fetched (recovery : Recovery) (result : Option ChatTurnState)
  | fire (turnId : String) (connected : Bool)

def watcherStep (delays : List Nat) (s : Watcher) : WatcherLabel → Option Watcher
  | .watch turnId connected => some (s.watch turnId connected)
  | .close turnId => some (s.close turnId)
  | .closeAll => some s.closeAll
  | .opened sub | .delta sub => do
    guard (sub ∈ s.subscriptions)
    return if s.isCurrent sub.turnId sub.generation then s.forgive sub.turnId else s
  | .snapshot sub state => do
    guard (sub ∈ s.subscriptions)
    return if s.isCurrent sub.turnId sub.generation then s.onSnapshot sub.turnId state else s
  | .error sub => do
    guard (sub ∈ s.subscriptions)
    return s.onError sub
  | .fetched recovery result => do
    guard (recovery ∈ s.recoveries)
    return { s with recoveries := s.recoveries.erase recovery }.recovered delays recovery result
  | .fire turnId connected => do
    let timer ← s.timers turnId
    let fired := { s with timers := Function.update s.timers turnId none }
    return fired.openTurn turnId timer.generation connected

/-- A fetch of the turn's present generation is in flight. -/
def Watcher.recovering (s : Watcher) (turnId : String) : Prop :=
  { turnId, generation := s.generations turnId } ∈ s.recoveries

instance (s : Watcher) (turnId : String) : Decidable (s.recovering turnId) :=
  inferInstanceAs (Decidable (_ ∈ s.recoveries))

structure WatcherSound (s : Watcher) : Prop where
  one : ∀ a ∈ s.subscriptions, ∀ b ∈ s.subscriptions, a.turnId = b.turnId → a = b
  closed : ∀ sub ∈ s.subscriptions, sub.turnId ∈ s.watched
  alive : ∀ turnId ∈ s.watched, (∃ sub ∈ s.subscriptions, sub.turnId = turnId) ∨
    (s.timers turnId).isSome = true ∨ s.recovering turnId

/-- The condition on a step: a turn that is watched without a connection is being fetched, and a
timer that fires finds no stream of the turn if there is a connection, and a stream or a fetch if
there is none. -/
def WatcherClean (s : Watcher) : WatcherLabel → Prop
  | .watch turnId connected =>
    s.active turnId = none → s.timers turnId = none → connected = true ∨ s.recovering turnId
  | .fire turnId true => s.active turnId = none
  | .fire turnId false => s.active turnId ≠ none ∨ s.recovering turnId
  | _ => True

structure TurnMaps (s : Watcher) (turnId : String) : Prop where
  active : ∀ id, s.active turnId = some id →
    ∃ sub ∈ s.subscriptions, sub.id = id ∧ sub.turnId = turnId
  stream : ∀ sub ∈ s.subscriptions, sub.turnId = turnId → s.active turnId = some sub.id ∧
    sub.generation = s.generations turnId ∧ turnId ∈ s.watched
  timer : ∀ timer, s.timers turnId = some timer →
    timer.generation = s.generations turnId ∧ turnId ∈ s.watched

structure WatcherMaps (s : Watcher) : Prop where
  below : ∀ sub ∈ s.subscriptions, sub.id < s.nextId
  unique : ∀ a ∈ s.subscriptions, ∀ b ∈ s.subscriptions, a.id = b.id → a = b
  turns : ∀ turnId, TurnMaps s turnId

def Alive (s : Watcher) (turnId : String) : Prop :=
  turnId ∈ s.watched → (∃ sub ∈ s.subscriptions, sub.turnId = turnId) ∨
    (s.timers turnId).isSome = true ∨ s.recovering turnId

structure WatcherInv (s : Watcher) : Prop where
  maps : WatcherMaps s
  alive : ∀ turnId, Alive s turnId

theorem WatcherInv.sound {s : Watcher} (inv : WatcherInv s) : WatcherSound s where
  one a first b second same := by
    have one := (inv.maps.turns a.turnId).stream a first rfl
    have two := (inv.maps.turns a.turnId).stream b second same.symm
    exact inv.maps.unique a first b second (Option.some.inj (one.1.symm.trans two.1))
  closed sub member := ((inv.maps.turns sub.turnId).stream sub member rfl).2.2
  alive turnId watched := inv.alive turnId watched

section Steps

variable {s : Watcher} {turnId other : String} {generation delay : Nat} {connected : Bool}

theorem isCurrent_iff : s.isCurrent turnId generation = true ↔
    turnId ∈ s.watched ∧ s.generations turnId = generation := by
  unfold Watcher.isCurrent
  rw [Bool.and_eq_true, decide_eq_true_eq, beq_iff_eq]

variable {sub : Subscription}

theorem WatcherMaps.isCurrent (maps : WatcherMaps s) (member : sub ∈ s.subscriptions) :
    s.isCurrent sub.turnId sub.generation = true := by
  obtain ⟨-, generation, watched⟩ := (maps.turns sub.turnId).stream sub member rfl
  exact isCurrent_iff.mpr ⟨watched, generation.symm⟩

theorem WatcherMaps.mem_closed (maps : WatcherMaps s) :
    sub ∈ (s.closeSubscription (s.active turnId)).subscriptions ↔
      sub ∈ s.subscriptions ∧ sub.turnId ≠ turnId := by
  unfold Watcher.closeSubscription
  rw [List.mem_filter, bne_iff_ne]
  refine and_congr_right fun member => not_congr ⟨fun same => ?_, ?_⟩
  · obtain ⟨holder, stands, id, turn⟩ := (maps.turns turnId).active sub.id same.symm
    rw [← maps.unique holder stands sub member id]
    exact turn
  · rintro rfl
    exact ((maps.turns sub.turnId).stream sub member rfl).1.symm

theorem WatcherMaps.close (maps : WatcherMaps s) : WatcherMaps (s.close turnId) := by
  have streams : ∀ sub, sub ∈ (s.close turnId).subscriptions ↔
      sub ∈ s.subscriptions ∧ sub.turnId ≠ turnId := fun sub => maps.mem_closed
  refine ⟨fun sub member => ?_, fun a first b second => ?_, fun t => ?_⟩
  · exact maps.below sub ((streams sub).mp member).1
  · exact maps.unique a ((streams a).mp first).1 b ((streams b).mp second).1
  · by_cases same : t = turnId
    · subst same
      refine ⟨fun id active => ?_, fun sub member turn => ?_, fun timer pending => ?_⟩
      · simp [Watcher.close] at active
      · exact absurd turn ((streams sub).mp member).2
      · simp [Watcher.close] at pending
    · have turn := maps.turns t
      have watched : t ∈ s.watched → t ∈ (s.close turnId).watched := fun member =>
        List.mem_filter.mpr ⟨member, by simpa using same⟩
      have generations : (s.close turnId).generations t = s.generations t :=
        Function.update_of_ne same _ _
      refine ⟨fun id active => ?_, fun sub member holds => ?_, fun timer pending => ?_⟩
      · have before : s.active t = some id := by
          simpa [Watcher.close, Function.update_of_ne same] using active
        obtain ⟨sub, stands, isId, isTurn⟩ := turn.active id before
        exact ⟨sub, (streams sub).mpr ⟨stands, isTurn ▸ same⟩, isId, isTurn⟩
      · obtain ⟨active, current, member⟩ := turn.stream sub ((streams sub).mp member).1 holds
        refine ⟨?_, generations ▸ current, watched member⟩
        simpa [Watcher.close, Function.update_of_ne same] using active
      · have before : s.timers t = some timer := by
          simpa [Watcher.close, Function.update_of_ne same] using pending
        obtain ⟨current, member⟩ := turn.timer timer before
        exact ⟨generations ▸ current, watched member⟩

theorem alive_close (maps : WatcherMaps s) (alive : ∀ t, t ≠ turnId → Alive s t) :
    ∀ t, Alive (s.close turnId) t := by
  intro t watched
  obtain ⟨watched, different⟩ := List.mem_filter.mp watched
  rw [bne_iff_ne] at different
  rcases alive t different watched with ⟨sub, stands, turn⟩ | timer | fetch
  · exact .inl ⟨sub, maps.mem_closed.mpr ⟨stands, turn ▸ different⟩, turn⟩
  · refine .inr (.inl ?_)
    simpa [Watcher.close, Function.update_of_ne different] using timer
  · refine .inr (.inr ?_)
    simpa [Watcher.recovering, Watcher.close, Watcher.closeSubscription,
      Function.update_of_ne different] using fetch

theorem WatcherInv.close (inv : WatcherInv s) (turnId : String) : WatcherInv (s.close turnId) :=
  ⟨inv.maps.close, alive_close inv.maps fun t _ => inv.alive t⟩

theorem WatcherInv.closeAll (inv : WatcherInv s) : WatcherInv s.closeAll := by
  unfold Watcher.closeAll
  generalize s.watched = turnIds
  induction turnIds generalizing s with
  | nil => exact inv
  | cons turnId rest ih => exact ih (inv.close turnId)

theorem openTurn_of_connected (current : s.isCurrent turnId generation = true) :
    s.openTurn turnId generation true =
      { s with
        active := Function.update s.active turnId (some s.nextId)
        subscriptions := s.subscriptions ++ [{ id := s.nextId, turnId, generation }]
        nextId := s.nextId + 1 } := by
  unfold Watcher.openTurn
  rw [current]
  rfl

theorem openTurn_of_not_connected : s.openTurn turnId generation false = s := by
  unfold Watcher.openTurn
  rw [Bool.and_false]
  rfl

theorem WatcherMaps.openTurn (maps : WatcherMaps s) (none : s.active turnId = none)
    (current : s.isCurrent turnId generation = true) :
    WatcherMaps (s.openTurn turnId generation true) := by
  obtain ⟨watched, isGeneration⟩ := isCurrent_iff.mp current
  rw [openTurn_of_connected current]
  refine ⟨fun sub member => ?_, fun a first b second same => ?_, fun t => ?_⟩
  · rcases List.mem_append.mp member with old | new
    · exact Nat.lt_succ_of_lt (maps.below sub old)
    · rw [List.mem_singleton.mp new]
      exact Nat.lt_succ_self _
  · rcases List.mem_append.mp first with oldA | newA <;>
      rcases List.mem_append.mp second with oldB | newB
    · exact maps.unique a oldA b oldB same
    · rw [List.mem_singleton.mp newB] at same
      exact absurd same (Nat.ne_of_lt (maps.below a oldA))
    · rw [List.mem_singleton.mp newA] at same
      exact absurd same.symm (Nat.ne_of_lt (maps.below b oldB))
    · rw [List.mem_singleton.mp newA, List.mem_singleton.mp newB]
  · have turn := maps.turns t
    by_cases same : t = turnId
    · subst same
      refine ⟨fun id active => ?_, fun sub member holds => ?_, turn.timer⟩
      · dsimp only at active
        rw [Function.update_self, Option.some.injEq] at active
        exact ⟨_, List.mem_concat_self, active, rfl⟩
      · rcases List.mem_append.mp member with old | new
        · cases none.symm.trans (turn.stream sub old holds).1
        · rw [List.mem_singleton.mp new]
          exact ⟨Function.update_self _ _ _, isGeneration.symm, watched⟩
    · refine ⟨fun id active => ?_, fun sub member holds => ?_, turn.timer⟩
      · dsimp only at active
        rw [Function.update_of_ne same] at active
        obtain ⟨sub, stands, isId, isTurn⟩ := turn.active id active
        exact ⟨sub, List.mem_append_left _ stands, isId, isTurn⟩
      · rcases List.mem_append.mp member with old | new
        · dsimp only
          rw [Function.update_of_ne same]
          exact turn.stream sub old holds
        · rw [List.mem_singleton.mp new] at holds
          exact absurd holds.symm same

theorem alive_openTurn (current : s.isCurrent turnId generation = true)
    (alive : ∀ t, t ≠ turnId → Alive s t) : ∀ t, Alive (s.openTurn turnId generation true) t := by
  rw [openTurn_of_connected current]
  intro t watched
  by_cases same : t = turnId
  · subst same
    exact .inl ⟨_, List.mem_concat_self, rfl⟩
  · rcases alive t same watched with ⟨sub, stands, turn⟩ | timer | fetch
    · exact .inl ⟨sub, List.mem_append_left _ stands, turn⟩
    · exact .inr (.inl timer)
    · exact .inr (.inr fetch)

theorem WatcherInv.of_alive (maps : WatcherMaps s) (alive : ∀ t, t ≠ turnId → Alive s t)
    (here : Alive s turnId) : WatcherInv s := by
  refine ⟨maps, fun t => ?_⟩
  by_cases same : t = turnId
  · exact same ▸ here
  · exact alive t same

theorem WatcherInv.forgive (inv : WatcherInv s) (turnId : String) : WatcherInv (s.forgive turnId) :=
  ⟨⟨inv.maps.below, inv.maps.unique, fun t =>
    ⟨(inv.maps.turns t).active, (inv.maps.turns t).stream, (inv.maps.turns t).timer⟩⟩, inv.alive⟩

theorem WatcherInv.onSnapshot (inv : WatcherInv s) (state : ChatTurnState) :
    WatcherInv (s.onSnapshot turnId state) := by
  unfold Watcher.onSnapshot
  split
  · exact (inv.forgive turnId).close turnId
  · exact inv.forgive turnId

theorem WatcherMaps.schedule (maps : WatcherMaps s) :
    WatcherMaps (s.schedule turnId generation delay) := by
  unfold Watcher.schedule
  split
  · exact maps
  next goes =>
    rw [Bool.or_eq_true, not_or, Bool.not_eq_true', Bool.not_eq_false] at goes
    obtain ⟨watched, isGeneration⟩ := isCurrent_iff.mp goes.1
    refine ⟨maps.below, maps.unique, fun t => ?_⟩
    refine ⟨(maps.turns t).active, (maps.turns t).stream, fun timer pending => ?_⟩
    dsimp only at pending
    by_cases same : t = turnId
    · subst same
      rw [Function.update_self, Option.some.injEq] at pending
      exact ⟨pending ▸ isGeneration.symm, watched⟩
    · rw [Function.update_of_ne same] at pending
      exact (maps.turns t).timer timer pending

theorem alive_schedule (current : s.isCurrent turnId generation = true)
    (alive : ∀ t, t ≠ turnId → Alive s t) : ∀ t, Alive (s.schedule turnId generation delay) t := by
  unfold Watcher.schedule
  intro t
  by_cases same : t = turnId
  · subst same
    intro _
    split
    next stays =>
      rw [current, Bool.not_true, Bool.false_or] at stays
      exact .inr (.inl stays)
    next =>
      refine .inr (.inl ?_)
      dsimp only
      rw [Function.update_self]
      rfl
  · split
    · exact alive t same
    · intro watched
      rcases alive t same watched with stream | timer | fetch
      · exact .inl stream
      · refine .inr (.inl ?_)
        dsimp only
        rw [Function.update_of_ne same]
        exact timer
      · exact .inr (.inr fetch)

theorem WatcherInv.onError (inv : WatcherInv s) (member : sub ∈ s.subscriptions) :
    WatcherInv (s.onError sub) := by
  have maps := inv.maps
  have current := maps.isCurrent member
  obtain ⟨-, isGeneration⟩ := isCurrent_iff.mp current
  unfold Watcher.onError
  rw [if_pos current]
  have streams : ∀ other, other ∈ (s.closeSubscription (s.active sub.turnId)).subscriptions ↔
      other ∈ s.subscriptions ∧ other.turnId ≠ sub.turnId := fun other => maps.mem_closed
  refine ⟨⟨fun other stands => ?_, fun a first b second => ?_, fun t => ?_⟩, fun t watched => ?_⟩
  · exact maps.below other ((streams other).mp stands).1
  · exact maps.unique a ((streams a).mp first).1 b ((streams b).mp second).1
  · refine ⟨fun id active => ?_, fun other stands holds => ?_, (maps.turns t).timer⟩
    · dsimp only at active
      by_cases same : t = sub.turnId
      · rw [same, Function.update_self] at active
        cases active
      · rw [Function.update_of_ne same] at active
        obtain ⟨holder, stands, isId, isTurn⟩ := (maps.turns t).active id active
        exact ⟨holder, (streams holder).mpr ⟨stands, isTurn ▸ same⟩, isId, isTurn⟩
    · obtain ⟨stands, different⟩ := (streams other).mp stands
      dsimp only
      rw [Function.update_of_ne (holds ▸ different)]
      exact (maps.turns t).stream other stands holds
  · by_cases same : t = sub.turnId
    · refine .inr (.inr (List.mem_append_right _ ?_))
      rw [List.mem_singleton, same]
      exact congrArg _ isGeneration
    · rcases inv.alive t watched with ⟨holder, stands, turn⟩ | timer | fetch
      · exact .inl ⟨holder, (streams holder).mpr ⟨stands, turn ▸ same⟩, turn⟩
      · exact .inr (.inl timer)
      · exact .inr (.inr (List.mem_append_left _ fetch))

theorem WatcherMaps.aside (maps : WatcherMaps s) (failures : String → Option Nat)
    (unavailable : List String) (recoveries : List Recovery) :
    WatcherMaps { s with failures, unavailable, recoveries } :=
  ⟨maps.below, maps.unique, fun t =>
    ⟨(maps.turns t).active, (maps.turns t).stream, (maps.turns t).timer⟩⟩

theorem alive_erase {recovery : Recovery} (alive : Alive s turnId)
    (other : turnId ∈ s.watched → recovery ≠ { turnId, generation := s.generations turnId }) :
    Alive { s with recoveries := s.recoveries.erase recovery } turnId := by
  intro watched
  rcases alive watched with stream | timer | fetch
  · exact .inl stream
  · exact .inr (.inl timer)
  · exact .inr (.inr ((List.mem_erase_of_ne (other watched).symm).mpr fetch))

theorem WatcherInv.recovered {delays : List Nat} {recovery : Recovery}
    {result : Option ChatTurnState} (inv : WatcherInv s) : WatcherInv
      ({ s with recoveries := s.recoveries.erase recovery }.recovered delays recovery result) := by
  generalize settled : { s with recoveries := s.recoveries.erase recovery } = s'
  have maps : WatcherMaps s' := settled ▸ inv.maps.aside s.failures s.unavailable _
  have others : ∀ t, t ≠ recovery.turnId → Alive s' t := by
    intro t different
    rw [← settled]
    refine alive_erase (inv.alive t) fun _ same => different ?_
    rw [same]
  have stale : s'.isCurrent recovery.turnId recovery.generation = false → WatcherInv s' := by
    intro notCurrent
    refine .of_alive maps others ?_
    rw [← settled] at notCurrent ⊢
    refine alive_erase (inv.alive _) fun watched same => ?_
    have current : s.isCurrent recovery.turnId recovery.generation = true :=
      isCurrent_iff.mpr ⟨watched, congrArg Recovery.generation same.symm⟩
    exact Bool.false_ne_true (notCurrent.symm.trans current)
  unfold Watcher.recovered
  cases result with
  | none =>
    dsimp only
    split
    next current =>
      split
      · exact ⟨(maps.aside _ _ _).close, alive_close (maps.aside _ _ _) others⟩
      · exact ⟨(maps.aside _ _ _).schedule, alive_schedule current others⟩
    next notCurrent => exact stale (Bool.of_not_eq_true notCurrent)
  | some state =>
    dsimp only
    split
    next current =>
      have forgiven : WatcherMaps (s'.forgive recovery.turnId) := maps.aside _ _ _
      unfold Watcher.onSnapshot
      cases ends : state.terminal with
      | true =>
        rw [if_pos rfl, if_pos rfl]
        exact ⟨forgiven.close, alive_close forgiven others⟩
      | false =>
        rw [if_neg Bool.false_ne_true, if_neg Bool.false_ne_true]
        exact ⟨forgiven.schedule, alive_schedule current others⟩
    next notCurrent => exact stale (Bool.of_not_eq_true notCurrent)

def Watcher.watching (s : Watcher) (turnId : String) : Watcher :=
  { s with watched := if turnId ∈ s.watched then s.watched else s.watched ++ [turnId] }

theorem mem_watching : other ∈ (s.watching turnId).watched ↔ other ∈ s.watched ∨ other = turnId := by
  unfold Watcher.watching
  split
  next there =>
    refine ⟨.inl, fun either => ?_⟩
    rcases either with old | rfl
    · exact old
    · exact there
  next => rw [List.mem_append, List.mem_singleton]

theorem watching_isCurrent : (s.watching turnId).isCurrent turnId (s.generations turnId) = true :=
  isCurrent_iff.mpr ⟨mem_watching.mpr (.inr rfl), rfl⟩

theorem WatcherMaps.watching (maps : WatcherMaps s) : WatcherMaps (s.watching turnId) := by
  refine ⟨maps.below, maps.unique, fun t => ?_⟩
  refine ⟨(maps.turns t).active, fun sub member holds => ?_, fun timer pending => ?_⟩
  · obtain ⟨active, current, watched⟩ := (maps.turns t).stream sub member holds
    exact ⟨active, current, mem_watching.mpr (.inl watched)⟩
  · obtain ⟨current, watched⟩ := (maps.turns t).timer timer pending
    exact ⟨current, mem_watching.mpr (.inl watched)⟩

theorem alive_watching (different : other ≠ turnId) (alive : Alive s other) :
    Alive (s.watching turnId) other := fun watched =>
  alive ((mem_watching.mp watched).resolve_right different)

theorem watch_eq (active : s.active turnId = none) (timers : s.timers turnId = none) :
    s.watch turnId connected =
      (s.watching turnId).openTurn turnId (s.generations turnId) connected := by
  unfold Watcher.watch
  rw [active, timers]
  rfl

def Watcher.fired (s : Watcher) (turnId : String) : Watcher :=
  { s with timers := Function.update s.timers turnId none }

theorem WatcherMaps.fired (maps : WatcherMaps s) : WatcherMaps (s.fired turnId) := by
  refine ⟨maps.below, maps.unique, fun t => ?_⟩
  refine ⟨(maps.turns t).active, (maps.turns t).stream, fun timer pending => ?_⟩
  unfold Watcher.fired at pending
  dsimp only at pending
  by_cases same : t = turnId
  · rw [same, Function.update_self] at pending
    cases pending
  · rw [Function.update_of_ne same] at pending
    exact (maps.turns t).timer timer pending

theorem alive_fired (different : other ≠ turnId) (alive : Alive s other) :
    Alive (s.fired turnId) other := by
  intro watched
  rcases alive watched with stream | timer | fetch
  · exact .inl stream
  · refine .inr (.inl ?_)
    unfold Watcher.fired
    dsimp only
    rw [Function.update_of_ne different]
    exact timer
  · exact .inr (.inr fetch)

theorem openTurn_doubles (maps : WatcherMaps s) (active : s.active turnId ≠ none)
    (current : s.isCurrent turnId generation = true) :
    ¬WatcherSound (s.openTurn turnId generation true) := by
  intro sound
  obtain ⟨id, holds⟩ := Option.ne_none_iff_exists'.mp active
  obtain ⟨sub, stands, -, turn⟩ := (maps.turns turnId).active id holds
  rw [openTurn_of_connected current] at sound
  have same := sound.one sub (List.mem_append_left _ stands) _ (List.mem_concat_self) turn
  have below := maps.below sub stands
  rw [same] at below
  exact Nat.lt_irrefl _ below

theorem not_sound_of_nothing (maps : WatcherMaps s) (watched : turnId ∈ s.watched)
    (active : s.active turnId = none) (timers : s.timers turnId = none)
    (still : ¬s.recovering turnId) : ¬WatcherSound s := by
  intro sound
  rcases sound.alive turnId watched with ⟨sub, stands, turn⟩ | timer | fetch
  · cases active.symm.trans ((maps.turns turnId).stream sub stands turn).1
  · rw [timers] at timer
    cases timer
  · exact still fetch

theorem WatcherInv.watch (inv : WatcherInv s)
    (clean : s.active turnId = none → s.timers turnId = none →
      connected = true ∨ s.recovering turnId) : WatcherInv (s.watch turnId connected) := by
  by_cases busy : (s.active turnId).isSome || (s.timers turnId).isSome
  · unfold Watcher.watch
    rw [if_pos busy]
    exact inv
  · rw [Bool.or_eq_true, not_or, Option.not_isSome_iff_eq_none, Option.not_isSome_iff_eq_none]
      at busy
    rw [watch_eq busy.1 busy.2]
    have maps : WatcherMaps (s.watching turnId) := inv.maps.watching
    have others : ∀ t, t ≠ turnId → Alive (s.watching turnId) t := fun t different =>
      alive_watching different (inv.alive t)
    cases connected with
    | true => exact ⟨maps.openTurn busy.1 watching_isCurrent,
        alive_openTurn watching_isCurrent others⟩
    | false =>
      rw [openTurn_of_not_connected]
      have fetch := (clean busy.1 busy.2).resolve_left Bool.false_ne_true
      exact .of_alive maps others fun _ => .inr (.inr fetch)

theorem watch_shows (inv : WatcherInv s)
    (unclean : ¬(s.active turnId = none → s.timers turnId = none →
      connected = true ∨ s.recovering turnId)) : ¬WatcherSound (s.watch turnId connected) := by
  rw [Classical.not_imp, Classical.not_imp, not_or] at unclean
  obtain ⟨active, timers, unconnected, still⟩ := unclean
  rw [watch_eq active timers, Bool.of_not_eq_true unconnected, openTurn_of_not_connected]
  exact not_sound_of_nothing inv.maps.watching (mem_watching.mpr (.inr rfl)) active timers still

variable {timer : Timer}

theorem fired_current (inv : WatcherInv s) (pending : s.timers turnId = some timer) :
    (s.fired turnId).isCurrent turnId timer.generation = true := by
  obtain ⟨generation, watched⟩ := (inv.maps.turns turnId).timer timer pending
  exact isCurrent_iff.mpr ⟨watched, generation.symm⟩

theorem WatcherInv.fire (inv : WatcherInv s) (pending : s.timers turnId = some timer)
    (clean : WatcherClean s (.fire turnId connected)) :
    WatcherInv ((s.fired turnId).openTurn turnId timer.generation connected) := by
  have current := fired_current inv pending
  have maps : WatcherMaps (s.fired turnId) := inv.maps.fired
  have others : ∀ t, t ≠ turnId → Alive (s.fired turnId) t := fun t different =>
    alive_fired different (inv.alive t)
  cases connected with
  | true => exact ⟨maps.openTurn clean current, alive_openTurn current others⟩
  | false =>
    rw [openTurn_of_not_connected]
    refine .of_alive maps others fun _ => ?_
    rcases clean with active | fetch
    · obtain ⟨id, holds⟩ := Option.ne_none_iff_exists'.mp active
      obtain ⟨sub, stands, -, turn⟩ := (inv.maps.turns turnId).active id holds
      exact .inl ⟨sub, stands, turn⟩
    · exact .inr (.inr fetch)

theorem fire_shows (inv : WatcherInv s) (pending : s.timers turnId = some timer)
    (unclean : ¬WatcherClean s (.fire turnId connected)) :
    ¬WatcherSound ((s.fired turnId).openTurn turnId timer.generation connected) := by
  have current := fired_current inv pending
  have maps : WatcherMaps (s.fired turnId) := inv.maps.fired
  cases connected with
  | true => exact openTurn_doubles maps unclean current
  | false =>
    obtain ⟨active, still⟩ := not_or.mp unclean
    rw [openTurn_of_not_connected]
    exact not_sound_of_nothing maps (isCurrent_iff.mp current).1 (not_not.mp active)
      (Function.update_self _ _ _) still

theorem step_fire {delays : List Nat} {s' : Watcher}
    (taken : watcherStep delays s (.fire turnId connected) = some s') :
    ∃ timer, s.timers turnId = some timer ∧
      s' = (s.fired turnId).openTurn turnId timer.generation connected := by
  simp only [watcherStep, Option.bind_eq_bind, Option.bind_eq_some_iff] at taken
  obtain ⟨timer, pending, result⟩ := taken
  exact ⟨timer, pending, (Option.some.inj result).symm⟩

end Steps

theorem watcherInv_kept {delays : List Nat} (s : Watcher) (l : WatcherLabel) (s' : Watcher)
    (inv : WatcherInv s) (clean : WatcherClean s l) (taken : watcherStep delays s l = some s') :
    WatcherInv s' := by
  cases l with
  | watch turnId connected =>
    cases taken
    exact inv.watch clean
  | close turnId =>
    cases taken
    exact inv.close turnId
  | closeAll =>
    cases taken
    exact inv.closeAll
  | opened sub | delta sub =>
    simp only [watcherStep, Option.bind_eq_bind, Option.bind_eq_some_iff] at taken
    obtain ⟨_, -, result⟩ := taken
    cases result
    split
    · exact inv.forgive _
    · exact inv
  | snapshot sub state =>
    simp only [watcherStep, Option.bind_eq_bind, Option.bind_eq_some_iff] at taken
    obtain ⟨_, -, result⟩ := taken
    cases result
    split
    · exact inv.onSnapshot state
    · exact inv
  | error sub =>
    by_cases member : sub ∈ s.subscriptions
    · have result : some (s.onError sub) = some s' := by
        rw [← taken, watcherStep, guard, if_pos member]
        rfl
      cases result
      exact inv.onError member
    · rw [watcherStep, guard, if_neg member] at taken
      cases taken
  | fetched recovery result =>
    simp only [watcherStep, Option.bind_eq_bind, Option.bind_eq_some_iff] at taken
    obtain ⟨_, -, result⟩ := taken
    cases result
    exact inv.recovered
  | fire turnId connected =>
    obtain ⟨timer, pending, rfl⟩ := step_fire taken
    exact inv.fire pending clean

theorem watcher_shows {delays : List Nat} (s : Watcher) (l : WatcherLabel) (s' : Watcher)
    (inv : WatcherInv s) (unclean : ¬WatcherClean s l) (taken : watcherStep delays s l = some s') :
    ¬WatcherSound s' := by
  cases l with
  | watch turnId connected =>
    cases taken
    exact watch_shows inv unclean
  | fire turnId connected =>
    obtain ⟨timer, pending, rfl⟩ := step_fire taken
    exact fire_shows inv pending unclean
  | close | closeAll | opened | delta | snapshot | error | fetched => exact absurd trivial unclean

/-- A watcher has one stream for a turn at most, none for a turn that is closed, and something for
a turn that is watched, exactly while its watches and timers are clean. -/
theorem watcher_sound_iff (delays : List Nat) (labels : List WatcherLabel) :
    (∀ t ∈ Transition.trace (watcherStep delays) {} labels, WatcherSound t) ↔
      ∀ taken ∈ Transition.accepted (watcherStep delays) {} labels,
        WatcherClean taken.1 taken.2 := by
  have inv : WatcherInv {} := by
    refine ⟨⟨fun _ member => ?_, fun _ member => ?_, fun _ => ?_⟩, fun _ member => ?_⟩
    · cases member
    · cases member
    · refine ⟨fun _ active => ?_, fun _ member => ?_, fun _ pending => ?_⟩
      · cases active
      · cases member
      · cases pending
    · cases member
  exact Transition.trace_safe_iff_of_clean (fun _ inv => inv.sound) watcherInv_kept watcher_shows
    inv

section Sample

/-- A stream fails, the turn is watched again while its snapshot is fetched, and the timer that the
snapshot sets opens a second stream. Without a connection a turn is watched that has nothing. -/
theorem watched_during_recovery :
    let first : Subscription := { id := 0, turnId := "t", generation := 0 }
    let labels : List WatcherLabel :=
      [.watch "t" true, .error first, .watch "t" true,
        .fetched { turnId := "t", generation := 0 } (some .running), .fire "t" true]
    let last := Transition.final (watcherStep []) {} labels
    let offline := Transition.final (watcherStep []) {} [.watch "t" false]
    ¬WatcherSound last ∧ (last.close "t").subscriptions.map Subscription.id = [1] ∧
      ¬WatcherSound offline := by
  intro first labels last offline
  have run : last.subscriptions.map (fun sub => (sub.id, sub.turnId)) = [(1, "t"), (2, "t")] ∧
      (last.close "t").subscriptions.map Subscription.id = [1] := by decide +kernel
  refine ⟨fun sound => ?_, run.2, fun sound => ?_⟩
  · have first : (1, "t") ∈ last.subscriptions.map fun sub => (sub.id, sub.turnId) :=
      run.1 ▸ List.mem_cons_self
    have second : (2, "t") ∈ last.subscriptions.map fun sub => (sub.id, sub.turnId) :=
      run.1 ▸ List.mem_cons_of_mem _ List.mem_cons_self
    obtain ⟨a, isOpen, one⟩ := List.mem_map.mp first
    obtain ⟨b, alsoOpen, two⟩ := List.mem_map.mp second
    have turns := (Prod.mk.inj one).2.trans (Prod.mk.inj two).2.symm
    have ids := (Prod.mk.inj one).1
    rw [sound.one a isOpen b alsoOpen turns, (Prod.mk.inj two).1] at ids
    cases ids
  · rcases sound.alive "t" List.mem_cons_self with ⟨sub, member, -⟩ | timer | fetch
    · cases member
    · cases timer
    · cases fetch

end Sample

end Knoa.Mobile
