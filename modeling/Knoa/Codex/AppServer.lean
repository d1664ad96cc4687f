import Knoa.Library.Transition
import Mathlib.Data.List.Nodup
import Mathlib.Data.Rat.Defs

/-!
# The App Server client

`CodexAppServerClient`: what its reader, its requesters, the consumer of its events and `close` do
between two awaits.
-/
namespace Knoa.Codex

/-- The `id` of a message. -/
inductive MessageId
  | number (value : Rat)
  | flag (value : Bool)
  | text (value : String)
  /-- An array or an object. -/
  | compound
  deriving DecidableEq

/-- Equality with a key of `_pending`; Python takes `true` for 1. -/
def MessageId.names : MessageId → Nat → Bool
  | .number value, n => value == n
  | .flag value, n => value.toNat == n
  | _, _ => false

structure Message where
  id : Option MessageId := none
  /-- The member `method`, if there is one. -/
  method : Option String := none
  body : String := ""
  deriving DecidableEq

def Message.isResponse (message : Message) : Bool := message.id.isSome && message.method.isNone

inductive Line
  | message (message : Message)
  /-- The end, a line that is too long, what is not JSON or not an object. -/
  | failing (error : String)

inductive Future
  | waiting
  | result (message : Message)
  | failed (error : String)
  deriving DecidableEq

def Future.fail (error : String) : Future → Future
  | .waiting => .failed error
  | future => future

/-- The client, and below it what it has read, taken into the queue, yielded and completed. -/
structure AppServer where
  /-- `_process` is set. -/
  running : Bool := true
  reading : Bool := true
  /-- The calls of `close` that are under way. -/
  closing : Nat := 0
  /-- `none` is `_CLOSED`. -/
  queue : List (Option Message) := []
  pending : List (Nat × Future) := []
  nextId : Nat := 1
  fatal : Option String := none
  /-- `events` has raised. -/
  ended : Bool := false
  read : List Message := []
  accepted : List Message := []
  yielded : List Message := []
  completed : List (Nat × Option Message) := []

inductive ClientStep
  | request
  /-- The caller of a request goes on with what its future holds. -/
  | settle (id : Nat)
  /-- Sending fails, or the request times out or is cancelled. -/
  | giveUp (id : Nat)
  | readLine (line : Line)
  | consume
  | close
  /-- `close` has stopped the process and the reader. -/
  | closed

namespace AppServer

/-- `maxsize`; 0 is no bound. -/
def full (maxEventQueue : Nat) (queue : List (Option Message)) : Bool :=
  decide (0 < maxEventQueue) && decide (maxEventQueue ≤ queue.length)

/-- `_finish` -/
def finish (maxEventQueue : Nat) (error : String) (s : AppServer) : AppServer :=
  { s with
    fatal := some (s.fatal.getD error)
    pending := s.pending.map fun entry => (entry.1, Future.fail error entry.2)
    queue := if full maxEventQueue s.queue then s.queue.drop 1 ++ [none] else s.queue ++ [none] }

/-- A response to every pending request that its id names: there is one at most. -/
def deliver (message : Message) (id : MessageId) (pending : List (Nat × Future)) :
    List (Nat × Future) :=
  pending.map fun entry =>
    if id.names entry.1 && entry.2 == .waiting then (entry.1, .result message) else entry

def futureOf (s : AppServer) (id : Nat) : Option Future :=
  (s.pending.find? fun entry => entry.1 == id).map Prod.snd

def complete (s : AppServer) (id : Nat) (outcome : Option Message) : AppServer :=
  { s with
    pending := s.pending.filter fun entry => entry.1 != id
    completed := s.completed ++ [(id, outcome)] }

variable (maxEventQueue : Nat)

/-- What `_read_stdout` does with a line. -/
def receive (s : AppServer) : Line → AppServer
  | .failing error => { finish maxEventQueue error s with reading := false }
  | .message message =>
    match message.id, message.method with
    | some .compound, none =>
      { finish maxEventQueue "unhashable type" { s with read := s.read ++ [message] } with
        reading := false }
    | some id, none => { s with
        read := s.read ++ [message]
        pending := deliver message id s.pending }
    | _, _ =>
      if full maxEventQueue s.queue then
        { finish maxEventQueue "Codex App Server event queue overflowed"
            { s with read := s.read ++ [message] } with
          reading := false }
      else { s with
        read := s.read ++ [message]
        queue := s.queue ++ [some message]
        accepted := s.accepted ++ [message] }

def step (s : AppServer) : ClientStep → Option AppServer
  | .request =>
    if s.running then some { s with
      pending := s.pending ++ [(s.nextId, .waiting)]
      nextId := s.nextId + 1 }
    else none
  | .settle id =>
    match s.futureOf id with
    | some (.result message) => some (s.complete id (some message))
    | some (.failed _) => some (s.complete id none)
    | _ => none
  | .giveUp id => (s.futureOf id).map fun _ => s.complete id none
  | .readLine line => if s.reading then some (s.receive maxEventQueue line) else none
  | .consume =>
    if s.ended then none
    else match s.queue with
      | some message :: rest => some { s with queue := rest, yielded := s.yielded ++ [message] }
      | none :: rest => some { s with queue := rest, ended := true }
      | [] => none
  | .close => some { s with running := false, closing := s.closing + 1 }
  | .closed =>
    if 0 < s.closing then
      some { finish maxEventQueue "Codex App Server connection closed" { s with reading := false }
        with closing := s.closing - 1 }
    else none

def queued (s : AppServer) : List Message := s.queue.filterMap id

/-- The notifications and requests that have been read. -/
def events (s : AppServer) : List Message := s.read.filter fun message => !message.isResponse

def Own (s : AppServer) (id : Nat) (message : Message) : Prop :=
  message.id = some (.number id) ∧ message ∈ s.read

structure Lossless (s : AppServer) : Prop where
  kept : s.yielded ++ s.queued = s.accepted
  initial : s.accepted <+: s.events
  failed : s.ended = true → s.fatal.isSome = true ∧ s.yielded = s.accepted
  own : ∀ id message, (id, .result message) ∈ s.pending → s.Own id message
  answered : ∀ id message, (id, some message) ∈ s.completed → s.Own id message
  once : (s.completed.map Prod.fst).Nodup

/-- The end marker would take the place of an event. -/
def Drops (s : AppServer) : Prop :=
  full maxEventQueue s.queue = true ∧ ∃ message rest, s.queue = some message :: rest

/-- A line that does not end the connection while an event stands at the head of a full queue, and
does not answer a waiting request with the id `true`. -/
def Harmless (s : AppServer) : Line → Prop
  | .failing _ => ¬s.Drops maxEventQueue
  | .message message =>
    match message.id, message.method with
    | some .compound, none => ¬s.Drops maxEventQueue
    | some (.flag value), none => ∀ id, (MessageId.flag value).names id = true →
        (id, Future.waiting) ∉ s.pending
    | some _, none => True
    | _, _ => ¬s.Drops maxEventQueue

def Roomy (s : AppServer) : ClientStep → Prop
  | .readLine line => s.Harmless maxEventQueue line
  | .closed => ¬s.Drops maxEventQueue
  | _ => True

variable {s : AppServer}

theorem queued_finish (roomy : ¬s.Drops maxEventQueue) (error : String) :
    (finish maxEventQueue error s).queued = s.queued := by
  unfold queued finish
  by_cases tight : full maxEventQueue s.queue = true
  · simp only [if_pos tight]
    cases queue : s.queue with
    | nil =>
      rw [queue] at tight
      simp [full] at tight
      omega
    | cons head rest =>
      cases head with
      | none => simp
      | some message => exact absurd ⟨tight, message, rest, queue⟩ roomy
  · simp [if_neg tight]

theorem queued_finish_drops (drops : s.Drops maxEventQueue) (error : String) :
    (finish maxEventQueue error s).queued.length + 1 = s.queued.length := by
  obtain ⟨tight, message, rest, queue⟩ := drops
  rw [queue] at tight
  simp [queued, finish, queue, tight]

/-- The events of the queue come before its end markers. -/
def Shaped (queue : List (Option Message)) (reading : Bool) : Prop :=
  ∃ (messages : List Message) (n : Nat),
    queue = messages.map some ++ List.replicate n none ∧ (reading = true → n = 0)

theorem shaped_finish {reading : Bool} (shaped : Shaped s.queue reading)
    (roomy : ¬s.Drops maxEventQueue) (error : String) :
    Shaped (finish maxEventQueue error s).queue false := by
  obtain ⟨messages, n, queue, _⟩ := shaped
  unfold finish
  by_cases tight : full maxEventQueue s.queue = true
  · simp only [if_pos tight]
    cases messages with
    | cons message rest => exact absurd ⟨tight, message, _, queue.trans (List.cons_append ..)⟩ roomy
    | nil =>
      refine ⟨[], n - 1 + 1, ?_, nofun⟩
      rw [queue, List.map_nil, List.nil_append, List.nil_append, List.drop_replicate,
        List.replicate_succ']
  · simp only [if_neg tight]
    refine ⟨messages, n + 1, ?_, nofun⟩
    rw [queue, List.append_assoc, List.replicate_succ']

variable {id : Nat} {message : Message}

theorem mem_pending_finish {error : String}
    (member : (id, Future.result message) ∈ (finish maxEventQueue error s).pending) :
    (id, Future.result message) ∈ s.pending := by
  obtain ⟨⟨key, future⟩, listed, same⟩ := List.mem_map.mp member
  cases future with
  | waiting | failed _ => cases same
  | result other =>
    cases same
    exact listed

theorem keys_finish (s : AppServer) (error : String) :
    (finish maxEventQueue error s).pending.map Prod.fst = s.pending.map Prod.fst := by
  rw [finish, List.map_map]
  rfl

theorem keys_deliver (message : Message) (id : MessageId) (pending : List (Nat × Future)) :
    (deliver message id pending).map Prod.fst = pending.map Prod.fst := by
  rw [deliver, List.map_map]
  apply List.map_congr_left
  intro entry _
  dsimp only [Function.comp]
  split <;> rfl

variable {key : Nat}

theorem mem_deliver {id : MessageId} {pending : List (Nat × Future)} {other : Message}
    (member : (key, Future.result other) ∈ deliver message id pending) :
    (key, Future.result other) ∈ pending ∨
      other = message ∧ id.names key = true ∧ (key, Future.waiting) ∈ pending := by
  obtain ⟨entry, listed, same⟩ := List.mem_map.mp member
  split at same
  · rename_i waits
    obtain ⟨named, waiting⟩ := (Bool.and_eq_true _ _).mp waits
    cases same
    exact .inr ⟨rfl, named, by rw [← beq_iff_eq.mp waiting]; exact listed⟩
  · exact .inl (same ▸ listed)

theorem mem_deliver_of_waiting (message : Message) {id : MessageId} {pending : List (Nat × Future)}
    (named : id.names key = true) (waiting : (key, Future.waiting) ∈ pending) :
    (key, Future.result message) ∈ deliver message id pending :=
  List.mem_map.mpr ⟨(key, .waiting), waiting, by simp [named]⟩

theorem futureOf_mem {future : Future} (found : s.futureOf id = some future) :
    (id, future) ∈ s.pending := by
  obtain ⟨⟨key, held⟩, listed, same⟩ := Option.map_eq_some_iff.mp found
  have named := List.find?_some listed
  cases same
  rw [← beq_iff_eq.mp named]
  exact List.mem_of_find?_eq_some listed

structure Sound (s : AppServer) : Prop where
  kept : s.yielded ++ s.queued = s.accepted
  initial : s.accepted <+: s.events
  whole : s.reading = true → s.accepted = s.events
  shaped : Shaped s.queue s.reading
  isOver : s.reading = false → s.fatal.isSome = true
  ended : s.ended = true → s.reading = false ∧ s.queued = []
  own : ∀ id message, (id, .result message) ∈ s.pending → s.Own id message
  answered : ∀ id message, (id, some message) ∈ s.completed → s.Own id message
  keys : (s.pending.map Prod.fst ++ s.completed.map Prod.fst).Nodup
  below : ∀ id ∈ s.pending.map Prod.fst ++ s.completed.map Prod.fst, id < s.nextId

theorem start_sound : Sound {} where
  kept := rfl
  initial := List.nil_prefix
  whole := fun _ => rfl
  shaped := ⟨[], 0, rfl, fun _ => rfl⟩
  isOver := nofun
  ended := nofun
  own := nofun
  answered := nofun
  keys := List.nodup_nil
  below := nofun

theorem Sound.lossless (sound : Sound s) : Lossless s :=
  { sound with
    failed := by
      intro ended
      obtain ⟨isOver, empty⟩ := sound.ended ended
      refine ⟨sound.isOver isOver, ?_⟩
      rw [← sound.kept, empty, List.append_nil]
    once := (List.nodup_append.mp sound.keys).2.1 }

variable {s' : AppServer}

theorem Own.later (own : s.Own id message) (read : ∀ other ∈ s.read, other ∈ s'.read) :
    s'.Own id message :=
  ⟨own.1, read message own.2⟩

theorem Sound.finished (sound : Sound s) (roomy : ¬s.Drops maxEventQueue) (error : String)
    (read : List Message) :
    Sound { finish maxEventQueue error { s with read := s.read ++ read } with reading := false } where
  kept := (congrArg (s.yielded ++ ·) (queued_finish maxEventQueue roomy error)).trans sound.kept
  initial := by
    refine sound.initial.trans ?_
    unfold events
    rw [show (finish maxEventQueue error { s with read := s.read ++ read }).read = s.read ++ read
      from rfl, List.filter_append]
    exact List.prefix_append _ _
  whole := nofun
  shaped := shaped_finish maxEventQueue sound.shaped roomy error
  isOver := fun _ => rfl
  ended := by
    intro isOver
    refine ⟨rfl, ?_⟩
    exact (queued_finish maxEventQueue roomy error).trans (sound.ended isOver).2
  own := by
    intro id message member
    exact (sound.own id message (mem_pending_finish maxEventQueue member)).later
      (fun _ listed => List.mem_append_left _ listed)
  answered := by
    intro id message member
    exact (sound.answered id message member).later (fun _ listed => List.mem_append_left _ listed)
  keys := by
    have keys := keys_finish maxEventQueue { s with read := s.read ++ read } error
    rw [keys]
    exact sound.keys
  below := by
    have keys := keys_finish maxEventQueue { s with read := s.read ++ read } error
    rw [keys]
    exact sound.below

theorem receive_failing (s : AppServer) (error : String) :
    s.receive maxEventQueue (.failing error) =
      { finish maxEventQueue error { s with read := s.read ++ [] } with reading := false } := by
  rw [List.append_nil]
  rfl

theorem Sound.delivered (sound : Sound s) {id : MessageId} (carries : message.id = some id)
    (response : message.isResponse = true)
    (own : ∀ key, id.names key = true → (key, Future.waiting) ∈ s.pending → id = .number key) :
    Sound { s with read := s.read ++ [message], pending := deliver message id s.pending } := by
  have same : events { s with
      read := s.read ++ [message]
      pending := deliver message id s.pending } = s.events := by
    simp [events, List.filter_append, response]
  have listed : ∀ other ∈ s.read, other ∈ s.read ++ [message] :=
    fun _ member => List.mem_append_left _ member
  exact
    { kept := sound.kept
      initial := same ▸ sound.initial
      whole := fun reads => same ▸ sound.whole reads
      shaped := sound.shaped
      isOver := sound.isOver
      ended := sound.ended
      own := by
        intro key other member
        rcases mem_deliver member with earlier | ⟨rfl, named, waiting⟩
        · exact (sound.own key other earlier).later listed
        · exact ⟨carries.trans (congrArg some (own key named waiting)), List.mem_concat_self⟩
      answered := fun key other member => (sound.answered key other member).later listed
      keys := by
        rw [keys_deliver]
        exact sound.keys
      below := by
        rw [keys_deliver]
        exact sound.below }

theorem Sound.queued_event (sound : Sound s) (reads : s.reading = true)
    (event : message.isResponse = false) : Sound { s with
      read := s.read ++ [message]
      queue := s.queue ++ [some message]
      accepted := s.accepted ++ [message] } := by
  have listed : ∀ other ∈ s.read, other ∈ s.read ++ [message] :=
    fun _ member => List.mem_append_left _ member
  have grown : s.accepted ++ [message] = (s.read ++ [message]).filter (!·.isResponse) := by
    rw [sound.whole reads, events, List.filter_append]
    simp [event]
  exact
    { kept := by
        rw [← sound.kept]
        simp [queued]
      initial := ⟨[], (List.append_nil _).trans grown⟩
      whole := fun _ => grown
      shaped := by
        obtain ⟨messages, n, queue, fresh⟩ := sound.shaped
        refine ⟨messages ++ [message], 0, ?_, fun _ => rfl⟩
        simp [queue, fresh reads]
      isOver := sound.isOver
      ended := by
        intro isOver
        rw [(sound.ended isOver).1] at reads
        cases reads
      own := fun key other member => (sound.own key other member).later listed
      answered := fun key other member => (sound.answered key other member).later listed
      keys := sound.keys
      below := sound.below }

theorem names_number {value : Rat} (named : (MessageId.number value).names key = true) :
    MessageId.number value = .number key := by
  rw [MessageId.names, beq_iff_eq] at named
  rw [named]

section
variable (sound : Sound s)
include sound

theorem receive_sound (reads : s.reading = true) {line : Line}
    (harmless : s.Harmless maxEventQueue line) : Sound (s.receive maxEventQueue line) := by
  cases line with
  | failing error =>
    rw [receive_failing]
    exact sound.finished maxEventQueue harmless error []
  | message message =>
    obtain ⟨id, method, body⟩ := message
    have event : ∀ {carried : Message}, carried.isResponse = false →
        ¬s.Drops maxEventQueue →
          Sound (if full maxEventQueue s.queue then
            { finish maxEventQueue "Codex App Server event queue overflowed"
                { s with read := s.read ++ [carried] } with
              reading := false }
          else { s with
            read := s.read ++ [carried]
            queue := s.queue ++ [some carried]
            accepted := s.accepted ++ [carried] }) := by
      intro carried event roomy
      split
      · exact sound.finished maxEventQueue roomy _ [carried]
      · exact sound.queued_event reads event
    cases method with
    | some method =>
      have request : Message.isResponse ⟨id, some method, body⟩ = false := by
        simp [Message.isResponse]
      rcases id with _ | ⟨_ | _ | _ | _⟩ <;> exact event request harmless
    | none =>
      cases id with
      | none => exact event (by simp [Message.isResponse]) harmless
      | some id =>
        cases id with
        | compound => exact sound.finished maxEventQueue harmless _ [_]
        | number value => exact sound.delivered rfl rfl (fun key named _ => names_number named)
        | text value => exact sound.delivered rfl rfl (fun key named _ => by cases named)
        | flag value =>
          exact sound.delivered rfl rfl
            (fun key named waiting => absurd waiting (harmless key named))

theorem Sound.completes (pending : id ∈ s.pending.map Prod.fst)
    {outcome : Option Message} (own : ∀ message, outcome = some message → s.Own id message) :
    Sound (s.complete id outcome) := by
  have kept : (s.pending.filter fun entry => entry.1 != id).map Prod.fst =
      (s.pending.map Prod.fst).filter (· != id) := by
    rw [List.filter_map]
    rfl
  have apart := List.nodup_append.mp sound.keys
  have fresh : id ∉ s.completed.map Prod.fst := fun done => apart.2.2 id pending id done rfl
  exact
    { kept := sound.kept
      initial := sound.initial
      whole := sound.whole
      shaped := sound.shaped
      isOver := sound.isOver
      ended := sound.ended
      own := fun key message member => sound.own key message (List.mem_of_mem_filter member)
      answered := by
        intro key message member
        rcases List.mem_append.mp member with earlier | new
        · exact sound.answered key message earlier
        · obtain ⟨rfl, same⟩ := Prod.mk.inj (List.mem_singleton.mp new)
          exact own message same.symm
      keys := by
        change (List.map Prod.fst (s.pending.filter _) ++ List.map Prod.fst (s.completed ++ _)).Nodup
        rw [kept, List.map_append, ← List.append_assoc, List.nodup_append]
        refine ⟨?_, List.nodup_singleton _, ?_⟩
        · rw [List.nodup_append]
          refine ⟨apart.1.filter _, apart.2.1, ?_⟩
          intro key listed key' done
          exact apart.2.2 key (List.mem_of_mem_filter listed) key' done
        · intro key member key' last
          have new : key' = id := List.mem_singleton.mp last
          rw [new]
          rintro rfl
          rcases List.mem_append.mp member with listed | done
          · simpa using (List.mem_filter.mp listed).2
          · exact fresh done
      below := by
        intro key member
        rcases List.mem_append.mp member with listed | done
        · change key ∈ List.map Prod.fst (s.pending.filter _) at listed
          rw [kept] at listed
          exact sound.below key (List.mem_append_left _ (List.mem_of_mem_filter listed))
        · change key ∈ List.map Prod.fst (s.completed ++ _) at done
          rw [List.map_append] at done
          rcases List.mem_append.mp done with earlier | last
          · exact sound.below key (List.mem_append_right _ earlier)
          · have new : key = id := List.mem_singleton.mp last
            rw [new]
            exact sound.below _ (List.mem_append_left _ pending) }

theorem Sound.requested :
    Sound { s with pending := s.pending ++ [(s.nextId, .waiting)], nextId := s.nextId + 1 } := by
  have fresh : s.nextId ∉ s.pending.map Prod.fst ++ s.completed.map Prod.fst :=
    fun member => absurd (sound.below _ member) (Nat.lt_irrefl _)
  exact
    { kept := sound.kept
      initial := sound.initial
      whole := sound.whole
      shaped := sound.shaped
      isOver := sound.isOver
      ended := sound.ended
      own := by
        intro key message member
        rcases List.mem_append.mp member with earlier | new
        · exact sound.own key message earlier
        · cases List.mem_singleton.mp new
      answered := sound.answered
      keys := by
        rw [List.map_append, List.append_assoc]
        refine (List.perm_append_comm_assoc _ _ _).nodup_iff.mpr ?_
        exact List.nodup_cons.mpr ⟨fresh, sound.keys⟩
      below := by
        intro key member
        rw [List.map_append, List.append_assoc] at member
        rcases List.mem_cons.mp ((List.perm_append_comm_assoc _ _ _).mem_iff.mp member) with rfl | old
        · exact Nat.lt_succ_self _
        · exact Nat.lt_succ_of_lt (sound.below key old) }

theorem Sound.consumed (taken : s.step maxEventQueue .consume = some s') : Sound s' := by
  simp only [step] at taken
  split at taken
  · cases taken
  · obtain ⟨messages, n, queue, fresh⟩ := sound.shaped
    split at taken
    · rename_i message rest head
      cases taken
      cases messages with
      | nil =>
        rw [queue] at head
        cases n <;> cases head
      | cons first messages =>
        rw [queue, List.map_cons, List.cons_append, List.cons.injEq] at head
        obtain ⟨same, rfl⟩ := head
        cases same
        have kept := sound.kept
        exact
          { kept := by
              rw [← kept]
              simp [queued, queue]
            initial := sound.initial
            whole := sound.whole
            shaped := ⟨messages, n, rfl, fresh⟩
            isOver := sound.isOver
            ended := by
              intro isOver
              have empty := (sound.ended isOver).2
              simp [queued, queue] at empty
            own := sound.own
            answered := sound.answered
            keys := sound.keys
            below := sound.below }
    · rename_i rest head
      cases taken
      cases messages with
      | cons first messages =>
        rw [queue] at head
        cases head
      | nil =>
        rw [queue, List.map_nil, List.nil_append] at head
        cases n with
        | zero => cases head
        | succ n =>
          rw [List.replicate_succ, List.cons.injEq] at head
          obtain ⟨-, rfl⟩ := head
          have stopped : s.reading = false := by
            cases reads : s.reading with
            | false => rfl
            | true => exact absurd (fresh reads) (Nat.succ_ne_zero n)
          exact
            { kept := by
                rw [← sound.kept]
                simp [queued, queue]
              initial := sound.initial
              whole := sound.whole
              shaped := ⟨[], n, rfl, fun reads => by rw [stopped] at reads; cases reads⟩
              isOver := sound.isOver
              ended := fun _ => ⟨stopped, by simp [queued]⟩
              own := sound.own
              answered := sound.answered
              keys := sound.keys
              below := sound.below }
    · cases taken

theorem step_sound {label : ClientStep} (roomy : s.Roomy maxEventQueue label)
    (taken : s.step maxEventQueue label = some s') : Sound s' := by
  cases label with
  | request =>
    simp only [step] at taken
    split at taken <;> cases taken
    exact sound.requested
  | settle id =>
    simp only [step] at taken
    split at taken
    · rename_i message held
      cases taken
      have listed := futureOf_mem held
      refine sound.completes (List.mem_map.mpr ⟨_, listed, rfl⟩) ?_
      rintro other ⟨⟩
      exact sound.own id message listed
    · rename_i error held
      cases taken
      exact sound.completes (List.mem_map.mpr ⟨_, futureOf_mem held, rfl⟩) nofun
    · cases taken
  | giveUp id =>
    simp only [step, Option.map_eq_some_iff] at taken
    obtain ⟨future, held, rfl⟩ := taken
    exact sound.completes (List.mem_map.mpr ⟨_, futureOf_mem held, rfl⟩) nofun
  | readLine line =>
    simp only [step] at taken
    split at taken <;> cases taken
    rename_i reads
    exact receive_sound maxEventQueue sound reads roomy
  | consume => exact sound.consumed maxEventQueue taken
  | close =>
    cases taken
    exact ⟨sound.kept, sound.initial, sound.whole, sound.shaped, sound.isOver, sound.ended,
      sound.own, sound.answered, sound.keys, sound.below⟩
  | closed =>
    simp only [step] at taken
    split at taken <;> cases taken
    have finished := sound.finished maxEventQueue roomy "Codex App Server connection closed" []
    rw [List.append_nil] at finished
    exact ⟨finished.kept, finished.initial, finished.whole, finished.shaped, finished.isOver,
      finished.ended, finished.own, finished.answered, finished.keys, finished.below⟩

theorem dropped_shows (drops : s.Drops maxEventQueue) (error : String)
    (queue : s'.queue = (finish maxEventQueue error s).queue) (accepted : s'.accepted = s.accepted)
    (yielded : s'.yielded = s.yielded) : ¬Lossless s' := by
  intro lossless
  have kept := lossless.kept
  have shorter := queued_finish_drops maxEventQueue drops error
  have same : s'.queued = (finish maxEventQueue error s).queued := by rw [queued, queue, queued]
  rw [accepted, yielded, same, ← sound.kept] at kept
  have lengths := congrArg List.length (List.append_cancel_left kept)
  omega

theorem receive_shows {line : Line} (harms : ¬s.Harmless maxEventQueue line) :
    ¬Lossless (s.receive maxEventQueue line) := by
  cases line with
  | failing error => exact dropped_shows maxEventQueue sound (not_not.mp harms) error rfl rfl rfl
  | message message =>
    obtain ⟨id, method, body⟩ := message
    have event : ∀ (carried : Message), ¬¬s.Drops maxEventQueue →
        ¬Lossless (if full maxEventQueue s.queue then
          { finish maxEventQueue "Codex App Server event queue overflowed"
              { s with read := s.read ++ [carried] } with
            reading := false }
        else { s with
          read := s.read ++ [carried]
          queue := s.queue ++ [some carried]
          accepted := s.accepted ++ [carried] }) := by
      intro carried drops
      rw [if_pos (not_not.mp drops).1]
      exact dropped_shows maxEventQueue sound (not_not.mp drops)
        "Codex App Server event queue overflowed" rfl rfl rfl
    cases method with
    | some method => rcases id with _ | ⟨_ | _ | _ | _⟩ <;> exact event _ harms
    | none =>
      cases id with
      | none => exact event _ harms
      | some id =>
        cases id with
        | compound =>
          exact dropped_shows maxEventQueue sound (not_not.mp harms) "unhashable type" rfl rfl rfl
        | number value | text value => exact absurd trivial harms
        | flag value =>
          obtain ⟨key, named, waiting⟩ : ∃ key,
              (MessageId.flag value).names key = true ∧ (key, Future.waiting) ∈ s.pending := by
            by_contra none
            exact harms fun key named waiting => none ⟨key, named, waiting⟩
          intro lossless
          have own := lossless.own key _ (mem_deliver_of_waiting _ named waiting)
          cases own.1

theorem step_shows {label : ClientStep} (tight : ¬s.Roomy maxEventQueue label)
    (taken : s.step maxEventQueue label = some s') : ¬Lossless s' := by
  cases label with
  | readLine line =>
    simp only [step] at taken
    split at taken <;> cases taken
    exact receive_shows maxEventQueue sound tight
  | closed =>
    simp only [step] at taken
    split at taken <;> cases taken
    exact dropped_shows maxEventQueue sound (not_not.mp tight)
      "Codex App Server connection closed" rfl rfl rfl
  | _ => exact absurd trivial tight

end

/-- A connection is lossless exactly while its end marker takes no event's place and no waiting
request is answered with the id `true`. -/
theorem lossless_iff (labels : List ClientStep) :
    (∀ t ∈ Transition.trace (step maxEventQueue) {} labels, Lossless t) ↔
      ∀ taken ∈ Transition.accepted (step maxEventQueue) {} labels,
        taken.1.Roomy maxEventQueue taken.2 :=
  Transition.trace_safe_iff_of_clean (fun _ (sound : Sound _) => sound.lossless)
    (fun _ _ _ sound roomy taken => step_sound maxEventQueue sound roomy taken)
    (fun _ _ _ sound tight taken => step_shows maxEventQueue sound tight taken) start_sound

/-- Two notifications fill the queue, then the process exits. -/
def exitWhenFull : List ClientStep :=
  [.readLine (.message { method := some "item/started" }),
    .readLine (.message { method := some "turn/completed" }),
    .readLine (.failing "Codex App Server exited with status 0"), .consume, .consume]

/-- The first notification is dropped: only the second is yielded. -/
theorem exit_drops_event : ¬∀ t ∈ Transition.trace (step 2) {} exitWhenFull, Lossless t := by
  intro lossless
  have ends := (lossless _ (Transition.mem_trace_final _ exitWhenFull)).kept
  have yielded : (Transition.final (step 2) {} exitWhenFull).yielded =
      [{ method := some "turn/completed" }] := rfl
  have queued : (Transition.final (step 2) {} exitWhenFull).queued = [] := rfl
  have accepted : (Transition.final (step 2) {} exitWhenFull).accepted =
      [{ method := some "item/started" }, { method := some "turn/completed" }] := rfl
  rw [yielded, queued, accepted] at ends
  simp at ends

end AppServer

end Knoa.Codex
