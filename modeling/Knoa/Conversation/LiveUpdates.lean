import Knoa.Conversation.TurnTerminality

/-!
# Live updates

`ConversationService` over one turn, with one call of `updates`. A subscription holds the latest
signal only. A read of the repository and what is made of it are two steps.
-/
namespace Knoa.Conversation
open Knoa.Tasks Relational
open Transaction (commit)

/-- What the Agent has said so far. -/
structure LiveText where
  reasoning : String := ""
  content : String := ""
  finalOutput : String := ""
  timeline : JsonText := ⟨"[]"⟩
  artifacts : JsonText := ⟨"[]"⟩
  deriving DecidableEq

/-- A `_LiveTurn`; `notifyTask` is the notifier that `_schedule_notify` has started. -/
structure LiveTurn where
  revision : Nat
  text : LiveText := {}
  notifyTask : Option Nat := none
  deriving DecidableEq

/-- `live.revision = max(live.revision, stored.revision)`, where the turn was not over. -/
def LiveTurn.observe (row : ChatTurnRow) (live : LiveTurn) : LiveTurn :=
  if row.state.isTerminal then live else { live with revision := max live.revision row.revision }

/-- Where a `_notify`, or a `get_turn` of a client, stands. -/
inductive NotifierPhase
  | looking
  | reading (principalId : String)
  | composing (row : ChatTurnRow)
  | ended
  deriving DecidableEq

/-- A `_notify`, or a plain `get_turn`. -/
structure Notifier where
  publishes : Bool
  phase : NotifierPhase
  deriving DecidableEq

inductive UpdatesPhase
  | subscribing
  | reading
  | composing (row : ChatTurnRow)
  | waiting
  | ended
  | raised
  deriving DecidableEq

/-- A call of `updates` with its subscription, and what it has yielded. -/
structure Updates where
  principalId : String
  phase : UpdatesPhase := .subscribing
  queue : Option ChatTurnRow := none
  received : List ChatTurnRow := []
  deriving DecidableEq

/-- The hub knows the subscription. -/
def UpdatesPhase.listed : UpdatesPhase → Bool
  | .reading | .composing _ | .waiting => true
  | .subscribing | .ended | .raised => false

/-- Where the turn and its `_execute` stand: `finishing` is the last checkpoint, `flushing`
its `_flush_notify`. -/
inductive ExecutePhase
  | idle
  | running
  | finishing (values : Checkpoint)
  | closing
  | flushing (notifier : Nat)
  | gone
  deriving DecidableEq

structure LiveFeed where
  store : ConversationStore
  turnId : String
  normal : strip turnId = turnId
  live : Option LiveTurn := none
  notifiers : List Notifier := []
  execute : ExecutePhase := .idle
  updates : Updates

inductive LiveAct
  | repository (op : ConversationOp)
  | create (now : Time) (request : ChatTurnRequest)
  | event (text : LiveText) (changed : Bool)
  | notify
  | observe (principalId : String)
  | look (i : Nat)
  | get (i : Nat)
  | compose (i : Nat)
  | finish (state : ChatTurnState) (failureCode : String) (cancelRequested : Option Bool)
  | checkpoint (now : Time) (principalId : String)
  | flush
  | pop
  | subscribe
  | read
  | snapshot
  | receive

namespace LiveFeed

variable (s : LiveFeed)

/-- `get_turn`, after its read. -/
def getTurn (row : ChatTurnRow) : ChatTurnRow :=
  match s.live with
  | none => row
  | some live =>
    if row.state.isTerminal then row
    else
      { row with
        reasoning := live.text.reasoning, content := live.text.content,
        finalOutput := live.text.finalOutput, timeline := live.text.timeline,
        artifacts := live.text.artifacts, revision := max live.revision row.revision }

def observed (row : ChatTurnRow) : LiveFeed := { s with live := s.live.map (LiveTurn.observe row) }

def setNotifier (i : Nat) (notifier : Notifier) (phase : NotifierPhase) : LiveFeed :=
  { s with notifiers := s.notifiers.set i { notifier with phase } }

/-- `_LatestSubscription.publish`. -/
def publish (signal : ChatTurnRow) : LiveFeed :=
  if s.updates.phase.listed then { s with updates := { s.updates with queue := some signal } }
  else s

def turn : Option ChatTurnRow := s.store.turns.lookup s.turnId

def ownedTurn (principalId : String) : Option ChatTurnRow :=
  s.turn.filter (fun row => row.principalId == principalId)

def look (i : Nat) (notifier : Notifier) : LiveFeed :=
  s.setNotifier i notifier
    (match s.turn with
      | none => .ended
      | some row => .reading row.principalId)

def get (i : Nat) (notifier : Notifier) (principalId : String) : LiveFeed :=
  s.setNotifier i notifier
    (match s.ownedTurn principalId with
      | none => .ended
      | some row => .composing row)

def compose (i : Nat) (notifier : Notifier) (row : ChatTurnRow) : LiveFeed :=
  let observed := (s.observed row).setNotifier i notifier .ended
  if notifier.publishes then observed.publish (s.getTurn row) else observed

/-- `_schedule_notify`: at most one notifier at a time. -/
def scheduleNotify (live : LiveTurn) : LiveFeed :=
  match live.notifyTask.bind (fun i => s.notifiers[i]?) with
  | some notifier =>
    if notifier.phase = .ended then
      { s with
        live := some { live with notifyTask := some s.notifiers.length }
        notifiers := s.notifiers ++ [{ publishes := true, phase := .looking }] }
    else { s with live := some live }
  | none =>
    { s with
      live := some { live with notifyTask := some s.notifiers.length }
      notifiers := s.notifiers ++ [{ publishes := true, phase := .looking }] }

/-- `_apply_event`; `text` is what the event makes of the text. -/
def event (live : LiveTurn) (text : LiveText) (changed : Bool) : LiveFeed :=
  s.scheduleNotify
    { live with text, revision := if changed then live.revision + 1 else live.revision }

def lastCheckpoint (live : LiveTurn) (state : ChatTurnState) (failureCode : String)
    (cancelRequested : Option Bool) : Checkpoint where
  state := some state
  reasoning := some live.text.reasoning
  content := some live.text.content
  finalOutput := some live.text.finalOutput
  timeline := some live.text.timeline
  artifacts := some live.text.artifacts
  failureCode := some failureCode
  cancelRequested := cancelRequested
  revision := some (live.revision + 1)
  finished := true

/-- `_flush_notify` takes the scheduled notifier away and starts its own. -/
def flush (live : LiveTurn) : LiveFeed :=
  let notifiers :=
    match live.notifyTask with
    | some i => s.notifiers.modify i (fun notifier => { notifier with phase := .ended })
    | none => s.notifiers
  { s with
    live := some { live with notifyTask := none }
    notifiers := notifiers ++ [{ publishes := true, phase := .looking }]
    execute := .flushing notifiers.length }

def goTo (phase : UpdatesPhase) : LiveFeed := { s with updates := { s.updates with phase } }

def yield (signal : ChatTurnRow) : LiveFeed :=
  { s with
    updates :=
      { s.updates with
        received := s.updates.received ++ [signal]
        phase := if signal.state.isTerminal then .ended else .waiting } }

def snapshot (row : ChatTurnRow) : LiveFeed := (s.observed row).yield (s.getTurn row)

def receive (signal : ChatTurnRow) : LiveFeed :=
  let taken := { s with updates := { s.updates with queue := none } }
  if signal.principalId = s.updates.principalId then taken.yield signal else taken

end LiveFeed

/-- The calls that the service makes apart from those of `_execute`, of its own start, and of
the turn's creation. -/
def ConversationOp.byClients (turnId : String) : ConversationOp → Bool
  | .checkpoint .. | .recoverInterrupted _ => false
  | .create _ id _ => strip id ≠ turnId
  | _ => true

namespace LiveFeed

def step (s : LiveFeed) : LiveAct → Option LiveFeed
  | .repository op =>
    if op.byClients s.turnId then
      (s.store.step op).map (fun store => { s with store })
    else none
  | .create now request =>
    match s.execute, commit (Conversation.create now s.turnId request) s.store with
    | .idle, (.ok (row, true), store) =>
      some { s with store, live := some { revision := row.revision }, execute := .running }
    | _, _ => none
  | .event text changed => s.live.bind (fun live =>
    if s.execute = .running then some (s.event live text changed) else none)
  | .notify => some { s with notifiers := s.notifiers ++ [{ publishes := true, phase := .looking }] }
  | .observe principalId =>
    some { s with
      notifiers := s.notifiers ++ [{ publishes := false, phase := .reading principalId }] }
  | .look i => (s.notifiers[i]?).bind (fun notifier =>
    match notifier.phase with
    | .looking => some (s.look i notifier)
    | _ => none)
  | .get i => (s.notifiers[i]?).bind (fun notifier =>
    match notifier.phase with
    | .reading principalId => some (s.get i notifier principalId)
    | _ => none)
  | .compose i => (s.notifiers[i]?).bind (fun notifier =>
    match notifier.phase with
    | .composing row => some (s.compose i notifier row)
    | _ => none)
  | .finish state failureCode cancelRequested => s.live.bind (fun live =>
    if s.execute = .running ∧ state.isTerminal = true then
      some { s with execute := .finishing (lastCheckpoint live state failureCode cancelRequested) }
    else none)
  | .checkpoint now principalId =>
    match s.execute with
    | .finishing values =>
      (s.store.step (.checkpoint now principalId s.turnId values)).map (fun store =>
        { s with store, execute := .closing })
    | _ => none
  | .flush => s.live.bind (fun live => if s.execute = .closing then some (s.flush live) else none)
  | .pop =>
    match s.execute with
    | .flushing i =>
      if (s.notifiers[i]?).all (fun notifier => notifier.phase == .ended) then
        some { s with live := none, execute := .gone }
      else none
    | _ => none
  | .subscribe => if s.updates.phase = .subscribing then some (s.goTo .reading) else none
  | .read =>
    if s.updates.phase = .reading then
      some (s.goTo
        (match s.ownedTurn s.updates.principalId with
          | none => .raised
          | some row => .composing row))
    else none
  | .snapshot =>
    match s.updates.phase with
    | .composing row => some (s.snapshot row)
    | _ => none
  | .receive => if s.updates.phase = .waiting then s.updates.queue.map s.receive else none

/-- A call of `updates` over an empty repository. -/
def initial (sessions : Table SessionRow.sessionHandle) (turnId principalId : String) :
    LiveFeed where
  store := .initial sessions
  turnId := strip turnId
  normal := strip_strip turnId
  updates := { principalId := principalId }

end LiveFeed

end Knoa.Conversation
