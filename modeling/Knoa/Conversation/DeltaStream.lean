import Knoa.Conversation.Snapshots
import Knoa.Library.JsonRead

/-!
# The delta stream of a turn

`_chat_turn_stream` with `format=delta` and `subscribeChatTurn`: the server sends the end of a text
where its test says that nothing else changed; the client appends it to its last snapshot.
-/
namespace Knoa.Conversation
open Knoa.Tasks (JsonText Time)
open Transition

inductive DeltaField
  | content
  | reasoning
  deriving DecidableEq

structure ChatTurnDelta where
  turnId : String
  field : DeltaField
  delta : String
  revision : Nat
  deriving DecidableEq

inductive StreamMessage
  | snapshot (turn : ChatTurn)
  | delta (delta : ChatTurnDelta)
  deriving DecidableEq

/-- `len` of a list that is held as its text. -/
def count (text : JsonText) : Nat :=
  match Json.loads text.text.toList with
  | some (.arr items) => items.length
  | _ => 0

def DeltaField.text (turn : ChatTurn) : DeltaField → String
  | .content => turn.row.content
  | .reasoning => turn.row.reasoning

def DeltaField.other : DeltaField → DeltaField
  | .content => .reasoning
  | .reasoning => .content

/-- `is_same_structure` -/
def isSameStructure (turn last : ChatTurn) : Bool :=
  turn.row.state == last.row.state
    && count turn.row.timeline == count last.row.timeline
    && count turn.row.artifacts == count last.row.artifacts
    && turn.approvals.length == last.approvals.length
    && turn.interactions.length == last.interactions.length
    && turn.row.cancelRequested == last.row.cancelRequested
    && turn.row.failureCode == last.row.failureCode

/-- `text[len(last):]`, where `text` starts with `last` and is longer. -/
def extension (text last : String) : Option String :=
  if last.toList.isPrefixOf text.toList && last.toList.length < text.toList.length then
    some (String.ofList (text.toList.drop last.toList.length))
  else none

def fieldDelta (field : DeltaField) (turn last : ChatTurn) : Option ChatTurnDelta :=
  if isSameStructure turn last && field.other.text turn == field.other.text last then
    (extension (field.text turn) (field.text last)).map fun delta =>
      { turnId := turn.row.turnId, field, delta, revision := turn.revision }
  else none

def deltaOf (turn last : ChatTurn) : Option ChatTurnDelta :=
  fieldDelta .content turn last <|> fieldDelta .reasoning turn last

structure Encoder where
  lastTurn : Option ChatTurn := none
  sentSnapshot : Bool := false
  deriving DecidableEq

def Encoder.encode (allowDelta : Bool) (encoder : Encoder) (turn : ChatTurn) : StreamMessage :=
  match encoder.lastTurn with
  | none => .snapshot turn
  | some last =>
    if allowDelta && encoder.sentSnapshot then
      match deltaOf turn last with
      | some delta => .delta delta
      | none => .snapshot turn
    else .snapshot turn

/-- `last_turn` and `sent_snapshot` after a message. -/
def Encoder.sent (turn : ChatTurn) : Encoder := { lastTurn := some turn, sentSnapshot := true }

structure StreamClient where
  latestSnapshot : Option ChatTurn := none
  errors : List String := []
  deriving DecidableEq

/-- The new `latestSnapshot` of a delta that fits. -/
def ChatTurn.patch (turn : ChatTurn) (now : Time) (delta : ChatTurnDelta) : ChatTurn :=
  match delta.field with
  | .content =>
    { turn with
      row :=
        { turn.row with
          content := turn.row.content ++ delta.delta, revision := delta.revision,
          updatedAt := now } }
  | .reasoning =>
    { turn with
      row :=
        { turn.row with
          reasoning := turn.row.reasoning ++ delta.delta, revision := delta.revision,
          updatedAt := now } }

def revisionGap (expected received : Nat) : String :=
  "ChatTurn delta revision gap: expected " ++ toString expected ++ ", received " ++
    toString received

/-- The listeners of `subscribeChatTurn`. -/
def StreamClient.receive (client : StreamClient) (now : Time) : StreamMessage → StreamClient
  | .snapshot turn => { client with latestSnapshot := some turn }
  | .delta delta =>
    match client.latestSnapshot with
    | none => client
    | some latest =>
      if delta.revision ≤ latest.revision then client
      else if latest.revision + 1 < delta.revision then
        { client with
          errors := client.errors ++ [revisionGap (latest.revision + 1) delta.revision] }
      else { client with latestSnapshot := some (latest.patch now delta) }

structure TurnStream where
  principalId : String
  /-- The queue of the `_LatestSubscription`, one signal long. -/
  queue : Option ChatTurn := none
  /-- `updates` has yielded the turn that it read first. -/
  opened : Bool := false
  closed : Bool := true
  encoder : Encoder := {}
  /-- What was sent and has not arrived, with the turn that it was made from. -/
  transit : List (StreamMessage × ChatTurn) := []
  client : StreamClient := {}
  arrived : Option ChatTurn := none

inductive StreamAct
  /-- A request opens the stream, or opens it again. -/
  | connect
  /-- `updates` yields the turn as it stands. -/
  | current (turn : ChatTurn)
  | publish (turn : ChatTurn)
  | take
  /-- The stream is replaced, its token is no longer good, or the iterator is over. -/
  | stop
  | deliver (now : Time)

namespace TurnStream

def yieldTurn (allowDelta : Bool) (s : TurnStream) (turn : ChatTurn) : TurnStream :=
  { s with
    encoder := .sent turn, transit := s.transit ++ [(s.encoder.encode allowDelta turn, turn)],
    closed := turn.row.state.isTerminal }

def step (allowDelta : Bool) (s : TurnStream) : StreamAct → Option TurnStream
  | .connect => some { s with queue := none, opened := false, closed := false, encoder := {} }
  | .current turn =>
    if s.closed || s.opened then none
    else some { s.yieldTurn allowDelta turn with opened := true }
  | .publish turn => if s.closed then some s else some { s with queue := some turn }
  | .take =>
    if s.closed || !s.opened then none
    else
      match s.queue with
      | none => none
      | some turn =>
        let s := { s with queue := none }
        if turn.row.principalId = s.principalId then some (s.yieldTurn allowDelta turn)
        else some s
  | .stop => some { s with closed := true }
  | .deliver now =>
    match s.transit with
    | [] => none
    | (message, turn) :: transit =>
      some { s with
        transit, client := s.client.receive now message, arrived := some turn }

end TurnStream

/-- All of a turn but the time of its last change. -/
def ChatTurn.timeless (turn : ChatTurn) : ChatTurn :=
  { turn with row := { turn.row with updatedAt := 0 } }

/-- The client has no error and has the state that was encoded in the last message to arrive. -/
def Follows (s : TurnStream) : Prop :=
  s.client.errors = [] ∧ ∀ turn ∈ s.arrived,
    s.client.latestSnapshot.map ChatTurn.timeless = some turn.timeless

def DeltaField.carry (turn last : ChatTurn) : DeltaField → ChatTurn
  | .content =>
    { last with
      row := { last.row with content := turn.row.content, revision := turn.row.revision } }
  | .reasoning =>
    { last with
      row := { last.row with reasoning := turn.row.reasoning, revision := turn.row.revision } }

/-- A turn has the next revision and differs from the last one in the text of one field, its
revision and the time of its last change. -/
structure OnlyText (field : DeltaField) (turn last : ChatTurn) : Prop where
  next : turn.revision = last.revision + 1
  rest : (field.carry turn last).timeless = turn.timeless

/-- The condition: a state that is sent as a delta differs from the one before in nothing else. -/
def TurnStream.Clean (s : TurnStream) : StreamAct → Prop
  | .deliver _ => ∀ delta turn transit, s.transit = (.delta delta, turn) :: transit →
      ∀ last ∈ s.arrived, OnlyText delta.field turn last
  | _ => True

section Delta
variable {field : DeltaField} {turn last snapshot : ChatTurn} {delta : ChatTurnDelta}
  {message : StreamMessage} {allowDelta : Bool} {encoder : Encoder}

theorem extension_append {text last rest : String} (h : extension text last = some rest) :
    text = last ++ rest ∧ text ≠ last := by
  unfold extension at h
  split at h
  · next grown =>
      rw [Bool.and_eq_true, List.isPrefixOf_iff_prefix, decide_eq_true_iff] at grown
      obtain ⟨⟨more, whole⟩, longer⟩ := grown
      cases h
      constructor
      · apply String.toList_inj.mp
        rw [String.toList_append, String.toList_ofList, ← whole, List.drop_left]
      · rintro rfl
        exact lt_irrefl _ longer
  · cases h

theorem fieldDelta_spec (h : fieldDelta field turn last = some delta) :
    delta.field = field ∧ delta.revision = turn.revision ∧
      field.text turn = field.text last ++ delta.delta ∧ field.text turn ≠ field.text last := by
  unfold fieldDelta at h
  split at h
  · obtain ⟨rest, grown, rfl⟩ := Option.map_eq_some_iff.mp h
    exact ⟨rfl, rfl, extension_append grown⟩
  · cases h

theorem deltaOf_spec (h : deltaOf turn last = some delta) : delta.revision = turn.revision ∧
      delta.field.text turn = delta.field.text last ++ delta.delta ∧
      delta.field.text turn ≠ delta.field.text last := by
  unfold deltaOf at h
  cases first : fieldDelta .content turn last with
  | some grown =>
    rw [first] at h
    cases h
    obtain ⟨field, spec⟩ := fieldDelta_spec first
    rw [field]
    exact spec
  | none =>
    rw [first] at h
    obtain ⟨field, spec⟩ := fieldDelta_spec h
    rw [field]
    exact spec

theorem encode_cases (allowDelta : Bool) (encoder : Encoder) (turn : ChatTurn) :
    encoder.encode allowDelta turn = .snapshot turn ∨
      ∃ last delta, encoder.lastTurn = some last ∧ deltaOf turn last = some delta ∧
        encoder.encode allowDelta turn = .delta delta := by
  unfold Encoder.encode
  split
  · exact .inl rfl
  · next last known =>
      split
      · split
        · next delta fits => exact .inr ⟨last, delta, known, fits, rfl⟩
        · exact .inl rfl
      · exact .inl rfl

section
variable (same : snapshot.timeless = last.timeless)
include same

theorem text_of_timeless : field.text snapshot = field.text last := by
  have texts := congrArg (fun turn : ChatTurn => field.text turn) same
  cases field <;> exact texts

theorem revision_of_timeless : snapshot.revision = last.revision := by
  have revisions := congrArg ChatTurn.revision same
  exact revisions

theorem patch_timeless (now : Time) (revision : delta.revision = turn.revision)
    (grown : delta.field.text turn = delta.field.text last ++ delta.delta) :
    (snapshot.patch now delta).timeless = (delta.field.carry turn last).timeless := by
  have text : delta.field.text turn = delta.field.text snapshot ++ delta.delta := by
    rw [grown, text_of_timeless same]
  obtain ⟨turnId, field, added, number⟩ := delta
  cases field with
  | content =>
    have carried := congrArg (fun other : ChatTurn => { other with
      row := { other.row with content := turn.row.content, revision := turn.row.revision } }) same
    have text : turn.row.content = snapshot.row.content ++ added := text
    have revision : number = turn.row.revision := revision
    unfold ChatTurn.patch
    rw [revision, ← text]
    exact carried
  | reasoning =>
    have carried := congrArg (fun other : ChatTurn => { other with row :=
      { other.row with reasoning := turn.row.reasoning, revision := turn.row.revision } }) same
    have text : turn.row.reasoning = snapshot.row.reasoning ++ added := text
    have revision : number = turn.row.revision := revision
    unfold ChatTurn.patch
    rw [revision, ← text]
    exact carried

end

/-- A client that is up to date stays so exactly where nothing but the text has changed. -/
theorem receive_delta {client : StreamClient} {now : Time} (none_yet : client.errors = [])
    (latest : client.latestSnapshot = some snapshot) (same : snapshot.timeless = last.timeless)
    (fits : deltaOf turn last = some delta) : ((client.receive now (.delta delta)).errors = [] ∧
      (client.receive now (.delta delta)).latestSnapshot.map ChatTurn.timeless =
        some turn.timeless) ↔ OnlyText delta.field turn last := by
  obtain ⟨revision, grown, longer⟩ := deltaOf_spec fits
  have number := revision_of_timeless same
  simp only [StreamClient.receive, latest]
  split
  · next old =>
      constructor
      · rintro ⟨-, shown⟩
        rw [latest, Option.map_some, same, Option.some.injEq] at shown
        exact absurd (text_of_timeless shown).symm longer
      · rintro ⟨next, -⟩
        omega
  · split
    · next young gap =>
        constructor
        · rintro ⟨no_error, -⟩
          exact absurd no_error (List.append_ne_nil_of_right_ne_nil _ (List.cons_ne_nil _ _))
        · rintro ⟨next, -⟩
          omega
    · next young close =>
        rw [Option.map_some, patch_timeless same now revision grown, Option.some.injEq]
        constructor
        · rintro ⟨-, shown⟩
          exact ⟨by omega, shown⟩
        · rintro ⟨-, rest⟩
          exact ⟨none_yet, rest⟩

end Delta

inductive Linked : Option ChatTurn → List (StreamMessage × ChatTurn) → Prop
  | nil {last : Option ChatTurn} : Linked last []
  | snapshot {last : Option ChatTurn} {turn : ChatTurn}
      {transit : List (StreamMessage × ChatTurn)} (rest : Linked (some turn) transit) :
      Linked last ((.snapshot turn, turn) :: transit)
  | delta {last turn : ChatTurn} {delta : ChatTurnDelta}
      {transit : List (StreamMessage × ChatTurn)} (fits : deltaOf turn last = some delta)
      (rest : Linked (some turn) transit) : Linked (some last) ((.delta delta, turn) :: transit)

def newest : Option ChatTurn → List (StreamMessage × ChatTurn) → Option ChatTurn
  | last, [] => last
  | _, (_, turn) :: transit => newest (some turn) transit

theorem newest_append (last : Option ChatTurn) (transit : List (StreamMessage × ChatTurn))
    (message : StreamMessage) (turn : ChatTurn) :
    newest last (transit ++ [(message, turn)]) = some turn := by
  induction transit generalizing last with
  | nil => rfl
  | cons head transit ih => exact ih (some head.2)

theorem Linked.append {last : Option ChatTurn} {transit : List (StreamMessage × ChatTurn)}
    {message : StreamMessage} {turn : ChatTurn} (linked : Linked last transit)
    (here : message = .snapshot turn ∨ ∃ before delta, newest last transit = some before ∧
      deltaOf turn before = some delta ∧ message = .delta delta) :
    Linked last (transit ++ [(message, turn)]) := by
  induction linked with
  | nil =>
    rcases here with rfl | ⟨before, delta, known, fits, rfl⟩
    · exact .snapshot .nil
    · have known : _ = some before := known
      subst known
      exact .delta fits .nil
  | snapshot rest ih => exact .snapshot (ih here)
  | delta fits rest ih => exact .delta fits (ih here)

structure InStep (s : TurnStream) : Prop where
  linked : Linked s.arrived s.transit
  known : ∀ last, s.encoder.lastTurn = some last → newest s.arrived s.transit = some last

section Stream
variable {s s' : TurnStream} {a : StreamAct} {allowDelta : Bool} {turn : ChatTurn}

theorem InStep.yieldTurn (inStep : InStep s) (turn : ChatTurn) :
    InStep (s.yieldTurn allowDelta turn) where
  linked := by
    refine inStep.linked.append ?_
    rcases encode_cases allowDelta s.encoder turn with whole | ⟨last, delta, before, fits, part⟩
    · exact .inl whole
    · exact .inr ⟨last, delta, inStep.known last before, fits, part⟩
  known := by
    intro last known
    cases known
    exact newest_append _ _ _ _

theorem InStep.fresh (linked : Linked s.arrived s.transit) (fresh : s.encoder.lastTurn = none) :
    InStep s where
  linked := linked
  known := by
    intro last known
    rw [fresh] at known
    cases known

theorem stream_step_cases (h : s.step allowDelta a = some s') :
    (s'.client = s.client ∧ s'.arrived = s.arrived ∧ (InStep s → InStep s') ∧ s.Clean a) ∨
      ∃ now message turn transit, a = .deliver now ∧
        s.transit = (message, turn) :: transit ∧
        s' = { s with
          transit, client := s.client.receive now message, arrived := some turn } := by
  cases a with
  | connect =>
    cases h
    exact .inl ⟨rfl, rfl, fun inStep => .fresh inStep.linked rfl, trivial⟩
  | current turn =>
    simp only [TurnStream.step] at h
    split at h <;> cases h
    refine .inl ⟨rfl, rfl, fun inStep => ?_, trivial⟩
    have yielded : InStep (s.yieldTurn allowDelta turn) := inStep.yieldTurn turn
    exact ⟨yielded.linked, yielded.known⟩
  | publish turn =>
    simp only [TurnStream.step] at h
    split at h <;> cases h
    · exact .inl ⟨rfl, rfl, id, trivial⟩
    · exact .inl ⟨rfl, rfl, fun inStep => ⟨inStep.linked, inStep.known⟩, trivial⟩
  | take =>
    simp only [TurnStream.step] at h
    split at h
    · cases h
    · split at h
      · cases h
      · next turn queued =>
          have emptied : InStep s → InStep { s with queue := none } := fun inStep =>
            ⟨inStep.linked, inStep.known⟩
          split at h <;> cases h
          · exact .inl ⟨rfl, rfl, fun inStep => (emptied inStep).yieldTurn turn, trivial⟩
          · exact .inl ⟨rfl, rfl, emptied, trivial⟩
  | stop =>
    cases h
    exact .inl ⟨rfl, rfl, fun inStep => ⟨inStep.linked, inStep.known⟩, trivial⟩
  | deliver now =>
    simp only [TurnStream.step] at h
    split at h
    · cases h
    · next message turn transit sent =>
        cases h
        exact .inr ⟨now, message, turn, transit, rfl, sent, rfl⟩

theorem stream_step_inStep (inStep : InStep s) (h : s.step allowDelta a = some s') : InStep s' := by
  rcases stream_step_cases h with ⟨-, -, kept, -⟩ | ⟨now, message, turn, transit, rfl, sent, rfl⟩
  · exact kept inStep
  · obtain ⟨linked, known⟩ := inStep
    rw [sent] at linked known
    generalize s.arrived = arrived at linked
    constructor
    · cases linked with
      | snapshot rest | delta fits rest => exact rest
    · exact known

theorem stream_step_follows (inStep : InStep s) (follows : Follows s)
    (h : s.step allowDelta a = some s') : Follows s' ↔ s.Clean a := by
  rcases stream_step_cases h with ⟨client, arrived, -, clean⟩ |
    ⟨now, message, turn, transit, rfl, sent, rfl⟩
  · unfold Follows
    rw [client, arrived]
    exact ⟨fun _ => clean, fun _ => follows⟩
  · obtain ⟨none_yet, shown⟩ := follows
    have linked := inStep.linked
    rw [sent] at linked
    generalize before : s.arrived = arrived at linked
    cases linked with
    | snapshot rest =>
      constructor
      · intro _ delta turn' transit' other
        rw [sent] at other
        cases other
      · intro _
        refine ⟨none_yet, fun last arrived => ?_⟩
        cases arrived
        rfl
    | delta fits rest =>
      rename_i last delta
      obtain ⟨snapshot, latest, same⟩ := Option.map_eq_some_iff.mp (shown last before)
      have exact_here := @receive_delta turn last snapshot delta s.client now none_yet latest
        same fits
      constructor
      · rintro ⟨no_error, now_shown⟩ other turn' transit' sent' last' before'
        rw [sent] at sent'
        cases sent'
        rw [before] at before'
        cases before'
        exact exact_here.mp ⟨no_error, now_shown turn rfl⟩
      · intro clean
        obtain ⟨no_error, now_shown⟩ := exact_here.mpr (clean delta turn transit sent last before)
        refine ⟨no_error, fun turn' arrived => ?_⟩
        cases arrived
        exact now_shown

end Stream

/-- The client follows along a run exactly where every delta that arrives has the next revision
and changes one text only. -/
theorem deltas_followed (allowDelta : Bool) (principalId : String) (acts : List StreamAct) :
    (∀ s ∈ trace (TurnStream.step allowDelta) { principalId := principalId } acts, Follows s) ↔
      ∀ taken ∈ accepted (TurnStream.step allowDelta) { principalId := principalId } acts,
        taken.1.Clean taken.2 := by
  have inStep : InStep { principalId := principalId } := .fresh .nil rfl
  have follows : Follows { principalId := principalId } := by
    refine ⟨rfl, fun turn arrived => ?_⟩
    cases arrived
  exact @Transition.trace_safe_iff _ _ (TurnStream.step allowDelta) InStep Follows (fun _ => True)
    TurnStream.Clean (fun _ _ _ inStep h => stream_step_inStep inStep h)
    (fun _ _ _ _ inStep follows h => stream_step_follows inStep follows h) _ inStep follows acts
    (fun _ _ => trivial)

section Sample

/-- The timeline of an answer without a call of a tool. -/
def sampleTimeline (content : String) : JsonText :=
  ⟨"[\x7b\"content\":\"" ++ content ++ "\",\"kind\":\"content\"\x7d]"⟩

/-- A turn that is being answered. -/
def sampleTurn (content : String) (revision : Nat) : ChatTurn where
  row :=
    { turnId := "t", principalId := "p", sessionHandle := "s", clientRequestId := "r",
      userInput := "hello", attachments := [], toolsEnabled := true, state := .running,
      reasoning := "", content, finalOutput := "", artifacts := ⟨"[]"⟩,
      failureCode := "", cancelRequested := false, createdAt := 0, updatedAt := 0,
      finishedAt := none, revision, timeline := sampleTimeline content }
  toolSteps := []
  approvals := []

def sampleAnswer : List ChatTurn := [sampleTurn "a" 2, sampleTurn "ab" 3, sampleTurn "abc" 4]

/-- The first state arrives, and the last of those that are published after it. -/
def sampleStream (published : List ChatTurn) : List StreamAct :=
  match published with
  | [] => []
  | first :: later => .connect :: .current first :: .deliver 1 :: later.map .publish ++
      [.take, .deliver 2]

/-- A delta leaves the timeline of the client as it was, and a state that was passed over is a
gap. -/
theorem delta_loses_timeline :
    let next := final (TurnStream.step true) { principalId := "p" }
      (sampleStream (sampleAnswer.take 2))
    let gap := final (TurnStream.step true) { principalId := "p" } (sampleStream sampleAnswer)
    (¬Follows next ∧ next.client.errors = [] ∧
      next.client.latestSnapshot.map (fun turn => (turn.row.content, turn.row.timeline)) =
        some ("ab", sampleTimeline "a")) ∧
    ¬Follows gap ∧ gap.client.errors = ["ChatTurn delta revision gap: expected 3, received 4"] := by
  intro next gap
  refine ⟨⟨?_, by decide +kernel, by decide +kernel⟩, ?_, by decide +kernel⟩
  · rintro ⟨-, shown⟩
    have apart : next.client.latestSnapshot.map ChatTurn.timeless ≠
        some (sampleTurn "ab" 3).timeless := by decide +kernel
    exact apart (shown _ rfl)
  · rintro ⟨no_error, -⟩
    have errors : gap.client.errors ≠ [] := by decide +kernel
    exact errors no_error

end Sample

end Knoa.Conversation
