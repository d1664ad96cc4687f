import Mathlib.Data.List.Basic
import Mathlib.Data.Sum.Basic
import Knoa.Library.Transition

/-!
# The connections of the mobile gateway

`RelayTransport` with the sockets that it has dialled and `WebRtcGatewayTransport` with its channel.
-/
namespace Knoa.Mobile

/-- What a decrypted frame or a channel message says; a number that is no safe integer and a body
that is no base64 stand as `none`. -/
inductive TunnelMessage
  | keepaliveAck
  | responseStart (status : Option Int) (headers : List (String × String))
      (bodyLength : Option Int)
  | responseBody (data : Option (List UInt8))
  | responseEnd
  | reset
  | other

structure ResponseState where
  status : Int := 0
  headers : List (String × String) := []
  expectedLength : Int := -1
  chunks : List (List UInt8) := []
  receivedLength : Nat := 0

/-- What a message makes of a response. -/
inductive Progress
  | more (state : ResponseState)
  | complete (state : ResponseState)
  /-- An exception of the handler. -/
  | malformed
  | reset

def ResponseState.advance (state : ResponseState) : TunnelMessage → Progress
  | .responseStart (some status) headers (some bodyLength) =>
    if status < 100 ∨ 599 < status ∨ bodyLength < 0 then .malformed
    else .more { state with status, headers, expectedLength := bodyLength }
  | .responseBody (some chunk) =>
    let received := state.receivedLength + chunk.length
    if state.expectedLength < received then .malformed
    else .more { state with chunks := state.chunks ++ [chunk], receivedLength := received }
  | .responseEnd =>
    if (state.receivedLength : Int) ≠ state.expectedLength ∨ state.status = 0 then .malformed
    else .complete state
  | .reset => .reset
  | _ => .malformed

/-- The requests of a transport, with the ones that it has rejected and resolved. -/
structure Exchange (κ : Type) where
  pending : List (κ × ResponseState) := []
  rejected : List κ := []
  resolved : List (κ × ResponseState) := []

namespace Exchange

variable {κ : Type} [DecidableEq κ]

def find (e : Exchange κ) (key : κ) : Option ResponseState :=
  (e.pending.find? fun entry => entry.1 == key).map Prod.snd

def drop (e : Exchange κ) (key : κ) : Exchange κ :=
  { e with pending := e.pending.filter fun entry => entry.1 != key }

def reject (e : Exchange κ) (key : κ) : Exchange κ :=
  { e.drop key with rejected := e.rejected ++ [key] }

def resolve (e : Exchange κ) (key : κ) (state : ResponseState) : Exchange κ :=
  { e.drop key with resolved := e.resolved ++ [(key, state)] }

def put (e : Exchange κ) (key : κ) (state : ResponseState) : Exchange κ :=
  { e with pending := e.pending.map fun entry => if entry.1 == key then (key, state) else entry }

/-- `for (const pending of this.pending.values()) pending.reject(error)` -/
def fail (e : Exchange κ) : Exchange κ :=
  { e with pending := [], rejected := e.rejected ++ e.pending.map Prod.fst }

/-- What is wrong with a message for a request. -/
inductive Fault
  | reset
  | malformed
  /-- The body is complete and no `Response` can be made of it. -/
  | unreadable
  deriving DecidableEq

def fault (readable : ResponseState → Bool) (e : Exchange κ) (key : κ) (message : TunnelMessage) :
    Option Fault :=
  (e.find key).bind fun state =>
    match state.advance message with
    | .more _ => none
    | .complete state => if readable state then none else some .unreadable
    | .malformed => some .malformed
    | .reset => some .reset

/-- What a fault leaves of the requests: on the Relay a reset is the request's own. -/
def afterRelayFault (e : Exchange κ) (key : κ) : Fault → Exchange κ
  | .reset => e.reject key
  | .malformed => e.fail
  | .unreadable => (e.drop key).fail

def afterChannelFault (e : Exchange κ) (key : κ) : Fault → Exchange κ
  | .reset | .malformed => e.fail
  | .unreadable => (e.drop key).fail

/-- The response of one request is rejected and every other request is as it was. -/
structure RejectsOnly (e e' : Exchange κ) (key : κ) : Prop where
  rejected : e'.rejected = e.rejected ++ [key]
  others : ∀ other, other ≠ key → e'.find other = e.find other

end Exchange

structure Frame (Cipher : Type) where
  sessionId : String
  streamId : Nat
  sequence : Nat
  ciphertext : Cipher

inductive SocketEvent (Cipher : Type)
  /-- `none` for a message that `parseRelayFrame` refuses -/
  | message (frame : Option (Frame Cipher))
  | error
  | close

structure Socket where
  isOpen : Bool := true
  /-- `onMessage` and `onSocketFailure` are its handlers. -/
  listening : Bool := false

def Socket.shut (socket : Socket) : Socket := { socket with isOpen := false }

def Socket.listen (socket : Socket) : Socket := { socket with listening := true }

structure RelayState (Key : Type) where
  /-- The sockets that were dialled, and the present one. -/
  sockets : List Socket := []
  socket : Option Nat := none
  /-- The socket that `open` is waiting for. -/
  opening : Option Nat := none
  sessionId : String := ""
  decryptKey : Option Key := none
  receiveSequence : Nat := 0
  nextStreamId : Nat := 1
  exchange : Exchange Nat := {}

inductive RelayLabel (Key Cipher : Type)
  /-- `open` makes a socket. -/
  | dial
  | session (sessionId : String)
  | handshake (key : Key)
  | openFails
  | request
  /-- A request ends by itself: timeout, abort or a send that fails. -/
  | giveUp (streamId : Nat)
  /-- `close`, or a keepalive that fails -/
  | fail
  /-- A socket is no longer open; its events may come later. -/
  | drops (socket : Nat)
  | event (socket : Nat) (event : SocketEvent Cipher)

section Relay

variable {Key Cipher : Type}
-- decryption under the key and the sequence of a frame, and the parser of the plaintext
variable (decrypt : Key → Frame Cipher → Option TunnelMessage)
-- whether a `Response` can be made of a complete one
variable (readable : ResponseState → Bool)

def RelayState.fail (s : RelayState Key) : RelayState Key :=
  { s with
    sockets := s.socket.elim s.sockets fun id => s.sockets.modify id Socket.shut, socket := none,
    sessionId := "", decryptKey := none, exchange := s.exchange.fail }

/-- `receiveMessage`; `none` in the second place for an exception -/
def RelayState.receiveMessage (s : RelayState Key) (streamId : Nat) (message : TunnelMessage) :
    RelayState Key × Option Unit :=
  match streamId, message with
  | 0, .keepaliveAck => (s, some ())
  | _, _ =>
    match s.exchange.find streamId with
    | none => (s, some ())
    | some state =>
      match state.advance message with
      | .more state => ({ s with exchange := s.exchange.put streamId state }, some ())
      | .complete state =>
        if readable state then
          ({ s with exchange := s.exchange.resolve streamId state }, some ())
        else ({ s with exchange := s.exchange.drop streamId }, none)
      | .reset => ({ s with exchange := s.exchange.reject streamId }, some ())
      | .malformed => (s, none)

def RelayState.opens (s : RelayState Key) (frame : Frame Cipher) : Option TunnelMessage :=
  if frame.sessionId = s.sessionId ∧ frame.sequence = s.receiveSequence then
    s.decryptKey.bind fun key => decrypt key frame
  else none

def RelayState.onMessage (s : RelayState Key) (frame : Option (Frame Cipher)) : RelayState Key :=
  match frame.bind fun frame => (s.opens decrypt frame).map fun message => (frame, message) with
  | none => s.fail
  | some (frame, message) =>
    let received := { s with receiveSequence := s.receiveSequence + 1 }
    match received.receiveMessage readable frame.streamId message with
    | (after, some ()) => after
    | (after, none) => after.fail

def RelayState.onSocketFailure (s : RelayState Key) : RelayState Key :=
  if s.socket.isNone then s else s.fail

def RelayState.ready (s : RelayState Key) : Bool :=
  s.decryptKey.isSome && (s.socket.bind fun id => s.sockets[id]?).any Socket.isOpen

def RelayState.step (s : RelayState Key) : RelayLabel Key Cipher → Option (RelayState Key)
  | .dial =>
    if s.ready || s.opening.isSome then none
    else some
      { s with
        sockets := s.sockets ++ [{}], socket := some s.sockets.length,
        opening := some s.sockets.length }
  | .session sessionId => if s.opening.isSome then some { s with sessionId } else none
  | .handshake key => do
    let id ← s.opening
    return { s with
      opening := none, decryptKey := some key, receiveSequence := 0,
      sockets := s.sockets.modify id Socket.listen }
  | .openFails => if s.opening.isSome then some { s.fail with opening := none } else none
  | .request =>
    if s.ready then
      some
        { s with
          nextStreamId := s.nextStreamId + 1
          exchange := { s.exchange with pending := s.exchange.pending ++ [(s.nextStreamId, {})] } }
    else none
  | .giveUp streamId =>
    if (s.exchange.find streamId).isSome then
      some { s with exchange := s.exchange.reject streamId }
    else none
  | .fail => some s.fail
  | .drops id => some { s with sockets := s.sockets.modify id Socket.shut }
  | .event id event => do
    let socket ← s.sockets[id]?
    if socket.listening then
      match event with
      | .message frame => some (s.onMessage decrypt readable frame)
      | .error | .close => some s.onSocketFailure
    else none

/-- What is wrong with a frame that the session accepts. -/
def RelayState.fault (s : RelayState Key) (frame : Frame Cipher) : Option Exchange.Fault :=
  (s.opens decrypt frame).bind fun message =>
    match frame.streamId, message with
    | 0, .keepaliveAck => none
    | _, _ => s.exchange.fault readable frame.streamId message

/-- An event of a socket that another one has superseded does nothing, and a frame that resets or
breaks one response rejects that one alone. -/
def RelayState.Isolated (s s' : RelayState Key) : RelayLabel Key Cipher → Prop
  | .event id event =>
    (∀ present, s.socket = some present → present ≠ id → s' = s) ∧
      (s.socket = some id → ∀ frame, event = .message (some frame) →
        (s.fault decrypt readable frame).isSome = true →
          Exchange.RejectsOnly s.exchange s'.exchange frame.streamId)
  | _ => True

/-- The condition: no event of a superseded socket, and no broken response beside another
request. -/
def RelayState.Clean (s : RelayState Key) : RelayLabel Key Cipher → Prop
  | .event id event =>
    (∀ present, s.socket = some present → present = id) ∧
      (s.socket = some id → ∀ frame, event = .message (some frame) →
        ∀ fault ∈ s.fault decrypt readable frame, fault = .reset ∨ fault = .malformed ∧
            s.exchange.pending.map Prod.fst = [frame.streamId])
  | _ => True

end Relay

/-- A message that is JSON, with the id that it gives. -/
structure ChannelMessage where
  requestId : String
  message : TunnelMessage

structure ChannelState where
  isOpen : Bool := false
  exchange : Exchange String := {}

inductive ChannelLabel
  | opened
  | request (requestId : String)
  | giveUp (requestId : String)
  /-- `close` and `notifyClosed` -/
  | fail
  | receive (raw : Option ChannelMessage)

section Channel

variable (readable : ResponseState → Bool)

def ChannelState.fail (s : ChannelState) : ChannelState := { s with exchange := s.exchange.fail }

/-- `receive`: every exception fails the transport, that of a reset too. -/
def ChannelState.receive (s : ChannelState) : Option ChannelMessage → ChannelState
  | none => s.fail
  | some { requestId, message } =>
    match message with
    | .keepaliveAck => s
    | _ =>
      match s.exchange.find requestId with
      | none => s
      | some state =>
        match state.advance message with
        | .more state => { s with exchange := s.exchange.put requestId state }
        | .complete state =>
          if readable state then { s with exchange := s.exchange.resolve requestId state }
          else { s with exchange := (s.exchange.drop requestId).fail }
        | .reset | .malformed => s.fail

def ChannelState.step (s : ChannelState) : ChannelLabel → Option ChannelState
  | .opened => some { s with isOpen := true }
  | .request requestId =>
    if s.isOpen then
      some
        { s with
          exchange := { s.exchange with pending := s.exchange.pending ++ [(requestId, {})] } }
    else none
  | .giveUp requestId =>
    if (s.exchange.find requestId).isSome then
      some { s with exchange := s.exchange.reject requestId }
    else none
  | .fail => some { s.fail with isOpen := false }
  | .receive raw => if s.isOpen then some (s.receive readable raw) else none

def ChannelState.fault (s : ChannelState) (raw : ChannelMessage) : Option Exchange.Fault :=
  match raw.message with
  | .keepaliveAck => none
  | message => s.exchange.fault readable raw.requestId message

def ChannelState.Isolated (s s' : ChannelState) : ChannelLabel → Prop
  | .receive (some raw) => (s.fault readable raw).isSome = true →
      Exchange.RejectsOnly s.exchange s'.exchange raw.requestId
  | _ => True

/-- The condition: no reset and no broken response beside another request. -/
def ChannelState.Clean (s : ChannelState) : ChannelLabel → Prop
  | .receive (some raw) => ∀ fault ∈ s.fault readable raw,
      fault ≠ .unreadable ∧ s.exchange.pending.map Prod.fst = [raw.requestId]
  | _ => True

end Channel

namespace Exchange

variable {κ : Type} [DecidableEq κ] {e : Exchange κ} {key : κ}

theorem find_drop {other : κ} (different : other ≠ key) :
    (e.drop key).find other = e.find other := by
  unfold find drop
  rw [List.find?_filter]
  congr 2
  funext entry
  by_cases same : entry.1 = other
  · simp [same, different]
  · simp [same]

theorem rejectsOnly_reject : RejectsOnly e (e.reject key) key :=
  ⟨rfl, fun _ different => find_drop different⟩

theorem rejectsOnly_fail : RejectsOnly e e.fail key ↔ e.pending.map Prod.fst = [key] := by
  constructor
  · intro only
    exact List.append_cancel_left only.rejected
  · intro alone
    refine ⟨congrArg (e.rejected ++ ·) alone, fun other different => ?_⟩
    have absent : e.pending.find? (fun entry => entry.1 == other) = none := by
      rw [List.find?_eq_none]
      intro entry member same
      have key_only := List.mem_map_of_mem (f := Prod.fst) member
      rw [alone, List.mem_singleton, beq_iff_eq.mp same] at key_only
      exact different key_only
    unfold find
    rw [absent]
    rfl

theorem not_rejectsOnly_drop : ¬RejectsOnly e (e.drop key).fail key := by
  intro only
  have keys : (e.pending.filter fun entry => entry.1 != key).map Prod.fst = [key] :=
    List.append_cancel_left only.rejected
  have member : key ∈ (e.pending.filter fun entry => entry.1 != key).map Prod.fst :=
    keys ▸ List.mem_cons_self
  obtain ⟨entry, kept, same⟩ := List.mem_map.mp member
  simp [same] at kept

theorem rejectsOnly_afterRelayFault {f : Fault} : RejectsOnly e (e.afterRelayFault key f) key ↔
    f = .reset ∨ f = .malformed ∧ e.pending.map Prod.fst = [key] := by
  cases f with
  | reset => exact ⟨fun _ => .inl rfl, fun _ => rejectsOnly_reject⟩
  | malformed =>
    refine rejectsOnly_fail.trans ⟨fun alone => .inr ⟨rfl, alone⟩, fun either => ?_⟩
    rcases either with reset | ⟨-, alone⟩
    · cases reset
    · exact alone
  | unreadable =>
    refine ⟨fun only => absurd only not_rejectsOnly_drop, fun either => ?_⟩
    rcases either with reset | ⟨malformed, -⟩
    · cases reset
    · cases malformed

theorem rejectsOnly_afterChannelFault {f : Fault} : RejectsOnly e (e.afterChannelFault key f) key ↔
    f ≠ .unreadable ∧ e.pending.map Prod.fst = [key] := by
  cases f with
  | reset | malformed =>
    exact rejectsOnly_fail.trans ⟨fun alone => ⟨by decide, alone⟩, fun both => both.2⟩
  | unreadable =>
    exact ⟨fun only => absurd only not_rejectsOnly_drop, fun both => absurd rfl both.1⟩

end Exchange

section RelaySteps

variable {Key Cipher : Type} {decrypt : Key → Frame Cipher → Option TunnelMessage}
  {readable : ResponseState → Bool} {s : RelayState Key} {frame : Frame Cipher} {present : Nat}

theorem fail_ne (connected : s.socket = some present) {t : RelayState Key} : t.fail ≠ s := by
  intro same
  rw [← same] at connected
  cases connected

theorem receiveMessage_receiveSequence (streamId : Nat) (message : TunnelMessage) :
    (s.receiveMessage readable streamId message).1.receiveSequence = s.receiveSequence := by
  unfold RelayState.receiveMessage
  split
  · rfl
  · split
    · rfl
    · split
      · rfl
      · split <;> rfl
      · rfl
      · rfl

theorem onMessage_ne (connected : s.socket = some present) (raw : Option (Frame Cipher)) :
    s.onMessage decrypt readable raw ≠ s := by
  unfold RelayState.onMessage
  split
  · exact fail_ne connected
  next frame message _ =>
    let counted := { s with receiveSequence := s.receiveSequence + 1 }
    have sequence :
        (counted.receiveMessage readable frame.streamId message).1.receiveSequence =
          s.receiveSequence + 1 := receiveMessage_receiveSequence frame.streamId message
    dsimp only
    split
    next after result =>
      rw [result] at sequence
      intro same
      rw [same] at sequence
      exact absurd sequence (Nat.ne_of_lt (Nat.lt_succ_self _))
    next => exact fail_ne connected

theorem receiveMessage_of_fault {message : TunnelMessage} {streamId : Nat} {f : Exchange.Fault}
    (counts : ¬(streamId = 0 ∧ message = .keepaliveAck))
    (fault : s.exchange.fault readable streamId message = some f) :
    s.receiveMessage readable streamId message =
      match f with
      | .reset => ({ s with exchange := s.exchange.reject streamId }, some ())
      | .malformed => (s, none)
      | .unreadable => ({ s with exchange := s.exchange.drop streamId }, none) := by
  unfold RelayState.receiveMessage
  split
  · exact absurd ⟨rfl, rfl⟩ counts
  · obtain ⟨state, found, progress⟩ := Option.bind_eq_some_iff.mp fault
    rw [found]
    dsimp only
    split at progress
    · cases progress
    next ends =>
      split at progress
      · cases progress
      next unreadable =>
        cases progress
        rw [ends]
        dsimp only
        rw [if_neg unreadable]
    next ends =>
      cases progress
      rw [ends]
    next ends =>
      cases progress
      rw [ends]

theorem onMessage_of_fault {f : Exchange.Fault} (fault : s.fault decrypt readable frame = some f) :
    (s.onMessage decrypt readable (some frame)).exchange =
      s.exchange.afterRelayFault frame.streamId f := by
  obtain ⟨message, opened, fault⟩ := Option.bind_eq_some_iff.mp fault
  have counts : ¬(frame.streamId = 0 ∧ message = .keepaliveAck) := by
    rintro ⟨zero, rfl⟩
    rw [zero] at fault
    cases fault
  have there : s.exchange.fault readable frame.streamId message = some f := by
    split at fault
    · cases fault
    · exact fault
  have received := receiveMessage_of_fault
    (s := { s with receiveSequence := s.receiveSequence + 1 }) counts there
  unfold RelayState.onMessage
  rw [Option.bind_some, opened, Option.map_some]
  dsimp only
  rw [received]
  cases f <;> rfl

theorem relay_isolated_iff {l : RelayLabel Key Cipher} {s' : RelayState Key}
    (taken : s.step decrypt readable l = some s') :
    s.Isolated decrypt readable s' l ↔ s.Clean decrypt readable l := by
  cases l with
  | event id event =>
    simp only [RelayState.step, Option.bind_eq_bind, Option.bind_eq_some_iff] at taken
    obtain ⟨socket, -, taken⟩ := taken
    split at taken
    · refine and_congr (forall₂_congr fun present connected => ?_)
        (forall_congr' fun current => forall₂_congr fun frame isMessage => ?_)
      · have changes : s' ≠ s := by
          cases event with
          | message raw =>
            cases taken
            exact onMessage_ne connected raw
          | error | close =>
            cases taken
            unfold RelayState.onSocketFailure
            rw [connected]
            exact fail_ne connected
        constructor
        · intro same
          by_contra other
          exact changes (same other)
        · exact fun same other => absurd same other
      · subst isMessage
        cases taken
        cases fault : s.fault decrypt readable frame with
        | none => simp
        | some f =>
          simp only [Option.isSome_some, true_imp_iff, Option.mem_def, Option.some.injEq,
            forall_eq']
          rw [onMessage_of_fault fault]
          exact Exchange.rejectsOnly_afterRelayFault
    · cases taken
  | dial | session | handshake | openFails | request | giveUp | fail | drops => exact Iff.rfl

end RelaySteps

section ChannelSteps

variable {readable : ResponseState → Bool} {s : ChannelState} {raw : ChannelMessage}

theorem receive_of_fault {f : Exchange.Fault} (fault : s.fault readable raw = some f) :
    (s.receive readable (some raw)).exchange = s.exchange.afterChannelFault raw.requestId f := by
  obtain ⟨requestId, message⟩ := raw
  by_cases counts : message = .keepaliveAck
  · subst counts
    cases fault
  · have there : s.exchange.fault readable requestId message = some f := by
      cases message with
      | keepaliveAck => exact absurd rfl counts
      | responseStart | responseBody | responseEnd | reset | other => exact fault
    have received : s.receive readable (some { requestId, message }) =
        match s.exchange.find requestId with
        | none => s
        | some state =>
          match state.advance message with
          | .more state => { s with exchange := s.exchange.put requestId state }
          | .complete state =>
            if readable state then { s with exchange := s.exchange.resolve requestId state }
            else { s with exchange := (s.exchange.drop requestId).fail }
          | .reset | .malformed => s.fail := by
      cases message with
      | keepaliveAck => exact absurd rfl counts
      | responseStart | responseBody | responseEnd | reset | other => rfl
    obtain ⟨state, found, progress⟩ := Option.bind_eq_some_iff.mp there
    rw [received, found]
    dsimp only
    split at progress
    · cases progress
    next ends =>
      split at progress
      · cases progress
      next unreadable =>
        cases progress
        rw [ends]
        dsimp only
        rw [if_neg unreadable]
        rfl
    next ends =>
      cases progress
      rw [ends]
      rfl
    next ends =>
      cases progress
      rw [ends]
      rfl

theorem channel_isolated_iff {l : ChannelLabel} {s' : ChannelState}
    (taken : s.step readable l = some s') : s.Isolated readable s' l ↔ s.Clean readable l := by
  cases l with
  | receive raw =>
    cases raw with
    | none => exact Iff.rfl
    | some raw =>
      simp only [ChannelState.step] at taken
      split at taken <;> cases taken
      unfold ChannelState.Isolated ChannelState.Clean
      dsimp only
      cases fault : s.fault readable raw with
      | none => simp
      | some f =>
        simp only [Option.isSome_some, true_imp_iff, Option.mem_def, Option.some.injEq, forall_eq']
        rw [receive_of_fault fault]
        exact Exchange.rejectsOnly_afterChannelFault
  | opened | request | giveUp | fail => exact Iff.rfl

end ChannelSteps

section Both

variable {Key Cipher : Type} (decrypt : Key → Frame Cipher → Option TunnelMessage)
  (readable : ResponseState → Bool)

def connectionStep (s : RelayState Key × ChannelState) :
    RelayLabel Key Cipher ⊕ ChannelLabel → Option (RelayState Key × ChannelState)
  | .inl l => (s.1.step decrypt readable l).map fun relay => (relay, s.2)
  | .inr l => (s.2.step readable l).map fun channel => (s.1, channel)

def ConnectionIsolated (s s' : RelayState Key × ChannelState) :
    RelayLabel Key Cipher ⊕ ChannelLabel → Prop
  | .inl l => s.1.Isolated decrypt readable s'.1 l
  | .inr l => s.2.Isolated readable s'.2 l

def ConnectionClean (s : RelayState Key × ChannelState) :
    RelayLabel Key Cipher ⊕ ChannelLabel → Prop
  | .inl l => s.1.Clean decrypt readable l
  | .inr l => s.2.Clean readable l

/-- The steps of a run isolate sockets and requests exactly when no event comes from a superseded
socket and no response breaks, or is reset on the data channel, beside another request. -/
theorem connections_isolated_iff (labels : List (RelayLabel Key Cipher ⊕ ChannelLabel)) :
    (∀ taken ∈ Transition.accepted (connectionStep decrypt readable) ({}, {}) labels,
        ∀ s', connectionStep decrypt readable taken.1 taken.2 = some s' →
          ConnectionIsolated decrypt readable taken.1 s' taken.2) ↔
      ∀ taken ∈ Transition.accepted (connectionStep decrypt readable) ({}, {}) labels,
        ConnectionClean decrypt readable taken.1 taken.2 := by
  refine forall₂_congr fun taken member => ?_
  obtain ⟨-, next, result⟩ := Transition.accepted_mem_trace member
  have only : (∀ s', connectionStep decrypt readable taken.1 taken.2 = some s' →
      ConnectionIsolated decrypt readable taken.1 s' taken.2) ↔
        ConnectionIsolated decrypt readable taken.1 next taken.2 := by
    rw [result]
    exact ⟨fun all => all next rfl, fun isolated s' same => Option.some.inj same ▸ isolated⟩
  rw [only]
  obtain ⟨⟨relay, channel⟩, l⟩ := taken
  cases l with
  | inl l =>
    obtain ⟨relay', stepped, rfl⟩ := Option.map_eq_some_iff.mp result
    exact relay_isolated_iff stepped
  | inr l =>
    obtain ⟨channel', stepped, rfl⟩ := Option.map_eq_some_iff.mp result
    exact channel_isolated_iff stepped

end Both

section Sample

def plain (_ : Nat) (frame : Frame TunnelMessage) : Option TunnelMessage := some frame.ciphertext

def reconnected : List (RelayLabel Nat TunnelMessage) :=
  [.dial, .session "first", .handshake 1, .fail, .dial, .session "second", .handshake 2, .request]

/-- The close event of the first socket fails the second connection, and a reset of one request of
the data channel rejects the other too. -/
theorem stale_close_fails_connection :
    let relay := Transition.final (RelayState.step plain fun _ => true) {} reconnected
    let closed := Transition.next (RelayState.step plain fun _ => true) relay (.event 0 .close)
    let channel := Transition.final (ChannelState.step fun _ => true) {}
      [.opened, .request "a", .request "b"]
    let raw : ChannelMessage := { requestId := "a", message := .reset }
    relay.socket = some 1 ∧ closed.socket = none ∧ closed.exchange.rejected = [1] ∧
      ¬relay.Isolated plain (fun _ => true) closed (.event 0 .close) ∧
      ¬channel.Isolated (fun _ => true) (channel.receive (fun _ => true) (some raw))
        (.receive (some raw)) := by
  intro relay closed channel raw
  have run : relay.socket = some 1 ∧ closed.socket = none ∧ closed.exchange.rejected = [1] ∧
      (channel.fault (fun _ => true) raw).isSome = true ∧ channel.exchange.rejected = [] ∧
      (channel.receive (fun _ => true) (some raw)).exchange.rejected = ["a", "b"] := by
    decide +kernel
  obtain ⟨present, gone, rejected, faulty, none, both⟩ := run
  refine ⟨present, gone, rejected, fun isolated => ?_, fun isolated => ?_⟩
  · have same := isolated.1 1 present (by decide)
    rw [same, present] at gone
    cases gone
  · have only := (isolated faulty).rejected
    rw [both, none] at only
    revert only
    decide

end Sample

end Knoa.Mobile
