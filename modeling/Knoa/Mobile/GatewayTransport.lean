import Mathlib.Data.List.Basic

/-!
# The transports of the mobile gateway

`ConnectionResolverTransport.requestInner`: one request that is tried over one
transport after the other until one answers. What the resolver finds at its checks, and what becomes
of each attempt, is drawn.
-/
namespace Knoa.Mobile

inductive Transport
  | mdns
  | p2p
  | relay
  | direct
  deriving DecidableEq

/-- What comes back, in milliseconds after the last frame. -/
inductive Answer
  | response (after : Nat)
  | failure (after : Nat)
  | silence

/-- What the network and the Node do with an attempt. -/
structure Fate where
  /-- `connect` succeeds. -/
  connects : Bool := true
  sends : Nat
  /-- What has been sent reaches the Node. -/
  arrives : Bool
  answer : Answer

structure Attempt where
  transport : Transport
  /-- The Node has executed the request. -/
  executed : Bool
  /-- The attempt returns a response. -/
  answered : Bool
  deriving DecidableEq

def Answer.within (milliseconds : Nat) : Answer → Bool
  | .response after => decide (after < milliseconds)
  | .failure _ => false
  | .silence => false

/-- `request_start`, the `request_body` frames and `request_end` -/
def frames (chunkBytes bodyLength : Nat) : Nat := (bodyLength + (chunkBytes - 1)) / chunkBytes + 2

def framedRequest (transport : Transport) (chunkBytes bodyLength : Nat) (fate : Fate) : Attempt :=
  let sent := fate.connects && decide (frames chunkBytes bodyLength ≤ fate.sends)
  { transport, executed := sent && fate.arrives,
    answered := sent && fate.arrives && fate.answer.within 120000 }

/-- `WebRtcGatewayTransport.request`, once the channel is ready -/
def p2pRequest (bodyLength : Nat) (fate : Fate) : Attempt :=
  framedRequest .p2p (48 * 1024) bodyLength fate

/-- `RelayTransport.request`, which connects first -/
def relayRequest (bodyLength : Nat) (fate : Fate) : Attempt :=
  framedRequest .relay (192 * 1024) bodyLength fate

/-- `withConnectTimeout` over `fetch`: the timeout is over the response, not the connection. -/
def fetchRequest (transport : Transport) (milliseconds : Nat) (fate : Fate) : Attempt where
  transport := transport
  executed := fate.arrives
  answered := fate.arrives && fate.answer.within milliseconds

def lanDiscoveryConnectTimeout : Nat := 900

/-- What a request finds: `bindingPointsAtCurrentHub`, the transport that is ready first, and the
rest of the fields at the time they are looked at. -/
structure Schedule where
  bodyLength : Nat := 0
  /-- `binding.directGatewayUrl` -/
  directGatewayUrl : Bool := false
  lanGatewayUrl : Bool := false
  lan : Fate
  p2pReady : Bool := false
  p2p : Fate
  hubEndpoint : Bool := false
  /-- `waitForReadyTransport`, where it is still ready -/
  winner : Option Transport := none
  first : Fate
  relay : Fate
  relayPreferred : Bool := false
  preferred : Fate
  privateUrl : Bool := false
  lanFoundLater : Bool := false
  direct : Fate
  fallback : Fate

/-- A `try` block that returns the response, and what comes after its `catch`. -/
def tryThen (attempt : Attempt) (rest : List Attempt) : List Attempt :=
  if attempt.answered then [attempt] else attempt :: rest

def winnerAttempt (s : Schedule) : Option Attempt :=
  match s.winner with
  | some .mdns => some (fetchRequest .mdns lanDiscoveryConnectTimeout s.first)
  | some .p2p => some (p2pRequest s.bodyLength s.first)
  | some .relay => some (relayRequest s.bodyLength s.first)
  | _ => none

def directAttempt (s : Schedule) : Attempt :=
  fetchRequest (if s.lanFoundLater then .mdns else .direct)
    (if s.privateUrl && !s.lanFoundLater then 1200 else 4500) s.direct

/-- `requestInner`: the attempts that it makes. -/
def requestInner (s : Schedule) : List Attempt :=
  let viaDirect := tryThen (directAttempt s) [relayRequest s.bodyLength s.fallback]
  let viaPreferred :=
    if s.relayPreferred then tryThen (relayRequest s.bodyLength s.preferred) viaDirect
    else viaDirect
  let viaRelay := [relayRequest s.bodyLength s.relay]
  let viaHub :=
    match winnerAttempt s with
    | some attempt => tryThen attempt viaRelay
    | none => viaRelay
  let further := if !s.directGatewayUrl && s.hubEndpoint then viaHub else viaPreferred
  let viaP2P := if s.p2pReady then tryThen (p2pRequest s.bodyLength s.p2p) further else further
  if !s.directGatewayUrl && s.lanGatewayUrl then
    tryThen (fetchRequest .mdns lanDiscoveryConnectTimeout s.lan) viaP2P
  else viaP2P

def executions (attempts : List Attempt) : Nat := attempts.countP fun attempt => attempt.executed

/-- How a transport sends a request: `fetch` with a time limit, or frames of a channel. -/
inductive Way
  | fetch (milliseconds : Nat)
  | framed (chunkBytes bodyLength : Nat)

/-- A transport of the chain, and what would become of an attempt over it. -/
structure Link where
  transport : Transport
  way : Way
  fate : Fate

namespace Link

def attempt (link : Link) : Attempt :=
  match link.way with
  | .fetch milliseconds => fetchRequest link.transport milliseconds link.fate
  | .framed chunkBytes bodyLength => framedRequest link.transport chunkBytes bodyLength link.fate

/-- The whole request reaches the Node. -/
def Delivers (link : Link) : Prop :=
  link.fate.arrives = true ∧
    match link.way with
    | .fetch _ => True
    | .framed chunkBytes bodyLength =>
      link.fate.connects = true ∧ frames chunkBytes bodyLength ≤ link.fate.sends

def limit (link : Link) : Nat :=
  match link.way with
  | .fetch milliseconds => milliseconds
  | .framed _ _ => 120000

/-- A response comes back, before the time limit of the transport. -/
def InTime (link : Link) : Prop := ∃ after < link.limit, link.fate.answer = .response after

end Link

def p2pLink (bodyLength : Nat) (fate : Fate) : Link :=
  { transport := .p2p, way := .framed (48 * 1024) bodyLength, fate }

def relayLink (bodyLength : Nat) (fate : Fate) : Link :=
  { transport := .relay, way := .framed (192 * 1024) bodyLength, fate }

def lanLink (fate : Fate) : Link :=
  { transport := .mdns, way := .fetch lanDiscoveryConnectTimeout, fate }

def winnerLink (s : Schedule) : List Link :=
  match s.winner with
  | some .mdns => [lanLink s.first]
  | some .p2p => [p2pLink s.bodyLength s.first]
  | some .relay => [relayLink s.bodyLength s.first]
  | _ => []

def directLink (s : Schedule) : Link where
  transport := if s.lanFoundLater then .mdns else .direct
  way := .fetch (if s.privateUrl && !s.lanFoundLater then 1200 else 4500)
  fate := s.direct

/-- The transports a request falls through, whatever its method. -/
def chain (s : Schedule) : List Link :=
  (if !s.directGatewayUrl && s.lanGatewayUrl then [lanLink s.lan] else []) ++
  (if s.p2pReady then [p2pLink s.bodyLength s.p2p] else []) ++
  if !s.directGatewayUrl && s.hubEndpoint then
    winnerLink s ++ [relayLink s.bodyLength s.relay]
  else
    (if s.relayPreferred then [relayLink s.bodyLength s.preferred] else []) ++
      [directLink s, relayLink s.bodyLength s.fallback]

/-- The condition: the first transport that brings the whole request to the Node brings back a
response in time, or no transport after it brings the request to the Node. -/
def HeardInTime : List Link → Prop
  | [] => True
  | link :: rest =>
    (link.Delivers → link.InTime ∨ ∀ later ∈ rest, ¬later.Delivers) ∧
      (¬link.Delivers → HeardInTime rest)

def upToAnswer : List Attempt → List Attempt
  | [] => []
  | attempt :: rest => tryThen attempt (upToAnswer rest)

theorem tryThen_nil (attempt : Attempt) : tryThen attempt [] = [attempt] := by
  unfold tryThen
  split <;> rfl

theorem requestInner_eq (s : Schedule) :
    requestInner s = upToAnswer ((chain s).map Link.attempt) := by
  have winner : (winnerLink s).map Link.attempt = (winnerAttempt s).toList := by
    unfold winnerLink winnerAttempt
    split <;> rfl
  have direct : (directLink s).attempt = directAttempt s := rfl
  have relay : ∀ fate, (relayLink s.bodyLength fate).attempt = relayRequest s.bodyLength fate :=
    fun _ => rfl
  have p2p : ∀ fate, (p2pLink s.bodyLength fate).attempt = p2pRequest s.bodyLength fate :=
    fun _ => rfl
  have lan : ∀ fate, (lanLink fate).attempt =
      fetchRequest .mdns lanDiscoveryConnectTimeout fate := fun _ => rfl
  unfold requestInner chain
  cases found : winnerAttempt s <;> split_ifs <;>
    simp only [List.map_append, List.map_cons, List.map_nil, winner, found, direct, relay, p2p, lan,
      Option.toList, List.nil_append, List.cons_append, upToAnswer, tryThen_nil]

variable {link : Link} {links : List Link}

theorem Answer.within_iff {answer : Answer} {milliseconds : Nat} :
    answer.within milliseconds = true ↔ ∃ after < milliseconds, answer = .response after := by
  cases answer <;> simp [Answer.within]

theorem executed_iff : link.attempt.executed = true ↔ link.Delivers := by
  obtain ⟨transport, way, fate⟩ := link
  cases way <;> simp [Link.attempt, fetchRequest, framedRequest, Link.Delivers, and_comm]

theorem answered_iff : link.attempt.answered = true ↔ link.Delivers ∧ link.InTime := by
  obtain ⟨transport, way, fate⟩ := link
  cases way <;> simp [Link.attempt, fetchRequest, framedRequest, Link.Delivers, Link.InTime,
    Link.limit, Answer.within_iff, and_comm]

theorem executions_cons (attempt : Attempt) (rest : List Attempt) :
    executions (attempt :: rest) = executions rest + if attempt.executed then 1 else 0 :=
  List.countP_cons

theorem unexecuted_iff : executions (upToAnswer (links.map Link.attempt)) = 0 ↔
    ∀ link ∈ links, ¬link.Delivers := by
  induction links with
  | nil => simp [upToAnswer, executions]
  | cons link rest ih =>
    rw [List.map_cons, upToAnswer, tryThen, List.forall_mem_cons, ← ih, ← executed_iff]
    by_cases executes : link.attempt.executed = true
    · split <;> simp [executions_cons, executes]
    · have unanswered : ¬link.attempt.answered = true := fun answered =>
        executes (executed_iff.mpr (answered_iff.mp answered).1)
      simp [executions_cons, executes, unanswered]

theorem executions_le_one_iff : executions (upToAnswer (links.map Link.attempt)) ≤ 1 ↔
    HeardInTime links := by
  induction links with
  | nil => exact ⟨fun _ => trivial, fun _ => Nat.zero_le 1⟩
  | cons link rest ih =>
    rw [List.map_cons, upToAnswer, tryThen, HeardInTime]
    by_cases delivers : link.Delivers
    · have executes := executed_iff.mpr delivers
      by_cases inTime : link.InTime
      · rw [if_pos (answered_iff.mpr ⟨delivers, inTime⟩), executions_cons]
        simp [executes, executions, delivers, inTime]
      · rw [if_neg fun answered => inTime (answered_iff.mp answered).2, executions_cons,
          if_pos executes, Nat.succ_le_succ_iff, Nat.le_zero, unexecuted_iff]
        simp [delivers, inTime]
    · rw [if_neg fun answered => delivers (answered_iff.mp answered).1, executions_cons,
        if_neg fun executes => delivers (executed_iff.mp executes), Nat.add_zero, ih]
      simp [delivers]

/-- One request is executed once at most exactly when the first transport that delivers it brings
the response back in time, or is the last that delivers it. -/
theorem request_executed_once_iff (s : Schedule) :
    executions (requestInner s) ≤ 1 ↔ HeardInTime (chain s) := by
  rw [requestInner_eq]
  exact executions_le_one_iff

section Sample

def refused : Fate where
  connects := false
  sends := 0
  arrives := false
  answer := .silence

def slowLan : Schedule where
  lanGatewayUrl := true
  lan := { sends := 1, arrives := true, answer := .response 1000 }
  p2p := refused
  hubEndpoint := true
  first := refused
  relay := { sends := 2, arrives := true, answer := .response 50 }
  preferred := refused
  direct := refused
  fallback := refused

/-- The LAN attempt is given up after 900 ms, and the Relay sends the request again. -/
theorem slow_response_repeated : requestInner slowLan =
      [{ transport := .mdns, executed := true, answered := false },
        { transport := .relay, executed := true, answered := true }] ∧
      ¬executions (requestInner slowLan) ≤ 1 := by
  decide

end Sample

end Knoa.Mobile
