import Knoa.Relay.P2P

/-!
# What the server buffers

The bodies of the requests of a hostile peer: `request_body` extends the body before it checks the
length.
-/
namespace Knoa.P2P
open Relay (decodeBase64url)

variable {env : Env} {kind : Kind} {w w' : World} {fields : List (String × Json)} {raw : Text}
  {requestId other : String} {request : InboundRequest}

/-- What a `request_body` makes of the request that the server holds. -/
def extended (env : Env) (w : World) (raw : Text) : Option InboundRequest :=
  match Json.loads raw with
  | some (.obj fields) =>
    let requestId := env.str (get fields "request_id" (.str ""))
    if env.str (get fields "type" (.str "")) = "request_body" ∧ requestId ≠ "" ∧
        requestId.length ≤ 128 then do
      let request ← w.requests requestId
      let bytes ← decodeBase64url (env.str (get fields "data" (.str ""))).toList
      return { request with body := request.body ++ bytes }
    else none
  | _ => none

/-- Where the requests and the tasks after a message come from. -/
structure Handled (env : Env) (kind : Kind) (w : World) (fields : List (String × Json)) (w' : World) :
    Prop where
  requests : ∀ requestId request, w'.requests requestId = some request →
    w.requests requestId = some request ∨ inboundRequest env kind fields = some request ∨
      ∀ raw, Json.loads raw = some (.obj fields) → extended env w raw = some request
  dispatches : ∀ requestId, ∀ task ∈ w'.dispatches requestId, task ∈ w.dispatches requestId ∨
    (task.request.body.length : Int) = task.request.expectedLength

theorem setRequest_some {given : Option InboundRequest}
    (found : (w.setRequest requestId given).requests other = some request) :
    w.requests other = some request ∨ given = some request := by
  simp only [World.setRequest, Function.update_apply] at found
  split at found
  · exact .inr found
  · exact .inl found

theorem handle_handled : Handled env kind w fields (handle env kind w fields).1 := by
  have kept : Handled env kind w fields w := ⟨fun _ _ found => .inl found, fun _ _ member => .inl member⟩
  have dropped (requestId : String) : Handled env kind w fields (w.setRequest requestId none) :=
    ⟨fun _ _ found => .inl ((setRequest_some found).resolve_right nofun), fun _ _ member => .inl member⟩
  unfold handle
  dsimp only
  split
  · exact ⟨kept.requests, kept.dispatches⟩
  split
  · exact kept
  split
  · exact kept
  rename_i valid
  rw [not_or, Nat.not_lt] at valid
  split
  · split
    · rename_i made _
      exact ⟨fun _ _ found => (setRequest_some found).imp_right fun same => .inl (made.trans same),
        fun _ _ member => .inl member⟩
    · exact kept
  cases held : w.requests (env.str (get fields "request_id" (.str ""))) with
  | none => exact kept
  | some request =>
    dsimp only
    split
    · rename_i typed
      split
      · exact kept
      · rename_i bytes data
        refine ⟨fun _ _ found => (setRequest_some found).imp_right fun same => .inr fun raw read => ?_,
          fun _ _ member => .inl member⟩
        simp only [extended, read, if_pos (And.intro typed valid), held, data]
        exact same
    split
    · split
      · exact dropped _
      · rename_i whole
        refine ⟨(dropped _).requests, fun other task member => ?_⟩
        simp only [World.setTasks, Function.update_apply] at member
        split at member
        · rename_i here
          rcases List.mem_append.mp member with old | new
          · exact .inl (here ▸ old)
          · cases List.mem_singleton.mp new
            exact .inr (not_not.mp whole)
        · exact .inl member
    split
    · exact dropped _
    · exact kept

theorem serverReceive_handled : ∃ fields, Handled env kind w fields (serverReceive env kind w raw) ∧
    (Json.loads raw = some (.obj fields) ∨
      (serverReceive env kind w raw).requests = w.requests) := by
  unfold serverReceive
  split
  · exact ⟨[], ⟨fun _ _ found => .inl found, fun _ _ member => .inl member⟩, .inr rfl⟩
  · rename_i fields read
    have handled := @handle_handled env kind w fields
    split
    · rename_i called
      rw [called] at handled
      exact ⟨fields, handled, .inl read⟩
    · rename_i called
      rw [called] at handled
      exact ⟨fields, ⟨handled.requests, handled.dispatches⟩, .inl read⟩
  · exact ⟨[], ⟨fun _ _ found => .inl found, fun _ _ member => .inl member⟩, .inr rfl⟩

theorem serverReceive_requests
    (found : (serverReceive env kind w raw).requests requestId = some request) :
    w.requests requestId = some request ∨
      (request.body = [] ∧ 0 ≤ request.expectedLength ∧ request.expectedLength ≤ maxBodyBytes) ∨
      extended env w raw = some request := by
  obtain ⟨fields, handled, read | same⟩ := @serverReceive_handled env kind w raw
  · refine (handled.requests requestId request found).imp_right (Or.imp (fun made => ?_) (· raw read))
    unfold inboundRequest at made
    dsimp only at made
    split at made
    · split at made <;> cases made
      rename_i fits
      simp only [not_or, Int.not_lt] at fits
      exact ⟨rfl, fits.2.2.2.2.2.1, fits.2.2.2.2.2.2.1⟩
    · cases made
  · exact .inl (same ▸ found)

theorem extended_held (body : extended env w raw = some request) :
    ∃ requestId held, w.requests requestId = some held ∧
      request.expectedLength = held.expectedLength ∧
        (serverReceive env kind w raw).requests requestId = some request := by
  unfold extended at body
  split at body
  · rename_i fields read
    dsimp only at body
    split at body
    · rename_i taken
      obtain ⟨typed, some_id, short⟩ := taken
      obtain ⟨held, here, body⟩ := Option.bind_eq_some_iff.mp body
      obtain ⟨bytes, data, body⟩ := Option.bind_eq_some_iff.mp body
      cases body
      refine ⟨_, held, here, rfl, ?_⟩
      have long : ¬128 < (env.str (get fields "request_id" (.str ""))).length := by omega
      simp only [serverReceive, read, handle, typed, String.reduceEq, if_false, if_true, some_id,
        long, or_self, here, data]
      split
      · rename_i called
        obtain ⟨rfl, -⟩ := Prod.mk.inj called
        simp [World.setRequest]
      · rename_i called
        obtain ⟨rfl, -⟩ := Prod.mk.inj called
        simp [World.setRequest]
    · cases body
  · cases body

/-- What the server has after the messages of a peer. -/
def received (env : Env) (kind : Kind) (messages : List Text) : World :=
  messages.foldl (serverReceive env kind) {}

theorem received_snoc (messages : List Text) :
    received env kind (messages ++ [raw]) = serverReceive env kind (received env kind messages) raw := by
  simp [received]

theorem received_declared (messages : List Text)
    (held : (received env kind messages).requests requestId = some request) :
    request.expectedLength ≤ maxBodyBytes := by
  induction messages using List.reverseRecOn generalizing requestId request with
  | nil => cases held
  | append_singleton messages raw ih =>
    rw [received_snoc] at held
    rcases serverReceive_requests held with before | ⟨-, -, most⟩ | body
    · exact ih before
    · exact most
    · obtain ⟨_, held, here, same, -⟩ := @extended_held env kind _ raw request body
      rw [same]
      exact ih here

theorem received_dispatched (messages : List Text) :
    ∀ task ∈ (received env kind messages).dispatches requestId,
      (task.request.body.length : Int) = task.request.expectedLength := by
  induction messages using List.reverseRecOn with
  | nil => exact nofun
  | append_singleton messages raw ih =>
    rw [received_snoc]
    obtain ⟨fields, handled, -⟩ := @serverReceive_handled env kind (received env kind messages) raw
    intro task member
    exact (handled.dispatches requestId task member).elim (ih task) id

/-- The buffers are within the declared lengths. -/
def Bounded (w : World) : Prop :=
  ∀ requestId request, w.requests requestId = some request →
    (request.body.length : Int) ≤ request.expectedLength ∧ request.body.length ≤ maxBodyBytes

/-- The buffers of a peer are bounded as long as none of its messages overfills a body; a body of
another length than the declared one is never dispatched. -/
theorem buffers_bounded_iff (env : Env) (kind : Kind) (messages : List Text) :
    (∀ sent, sent <+: messages → Bounded (received env kind sent) ∧
      ∀ requestId, ∀ task ∈ (received env kind sent).dispatches requestId,
        (task.request.body.length : Int) = task.request.expectedLength) ↔
      ∀ sent raw, sent ++ [raw] <+: messages → ∀ request,
        extended env (received env kind sent) raw = some request →
          (request.body.length : Int) ≤ request.expectedLength := by
  constructor
  · intro bounded sent raw before request body
    obtain ⟨requestId, _, -, -, held⟩ := @extended_held env kind _ raw request body
    exact ((bounded _ before).1 requestId request (by rw [received_snoc]; exact held)).1
  · intro fits sent before
    refine ⟨?_, fun _ => received_dispatched sent⟩
    induction sent using List.reverseRecOn with
    | nil => exact nofun
    | append_singleton sent raw ih =>
      intro requestId request held
      have most := received_declared _ held
      have within : (request.body.length : Int) ≤ request.expectedLength := by
        rw [received_snoc] at held
        rcases serverReceive_requests held with earlier | ⟨empty, low, -⟩ | body
        · exact (ih ((List.prefix_append _ _).trans before) requestId request earlier).1
        · simpa [empty] using low
        · exact fits sent raw before request body
      exact ⟨within, by omega⟩

/-- The case of a string is left alone. -/
def plainEnv : Env := ⟨fun _ => "", fun _ => none, fun _ => none, id, id⟩

/-- A request that declares an empty body, and a byte of its body. -/
def overfull : List Text :=
  [message [("type", .str "request_start"), ("request_id", .str "r"), ("method", .str "GET"),
      ("path", .str "/"), ("body_length", .int 0), ("headers", .obj [])],
    message [("type", .str "request_body"), ("request_id", .str "r"), ("data", .str "AA")]]

theorem overfull_unbounded : ¬ ∀ (env : Env) (kind : Kind) (messages sent : List Text),
    sent <+: messages → Bounded (received env kind sent) ∧
      ∀ requestId, ∀ task ∈ (received env kind sent).dispatches requestId,
        (task.request.body.length : Int) = task.request.expectedLength := by
  intro claim
  have buffered : ((received plainEnv .app overfull).requests "r").map
      (fun request => (request.body.length, request.expectedLength)) = some (1, 0) := by
    decide +kernel
  obtain ⟨request, held, same⟩ := Option.map_eq_some_iff.mp buffered
  have within := ((claim plainEnv .app overfull overfull (List.prefix_refl _)).1 "r" request held).1
  obtain ⟨length, declared⟩ := Prod.mk.inj same
  omega

end Knoa.P2P
