import Knoa.Library.JsonRead
import Knoa.Library.Transition
import Knoa.Relay.Protocol
import Mathlib.Logic.Function.Basic

/-!
# The peer to peer tunnel

Requests and responses of HTTP over one data channel, which is reliable and in order. A step runs
from one suspension of a coroutine to the next.
-/
namespace Knoa.P2P
open Relay

abbrev Bytes := List UInt8
abbrev Text := List Char

def chunkBytes : Nat := 48 * 1024
def maxBodyBytes : Nat := 64 * 1024 * 1024

/-- The conversions of the language: of values that are not yet of the type asked for, and of the
case of a string. -/
structure Env where
  textOf : Json → String
  intOf : Json → Option Int
  dictOf : Json → Option (List (String × Json))
  upper : String → String
  lower : String → String

section Values
variable (env : Env)

def Env.str : Json → String
  | .str s => s
  | other => env.textOf other

def Env.int : Json → Option Int
  | .int n => some n
  | other => env.intOf other

def Env.dict : Json → Option (List (String × Json))
  | .obj fields => some fields
  | other => env.dictOf other

end Values

/-- `message.get(key, default)` -/
def get (fields : List (String × Json)) (key : String) (default : Json) : Json :=
  (fields.lookup key).getD default

def setHeader (name value : String) : List (String × String) → List (String × String)
  | [] => [(name, value)]
  | (n, v) :: headers =>
    if n = name then (name, value) :: headers else (n, v) :: setHeader name value headers

def headersFrom (pairs : List (String × String)) : List (String × String) :=
  pairs.foldl (fun headers pair => setHeader pair.1 pair.2 headers) []

def headersJson (headers : List (String × String)) : Json :=
  .obj (headers.map fun pair => (pair.1, .str pair.2))

def forwardedRequestHeaders : List String :=
  ["accept", "authorization", "content-type", "if-none-match", "last-event-id", "range",
    "x-knoa-transport"]

def forwardedResponseHeaders : List String :=
  ["accept-ranges", "cache-control", "content-disposition", "content-length", "content-range",
    "content-type", "etag", "x-content-type-options", "x-knoa-sha256"]

def message (fields : List (String × Json)) : Text := Json.dumps (Json.compact false) (.obj fields)

def chunks (body : Bytes) : List Bytes :=
  if h : body = [] then []
  else body.take chunkBytes :: chunks (body.drop chunkBytes)
termination_by body.length
decreasing_by
  have some_left : 0 < body.length := List.length_pos_iff.mpr h
  simp only [List.length_drop, chunkBytes]
  omega

structure Request where
  method : String
  path : String
  headers : List (String × String)
  body : Bytes

structure P2PResponse where
  status : Int
  headers : List (String × String)
  body : Bytes
  deriving DecidableEq

/-- What the application answers. -/
structure AppResponse where
  status : Int
  headers : List (String × String)
  content : Bytes

def bodyField (bytes : Bytes) : Json := .str (String.ofList (encodeBase64url bytes))

section Messages
variable (env : Env) (requestId : String)

def requestStartFields (request : Request) : List (String × Json) :=
  [("type", .str "request_start"), ("request_id", .str requestId),
    ("method", .str (env.upper request.method)), ("path", .str request.path),
    ("headers", headersJson request.headers), ("body_length", .int request.body.length)]

def requestBodyFields (bytes : Bytes) : List (String × Json) :=
  [("type", .str "request_body"), ("request_id", .str requestId), ("data", bodyField bytes)]

def requestEndFields : List (String × Json) :=
  [("type", .str "request_end"), ("request_id", .str requestId)]

def resetFields : List (String × Json) := [("type", .str "reset"), ("request_id", .str requestId)]

def responseHeaders (response : AppResponse) : List (String × String) :=
  headersFrom (response.headers.filterMap fun (name, value) =>
    if env.lower name ∈ forwardedResponseHeaders then some (env.lower name, value) else none)

def responseStartFields (response : AppResponse) : List (String × Json) :=
  [("type", .str "response_start"), ("request_id", .str requestId),
    ("status", .int response.status), ("headers", headersJson (responseHeaders env response)),
    ("body_length", .int response.content.length)]

def responseBodyFields (bytes : Bytes) : List (String × Json) :=
  [("type", .str "response_body"), ("request_id", .str requestId), ("data", bodyField bytes)]

def responseEndFields : List (String × Json) :=
  [("type", .str "response_end"), ("request_id", .str requestId)]

/-- What the client sends for a request. -/
def requestMessages (request : Request) : List Text :=
  message (requestStartFields env requestId request) ::
    ((chunks request.body).map fun chunk => message (requestBodyFields requestId chunk)) ++
    [message (requestEndFields requestId)]

/-- What the server sends for a response. -/
def responseMessages (response : AppResponse) : List Text :=
  message (responseStartFields env requestId response) ::
    ((chunks response.content).map fun chunk => message (responseBodyFields requestId chunk)) ++
    [message (responseEndFields requestId)]

end Messages

inductive Future
  | waiting
  | result (response : P2PResponse)
  | failed
  deriving DecidableEq

def Future.done : Future → Bool
  | .waiting => false
  | _ => true

/-- A call of `P2PClient.request` with its entry of `_pending`. -/
structure Call where
  request : Request
  outbox : List Text
  /-- The entry stands in `_pending`. -/
  pending : Bool := true
  status : Int := 0
  headers : List (String × String) := []
  expected : Int := -1
  body : Bytes := []
  future : Future := .waiting
  /-- What the call has returned; nothing inside where it raised. -/
  outcome : Option (Option P2PResponse) := none

structure InboundRequest where
  method : String
  path : String
  headers : List (String × String)
  expectedLength : Int
  body : Bytes := []

/-- A task of `P2PServer._dispatch`. -/
structure Dispatch where
  request : InboundRequest
  serving : Bool := true
  answer : Option AppResponse := none
  outbox : List Text := []
  /-- What is sent is the reset after a failure. -/
  resetting : Bool := false

inductive Kind
  | app
  | resource
  deriving DecidableEq, Repr

structure World where
  calls : String → Option Call := fun _ => none
  toServer : List Text := []
  requests : String → Option InboundRequest := fun _ => none
  /-- What the receiver of the server tries to send while it holds its lock. -/
  reply : List Text := []
  /-- The tasks of the server, by the request they are named after. -/
  dispatches : String → List Dispatch := fun _ => []
  toClient : List Text := []

def World.setCall (w : World) (requestId : String) (call : Call) : World :=
  { w with calls := Function.update w.calls requestId (some call) }

def World.setRequest (w : World) (requestId : String) (request : Option InboundRequest) : World :=
  { w with requests := Function.update w.requests requestId request }

def World.setTasks (w : World) (requestId : String) (tasks : List Dispatch) : World :=
  { w with dispatches := Function.update w.dispatches requestId tasks }

section Server
variable (env : Env) (kind : Kind)

def methods : List String := ["GET", "POST", "PUT", "PATCH", "DELETE", "HEAD"]

def contains (text part : String) : Bool :=
  text.toList.tails.any fun rest => part.toList.isPrefixOf rest

/-- The entry that a `request_start` makes, where it is not rejected. -/
def inboundRequest (fields : List (String × Json)) : Option InboundRequest :=
  let method := env.upper (env.str (get fields "method" (.str "")))
  let path := env.str (get fields "path" (.str ""))
  match env.int (get fields "body_length" (.int (-1))), get fields "headers" (.obj []) with
  | some expectedLength, .obj rawHeaders =>
    if method ∉ methods ∨ ¬path.startsWith "/" ∨ path.startsWith "//" ∨
        contains path "://" = true ∨ 4096 < path.length ∨ expectedLength < 0 ∨
        (maxBodyBytes : Int) < expectedLength ∨
        kind = .resource ∧ ¬path.startsWith "/v1/resource-invocations/" then none
    else
      some {
        method
        path
        headers := headersFrom (rawHeaders.filterMap fun (key, value) =>
          if env.lower key ∈ forwardedRequestHeaders ∧ (env.str value).length ≤ 8192 then
            some (env.lower key, env.str value)
          else none)
        expectedLength }
  | _, _ => none

variable (w : World)

def handle (fields : List (String × Json)) : World × Bool :=
  let requestId := env.str (get fields "request_id" (.str ""))
  let messageType := env.str (get fields "type" (.str ""))
  if messageType = "keepalive" then
    ({ w with reply := [message [("type", .str "keepalive_ack")],
      message (resetFields requestId)] }, true)
  else if messageType = "keepalive_ack" then (w, true)
  else if requestId = "" ∨ 128 < requestId.length then (w, false)
  else if messageType = "request_start" then
    match inboundRequest env kind fields, w.requests requestId with
    | some request, none => (w.setRequest requestId (some request), true)
    | _, _ => (w, false)
  else
    match w.requests requestId with
    | none => (w, false)
    | some request =>
      if messageType = "request_body" then
        match decodeBase64url (env.str (get fields "data" (.str ""))).toList with
        | none => (w, false)
        | some bytes =>
          let request := { request with body := request.body ++ bytes }
          (w.setRequest requestId (some request),
            decide (request.body.length ≤ request.expectedLength ∧
              request.body.length ≤ maxBodyBytes))
      else if messageType = "request_end" then
        let w := w.setRequest requestId none
        if (request.body.length : Int) ≠ request.expectedLength then (w, false)
        else
          (w.setTasks requestId (w.dispatches requestId ++ [{ request }]), true)
      else if messageType = "reset" then
        (w.setRequest requestId none, true)
      else (w, false)

/-- `P2PServer._receive`. A message that is no object also stops the handler of the failure. -/
def serverReceive (raw : Text) : World :=
  match Json.loads raw with
  | none => { w with reply := [message (resetFields "")] }
  | some (.obj fields) =>
    match handle env kind w fields with
    | (w, true) => w
    | (w, false) =>
      { w with reply := [message (resetFields (env.str (get fields "request_id" (.str ""))))] }
  | some _ => w

/-- The application answers, or it raises. -/
def answered (requestId : String) (task : Dispatch) : Option AppResponse → Dispatch
  | some response =>
    { task with
      serving := false, answer := some response, outbox := responseMessages env requestId response }
  | none =>
    { task with serving := false, outbox := [message (resetFields requestId)], resetting := true }

def sendFailed (requestId : String) (task : Dispatch) : Dispatch :=
  if task.resetting = true then { task with outbox := [] }
  else { task with outbox := [message (resetFields requestId)], resetting := true }

end Server

section Client
variable (env : Env)

def Call.fail (call : Call) : Call :=
  if call.future.done = true then call else { call with future := .failed }

def Call.handle (call : Call) (fields : List (String × Json)) : Call × Bool :=
  let messageType := env.str (get fields "type" (.str ""))
  if messageType = "response_start" then
    match (fields.lookup "status").bind env.int with
    | none => (call, false)
    | some status =>
      let call := { call with status }
      match env.dict (get fields "headers" (.obj [])) with
      | none => (call, false)
      | some headers =>
        let call := { call with
          headers := headersFrom (headers.map fun (key, value) => (key, env.str value)) }
        match (fields.lookup "body_length").bind env.int with
        | none => (call, false)
        | some expected =>
          ({ call with expected }, decide (100 ≤ status ∧ status ≤ 599 ∧ 0 ≤ expected ∧
            expected ≤ (maxBodyBytes : Int)))
  else if messageType = "response_body" then
    match decodeBase64url (env.str (get fields "data" (.str ""))).toList with
    | none => (call, false)
    | some bytes =>
      let call := { call with body := call.body ++ bytes }
      (call, decide (call.body.length ≤ maxBodyBytes))
  else if messageType = "response_end" then
    if (call.body.length : Int) ≠ call.expected then (call, false)
    else if call.future.done = true then (call, true)
    else
      ({ call with future := .result { status := call.status, headers := call.headers,
                                       body := call.body } }, true)
  else (call, false)

/-- `P2PClient._receive` -/
def clientReceive (w : World) (raw : Text) : World :=
  match Json.loads raw with
  | some (.obj fields) =>
    let requestId := env.str (get fields "request_id" (.str ""))
    match w.calls requestId with
    | none => w
    | some call =>
      if call.pending = false then w
      else
        match call.handle env fields with
        | (call, true) => w.setCall requestId call
        | (call, false) => w.setCall requestId call.fail
  | _ => w

/-- `_fail`: no call is waiting any more. -/
def failAll (w : World) : World :=
  { w with
    calls := fun requestId => (w.calls requestId).map fun call =>
      if call.pending = true then { call.fail with pending := false } else call }

end Client

inductive Act
  | request (token : String) (request : Request)
  | send (requestId : String)
  /-- A send raises, the time is over, or the task of the call is cancelled. -/
  | abandon (requestId : String)
  | resume (requestId : String)
  | serverReceive
  | serverReply (sent : Bool)
  | answer (requestId : String) (i : Nat) (response : Option AppResponse)
  | respond (requestId : String) (i : Nat) (sent : Bool)
  | clientReceive
  /-- The connection is closed at the client. -/
  | fail

/-- The identity of a request; its token is drawn at random and comes up once. -/
def identity (token : String) : String := "p2p_" ++ token

def step (env : Env) (kind : Kind) (w : World) : Act → Option World
  | .request token request =>
    let requestId := identity token
    if token.length ≠ 24 ∨ (w.calls requestId).isSome = true ∨
        ¬(request.headers.map Prod.fst).Nodup ∨ maxBodyBytes < request.body.length then none
    else
      some (w.setCall requestId { request, outbox := requestMessages env requestId request })
  | .send requestId =>
    match w.calls requestId with
    | none => none
    | some call =>
      match call.outcome, call.outbox with
      | none, raw :: outbox =>
        some { w.setCall requestId { call with outbox } with toServer := w.toServer ++ [raw] }
      | _, _ => none
  | .abandon requestId =>
    match w.calls requestId with
    | none => none
    | some call =>
      if call.outcome.isSome = true then none
      else
        some (w.setCall requestId { call with pending := false, outcome := some none })
  | .resume requestId =>
    match w.calls requestId with
    | none => none
    | some call =>
      if call.outcome.isSome = true ∨ call.outbox ≠ [] then none
      else
        match call.future with
        | .waiting => none
        | .failed => some (w.setCall requestId { call with pending := false, outcome := some none })
        | .result response =>
          some (w.setCall requestId { call with pending := false, outcome := some (some response) })
  | .serverReceive =>
    match w.reply, w.toServer with
    | [], raw :: toServer => some (serverReceive env kind { w with toServer } raw)
    | _, _ => none
  | .serverReply sent =>
    match w.reply with
    | [] => none
    | raw :: reply =>
      if sent = true then some { w with reply := [], toClient := w.toClient ++ [raw] }
      else some { w with reply }
  | .answer requestId i response =>
    match (w.dispatches requestId)[i]? with
    | none => none
    | some task =>
      if task.serving = false then none
      else
        some (w.setTasks requestId
          ((w.dispatches requestId).set i (answered env requestId task response)))
  | .respond requestId i sent =>
    match (w.dispatches requestId)[i]? with
    | none => none
    | some task =>
      match task.outbox with
      | [] => none
      | raw :: outbox =>
        if sent = true then
          let w := w.setTasks requestId ((w.dispatches requestId).set i { task with outbox })
          some { w with toClient := w.toClient ++ [raw] }
        else
          some (w.setTasks requestId ((w.dispatches requestId).set i (sendFailed requestId task)))
  | .clientReceive =>
    match w.toClient with
    | [] => none
    | raw :: toClient => some (clientReceive env { w with toClient } raw)
  | .fail => some (failAll w)

end Knoa.P2P
