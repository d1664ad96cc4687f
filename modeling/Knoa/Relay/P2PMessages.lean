import Knoa.Library.JsonRoundTrip
import Knoa.Relay.P2P

/-!
# The messages of the tunnel

Each message is read back as it was written, and what either side does with it.
-/
namespace Knoa.P2P
open Relay

variable {env : Env} {kind : Kind} {requestId : String} {w : World}

theorem setHeader_keys (name value : String) (headers : List (String × String)) :
    (setHeader name value headers).map Prod.fst =
      if name ∈ headers.map Prod.fst then headers.map Prod.fst
      else headers.map Prod.fst ++ [name] := by
  induction headers with
  | nil => rfl
  | cons header headers ih =>
    obtain ⟨n, v⟩ := header
    rw [setHeader]
    split
    · next same =>
        subst same
        simp
    · next apart =>
        have other : ¬name = n := fun same => apart same.symm
        rw [List.map_cons, List.map_cons, ih]
        simp only [List.mem_cons, other, false_or]
        split <;> rfl

theorem setHeader_fresh {name value : String} {headers : List (String × String)}
    (fresh : name ∉ headers.map Prod.fst) :
    setHeader name value headers = headers ++ [(name, value)] := by
  induction headers with
  | nil => rfl
  | cons header headers ih =>
    obtain ⟨n, v⟩ := header
    rw [List.map_cons, List.mem_cons, not_or] at fresh
    rw [setHeader, if_neg (Ne.symm fresh.1), ih fresh.2, List.cons_append]

theorem foldl_setHeader_nodup (pairs headers : List (String × String))
    (unique : (headers.map Prod.fst).Nodup) :
    ((pairs.foldl (fun headers pair => setHeader pair.1 pair.2 headers) headers).map
      Prod.fst).Nodup := by
  induction pairs generalizing headers with
  | nil => exact unique
  | cons pair pairs ih =>
    apply ih
    rw [setHeader_keys]
    split
    · exact unique
    · next fresh =>
        rw [List.nodup_append]
        refine ⟨unique, List.nodup_singleton _, ?_⟩
        rintro key member _ last rfl
        exact fresh (List.mem_singleton.mp last ▸ member)

theorem headersFrom_nodup (pairs : List (String × String)) :
    ((headersFrom pairs).map Prod.fst).Nodup :=
  foldl_setHeader_nodup pairs [] List.nodup_nil

theorem foldl_setHeader_unique (pairs headers : List (String × String))
    (unique : ((headers ++ pairs).map Prod.fst).Nodup) :
    pairs.foldl (fun headers pair => setHeader pair.1 pair.2 headers) headers =
      headers ++ pairs := by
  induction pairs generalizing headers with
  | nil => rw [List.foldl_nil, List.append_nil]
  | cons pair pairs ih =>
    have fresh : pair.1 ∉ headers.map Prod.fst := by
      intro member
      rw [List.map_append, List.nodup_append] at unique
      exact unique.2.2 pair.1 member pair.1 List.mem_cons_self rfl
    have moved : headers ++ pair :: pairs = headers ++ [pair] ++ pairs := by simp
    rw [moved] at unique
    rw [List.foldl_cons, setHeader_fresh fresh, ih _ unique, moved]

theorem headersFrom_unique {pairs : List (String × String)}
    (unique : (pairs.map Prod.fst).Nodup) : headersFrom pairs = pairs :=
  foldl_setHeader_unique pairs [] unique

theorem chunks_flatten (body : Bytes) : (chunks body).flatten = body := by
  induction body using chunks.induct with
  | case1 => rw [chunks]; rfl
  | case2 body nonempty ih =>
    rw [chunks, dif_neg nonempty, List.flatten_cons, ih, List.take_append_drop]

theorem decode_bodyField (bytes : Bytes) :
    decodeBase64url (env.str (bodyField bytes)).toList = some bytes := by
  rw [bodyField, Env.str, String.toList_ofList]
  exact Relay.decodeBase64url_encode bytes

theorem loads_message {fields : List (String × Json)} (keyed : Json.Keyed (.obj fields))
    (readable : Json.Readable (.obj fields)) : Json.loads (message fields) = some (.obj fields) := by
  have read := @Json.loads_dumps _ (Json.legible_compact false) _ keyed readable [] (by simp)
  rw [List.append_nil] at read
  exact read

theorem headersJson_keyed {headers : List (String × String)}
    (unique : (headers.map Prod.fst).Nodup) : Json.Keyed (headersJson headers) := by
  refine ⟨?_, Json.keyedFields_iff.mpr ?_⟩
  · rw [List.map_map]
    exact unique
  · intro field member
    obtain ⟨pair, -, rfl⟩ := List.mem_map.mp member
    trivial

theorem headersJson_readable (headers : List (String × String)) :
    Json.Readable (headersJson headers) := by
  refine Json.readableFields_iff.mpr ?_
  intro field member
  obtain ⟨pair, -, rfl⟩ := List.mem_map.mp member
  trivial

/-- A message of the client. -/
inductive Up
  | start (request : Request)
  | body (bytes : Bytes)
  | finish

/-- A message of the server. -/
inductive Down
  | start (response : AppResponse)
  | body (bytes : Bytes)
  | finish
  | reset

def Up.fields (env : Env) (requestId : String) : Up → List (String × Json)
  | .start request => requestStartFields env requestId request
  | .body bytes => requestBodyFields requestId bytes
  | .finish => requestEndFields requestId

def Down.fields (env : Env) (requestId : String) : Down → List (String × Json)
  | .start response => responseStartFields env requestId response
  | .body bytes => responseBodyFields requestId bytes
  | .finish => responseEndFields requestId
  | .reset => resetFields requestId

def Up.text (env : Env) (requestId : String) (m : Up) : Text := message (m.fields env requestId)

def Down.text (env : Env) (requestId : String) (m : Down) : Text := message (m.fields env requestId)

def ups (request : Request) : List Up :=
  .start request :: (chunks request.body).map .body ++ [.finish]

def downs (response : AppResponse) : List Down :=
  .start response :: (chunks response.content).map .body ++ [.finish]

theorem requestMessages_eq (env : Env) (requestId : String) (request : Request) :
    requestMessages env requestId request = (ups request).map (Up.text env requestId) := by
  simp [requestMessages, ups, Up.text, Up.fields]

theorem responseMessages_eq (env : Env) (requestId : String) (response : AppResponse) :
    responseMessages env requestId response = (downs response).map (Down.text env requestId) := by
  simp [responseMessages, downs, Down.text, Down.fields]

theorem Up.loads_text (m : Up)
    (unique : ∀ request, m = .start request → (request.headers.map Prod.fst).Nodup) :
    Json.loads (m.text env requestId) = some (.obj (m.fields env requestId)) := by
  apply loads_message
  · cases m with
    | start request =>
      refine ⟨by simp [Up.fields, requestStartFields], ?_⟩
      simp only [Up.fields, requestStartFields, Json.KeyedFields, Json.Keyed, true_and]
      exact ⟨headersJson_keyed (unique request rfl), trivial⟩
    | body bytes => simp [Up.fields, requestBodyFields, bodyField, Json.Keyed, Json.KeyedFields]
    | finish => simp [Up.fields, requestEndFields, Json.Keyed, Json.KeyedFields]
  · cases m with
    | start request =>
      simp only [Up.fields, requestStartFields, Json.Readable, Json.ReadableFields, true_and,
        and_true]
      exact headersJson_readable request.headers
    | body bytes =>
      simp [Up.fields, requestBodyFields, bodyField, Json.Readable, Json.ReadableFields]
    | finish => simp [Up.fields, requestEndFields, Json.Readable, Json.ReadableFields]

theorem Down.loads_text (m : Down) :
    Json.loads (m.text env requestId) = some (.obj (m.fields env requestId)) := by
  apply loads_message
  · cases m with
    | start response =>
      refine ⟨by simp [Down.fields, responseStartFields], ?_⟩
      simp only [Down.fields, responseStartFields, Json.KeyedFields, Json.Keyed, true_and]
      exact ⟨headersJson_keyed (headersFrom_nodup _), trivial⟩
    | body bytes => simp [Down.fields, responseBodyFields, bodyField, Json.Keyed, Json.KeyedFields]
    | finish => simp [Down.fields, responseEndFields, Json.Keyed, Json.KeyedFields]
    | reset => simp [Down.fields, resetFields, Json.Keyed, Json.KeyedFields]
  · cases m with
    | start response =>
      simp only [Down.fields, responseStartFields, Json.Readable, Json.ReadableFields, true_and,
        and_true]
      exact headersJson_readable _
    | body bytes =>
      simp [Down.fields, responseBodyFields, bodyField, Json.Readable, Json.ReadableFields]
    | finish => simp [Down.fields, responseEndFields, Json.Readable, Json.ReadableFields]
    | reset => simp [Down.fields, resetFields, Json.Readable, Json.ReadableFields]

theorem Up.requestId_fields (m : Up) :
    env.str (get (m.fields env requestId) "request_id" (.str "")) = requestId := by
  cases m <;> rfl

theorem Down.requestId_fields (m : Down) :
    env.str (get (m.fields env requestId) "request_id" (.str "")) = requestId := by
  cases m <;> rfl

def World.refuse (w : World) (requestId : String) : World :=
  { w with reply := [message (resetFields requestId)] }

theorem serverReceive_fields {raw : Text} {fields : List (String × Json)}
    (read : Json.loads raw = some (.obj fields))
    (named : env.str (get fields "request_id" (.str "")) = requestId) :
    serverReceive env kind w raw =
      if (handle env kind w fields).2 = true then (handle env kind w fields).1
      else (handle env kind w fields).1.refuse requestId := by
  rw [serverReceive, read]
  simp only [named]
  cases handle env kind w fields with
  | mk after ok => cases ok <;> rfl

section Handle
variable (nonempty : requestId ≠ "") (short : requestId.length ≤ 128)
include nonempty short

theorem handle_start (request : Request) :
    handle env kind w (requestStartFields env requestId request) =
      match inboundRequest env kind (requestStartFields env requestId request),
        w.requests requestId with
      | some inbound, none => (w.setRequest requestId (some inbound), true)
      | _, _ => (w, false) := by
  have named : env.str (get (requestStartFields env requestId request) "request_id" (.str "")) =
      requestId := rfl
  have typed : env.str (get (requestStartFields env requestId request) "type" (.str "")) =
      "request_start" := rfl
  have long : ¬128 < requestId.length := by omega
  cases inbound : inboundRequest env kind (requestStartFields env requestId request) with
  | none =>
    simp only [handle, named, typed, String.reduceEq, if_false, if_true, nonempty, long, or_self,
      inbound]
  | some given =>
    cases held : w.requests requestId with
    | none | some other =>
      simp only [handle, named, typed, String.reduceEq, if_false, if_true, nonempty, long,
        or_self, inbound, held]

theorem handle_body (bytes : Bytes) : handle env kind w (requestBodyFields requestId bytes) =
      match w.requests requestId with
      | none => (w, false)
      | some inbound =>
        (w.setRequest requestId (some { inbound with body := inbound.body ++ bytes }),
          decide (((inbound.body ++ bytes).length : Int) ≤ inbound.expectedLength ∧
            (inbound.body ++ bytes).length ≤ maxBodyBytes)) := by
  have named : env.str (get (requestBodyFields requestId bytes) "request_id" (.str "")) =
      requestId := rfl
  have typed : env.str (get (requestBodyFields requestId bytes) "type" (.str "")) =
      "request_body" := rfl
  have data : get (requestBodyFields requestId bytes) "data" (.str "") = bodyField bytes := rfl
  have long : ¬128 < requestId.length := by omega
  simp only [handle, named, typed, String.reduceEq, if_false, if_true, nonempty, long, or_self]
  cases w.requests requestId with
  | none => rfl
  | some inbound => simp only [data, decode_bodyField]

theorem handle_finish : handle env kind w (requestEndFields requestId) =
      match w.requests requestId with
      | none => (w, false)
      | some inbound =>
        if (inbound.body.length : Int) ≠ inbound.expectedLength then
          (w.setRequest requestId none, false)
        else
          ((w.setRequest requestId none).setTasks requestId
            (w.dispatches requestId ++ [{ request := inbound }]), true) := by
  have named : env.str (get (requestEndFields requestId) "request_id" (.str "")) = requestId := rfl
  have typed : env.str (get (requestEndFields requestId) "type" (.str "")) = "request_end" := rfl
  have long : ¬128 < requestId.length := by omega
  simp only [handle, named, typed, String.reduceEq, if_false, if_true, nonempty, long, or_self]
  cases w.requests requestId <;> rfl

end Handle

def Call.receive (env : Env) (requestId : String) (call : Call) (m : Down) : Call :=
  let (after, ok) := call.handle env (m.fields env requestId)
  if ok = true then after else after.fail

theorem clientReceive_text (m : Down) : clientReceive env w (m.text env requestId) =
      match w.calls requestId with
      | none => w
      | some call =>
        if call.pending = false then w
        else w.setCall requestId (call.receive env requestId m) := by
  rw [clientReceive, m.loads_text]
  simp only [m.requestId_fields]
  cases w.calls requestId with
  | none => rfl
  | some call =>
    simp only
    split
    · rfl
    · rw [Call.receive]
      cases call.handle env (m.fields env requestId) with
      | mk after ok => cases ok <;> rfl

theorem Call.handle_start (call : Call) (response : AppResponse) :
    call.handle env (responseStartFields env requestId response) =
      ({ call with
          status := response.status, headers := responseHeaders env response,
          expected := response.content.length },
        decide (100 ≤ response.status ∧ response.status ≤ 599 ∧
          response.content.length ≤ maxBodyBytes)) := by
  have typed : env.str (get (responseStartFields env requestId response) "type" (.str "")) =
      "response_start" := rfl
  have status : ((responseStartFields env requestId response).lookup "status").bind env.int =
      some response.status := rfl
  have headers : env.dict (get (responseStartFields env requestId response) "headers" (.obj [])) =
      some ((responseHeaders env response).map fun pair => (pair.1, .str pair.2)) := rfl
  have length : ((responseStartFields env requestId response).lookup "body_length").bind env.int =
      some (response.content.length : Int) := rfl
  have strings : ((responseHeaders env response).map fun pair => (pair.1, Json.str pair.2)).map
      (fun field => (field.1, env.str field.2)) = responseHeaders env response := by
    rw [List.map_map]
    exact List.map_id _
  have kept : headersFrom (((responseHeaders env response).map
      fun pair => (pair.1, Json.str pair.2)).map fun field => (field.1, env.str field.2)) =
      responseHeaders env response := by
    rw [strings]
    exact headersFrom_unique (headersFrom_nodup _)
  simp only [Call.handle, typed, status, headers, length, kept, if_true]
  have nonneg : (0 : Int) ≤ response.content.length := Int.natCast_nonneg _
  simp only [nonneg, true_and, Int.ofNat_le]

theorem Call.handle_body (call : Call) (bytes : Bytes) :
    call.handle env (responseBodyFields requestId bytes) =
      ({ call with body := call.body ++ bytes },
        decide ((call.body ++ bytes).length ≤ maxBodyBytes)) := by
  have typed : env.str (get (responseBodyFields requestId bytes) "type" (.str "")) =
      "response_body" := rfl
  have data : get (responseBodyFields requestId bytes) "data" (.str "") = bodyField bytes := rfl
  simp only [Call.handle, typed, data, decode_bodyField]
  simp

theorem Call.handle_finish (call : Call) : call.handle env (responseEndFields requestId) =
      if (call.body.length : Int) ≠ call.expected then (call, false)
      else if call.future.done = true then (call, true)
      else
        ({ call with future := .result { status := call.status, headers := call.headers,
                                         body := call.body } }, true) := by
  have typed : env.str (get (responseEndFields requestId) "type" (.str "")) = "response_end" := rfl
  simp only [Call.handle, typed]
  simp

theorem Call.handle_reset (call : Call) :
    call.handle env (resetFields requestId) = (call, false) := by
  have typed : env.str (get (resetFields requestId) "type" (.str "")) = "reset" := rfl
  simp only [Call.handle, typed]
  simp

end Knoa.P2P
