import Knoa.Relay.P2PMessages

/-!
# How far a request and its response have come

What the server holds of a request and what is still to come, and the same for its response at the
client. Under `strict` nothing has gone wrong.
-/
namespace Knoa.P2P

variable {env : Env} {kind : Kind} {requestId : String} {w : World} {strict : Prop}
  {request : Request} {call : Call}

def Entered (env : Env) (kind : Kind) (requestId : String) (request : Request)
    (inbound : InboundRequest) : Prop :=
  inboundRequest env kind (requestStartFields env requestId request) =
    some { inbound with body := [] }

/-- What the server knows of a request, and the messages of it that have not arrived. -/
inductive ServerStage (env : Env) (kind : Kind) (requestId : String) (strict : Prop)
    (request : Request) : Option InboundRequest → List Dispatch → List Up → Prop
  | unseen : ServerStage env kind requestId strict request none [] (ups request)
  | receiving (inbound : InboundRequest) (missing : List Bytes)
      (entered : Entered env kind requestId request inbound)
      (whole : inbound.body ++ missing.flatten = request.body) :
      ServerStage env kind requestId strict request (some inbound) []
        (missing.map .body ++ [.finish])
  | refused (coming : List Up) (begun : ∀ m ∈ coming, ∀ r, m ≠ .start r) (disturbed : ¬strict) :
      ServerStage env kind requestId strict request none [] coming
  | served (task : Dispatch) (entered : Entered env kind requestId request task.request)
      (whole : task.request.body = request.body) :
      ServerStage env kind requestId strict request none [task] []

theorem inboundRequest_bounds {inbound : InboundRequest}
    (h : inboundRequest env kind (requestStartFields env requestId request) = some inbound) :
    inbound.expectedLength = request.body.length ∧ request.body.length ≤ maxBodyBytes ∧
      inbound.body = [] ∧ inbound.path = request.path ∧
      inbound.method = env.upper (env.upper request.method) := by
  have length : env.int (get (requestStartFields env requestId request) "body_length"
      (.int (-1))) = some (request.body.length : Int) := rfl
  have headers : get (requestStartFields env requestId request) "headers" (.obj []) =
      headersJson request.headers := rfl
  have path : env.str (get (requestStartFields env requestId request) "path" (.str "")) =
      request.path := rfl
  have method : env.str (get (requestStartFields env requestId request) "method" (.str "")) =
      env.upper request.method := rfl
  simp only [inboundRequest, length, headers, path, method, headersJson] at h
  split at h
  · cases h
  · next fits =>
      cases h
      simp only [not_or, Int.not_lt, Int.ofNat_le] at fits
      exact ⟨rfl, fits.2.2.2.2.2.2.1, rfl, rfl, rfl⟩

theorem Entered.length {inbound : InboundRequest}
    (entered : Entered env kind requestId request inbound) :
    inbound.expectedLength = request.body.length ∧ request.body.length ≤ maxBodyBytes :=
  ⟨(inboundRequest_bounds entered).1, (inboundRequest_bounds entered).2.1⟩

structure Received (env : Env) (kind : Kind) (requestId : String) (strict : Prop)
    (request : Request) (coming : List Up) (w w' : World) : Prop where
  calls : w'.calls = w.calls
  toServer : w'.toServer = w.toServer
  toClient : w'.toClient = w.toClient
  reply : w'.reply = w.reply ∨ ¬strict ∧ w'.reply = [message (resetFields requestId)]
  others : ∀ other, other ≠ requestId → w'.requests other = w.requests other ∧
    w'.dispatches other = w.dispatches other
  stage : ServerStage env kind requestId strict request (w'.requests requestId)
    (w'.dispatches requestId) coming
  tasks : w'.dispatches requestId = w.dispatches requestId ∨
    w.dispatches requestId = [] ∧ ∃ inbound, w'.dispatches requestId = [{ request := inbound }]

section Receive
variable {coming : List Up}

theorem Received.refuse {after : World}
    (received : Received env kind requestId strict request coming w after) (disturbed : ¬strict) :
    Received env kind requestId strict request coming w (after.refuse requestId) :=
  { received with reply := .inr ⟨disturbed, rfl⟩ }

theorem received_entry {inbound : Option InboundRequest}
    (stage : ServerStage env kind requestId strict request inbound (w.dispatches requestId)
      coming) : Received env kind requestId strict request coming w
      (w.setRequest requestId inbound) where
  calls := rfl
  toServer := rfl
  toClient := rfl
  reply := .inl rfl
  others := fun other apart => ⟨Function.update_of_ne apart _ _, rfl⟩
  stage := by
    simp only [World.setRequest, Function.update_self]
    exact stage
  tasks := .inl rfl

theorem received_same (stage : ServerStage env kind requestId strict request
      (w.requests requestId) (w.dispatches requestId) coming) :
    Received env kind requestId strict request coming w w where
  calls := rfl
  toServer := rfl
  toClient := rfl
  reply := .inl rfl
  others := fun _ _ => ⟨rfl, rfl⟩
  stage := stage
  tasks := .inl rfl

theorem received_task {inbound : InboundRequest} (none_yet : w.dispatches requestId = [])
    (stage : ServerStage env kind requestId strict request none [{ request := inbound }] coming) :
    Received env kind requestId strict request coming w
      ((w.setRequest requestId none).setTasks requestId
        (w.dispatches requestId ++ [{ request := inbound }])) where
  calls := rfl
  toServer := rfl
  toClient := rfl
  reply := .inl rfl
  others := fun other apart => ⟨Function.update_of_ne apart _ _, Function.update_of_ne apart _ _⟩
  stage := by
    simp only [World.setRequest, World.setTasks, Function.update_self, none_yet, List.nil_append]
    exact stage
  tasks := by
    refine .inr ⟨none_yet, inbound, ?_⟩
    simp only [World.setTasks, Function.update_self, none_yet, List.nil_append]

theorem ServerStage.receive {m : Up} (nonempty : requestId ≠ "") (short : requestId.length ≤ 128)
    (unique : (request.headers.map Prod.fst).Nodup) (admitted : strict →
      (inboundRequest env kind (requestStartFields env requestId request)).isSome = true)
    (stage : ServerStage env kind requestId strict request (w.requests requestId)
      (w.dispatches requestId) (m :: coming)) : Received env kind requestId strict request coming w
      (serverReceive env kind w (m.text env requestId)) := by
  generalize known : w.requests requestId = entry at stage
  generalize started : w.dispatches requestId = tasks at stage
  generalize ahead : m :: coming = messages at stage
  cases stage with
  | unseen =>
    rw [ups, List.cons_append, List.cons.injEq] at ahead
    obtain ⟨rfl, rfl⟩ := ahead
    rw [serverReceive_fields (Up.loads_text _ (by rintro r same; cases same; exact unique))
      (Up.requestId_fields _), Up.fields, handle_start nonempty short, known]
    cases result : inboundRequest env kind (requestStartFields env requestId request) with
    | none =>
      have disturbed : ¬strict := by
        intro calm
        have found := admitted calm
        rw [result] at found
        cases found
      refine (received_same ?_).refuse disturbed
      rw [known, started]
      refine .refused _ ?_ disturbed
      intro m member r
      rcases List.mem_append.mp member with chunk | last
      · obtain ⟨bytes, -, rfl⟩ := List.mem_map.mp chunk
        rintro ⟨⟩
      · rw [List.mem_singleton.mp last]
        rintro ⟨⟩
    | some inbound =>
      have empty := (inboundRequest_bounds result).2.2.1
      refine received_entry ?_
      rw [started]
      refine .receiving inbound (chunks request.body) ?_ ?_
      · rw [Entered, result, ← empty]
      · rw [empty, chunks_flatten, List.nil_append]
  | receiving inbound missing entered whole =>
    obtain ⟨length, small⟩ := entered.length
    cases missing with
    | nil =>
      rw [List.map_nil, List.nil_append, List.cons.injEq] at ahead
      obtain ⟨rfl, rfl⟩ := ahead
      rw [List.flatten_nil, List.append_nil] at whole
      have complete : ¬((inbound.body.length : Int) ≠ inbound.expectedLength) := by
        rw [whole, length, not_not]
      rw [serverReceive_fields (Up.loads_text _ (by rintro r same; cases same))
        (Up.requestId_fields _), Up.fields, handle_finish nonempty short, known]
      simp only [complete, if_false, if_true]
      exact received_task started (.served _ entered whole)
    | cons bytes missing =>
      rw [List.map_cons, List.cons_append, List.cons.injEq] at ahead
      obtain ⟨rfl, rfl⟩ := ahead
      rw [List.flatten_cons, ← List.append_assoc] at whole
      have within : (inbound.body ++ bytes).length ≤ request.body.length := by
        have parts := congrArg List.length whole
        rw [List.length_append] at parts
        omega
      have ok : decide (((inbound.body ++ bytes).length : Int) ≤ inbound.expectedLength ∧
          (inbound.body ++ bytes).length ≤ maxBodyBytes) = true := by
        rw [decide_eq_true_eq, length, Int.ofNat_le]
        exact ⟨within, within.trans small⟩
      rw [serverReceive_fields (Up.loads_text _ (by rintro r same; cases same))
        (Up.requestId_fields _), Up.fields, handle_body nonempty short, known]
      simp only [ok, if_true]
      refine received_entry ?_
      rw [started]
      exact .receiving _ missing entered whole
  | refused coming begun disturbed =>
    subst ahead
    have later : ∀ m ∈ coming, ∀ r, m ≠ .start r := fun m member =>
      begun m (List.mem_cons_of_mem _ member)
    have stays : Received env kind requestId strict request coming w (w.refuse requestId) := by
      refine (received_same ?_).refuse disturbed
      rw [known, started]
      exact .refused coming later disturbed
    have read := @Up.loads_text env requestId m fun r same =>
      absurd same (begun m List.mem_cons_self r)
    rw [serverReceive_fields read (Up.requestId_fields _)]
    cases m with
    | start r => exact absurd rfl (begun _ List.mem_cons_self r)
    | body bytes =>
      rw [Up.fields, handle_body nonempty short, known]
      exact stays
    | finish =>
      rw [Up.fields, handle_finish nonempty short, known]
      exact stays
  | served task entered whole => cases ahead

end Receive

/-- What a call returns for an answer of the application. -/
def forwarded (env : Env) (answer : AppResponse) : P2PResponse where
  status := answer.status
  headers := responseHeaders env answer
  body := answer.content

/-- The client accepts the answer. -/
def Fits (answer : AppResponse) : Prop :=
  100 ≤ answer.status ∧ answer.status ≤ 599 ∧ answer.content.length ≤ maxBodyBytes

def Future.NoResult (future : Future) : Prop := ∀ response, future ≠ .result response

/-- What the client knows of an answer, and the messages of it that have not arrived. -/
inductive ClientStage (env : Env) (strict : Prop) (answer : AppResponse) (call : Call) :
    List Down → Prop
  | awaiting (empty : call.body = []) (pending : call.future.NoResult) :
      ClientStage env strict answer call (downs answer)
  | receiving (missing : List Bytes) (status : call.status = answer.status)
      (headers : call.headers = responseHeaders env answer)
      (expected : call.expected = answer.content.length)
      (whole : call.body ++ missing.flatten = answer.content) (pending : call.future.NoResult) :
      ClientStage env strict answer call (missing.map .body ++ [.finish])
  | finished (done : strict → ∃ response, call.future = .result response) :
      ClientStage env strict answer call []

@[simp] theorem Call.fail_frame (call : Call) : call.fail.request = call.request ∧
    call.fail.outbox = call.outbox ∧ call.fail.pending = call.pending ∧
    call.fail.outcome = call.outcome ∧ call.fail.body = call.body ∧
    call.fail.status = call.status ∧ call.fail.headers = call.headers ∧
    call.fail.expected = call.expected := by
  unfold Call.fail
  split <;> exact ⟨rfl, rfl, rfl, rfl, rfl, rfl, rfl, rfl⟩

theorem Call.fail_result (call : Call) {response : P2PResponse} :
    call.fail.future = .result response ↔ call.future = .result response := by
  unfold Call.fail
  cases future : call.future with
  | waiting => simp [Future.done]
  | result r | failed => simp [Future.done, future]

theorem Call.fail_noResult (pending : call.future.NoResult) : call.fail.future.NoResult :=
  fun response same => pending response (call.fail_result.mp same)

theorem ClientStage.fail {answer : AppResponse} {coming : List Down}
    (stage : ClientStage env strict answer call coming) :
    ClientStage env strict answer call.fail coming := by
  obtain ⟨-, -, -, -, body, status, headers, expected⟩ := call.fail_frame
  cases stage with
  | awaiting empty pending => exact .awaiting (body.trans empty) (Call.fail_noResult pending)
  | receiving missing sameStatus sameHeaders sameExpected whole pending =>
    refine .receiving missing (status.trans sameStatus) (headers.trans sameHeaders)
      (expected.trans sameExpected) ?_ (Call.fail_noResult pending)
    rw [body]
    exact whole
  | finished done =>
    refine .finished fun calm => ?_
    obtain ⟨response, future⟩ := done calm
    exact ⟨response, call.fail_result.mpr future⟩

structure SameCall (call after : Call) : Prop where
  request : after.request = call.request
  outbox : after.outbox = call.outbox
  pending : after.pending = call.pending
  outcome : after.outcome = call.outcome
  done : ∀ response, call.future = .result response → after.future = .result response

theorem SameCall.fail {after : Call} (same : SameCall call after) : SameCall call after.fail := by
  obtain ⟨request, outbox, pending, outcome, -⟩ := after.fail_frame
  exact ⟨request.trans same.request, outbox.trans same.outbox, pending.trans same.pending,
    outcome.trans same.outcome, fun response future => after.fail_result.mpr
      (same.done response future)⟩

theorem Call.receive_same (m : Down) : SameCall call (call.receive env requestId m) := by
  have keeps : ∀ (after : Call) (ok : Bool), SameCall call after →
      SameCall call (if ok = true then after else after.fail) := by
    intro after ok same
    split
    · exact same
    · exact same.fail
  unfold Call.receive
  cases m with
  | start response => exact keeps _ _ ⟨rfl, rfl, rfl, rfl, fun _ => id⟩
  | body bytes =>
    simp only [Down.fields, Call.handle_body]
    exact keeps _ _ ⟨rfl, rfl, rfl, rfl, fun _ => id⟩
  | finish =>
    simp only [Down.fields, Call.handle_finish]
    split
    · exact keeps _ _ ⟨rfl, rfl, rfl, rfl, fun _ => id⟩
    · split
      · exact keeps _ _ ⟨rfl, rfl, rfl, rfl, fun _ => id⟩
      · next waiting =>
          refine keeps _ _ ⟨rfl, rfl, rfl, rfl, fun response future => ?_⟩
          rw [future] at waiting
          exact absurd rfl waiting
  | reset => exact keeps _ _ ⟨rfl, rfl, rfl, rfl, fun _ => id⟩

theorem Call.receive_reset : call.receive env requestId .reset = call.fail := by
  simp only [Call.receive, Down.fields, Call.handle_reset, Bool.false_eq_true, if_false]

structure Taken (env : Env) (strict : Prop) (answer : AppResponse) (call after : Call)
    (coming : List Down) : Prop where
  stage : ClientStage env strict answer after coming
  result : ∀ response, after.future = .result response →
    call.future = .result response ∨ response = forwarded env answer
  clear : strict → after.future ≠ .failed

theorem Taken.of_fail {answer : AppResponse} {after : Call} {coming : List Down}
    (stage : ClientStage env strict answer after coming) (same : after.future = call.future)
    (disturbed : ¬strict) : Taken env strict answer call after.fail coming where
  stage := stage.fail
  result := by
    intro response future
    rw [Call.fail_result, same] at future
    exact .inl future
  clear := fun calm => absurd calm disturbed

theorem ClientStage.receive {answer : AppResponse} {m : Down} {coming : List Down}
    (fits : strict → Fits answer) (clear : strict → call.future ≠ .failed)
    (stage : ClientStage env strict answer call (m :: coming)) :
    Taken env strict answer call (call.receive env requestId m) coming := by
  generalize ahead : m :: coming = messages at stage
  cases stage with
  | awaiting empty pending =>
    rw [downs, List.cons_append, List.cons.injEq] at ahead
    obtain ⟨rfl, rfl⟩ := ahead
    simp only [Call.receive, Down.fields, Call.handle_start]
    have begun : ClientStage env strict answer
        { call with
          status := answer.status, headers := responseHeaders env answer,
          expected := answer.content.length }
        ((chunks answer.content).map .body ++ [.finish]) := by
      refine .receiving _ rfl rfl rfl ?_ pending
      rw [chunks_flatten]
      exact congrArg (· ++ answer.content) empty
    split
    · exact ⟨begun, fun response future => .inl future, clear⟩
    · next unfit =>
        refine Taken.of_fail begun rfl fun calm => ?_
        obtain ⟨above, below, small⟩ := fits calm
        exact unfit (decide_eq_true ⟨above, below, small⟩)
  | receiving missing status headers expected whole pending =>
    cases missing with
    | nil =>
      rw [List.map_nil, List.nil_append, List.cons.injEq] at ahead
      obtain ⟨rfl, rfl⟩ := ahead
      rw [List.flatten_nil, List.append_nil] at whole
      have complete : ¬((call.body.length : Int) ≠ call.expected) := by
        rw [whole, expected, not_not]
      simp only [Call.receive, Down.fields, Call.handle_finish, complete, if_false]
      cases future : call.future with
      | waiting =>
        refine ⟨.finished fun _ => ⟨_, rfl⟩, ?_, fun _ => by rintro ⟨⟩⟩
        intro response same
        rw [← Future.result.inj same, forwarded, status, headers, whole]
        exact .inr rfl
      | result response => exact absurd future (pending response)
      | failed =>
        simp only [Future.done, if_true]
        refine ⟨.finished fun calm => absurd future (clear calm), ?_, clear⟩
        intro response same
        rw [future] at same
        cases same
    | cons bytes missing =>
      rw [List.map_cons, List.cons_append, List.cons.injEq] at ahead
      obtain ⟨rfl, rfl⟩ := ahead
      rw [List.flatten_cons, ← List.append_assoc] at whole
      simp only [Call.receive, Down.fields, Call.handle_body]
      have grown : ClientStage env strict answer { call with body := call.body ++ bytes }
          (missing.map .body ++ [.finish]) :=
        .receiving missing status headers expected whole pending
      split
      · exact ⟨grown, fun response future => .inl future, clear⟩
      · next large =>
          refine Taken.of_fail grown rfl fun calm => ?_
          have parts := congrArg List.length whole
          rw [List.length_append] at parts
          have bound := (fits calm).2.2
          exact large (decide_eq_true (by omega))
  | finished done => cases ahead

end Knoa.P2P
