import Knoa.Library.Parties
import Knoa.Relay.P2PStages

/-!
# A call and its request at the server

The messages on the channel of one request, in their order, tie what its call knows to what the
server holds of it, whatever the other requests do.
-/
namespace Knoa.P2P

variable {env : Env} {kind : Kind} {requestId : String} {w w' : World} {call : Call}

/-- The messages that carry one identity. -/
def only {α : Type} (requestId : String) (messages : List (String × α)) : List α :=
  messages.filterMap fun m => if m.1 = requestId then some m.2 else none

section Only
variable {α : Type} {messages : List (String × α)} {m : α}

@[simp] theorem only_cons_self :
    only requestId ((requestId, m) :: messages) = m :: only requestId messages := by
  simp [only]

theorem only_cons_other {other : String} (apart : other ≠ requestId) :
    only requestId ((other, m) :: messages) = only requestId messages := by
  simp [only, apart]

@[simp] theorem only_append_self :
    only requestId (messages ++ [(requestId, m)]) = only requestId messages ++ [m] := by
  simp [only, List.filterMap_append]

theorem only_append_other {other : String} (apart : other ≠ requestId) :
    only requestId (messages ++ [(other, m)]) = only requestId messages := by
  simp [only, List.filterMap_append, apart]

end Only

def Down.isReset : Down → Bool
  | .reset => true
  | _ => false

/-- The messages of an answer. -/
def plain (down : List Down) : List Down := down.filter fun m => !m.isReset

theorem plain_append_reset (down : List Down) : plain (down ++ [.reset]) = plain down := by
  simp [plain, Down.isReset]

theorem plain_cons {m : Down} (answer : m.isReset = false) (down : List Down) :
    plain (m :: down) = m :: plain down := by
  simp [plain, answer]

theorem plain_append {m : Down} (answer : m.isReset = false) (down : List Down) :
    plain (down ++ [m]) = plain down ++ [m] := by
  simp [plain, answer]

theorem plain_of_resets {down : List Down} (resets : ∀ m ∈ down, m = .reset) : plain down = [] := by
  rw [plain, List.filter_eq_nil_iff]
  intro m member
  rw [resets m member]
  exact Bool.not_eq_true _ ▸ rfl

def resetText (requestId : String) : Text := message (resetFields requestId)

structure Unanswered (requestId : String) (strict : Prop) (task : Dispatch) : Prop where
  answer : task.answer = none
  serving : strict → task.serving = true
  silent : task.serving = true → task.resetting = false ∧ task.outbox = []
  outbox : task.outbox = [] ∨ task.resetting = true ∧ task.outbox = [resetText requestId]

/-- How far the response of a call has come. -/
inductive ResponseStage (env : Env) (requestId : String) (strict : Prop) (call : Call) :
    List Dispatch → List Down → Prop
  | idle {tasks : List Dispatch} {down : List Down}
      (unanswered : ∀ task ∈ tasks, Unanswered requestId strict task)
      (resets : ∀ m ∈ down, m = .reset) (empty : call.pending = true → call.body = [])
      (pending : call.future.NoResult) :
      ResponseStage env requestId strict call tasks down
  | answering {down : List Down} (task : Dispatch) (answer : AppResponse) (left : List Down)
      (answered : task.answer = some answer) (served : task.serving = false)
      (sending : task.resetting = false)
      (outbox : task.outbox = left.map (Down.text env requestId))
      (proper : ∀ m ∈ left, m.isReset = false) (fits : strict → Fits answer)
      (stage : call.pending = true → ClientStage env strict answer call (plain down ++ left))
      (result : ∀ response, call.future = .result response → response = forwarded env answer) :
      ResponseStage env requestId strict call [task] down
  | broken {down : List Down} (task : Dispatch) (answer : AppResponse) (lost : List Down)
      (answered : task.answer = some answer) (served : task.serving = false)
      (resetting : task.resetting = true) (disturbed : ¬strict)
      (outbox : task.outbox = [] ∨ task.outbox = [resetText requestId])
      (stage : call.pending = true → ClientStage env strict answer call (plain down ++ lost))
      (result : ∀ response, call.future = .result response → response = forwarded env answer) :
      ResponseStage env requestId strict call [task] down

/-- A call, what the server holds of it, and the messages under way. -/
structure Link (env : Env) (kind : Kind) (requestId : String) (strict : Prop) (call : Call)
    (inbound : Option InboundRequest) (tasks : List Dispatch) (up : List Up) (down : List Down) :
    Prop where
  nonempty : requestId ≠ ""
  short : requestId.length ≤ 128
  unique : (call.request.headers.map Prod.fst).Nodup
  admitted : strict →
    (inboundRequest env kind (requestStartFields env requestId call.request)).isSome = true
  sending : ∃ left, call.outbox = left.map (Up.text env requestId) ∧
    ServerStage env kind requestId strict call.request inbound tasks (up ++ left)
  response : ResponseStage env requestId strict call tasks down
  quiet : strict → ∀ m ∈ down, m ≠ .reset
  clear : strict → call.future ≠ .failed
  finished : strict → call.outcome ≠ some none
  waiting : strict → call.outcome = none → call.pending = true
  returned : ∀ response, call.outcome = some (some response) → call.future = .result response

inductive LinkAt (env : Env) (kind : Kind) (requestId : String) (strict : Prop) :
    Option Call → Option InboundRequest → List Dispatch → List Up → List Down → Prop
  | absent : LinkAt env kind requestId strict none none [] [] []
  | present {call : Call} {inbound : Option InboundRequest} {tasks : List Dispatch} {up : List Up}
      {down : List Down} (link : Link env kind requestId strict call inbound tasks up down) :
      LinkAt env kind requestId strict (some call) inbound tasks up down

section One
variable {strict : Prop} {inbound : Option InboundRequest} {tasks : List Dispatch} {up : List Up}
  {down : List Down}

theorem LinkAt.of_none (link : LinkAt env kind requestId strict none inbound tasks up down) :
    inbound = none ∧ tasks = [] ∧ up = [] ∧ down = [] := by
  cases link with
  | absent => exact ⟨rfl, rfl, rfl, rfl⟩

theorem LinkAt.of_some (link : LinkAt env kind requestId strict (some call) inbound tasks up down) :
    Link env kind requestId strict call inbound tasks up down := by
  cases link with
  | present link => exact link

theorem ResponseStage.onward {after : Call} {later : List Down}
    (stage : ResponseStage env requestId strict call tasks down)
    (idle : (∀ task ∈ tasks, Unanswered requestId strict task) → (∀ m ∈ down, m = .reset) →
      (call.pending = true → call.body = []) → call.future.NoResult →
        ResponseStage env requestId strict after tasks later)
    (moves : ∀ {answer : AppResponse} {left : List Down}, (strict → Fits answer) →
      (call.pending = true → ClientStage env strict answer call (plain down ++ left)) →
      (∀ response, call.future = .result response → response = forwarded env answer) →
        (after.pending = true → ClientStage env strict answer after (plain later ++ left)) ∧
          ∀ response, after.future = .result response → response = forwarded env answer) :
    ResponseStage env requestId strict after tasks later := by
  cases stage with
  | idle unanswered resets empty pending => exact idle unanswered resets empty pending
  | answering task answer left answered served sending outbox proper fits stage result =>
    obtain ⟨stage, result⟩ := moves fits stage result
    exact .answering task answer left answered served sending outbox proper fits stage result
  | broken task answer lost answered served resetting disturbed outbox stage result =>
    obtain ⟨stage, result⟩ := moves (fun calm => absurd calm disturbed) stage result
    exact .broken task answer lost answered served resetting disturbed outbox stage result

theorem ResponseStage.of_call {after : Call}
    (stage : ResponseStage env requestId strict call tasks down)
    (body : after.pending = true → call.pending = true ∧ after.body = call.body ∧
      after.status = call.status ∧ after.headers = call.headers ∧ after.expected = call.expected)
    (future : after.future = call.future) :
    ResponseStage env requestId strict after tasks down := by
  refine stage.onward (fun unanswered resets empty pending => ?_) fun {_ left} _ stage result => ⟨?_, ?_⟩
  · refine .idle unanswered resets (fun waits => ?_) (future ▸ pending)
    exact (body waits).2.1.trans (empty (body waits).1)
  · intro waits
    obtain ⟨waited, sameBody, sameStatus, sameHeaders, sameExpected⟩ := body waits
    have held := stage waited
    generalize plain down ++ left = coming at held ⊢
    cases held with
    | awaiting empty pending => exact .awaiting (sameBody.trans empty) (future ▸ pending)
    | receiving missing status headers expected whole pending =>
      refine .receiving missing (sameStatus.trans status) (sameHeaders.trans headers)
        (sameExpected.trans expected) ?_ (future ▸ pending)
      rw [sameBody]
      exact whole
    | finished done => exact .finished (future ▸ done)
  · rwa [future]

section
variable (link : Link env kind requestId strict call inbound tasks up down)
include link

theorem Link.send

    {raw : Text} {outbox : List Text} (next : call.outbox = raw :: outbox) :
    ∃ m : Up, raw = m.text env requestId ∧
      Link env kind requestId strict { call with outbox } inbound tasks (up ++ [m]) down := by
  obtain ⟨left, typed, stage⟩ := link.sending
  rw [next] at typed
  cases left with
  | nil => cases typed
  | cons m left =>
    rw [List.map_cons, List.cons.injEq] at typed
    obtain ⟨text, rest⟩ := typed
    refine ⟨m, text, { link with sending := ⟨left, rest, ?_⟩, response := ?_ }⟩
    · rw [List.append_assoc]
      exact stage
    · exact link.response.of_call (fun waits => ⟨waits, rfl, rfl, rfl, rfl⟩) rfl

theorem Link.leave {outcome : Option P2PResponse} (raised : strict → outcome ≠ none)
    (returned : ∀ response, outcome = some response → call.future = .result response) :
    Link env kind requestId strict { call with pending := false, outcome := some outcome } inbound
      tasks up down :=
  { link with
    response := link.response.of_call (fun waits => nomatch waits) rfl
    finished := fun calm same => raised calm (Option.some.inj same)
    waiting := fun _ same => nomatch same
    returned := fun response same => returned response (Option.some.inj same) }

theorem Link.fail (disturbed : ¬strict) :
    Link env kind requestId strict { call.fail with pending := false } inbound tasks up down := by
  obtain ⟨request, outbox, -, outcome, -⟩ := call.fail_frame
  have result : ∀ {response : P2PResponse}, call.fail.future = .result response →
      call.future = .result response := (Call.fail_result call).mp
  refine {
    nonempty := link.nonempty, short := link.short, unique := request ▸ link.unique
    admitted := fun calm => absurd calm disturbed
    sending := by rw [request, outbox]; exact link.sending
    response := ?_
    quiet := fun calm => absurd calm disturbed
    clear := fun calm => absurd calm disturbed
    finished := fun calm => absurd calm disturbed
    waiting := fun calm => absurd calm disturbed
    returned := ?_ }
  · refine link.response.onward (fun unanswered resets empty pending => ?_)
      fun _ stage same => ⟨nofun, fun response future => same response (result future)⟩
    exact .idle unanswered resets nofun (Call.fail_noResult pending)
  · intro response same
    rw [outcome] at same
    exact (Call.fail_result call).mpr (link.returned response same)

end

theorem Link.fresh {request : Request} (nonempty : requestId ≠ "")
    (short : requestId.length ≤ 128) (unique : (request.headers.map Prod.fst).Nodup)
    (admitted : strict →
      (inboundRequest env kind (requestStartFields env requestId request)).isSome = true) :
    Link env kind requestId strict
      { request, outbox := requestMessages env requestId request } none [] [] [] where
  nonempty := nonempty
  short := short
  unique := unique
  admitted := admitted
  sending := ⟨ups request, requestMessages_eq env requestId request, .unseen⟩
  response := .idle nofun nofun (fun _ => rfl) nofun
  quiet := nofun
  clear := nofun
  finished := nofun
  waiting := fun _ _ => rfl
  returned := nofun

theorem Link.received {m : Up}
    (link : Link env kind requestId strict call (w.requests requestId) (w.dispatches requestId)
      (m :: up) down) : ∃ left, call.outbox = left.map (Up.text env requestId) ∧
      Received env kind requestId strict call.request (up ++ left) w
        (serverReceive env kind w (m.text env requestId)) := by
  obtain ⟨left, typed, stage⟩ := link.sending
  rw [List.cons_append] at stage
  exact ⟨left, typed, stage.receive link.nonempty link.short link.unique link.admitted⟩

theorem Link.after_received {m : Up}
    (link : Link env kind requestId strict call (w.requests requestId) (w.dispatches requestId)
      (m :: up) down) {left : List Up} (typed : call.outbox = left.map (Up.text env requestId))
    (received : Received env kind requestId strict call.request (up ++ left) w w') :
    Link env kind requestId strict call (w'.requests requestId) (w'.dispatches requestId) up
      down := by
  refine { link with sending := ⟨left, typed, received.stage⟩, response := ?_ }
  rcases received.tasks with same | ⟨none_yet, inbound, started⟩
  · rw [same]
    exact link.response
  · have before := link.response
    rw [none_yet] at before
    rw [started]
    cases before with
    | idle unanswered resets empty pending =>
      refine .idle ?_ resets empty pending
      intro task member
      rw [List.mem_singleton.mp member]
      exact ⟨rfl, fun _ => rfl, fun _ => ⟨rfl, rfl⟩, .inl rfl⟩

theorem Link.add_reset (link : Link env kind requestId strict call inbound tasks up down)
    (disturbed : ¬strict) :
    Link env kind requestId strict call inbound tasks up (down ++ [.reset]) := by
  refine { link with response := ?_, quiet := fun calm => absurd calm disturbed }
  refine link.response.onward (fun unanswered resets empty pending => ?_)
    fun _ stage result => ⟨?_, result⟩
  · exact .idle unanswered (Parties.forall_append resets rfl) empty pending
  · rw [plain_append_reset]
    exact stage

theorem ServerStage.only_task {request : Request} {coming : List Up} {i : Nat}
    {task after : Dispatch}
    (stage : ServerStage env kind requestId strict request inbound tasks coming)
    (stands : tasks[i]? = some task) (same : after.request = task.request) :
    tasks = [task] ∧ tasks.set i after = [after] ∧
      ServerStage env kind requestId strict request inbound (tasks.set i after) coming := by
  cases stage with
  | unseen | receiving inbound missing entered whole | refused coming begun disturbed =>
    cases stands
  | served first entered whole =>
    cases i with
    | zero =>
      cases stands
      exact ⟨rfl, rfl, .served after (same ▸ entered) (same ▸ whole)⟩
    | succ i => cases stands

theorem Link.task {i : Nat} {task after : Dispatch} {later : List Down}
    (link : Link env kind requestId strict call inbound tasks up down)
    (stands : tasks[i]? = some task) (same : after.request = task.request)
    (response : ResponseStage env requestId strict call [task] down →
      ResponseStage env requestId strict call [after] later)
    (quiet : strict → ∀ m ∈ later, m ≠ .reset) :
    Link env kind requestId strict call inbound (tasks.set i after) up later := by
  obtain ⟨left, typed, stage⟩ := link.sending
  obtain ⟨one, moved, replaced⟩ := stage.only_task stands same
  refine { link with sending := ⟨left, typed, replaced⟩, response := ?_, quiet }
  rw [moved]
  apply response
  rw [← one]
  exact link.response

theorem downs_proper (answer : AppResponse) : ∀ m ∈ downs answer, m.isReset = false := by
  intro m member
  rw [downs, List.cons_append, List.mem_cons, List.mem_append] at member
  rcases member with rfl | chunk | last
  · rfl
  · obtain ⟨bytes, -, rfl⟩ := List.mem_map.mp chunk
    rfl
  · rw [List.mem_singleton.mp last]
    rfl

theorem ResponseStage.answer {task : Dispatch} {response : Option AppResponse}
    (stage : ResponseStage env requestId strict call [task] down) (serving : task.serving = true)
    (proper : strict → ∃ answer, response = some answer ∧ Fits answer) :
    ResponseStage env requestId strict call [answered env requestId task response] down := by
  cases stage with
  | idle unanswered resets empty pending =>
    have waits := unanswered task List.mem_cons_self
    cases response with
    | none =>
      refine .idle ?_ resets empty pending
      intro other member
      rw [List.mem_singleton.mp member]
      refine ⟨waits.answer, fun calm => ?_, nofun, .inr ⟨rfl, rfl⟩⟩
      obtain ⟨answer, same, -⟩ := proper calm
      cases same
    | some answer =>
      refine .answering _ answer (downs answer) rfl rfl (waits.silent serving).1
        (responseMessages_eq env requestId answer) (downs_proper answer) ?_ ?_ ?_
      · intro calm
        obtain ⟨_, same, fits⟩ := proper calm
        cases same
        exact fits
      · intro waiting
        rw [plain_of_resets resets, List.nil_append]
        exact .awaiting (empty waiting) pending
      · exact fun response future => absurd future (pending response)
  | answering task answer left answered served sending outbox proper fits stage result
  | broken task answer lost answered served resetting disturbed outbox stage result =>
    rw [served] at serving
    cases serving

theorem ResponseStage.respond {task : Dispatch} {raw : Text} {outbox : List Text}
    (stage : ResponseStage env requestId strict call [task] down)
    (next : task.outbox = raw :: outbox) :
    ∃ m : Down, raw = m.text env requestId ∧ (strict → m ≠ .reset) ∧
      ResponseStage env requestId strict call [{ task with outbox }] (down ++ [m]) := by
  cases stage with
  | idle unanswered resets empty pending =>
    have waits := unanswered task List.mem_cons_self
    have last : raw = resetText requestId ∧ outbox = [] := by
      rcases waits.outbox with nothing | ⟨-, reset⟩
      · rw [nothing] at next
        cases next
      · rw [reset, List.cons.injEq] at next
        exact ⟨next.1.symm, next.2.symm⟩
    have ended : task.serving ≠ true := by
      intro serving
      rw [(waits.silent serving).2] at next
      cases next
    refine ⟨.reset, last.1, ?_, .idle ?_ (Parties.forall_append resets rfl) empty pending⟩
    · exact fun calm => absurd (waits.serving calm) ended
    · intro other member
      rw [List.mem_singleton.mp member]
      exact ⟨waits.answer, waits.serving, fun serving => absurd serving ended, .inl last.2⟩
  | answering task answer left answered served sending typed proper fits stage result =>
    rw [typed] at next
    cases left with
    | nil => cases next
    | cons m left =>
      rw [List.map_cons, List.cons.injEq] at next
      have answers := proper m List.mem_cons_self
      refine ⟨m, next.1.symm, fun _ same => ?_, ?_⟩
      · rw [same] at answers
        cases answers
      · refine .answering _ answer left answered served sending next.2.symm
          (fun m member => proper m (List.mem_cons_of_mem _ member)) fits ?_ result
        rw [plain_append answers, List.append_assoc]
        exact stage
  | broken task answer lost answered served resetting disturbed resets stage result =>
    have last : raw = resetText requestId ∧ outbox = [] := by
      rcases resets with nothing | reset
      · rw [nothing] at next
        cases next
      · rw [reset, List.cons.injEq] at next
        exact ⟨next.1.symm, next.2.symm⟩
    refine ⟨.reset, last.1, fun calm => absurd calm disturbed, ?_⟩
    refine .broken _ answer lost answered served resetting disturbed (.inl last.2) ?_ result
    rw [plain_append_reset]
    exact stage

theorem ResponseStage.sendFailed {task : Dispatch} {raw : Text} {outbox : List Text}
    (stage : ResponseStage env requestId strict call [task] down)
    (next : task.outbox = raw :: outbox) (disturbed : ¬strict) :
    ResponseStage env requestId strict call [sendFailed requestId task] down := by
  unfold P2P.sendFailed
  cases stage with
  | idle unanswered resets empty pending =>
    have waits := unanswered task List.mem_cons_self
    have resetting : task.resetting = true := by
      rcases waits.outbox with nothing | ⟨resetting, -⟩
      · rw [nothing] at next
        cases next
      · exact resetting
    rw [if_pos resetting]
    refine .idle ?_ resets empty pending
    intro other member
    rw [List.mem_singleton.mp member]
    refine ⟨waits.answer, waits.serving, fun serving => ?_, .inl rfl⟩
    rw [(waits.silent serving).2] at next
    cases next
  | answering task answer left answered served sending typed proper fits stage result =>
    rw [sending, if_neg Bool.false_ne_true]
    exact .broken _ answer left answered served rfl disturbed (.inr rfl) stage result
  | broken task answer lost answered served resetting disturbed resets stage result =>
    rw [if_pos resetting]
    exact .broken _ answer lost answered served resetting disturbed (.inl rfl) stage result

theorem ResponseStage.ignore {m : Down}
    (stage : ResponseStage env requestId strict call tasks (m :: down))
    (gone : call.pending = false) : ResponseStage env requestId strict call tasks down := by
  refine stage.onward (fun unanswered resets empty pending => ?_) fun _ stage result => ⟨?_, result⟩
  · exact .idle unanswered (fun m member => resets m (List.mem_cons_of_mem _ member)) empty
      pending
  · intro waits
    rw [gone] at waits
    cases waits

theorem ResponseStage.fail (stage : ResponseStage env requestId strict call tasks (.reset :: down)) :
    ResponseStage env requestId strict call.fail tasks down := by
  obtain ⟨-, -, waits, -, body, -⟩ := call.fail_frame
  have result : ∀ {response : P2PResponse}, call.fail.future = .result response →
      call.future = .result response := (Call.fail_result call).mp
  refine stage.onward (fun unanswered resets empty pending => ?_)
    fun _ stage same => ⟨?_, fun response future => same response (result future)⟩
  · refine .idle unanswered (fun m member => resets m (List.mem_cons_of_mem _ member)) ?_
      (Call.fail_noResult pending)
    rw [waits, body]
    exact empty
  · rw [waits]
    exact fun waiting => (stage waiting).fail

theorem ResponseStage.receive {m : Down} (answers : m.isReset = false)
    (clear : strict → call.future ≠ .failed) (waiting : call.pending = true)
    (stage : ResponseStage env requestId strict call tasks (m :: down)) :
    ResponseStage env requestId strict (call.receive env requestId m) tasks down ∧
      (strict → (call.receive env requestId m).future ≠ .failed) := by
  cases stage with
  | idle unanswered resets empty pending =>
    rw [resets m List.mem_cons_self] at answers
    cases answers
  | answering task answer left answered served sending outbox proper fits stage result =>
    rw [plain_cons answers] at stage
    have taken := @ClientStage.receive env requestId strict call answer m _ fits clear
      (stage waiting)
    refine ⟨?_, taken.clear⟩
    refine .answering task answer left answered served sending outbox proper fits
      (fun _ => taken.stage) fun response future => ?_
    exact (taken.result response future).elim (result response) id
  | broken task answer lost answered served resetting disturbed outbox stage result =>
    rw [plain_cons answers] at stage
    have taken := @ClientStage.receive env requestId strict call answer m _
      (fun calm => absurd calm disturbed) clear (stage waiting)
    refine ⟨?_, taken.clear⟩
    refine .broken task answer lost answered served resetting disturbed outbox
      (fun _ => taken.stage) fun response future => ?_
    exact (taken.result response future).elim (result response) id

theorem Link.ignore {m : Down}
    (link : Link env kind requestId strict call inbound tasks up (m :: down))
    (gone : call.pending = false) : Link env kind requestId strict call inbound tasks up down :=
  { link with
    response := link.response.ignore gone
    quiet := fun calm m member => link.quiet calm m (List.mem_cons_of_mem _ member) }

theorem Link.receive {m : Down}
    (link : Link env kind requestId strict call inbound tasks up (m :: down))
    (waiting : call.pending = true) :
    Link env kind requestId strict (call.receive env requestId m) inbound tasks up down := by
  have same := @Call.receive_same env requestId call m
  have after : ResponseStage env requestId strict (call.receive env requestId m) tasks down ∧
      (strict → (call.receive env requestId m).future ≠ .failed) := by
    cases answers : m.isReset with
    | false => exact link.response.receive answers link.clear waiting
    | true =>
      cases m with
      | reset =>
        rw [Call.receive_reset]
        exact ⟨link.response.fail, fun calm => absurd rfl (link.quiet calm _ List.mem_cons_self)⟩
      | start _ | body _ | finish => cases answers
  exact {
    nonempty := link.nonempty, short := link.short, unique := same.request ▸ link.unique
    admitted := same.request ▸ link.admitted
    sending := by rw [same.request, same.outbox]; exact link.sending
    response := after.1
    quiet := fun calm m member => link.quiet calm m (List.mem_cons_of_mem _ member)
    clear := after.2
    finished := same.outcome ▸ link.finished
    waiting := by rw [same.outcome, same.pending]; exact link.waiting
    returned := fun response returned => same.done response
      (link.returned response (same.outcome ▸ returned)) }

end One

end Knoa.P2P
