import Knoa.Relay.P2PLinks

/-!
# The round trip of every request

The link of one request is kept by every step, its own or another's.
-/
namespace Knoa.P2P
open Transition (final trace)

variable {env : Env} {kind : Kind} {strict : String → Prop} {w w' : World} {a : Act}

/-- The act goes against a request: the server rejects it, its call gives up, its application
raises or answers what no client takes, a message of its response is lost, or the connection is
closed. -/
inductive Disturbs (env : Env) (kind : Kind) (requestId : String) : Act → Prop
  | rejected (token : String) (request : Request) (same : identity token = requestId)
      (refused : inboundRequest env kind (requestStartFields env requestId request) = none) :
      Disturbs env kind requestId (.request token request)
  | abandon : Disturbs env kind requestId (.abandon requestId)
  | raised (i : Nat) : Disturbs env kind requestId (.answer requestId i none)
  | unfit (i : Nat) (answer : AppResponse) (unfit : ¬Fits answer) :
      Disturbs env kind requestId (.answer requestId i (some answer))
  | lost (i : Nat) : Disturbs env kind requestId (.respond requestId i false)
  | fail : Disturbs env kind requestId .fail

structure Wired (env : Env) (kind : Kind) (strict : String → Prop) (w : World)
    (up : List (String × Up)) (down : List (String × Down)) : Prop where
  toServer : w.toServer = up.map fun m => m.2.text env m.1
  toClient : w.toClient = down.map fun m => m.2.text env m.1
  reply : w.reply = [] ∨ ∃ requestId, w.reply = [resetText requestId] ∧ ¬strict requestId ∧
    (w.calls requestId).isSome = true
  links : ∀ requestId, LinkAt env kind requestId (strict requestId) (w.calls requestId)
    (w.requests requestId) (w.dispatches requestId) (only requestId up) (only requestId down)

def Sound (env : Env) (kind : Kind) (strict : String → Prop) (w : World) : Prop :=
  ∃ up down, Wired env kind strict w up down

section Step
variable {up : List (String × Up)} {down : List (String × Down)} {requestId : String} {call : Call}

theorem Wired.link (wired : Wired env kind strict w up down)
    (known : w.calls requestId = some call) :
    Link env kind requestId (strict requestId) call (w.requests requestId)
      (w.dispatches requestId) (only requestId up) (only requestId down) := by
  have link := wired.links requestId
  rw [known] at link
  exact link.of_some

theorem Wired.absent (wired : Wired env kind strict w up down)
    (unknown : w.calls requestId = none) :
    w.requests requestId = none ∧ w.dispatches requestId = [] ∧ only requestId up = [] ∧
      only requestId down = [] := by
  have link := wired.links requestId
  rw [unknown] at link
  exact link.of_none

variable {i : Nat}

section
variable (wired : Wired env kind strict w up down)
include wired

theorem Wired.call_of_task {task : Dispatch} (stands : (w.dispatches requestId)[i]? = some task) :
    ∃ call, w.calls requestId = some call := by
  by_contra unknown
  rw [← Option.isSome_iff_exists, Option.not_isSome_iff_eq_none] at unknown
  rw [(wired.absent unknown).2.1] at stands
  cases stands

theorem Wired.call_of_up {m : Up} {later : List Up}
    (next : only requestId up = m :: later) : ∃ call, w.calls requestId = some call := by
  by_contra unknown
  rw [← Option.isSome_iff_exists, Option.not_isSome_iff_eq_none] at unknown
  rw [(wired.absent unknown).2.2.1] at next
  cases next

theorem Wired.call_of_down {m : Down}
    {later : List Down} (next : only requestId down = m :: later) :
    ∃ call, w.calls requestId = some call := by
  by_contra unknown
  rw [← Option.isSome_iff_exists, Option.not_isSome_iff_eq_none] at unknown
  rw [(wired.absent unknown).2.2.2] at next
  cases next

end

theorem links_at (requestId : String) {laterUp : List (String × Up)}
    {laterDown : List (String × Down)} (wired : Wired env kind strict w up down)
    (others : ∀ other, other ≠ requestId → w'.calls other = w.calls other ∧
      w'.requests other = w.requests other ∧ w'.dispatches other = w.dispatches other ∧
      only other laterUp = only other up ∧ only other laterDown = only other down)
    (own : LinkAt env kind requestId (strict requestId) (w'.calls requestId)
      (w'.requests requestId) (w'.dispatches requestId) (only requestId laterUp)
      (only requestId laterDown)) (other : String) :
    LinkAt env kind other (strict other) (w'.calls other) (w'.requests other)
      (w'.dispatches other) (only other laterUp) (only other laterDown) := by
  by_cases same : other = requestId
  · rw [same]
    exact own
  · obtain ⟨calls, requests, dispatches, ups, downs⟩ := others other same
    rw [calls, requests, dispatches, ups, downs]
    exact wired.links other

theorem setCall_isSome {other : String} (h : (w.calls other).isSome = true) :
    ((w.setCall requestId call).calls other).isSome = true := by
  by_cases same : other = requestId
  · subst same
    simp [World.setCall]
  · simp only [World.setCall, Function.update_of_ne same]
    exact h

theorem Wired.setCall (wired : Wired env kind strict w up down) {after : Call}
    (link : Link env kind requestId (strict requestId) after (w.requests requestId)
      (w.dispatches requestId) (only requestId up) (only requestId down)) :
    Wired env kind strict (w.setCall requestId after) up down :=
  { wired with
    reply := wired.reply.imp_right fun ⟨other, same, disturbed, known⟩ =>
      ⟨other, same, disturbed, setCall_isSome known⟩
    links := by
      refine links_at requestId wired (fun other apart => ?_) ?_
      · exact ⟨Function.update_of_ne apart _ _, rfl, rfl, rfl, rfl⟩
      · simp only [World.setCall, Function.update_self]
        exact .present link }

theorem identity_nonempty (token : String) : identity token ≠ "" := by
  intro same
  have length := congrArg String.length same
  rw [identity, String.length_append] at length
  have four : "p2p_".length = 4 := rfl
  have zero : "".length = 0 := rfl
  omega

theorem identity_length {token : String} (drawn : token.length = 24) :
    (identity token).length ≤ 128 := by
  rw [identity, String.length_append, drawn]
  decide

section
variable (wired : Wired env kind strict w up down)
include wired

theorem Wired.request {token : String} {request : Request} (calm : strict (identity token) →
      ¬Disturbs env kind (identity token) (.request token request))
    (h : step env kind w (.request token request) = some w') : Sound env kind strict w' := by
  simp only [step] at h
  split at h
  · cases h
  · next allowed =>
      cases h
      simp only [not_or, not_not, Bool.not_eq_true, Option.isSome_eq_false_iff,
        Option.isNone_iff_eq_none] at allowed
      obtain ⟨drawn, fresh, unique, -⟩ := allowed
      refine ⟨up, down, wired.setCall ?_⟩
      obtain ⟨inbound, tasks, ups, downs⟩ := wired.absent fresh
      rw [inbound, tasks, ups, downs]
      refine Link.fresh (identity_nonempty token) (identity_length drawn) unique ?_
      intro undisturbed
      rw [Option.isSome_iff_ne_none]
      intro refused
      exact calm undisturbed (.rejected token request rfl refused)

theorem Wired.send
    (h : step env kind w (.send requestId) = some w') : Sound env kind strict w' := by
  simp only [step] at h
  split at h
  · cases h
  · next call known =>
      split at h
      · next raw outbox _ next =>
          cases h
          obtain ⟨m, text, link⟩ := (wired.link known).send next
          refine ⟨up ++ [(requestId, m)], down, ?_, wired.toClient, ?_, ?_⟩
          · rw [List.map_append, ← wired.toServer, text]
            rfl
          · exact wired.reply.imp_right fun ⟨other, same, disturbed, known⟩ =>
              ⟨other, same, disturbed, setCall_isSome known⟩
          · refine links_at requestId wired (fun other apart => ?_) ?_
            · exact ⟨Function.update_of_ne apart _ _, rfl, rfl, only_append_other apart.symm, rfl⟩
            · simp only [World.setCall, Function.update_self, only_append_self]
              exact .present link
      · cases h

theorem Wired.abandon (calm : strict requestId → ¬Disturbs env kind requestId (.abandon requestId))
    (h : step env kind w (.abandon requestId) = some w') : Sound env kind strict w' := by
  simp only [step] at h
  split at h
  · cases h
  · next call known =>
      split at h <;> cases h
      refine ⟨up, down, wired.setCall ((wired.link known).leave ?_ nofun)⟩
      exact fun undisturbed => absurd .abandon (calm undisturbed)

theorem Wired.resume
    (h : step env kind w (.resume requestId) = some w') : Sound env kind strict w' := by
  simp only [step] at h
  split at h
  · cases h
  · next call known =>
      have link := wired.link known
      split at h
      · cases h
      · split at h
        · cases h
        · next failed =>
            cases h
            refine ⟨up, down, wired.setCall (link.leave ?_ nofun)⟩
            exact fun undisturbed => absurd failed (link.clear undisturbed)
        · next response future =>
            cases h
            refine ⟨up, down, wired.setCall (link.leave (fun _ => nofun) ?_)⟩
            rintro other ⟨⟩
            exact future

theorem Wired.serverReceive
    (h : step env kind w .serverReceive = some w') : Sound env kind strict w' := by
  simp only [step] at h
  split at h
  · next raw toServer silent next =>
      cases h
      have typed := wired.toServer
      rw [next] at typed
      cases up with
      | nil => cases typed
      | cons first up =>
        obtain ⟨requestId, m⟩ := first
        rw [List.map_cons, List.cons.injEq] at typed
        obtain ⟨rfl, rest⟩ := typed
        have first : only requestId ((requestId, m) :: up) = m :: only requestId up :=
          only_cons_self
        obtain ⟨call, known⟩ := wired.call_of_up first
        have link := wired.link known
        rw [only_cons_self] at link
        have moved : Link env kind requestId (strict requestId) call
            (({ w with toServer } : World).requests requestId)
            (({ w with toServer } : World).dispatches requestId)
            (m :: only requestId up) (only requestId down) := link
        obtain ⟨left, sent, received⟩ := moved.received
        refine ⟨up, down, ?_, ?_, ?_, ?_⟩
        · rw [received.toServer]
          exact rest
        · rw [received.toClient]
          exact wired.toClient
        · rcases received.reply with same | ⟨disturbed, reset⟩
          · rw [same]
            exact .inl silent
          · refine .inr ⟨requestId, reset, disturbed, ?_⟩
            rw [received.calls]
            exact Option.isSome_iff_exists.mpr ⟨call, known⟩
        · refine links_at requestId wired (fun other apart => ?_) ?_
          · refine ⟨congrFun received.calls other, (received.others other apart).1,
              (received.others other apart).2, ?_, rfl⟩
            rw [only_cons_other apart.symm]
          · rw [received.calls]
            have stands : ({ w with toServer } : World).calls requestId = some call := known
            rw [stands]
            exact .present (moved.after_received sent received)
  · cases h

theorem Wired.serverReply {sent : Bool}
    (h : step env kind w (.serverReply sent) = some w') : Sound env kind strict w' := by
  simp only [step] at h
  split at h
  · cases h
  · next raw reply next =>
      rcases wired.reply with silent | ⟨requestId, reset, disturbed, known⟩
      · rw [silent] at next
        cases next
      · rw [reset, List.cons.injEq] at next
        obtain ⟨rfl, rfl⟩ := next
        obtain ⟨call, known⟩ := Option.isSome_iff_exists.mp known
        split at h
        · cases h
          refine ⟨up, down ++ [(requestId, .reset)], wired.toServer, ?_, .inl rfl, ?_⟩
          · rw [List.map_append, ← wired.toClient]
            rfl
          · refine links_at requestId wired (fun other apart => ?_) ?_
            · exact ⟨rfl, rfl, rfl, rfl, only_append_other apart.symm⟩
            · rw [only_append_self]
              simp only [known]
              exact .present ((wired.link known).add_reset disturbed)
        · cases h
          exact ⟨up, down, wired.toServer, wired.toClient, .inl rfl, wired.links⟩

theorem Wired.setTasks (known : w.calls requestId = some call) {tasks : List Dispatch}
    (link : Link env kind requestId (strict requestId) call (w.requests requestId) tasks
      (only requestId up) (only requestId down)) :
    Wired env kind strict (w.setTasks requestId tasks) up down :=
  { wired with
    links := by
      refine links_at requestId wired (fun other apart => ?_) ?_
      · exact ⟨rfl, rfl, Function.update_of_ne apart _ _, rfl, rfl⟩
      · simp only [World.setTasks, Function.update_self, known]
        exact .present link }

theorem Wired.answer {response : Option AppResponse}
    (calm : strict requestId → ¬Disturbs env kind requestId (.answer requestId i response))
    (h : step env kind w (.answer requestId i response) = some w') : Sound env kind strict w' := by
  simp only [step] at h
  split at h
  · cases h
  · next task stands =>
      split at h
      · cases h
      · next serving =>
          cases h
          rw [Bool.not_eq_false] at serving
          obtain ⟨call, known⟩ := wired.call_of_task stands
          have link := wired.link known
          have same : (answered env requestId task response).request = task.request := by
            cases response <;> rfl
          have proper : strict requestId → ∃ answer, response = some answer ∧ Fits answer := by
            intro undisturbed
            cases response with
            | none => exact absurd (.raised i) (calm undisturbed)
            | some answer =>
              refine ⟨answer, rfl, ?_⟩
              by_contra unfit
              exact calm undisturbed (.unfit i answer unfit)
          exact ⟨up, down, wired.setTasks known
            (link.task stands same (fun stage => stage.answer serving proper) link.quiet)⟩

theorem Wired.respond {sent : Bool}
    (calm : strict requestId → ¬Disturbs env kind requestId (.respond requestId i sent))
    (h : step env kind w (.respond requestId i sent) = some w') : Sound env kind strict w' := by
  simp only [step] at h
  split at h
  · cases h
  · next task stands =>
      obtain ⟨call, known⟩ := wired.call_of_task stands
      have link := wired.link known
      split at h
      · cases h
      · next raw outbox next =>
          split at h
          · cases h
            obtain ⟨left, -, stage⟩ := link.sending
            obtain ⟨one, -, -⟩ := stage.only_task stands rfl
            have response := link.response
            rw [one] at response
            obtain ⟨m, text, proper, moved⟩ := response.respond next
            have after : Link env kind requestId (strict requestId) call (w.requests requestId)
                ((w.dispatches requestId).set i { task with outbox }) (only requestId up)
                (only requestId down ++ [m]) := by
              refine link.task stands rfl (fun _ => moved) fun undisturbed => ?_
              exact Parties.forall_append (link.quiet undisturbed) (proper undisturbed)
            refine ⟨up, down ++ [(requestId, m)], wired.toServer, ?_, wired.reply, ?_⟩
            · rw [List.map_append, ← wired.toClient, text]
              rfl
            · refine links_at requestId wired (fun other apart => ?_) ?_
              · exact ⟨rfl, rfl, Function.update_of_ne apart _ _, rfl, only_append_other apart.symm⟩
              · simp only [World.setTasks, Function.update_self, known, only_append_self]
                exact .present after
          · next lost =>
              cases h
              rw [Bool.not_eq_true] at lost
              subst lost
              have disturbed : ¬strict requestId := fun undisturbed => calm undisturbed (.lost i)
              have same : (sendFailed requestId task).request = task.request := by
                unfold sendFailed
                split <;> rfl
              exact ⟨up, down, wired.setTasks known (link.task stands same
                (fun stage => stage.sendFailed next disturbed) link.quiet)⟩

theorem Wired.clientReceive
    (h : step env kind w .clientReceive = some w') : Sound env kind strict w' := by
  simp only [step] at h
  split at h
  · cases h
  · next raw toClient next =>
      cases h
      have typed := wired.toClient
      rw [next] at typed
      cases down with
      | nil => cases typed
      | cons first down =>
        obtain ⟨requestId, m⟩ := first
        rw [List.map_cons, List.cons.injEq] at typed
        obtain ⟨rfl, rest⟩ := typed
        have first : only requestId ((requestId, m) :: down) = m :: only requestId down :=
          only_cons_self
        obtain ⟨call, known⟩ := wired.call_of_down first
        have link := wired.link known
        rw [first] at link
        have others : ∀ other, other ≠ requestId →
            only other down = only other ((requestId, m) :: down) := fun other apart =>
          (only_cons_other apart.symm).symm
        have stands : ({ w with toClient } : World).calls requestId = some call := known
        simp only [clientReceive_text, known]
        split
        · next gone =>
            refine ⟨up, down, wired.toServer, rest, wired.reply, ?_⟩
            refine links_at requestId wired (fun other apart => ?_) ?_
            · exact ⟨rfl, rfl, rfl, rfl, others other apart⟩
            · rw [stands]
              exact .present (link.ignore gone)
        · next waiting =>
            rw [Bool.not_eq_false] at waiting
            refine ⟨up, down, wired.toServer, rest, ?_, ?_⟩
            · exact wired.reply.imp_right fun ⟨other, same, disturbed, known⟩ =>
                ⟨other, same, disturbed, setCall_isSome known⟩
            · refine links_at requestId wired (fun other apart => ?_) ?_
              · exact ⟨Function.update_of_ne apart _ _, rfl, rfl, rfl, others other apart⟩
              · simp only [World.setCall, Function.update_self]
                exact .present (link.receive waiting)

theorem Wired.fail
    (calm : ∀ requestId, ¬strict requestId) : Wired env kind strict (failAll w) up down :=
  { wired with
    reply := wired.reply.imp_right fun ⟨requestId, same, disturbed, known⟩ =>
      ⟨requestId, same, disturbed, by simpa [failAll] using known⟩
    links := by
      intro requestId
      cases known : w.calls requestId with
      | none =>
        have link := wired.links requestId
        simp only [failAll, known, Option.map_none]
        rw [known] at link
        exact link
      | some call =>
        have link := wired.link known
        simp only [failAll, known, Option.map_some]
        split
        · exact .present (link.fail (calm requestId))
        · exact .present link }

end

end Step

theorem Sound.step (sound : Sound env kind strict w)
    (calm : ∀ requestId, strict requestId → ¬Disturbs env kind requestId a)
    (h : step env kind w a = some w') : Sound env kind strict w' := by
  obtain ⟨up, down, wired⟩ := sound
  cases a with
  | request token request => exact wired.request (calm _) h
  | send requestId => exact wired.send h
  | abandon requestId => exact wired.abandon (calm _) h
  | resume requestId => exact wired.resume h
  | serverReceive => exact wired.serverReceive h
  | serverReply sent => exact wired.serverReply h
  | answer requestId i response => exact wired.answer (calm _) h
  | respond requestId i sent => exact wired.respond (calm _) h
  | clientReceive => exact wired.clientReceive h
  | fail =>
    cases h
    exact ⟨up, down, wired.fail fun requestId undisturbed => calm requestId undisturbed .fail⟩

theorem sound_start : Sound env kind strict {} := ⟨[], [], rfl, rfl, .inl rfl, fun _ => .absent⟩

/-- Nothing is left to do for a request: no step of it, and no message on the channel. -/
structure Settled (env : Env) (kind : Kind) (requestId : String) (w : World) : Prop where
  send : step env kind w (.send requestId) = none
  resume : step env kind w (.resume requestId) = none
  serverReceive : step env kind w .serverReceive = none
  serverReply : step env kind w (.serverReply true) = none
  clientReceive : step env kind w .clientReceive = none
  answer : ∀ i response, step env kind w (.answer requestId i response) = none
  respond : ∀ i, step env kind w (.respond requestId i true) = none

section Settled
variable {requestId : String} {call : Call}

section
variable (settled : Settled env kind requestId w)
include settled

theorem Settled.channels : w.toServer = [] ∧ w.toClient = [] := by
  have reply : w.reply = [] := by
    have stuck := settled.serverReply
    cases reply : w.reply with
    | nil => rfl
    | cons raw rest => simp [step, reply] at stuck
  constructor
  · have stuck := settled.serverReceive
    cases toServer : w.toServer with
    | nil => rfl
    | cons raw rest => simp [step, reply, toServer] at stuck
  · have stuck := settled.clientReceive
    cases toClient : w.toClient with
    | nil => rfl
    | cons raw rest => simp [step, toClient] at stuck

theorem Settled.outbox
    (known : w.calls requestId = some call) (going : call.outcome = none) : call.outbox = [] := by
  have stuck := settled.send
  cases outbox : call.outbox with
  | nil => rfl
  | cons raw rest => simp [step, known, going, outbox] at stuck

theorem Settled.waiting (known : w.calls requestId = some call) (going : call.outcome = none)
    (outbox : call.outbox = []) : call.future.NoResult := by
  intro response future
  have stuck := settled.resume
  simp [step, known, going, outbox, future] at stuck

theorem Settled.answered {task : Dispatch}
    (one : w.dispatches requestId = [task]) : task.serving = false ∧ task.outbox = [] := by
  constructor
  · have stuck := settled.answer 0 none
    cases serving : task.serving with
    | false => rfl
    | true => simp [step, one, serving] at stuck
  · have stuck := settled.respond 0
    cases outbox : task.outbox with
    | nil => rfl
    | cons raw rest => simp [step, one, outbox] at stuck

end

theorem Link.result {strict : Prop} {inbound : Option InboundRequest} {tasks : List Dispatch}
    {up : List Up} {down : List Down}
    (link : Link env kind requestId strict call inbound tasks up down) {response : P2PResponse}
    (returned : call.outcome = some (some response)) :
    ∃ task answer, tasks = [task] ∧ task.answer = some answer ∧
      response = forwarded env answer := by
  have future := link.returned response returned
  cases link.response with
  | idle unanswered resets empty pending => exact absurd future (pending response)
  | answering task answer left answered served sending outbox proper fits stage result
  | broken task answer lost answered served resetting disturbed outbox stage result =>
    exact ⟨task, answer, rfl, answered, result response future⟩

theorem Link.dispatched {strict : Prop} {inbound : Option InboundRequest}
    {tasks : List Dispatch} {up : List Up} {down : List Down}
    (link : Link env kind requestId strict call inbound tasks up down) :
    tasks.length ≤ 1 ∧ ∀ task ∈ tasks, task.request.body = call.request.body ∧
      task.request.path = call.request.path ∧
      task.request.method = env.upper (env.upper call.request.method) := by
  obtain ⟨left, -, stage⟩ := link.sending
  generalize up ++ left = coming at stage
  cases stage with
  | unseen | receiving inbound missing entered whole | refused coming begun disturbed =>
    exact ⟨by simp, nofun⟩
  | served task entered whole =>
    refine ⟨le_refl 1, fun other member => ?_⟩
    rw [List.mem_singleton.mp member]
    obtain ⟨-, -, -, path, method⟩ := inboundRequest_bounds entered
    exact ⟨whole, path, method⟩

theorem Settled.returned (settled : Settled env kind requestId w) {up : List (String × Up)}
    {down : List (String × Down)} (wired : Wired env kind strict w up down)
    (undisturbed : strict requestId) (known : w.calls requestId = some call) :
    ∃ response, call.outcome = some (some response) := by
  have link := wired.link known
  cases outcome : call.outcome with
  | some returned =>
    cases returned with
    | none => exact absurd outcome (link.finished undisturbed)
    | some response => exact ⟨response, rfl⟩
  | none =>
    exfalso
    have outbox := settled.outbox known outcome
    have waiting := settled.waiting known outcome outbox
    obtain ⟨toServer, toClient⟩ := settled.channels
    have noUp : up = [] := by
      have typed := wired.toServer
      rw [toServer] at typed
      exact List.map_eq_nil_iff.mp typed.symm
    have noDown : down = [] := by
      have typed := wired.toClient
      rw [toClient] at typed
      exact List.map_eq_nil_iff.mp typed.symm
    subst noUp noDown
    obtain ⟨left, typed, stage⟩ := link.sending
    rw [outbox] at typed
    rw [List.map_eq_nil_iff.mp typed.symm] at stage
    have response := link.response
    generalize started : w.dispatches requestId = tasks at stage response
    generalize w.requests requestId = inbound at stage
    generalize ahead : only requestId [] ++ [] = coming at stage
    cases stage with
    | unseen => cases ahead
    | receiving inbound missing entered whole =>
      have nonempty : missing.map Up.body ++ [.finish] ≠ [] := by simp
      exact nonempty ahead.symm
    | refused coming begun disturbed => exact disturbed undisturbed
    | served task entered whole =>
      obtain ⟨served, silent⟩ := settled.answered started
      cases response with
      | idle unanswered resets empty pending =>
        have serving := (unanswered task List.mem_cons_self).serving undisturbed
        rw [served] at serving
        cases serving
      | answering task answer left answered served sending outbox proper fits stage result =>
        rw [silent] at outbox
        rw [List.map_eq_nil_iff.mp outbox.symm] at stage
        generalize none_left : plain (only requestId []) ++ [] = coming at stage
        cases stage (link.waiting undisturbed outcome) with
        | awaiting empty pending => cases none_left
        | receiving missing status headers expected whole pending =>
          have nonempty : missing.map Down.body ++ [.finish] ≠ [] := by simp
          exact nonempty none_left.symm
        | finished done =>
          obtain ⟨response, future⟩ := done undisturbed
          exact waiting response future
      | broken task answer lost answered served resetting disturbed outbox stage result =>
        exact disturbed undisturbed

end Settled

/-- In every run each request is dispatched at most once, with the bytes that its call sent, and a
call returns what its own task answered; if nothing goes against it, once nothing is left to do. -/
theorem requests_round_trip (env : Env) (kind : Kind) (acts : List Act) :
    (∀ w ∈ trace (step env kind) {} acts, ∀ requestId, (w.dispatches requestId).length ≤ 1 ∧
      (∀ task ∈ w.dispatches requestId, ∃ call, w.calls requestId = some call ∧
        task.request.body = call.request.body ∧ task.request.path = call.request.path ∧
        task.request.method = env.upper (env.upper call.request.method)) ∧
      ∀ call response, w.calls requestId = some call → call.outcome = some (some response) →
        ∃ task answer, w.dispatches requestId = [task] ∧ task.answer = some answer ∧
          response = forwarded env answer) ∧ ∀ requestId,
      (∀ taken ∈ Transition.accepted (step env kind) {} acts,
        ¬Disturbs env kind requestId taken.2) →
      Settled env kind requestId (final (step env kind) {} acts) →
      ∀ call, (final (step env kind) {} acts).calls requestId = some call →
        ∃ task answer, (final (step env kind) {} acts).dispatches requestId = [task] ∧
          task.answer = some answer ∧ call.outcome = some (some (forwarded env answer)) := by
  constructor
  · intro w member requestId
    have kept : ∀ w a w', Sound env kind (fun _ => False) w → step env kind w a = some w' →
        Sound env kind (fun _ => False) w' := fun w a w' sound taken =>
      sound.step (fun _ impossible => impossible.elim) taken
    obtain ⟨up, down, wired⟩ := Transition.trace_invariant kept sound_start acts w member
    cases known : w.calls requestId with
    | none =>
      obtain ⟨-, none_yet, -, -⟩ := wired.absent known
      rw [none_yet]
      exact ⟨Nat.zero_le _, nofun, nofun⟩
    | some call =>
      have link := wired.link known
      obtain ⟨once, same⟩ := link.dispatched
      refine ⟨once, fun task stands => ⟨call, rfl, same task stands⟩, ?_⟩
      rintro other response ⟨⟩ returned
      exact link.result returned
  · intro requestId calm settled call known
    have kept : ∀ w a w', Sound env kind (· = requestId) w → ¬Disturbs env kind requestId a →
        step env kind w a = some w' → Sound env kind (· = requestId) w' := by
      intro w a w' sound undisturbed taken
      refine sound.step ?_ taken
      rintro other rfl
      exact undisturbed
    obtain ⟨up, down, wired⟩ := Transition.trace_safe_of_clean kept sound_start calm _
      (Transition.mem_trace_final _ _)
    obtain ⟨response, returned⟩ := settled.returned wired rfl known
    obtain ⟨task, answer, one, answered, rfl⟩ := (wired.link known).result returned
    exact ⟨task, answer, one, answered, returned⟩

end Knoa.P2P
