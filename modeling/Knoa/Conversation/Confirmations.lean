import Knoa.Conversation.ChatTurns

/-!
# Confirmations

`ConversationApprovalService` over one tool step of a turn. A call reads the approval before the
transaction of its write.
-/
namespace Knoa.Conversation
open Knoa.Tasks

inductive ApprovalReviewMode
  | off
  | suggest
  | auto
  deriving DecidableEq, Repr

inductive ApprovalReviewDecision
  | approve
  | deny
  | escalate
  deriving DecidableEq, Repr

/-- What `configure_review` sets. -/
structure ReviewSettings where
  configured : Bool := false
  mode : ApprovalReviewMode := .off
  autoMaxRisk : String := "medium"
  deriving DecidableEq

/-- `policy_reason.partition(":")[2] or "high"`. -/
def riskOf (policyReason : String) : String :=
  match (policyReason.toList.dropWhile (· ≠ ':')).drop 1 with
  | [] => "high"
  | risk => String.ofList risk

/-- `_may_auto_resolve`. -/
def ReviewSettings.mayAutoResolve (settings : ReviewSettings) (decision : ApprovalReviewDecision)
    (policyReason : String) (instructionTruncated : Bool) : Bool :=
  !instructionTruncated && settings.mode == .auto && decision != .escalate &&
    (riskOf policyReason == "low" ||
      riskOf policyReason == "medium" && settings.autoMaxRisk != "low")

/-- A review that has come back. -/
structure Review where
  reviewerId : String
  decision : ApprovalReviewDecision
  instructionTruncated : Bool
  deriving DecidableEq

/-- Where a `confirm` stands. From `checking` on its future is registered. -/
inductive ConfirmPhase
  | requesting
  | inserting
  | registering (created : Bool)
  | checking (created : Bool)
  | checked (created : Bool) (state : ChatApprovalState)
  | reviewing
  | notifying (created : Bool) (review : Option Review)
  | resolving (call : Nat)
  | waiting
  | returned (approved : Bool)
  | raised
  deriving DecidableEq

structure Confirm where
  call : ProposedToolCall
  reason : String
  phase : ConfirmPhase := .requesting
  future : Option Bool := none
  deriving DecidableEq

/-- Where a `resolve` stands: `settling` is its `waiter.set_result`. -/
inductive ResolvePhase
  | reading
  | writing
  | settling (changed : Bool) (state : ChatApprovalState)
  | done (state : ChatApprovalState)
  | raised
  deriving DecidableEq

structure Resolve where
  approved : Bool
  resolvedBy : String
  phase : ResolvePhase := .reading
  deriving DecidableEq

/-- Where a `cancel_turn` stands; `listed` says that it has listed the approval. -/
inductive CancelPhase
  | listing
  | expiring (listed : Bool)
  | settling (listed : Bool)
  | done
  deriving DecidableEq

/-- The approval of one step, and `waiter`, the call whose future is registered for it. -/
structure ApprovalDesk where
  turnId : String
  stepId : String
  approval : Option ChatApprovalRow := none
  settings : ReviewSettings := {}
  waiter : Option Nat := none
  confirms : List Confirm := []
  resolves : List Resolve := []
  cancels : List CancelPhase := []

inductive DeskAct
  | configure (settings : ReviewSettings)
  | confirm (call : ProposedToolCall) (reason : String)
  | request (i : Nat)
  | insert (i : Nat) (now : Time) (approvalId : String)
  | register (i : Nat)
  | check (i : Nat)
  | settle (i : Nat)
  | review (i : Nat) (review : Option Review)
  | notified (i : Nat)
  | resolved (i : Nat)
  | wake (i : Nat)
  | resolve (approved : Bool) (resolvedBy : String)
  | read (k : Nat)
  | write (k : Nat) (now : Time)
  | set (k : Nat)
  | cancelTurn
  | list (k : Nat)
  | expire (k : Nat) (now : Time)
  | setExpired (k : Nat)
  | turnFinished (now : Time) (resolvedBy : String)

def Resolve.decision (resolve : Resolve) : ChatApprovalState :=
  if resolve.approved then .approved else .rejected

namespace ApprovalDesk

variable (s : ApprovalDesk)

def setConfirm (i : Nat) (confirm : Confirm) : ApprovalDesk :=
  { s with confirms := s.confirms.set i confirm }

def goTo (i : Nat) (confirm : Confirm) (phase : ConfirmPhase) : ApprovalDesk :=
  s.setConfirm i { confirm with phase }

/-- A `confirm` is over: its `finally` takes its own waiter away. -/
def finish (i : Nat) (confirm : Confirm) (phase : ConfirmPhase) : ApprovalDesk :=
  { s.goTo i confirm phase with waiter := s.waiter.filter (fun waiter => waiter != i) }

/-- `waiter.set_result(decision)`, where there is one that is not done. -/
def setResult (decision : Bool) : ApprovalDesk :=
  match s.waiter.bind (fun i => (s.confirms[i]?).map (fun confirm => (i, confirm))) with
  | some (i, confirm) =>
    if confirm.future = none then s.setConfirm i { confirm with future := some decision } else s
  | none => s

def setResolve (k : Nat) (resolve : Resolve) (phase : ResolvePhase) : ApprovalDesk :=
  { s with resolves := s.resolves.set k { resolve with phase } }

/-- The `SELECT` of `request_approval`. -/
def request (i : Nat) (confirm : Confirm) : ApprovalDesk :=
  match s.approval with
  | none => s.goTo i confirm .inserting
  | some row =>
    if row.state = .pending then s.goTo i confirm (.registering false)
    else s.goTo i confirm (.returned (row.state = .approved))

/-- The `INSERT` of `request_approval`; a step has one approval. -/
def insert (i : Nat) (confirm : Confirm) (now : Time) (approvalId : String) : ApprovalDesk :=
  match s.approval with
  | some _ => s.goTo i confirm .raised
  | none =>
    let row : ChatApprovalRow :=
      { approvalId := strip approvalId, turnId := s.turnId, stepId := s.stepId,
        toolCallId := confirm.call.callId, toolName := confirm.call.name,
        arguments := confirm.call.arguments, reason := confirm.reason, state := .pending,
        createdAt := now, resolvedAt := none, resolvedBy := "" }
    { s.goTo i confirm (.registering true) with approval := some row }

def register (i : Nat) (confirm : Confirm) (created : Bool) : ApprovalDesk :=
  if s.waiter.isSome then s.goTo i confirm .raised
  else { s.goTo i confirm (.checking created) with waiter := some i }

/-- `confirm` goes on with the row that it has read again. -/
def settle (i : Nat) (confirm : Confirm) (created : Bool) (state : ChatApprovalState) :
    ApprovalDesk :=
  let future :=
    if state ≠ .pending ∧ confirm.future = none then some (decide (state = .approved))
    else confirm.future
  let reviews := created && s.settings.configured && s.settings.mode != .off && future.isNone
  s.setConfirm i
    { confirm with
      future, phase := if reviews then .reviewing else .notifying created none }

def review (i : Nat) (confirm : Confirm) (review : Option Review) : ApprovalDesk :=
  match confirm.future with
  | some approved => s.finish i confirm (.returned approved)
  | none => s.goTo i confirm (.notifying true review)

/-- After `_notify`: a review that may decide does so. -/
def notified (i : Nat) (confirm : Confirm) (created : Bool) (review : Option Review) :
    ApprovalDesk :=
  match review with
  | some review =>
    if created && s.settings.configured && s.settings.mode == .auto &&
        s.settings.mayAutoResolve review.decision confirm.reason review.instructionTruncated then
      { s.goTo i confirm (.resolving s.resolves.length) with
        resolves := s.resolves ++
          [{ approved := review.decision = .approve
             resolvedBy := "approval_reviewer:" ++ review.reviewerId }] }
    else s.goTo i confirm .waiting
  | none => s.goTo i confirm .waiting

/-- The read of `resolve_approval`. -/
def read (k : Nat) (resolve : Resolve) : ApprovalDesk :=
  s.setResolve k resolve
    (match s.approval with
      | none => .raised
      | some row => if row.state = .pending then .writing else .settling false row.state)

/-- `UPDATE conversation_approvals SET state=? .. WHERE approval_id=?`. -/
def write (k : Nat) (resolve : Resolve) (now : Time) : ApprovalDesk :=
  let written : ApprovalDesk :=
    { s with
      approval := s.approval.map (fun row =>
        { row with
          state := resolve.decision, resolvedAt := some now, resolvedBy := resolve.resolvedBy }) }
  written.setResolve k resolve (.settling true resolve.decision)

def settleResolve (k : Nat) (resolve : Resolve) (changed : Bool) (state : ChatApprovalState) :
    ApprovalDesk :=
  (if changed then s.setResult resolve.approved else s).setResolve k resolve (.done state)

def pending : Bool := s.approval.any (fun row => row.state == .pending)

/-- `UPDATE conversation_approvals SET state='expired' .. AND state='pending'`. -/
def expirePending (now : Time) (resolvedBy : String) : ApprovalDesk :=
  { s with
    approval := s.approval.map (fun row =>
      if row.state = .pending then
        { row with state := .expired, resolvedAt := some now, resolvedBy }
      else row) }

def setCancel (k : Nat) (phase : CancelPhase) : ApprovalDesk :=
  { s with cancels := s.cancels.set k phase }

/-- A call of `confirm` takes a step where its phase is one that `f` takes on. -/
def onConfirm (i : Nat) (f : Confirm → Option ApprovalDesk) : Option ApprovalDesk :=
  (s.confirms[i]?).bind f

def step : DeskAct → Option ApprovalDesk
  | .configure settings => some { s with settings }
  | .confirm call reason => some { s with confirms := s.confirms ++ [{ call := call, reason }] }
  | .request i => s.onConfirm i (fun confirm =>
    match confirm.phase with
    | .requesting => some (s.request i confirm)
    | _ => none)
  | .insert i now approvalId => s.onConfirm i (fun confirm =>
    match confirm.phase with
    | .inserting => some (s.insert i confirm now approvalId)
    | _ => none)
  | .register i => s.onConfirm i (fun confirm =>
    match confirm.phase with
    | .registering created => some (s.register i confirm created)
    | _ => none)
  | .check i => s.onConfirm i (fun confirm =>
    match confirm.phase, s.approval with
    | .checking created, some row => some (s.goTo i confirm (.checked created row.state))
    | .checking _, none => some (s.finish i confirm .raised)
    | _, _ => none)
  | .settle i => s.onConfirm i (fun confirm =>
    match confirm.phase with
    | .checked created state => some (s.settle i confirm created state)
    | _ => none)
  | .review i review => s.onConfirm i (fun confirm =>
    match confirm.phase with
    | .reviewing => some (s.review i confirm review)
    | _ => none)
  | .notified i => s.onConfirm i (fun confirm =>
    match confirm.phase with
    | .notifying created review => some (s.notified i confirm created review)
    | _ => none)
  | .resolved i => s.onConfirm i (fun confirm =>
    match confirm.phase with
    | .resolving k => (s.resolves[k]?).bind (fun resolve =>
      match resolve.phase with
      | .done state => some (s.finish i confirm (.returned (state = .approved)))
      | .raised => some (s.finish i confirm .raised)
      | _ => none)
    | _ => none)
  | .wake i => s.onConfirm i (fun confirm =>
    match confirm.phase with
    | .waiting => confirm.future.map (fun approved => s.finish i confirm (.returned approved))
    | _ => none)
  | .resolve approved resolvedBy =>
    some { s with resolves := s.resolves ++ [{ approved := approved, resolvedBy }] }
  | .read k => (s.resolves[k]?).bind (fun resolve =>
    match resolve.phase with
    | .reading => some (s.read k resolve)
    | _ => none)
  | .write k now => (s.resolves[k]?).bind (fun resolve =>
    match resolve.phase with
    | .writing => some (s.write k resolve now)
    | _ => none)
  | .set k => (s.resolves[k]?).bind (fun resolve =>
    match resolve.phase with
    | .settling changed state => some (s.settleResolve k resolve changed state)
    | _ => none)
  | .cancelTurn => some { s with cancels := s.cancels ++ [.listing] }
  | .list k =>
    match s.cancels[k]? with
    | some .listing => some (s.setCancel k (.expiring s.pending))
    | _ => none
  | .expire k now =>
    match s.cancels[k]? with
    | some (.expiring listed) =>
      some ((s.expirePending now "turn_cancelled").setCancel k (.settling listed))
    | _ => none
  | .setExpired k =>
    match s.cancels[k]? with
    | some (.settling listed) => some ((if listed then s.setResult false else s).setCancel k .done)
    | _ => none
  | .turnFinished now resolvedBy => some (s.expirePending now resolvedBy)

/-- The service starts, with the approval that is stored. -/
def initial (turnId stepId : String) (approval : Option ChatApprovalRow) : ApprovalDesk where
  turnId := turnId
  stepId := stepId
  approval := approval

end ApprovalDesk

end Knoa.Conversation
