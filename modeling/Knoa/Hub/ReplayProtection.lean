import Knoa.Hub.NodeRequests
import Knoa.Library.Transition
import Mathlib.Tactic.Linarith

/-!
# Replay protection of the Hub

A nonce is remembered for ten minutes and a request is fresh for four at most, so a request whose
nonce is forgotten is stale, if the nonce is stored soon enough after the check.
-/
namespace Knoa.Hub.NodeHub

open Knoa.Tasks (Time)
open Relational Transaction

variable (env : HubEnv)

def realm (endpoint : Endpoint) : String :=
  if endpoint = .recordPresence then env.hubId else env.workspaceId

structure Vouched (store : NodeStore) (endpoint : Endpoint) (transcript : Transcript) : Prop where
  signer : ∃ row ∈ store.nodes.rows, row.nodeId = transcript.nodeId ∧
    env.signatures.signed row.identity.signingPublicKey transcript
  audience : ∀ other : Endpoint, other.audience = transcript.audience ↔ other = endpoint
  realm : transcript.realm = NodeHub.realm env endpoint

/-- What holds without a condition. -/
structure Bound (s : NodeHub) : Prop where
  effects : ∀ effect ∈ s.effects, Vouched env s.store effect.endpoint effect.transcript
  redeemed : ∀ payload ∈ s.redeemed, ∃ row, s.store.tickets.lookup payload.ticketId = some row ∧
    row.nodeId = payload.nodeId ∧ row.installationId = payload.installationId
  redeemedOnce : (s.redeemed.map TicketPayload.ticketId).Nodup
  enrolledOnce : (s.enrolled.map Prod.fst).Nodup

/-- No request takes effect twice. -/
def Once (s : NodeHub) : Prop := (s.effects.map Effect.transcript).Nodup

def Forgotten (s : NodeHub) (transcript : Transcript) : Prop :=
  s.store.nonces.lookup (transcript.nodeId, transcript.nonce) = none ∧
    ∃ effect ∈ s.effects, effect.transcript.nodeId = transcript.nodeId ∧
      effect.transcript.nonce = transcript.nonce

/-- A request that stores a forgotten nonce again has a timestamp that is a number, and no more
than six minutes of the clock have passed since its check. -/
def Prompt (s : NodeHub) : NodeHubStep → Prop
  | .consume i => ∀ request, s.requests[i]? = some request → Forgotten s request.transcript →
      (∃ value, request.transcript.timestamp = .number value) ∧ s.clock ≤ request.checkedAt + 360
  | _ => True

theorem audience_injective : Function.Injective Endpoint.audience := by
  intro a b same
  cases a <;> cases b <;> first | rfl | (simp [Endpoint.audience] at same)

variable {s made : NodeStore} {endpoint : Endpoint} {now : Time} {transcript : Transcript}
  {s' : NodeHub} {returned : Unit} {label : NodeHubStep}

theorem hubNode_ok {nodeId : String} {row : HubNodeRow}
    (found : hubNode s nodeId = .ok row) : row ∈ s.nodes.rows ∧ row.nodeId = nodeId := by
  obtain ⟨held, _⟩ := Option.filter_eq_some_iff.mp (orRaise_ok_iff.mp found)
  exact Table.lookup_eq_some_iff.mp held

theorem checkRequest_ok {request : NodeRequest}
    (checked : checkRequest env endpoint request now s = .ok transcript) :
    Vouched env s endpoint transcript ∧ ¬transcript.timestamp.outside now := by
  unfold checkRequest at checked
  split at checked
  · rename_i presence
    subst presence
    unfold checkPresence at checked
    simp only [bind_ok_iff, require_ok_iff] at checked
    obtain ⟨row, found, _, fresh, fields, _, _, verified, returned⟩ := checked
    cases returned
    obtain ⟨listed, _⟩ := hubNode_ok found
    exact ⟨⟨⟨row, listed, rfl, env.signatures.unforgeable _ _ _ verified⟩,
      fun other => ⟨fun same => audience_injective same, congrArg Endpoint.audience⟩, rfl⟩, fresh⟩
  · rename_i control
    unfold checkControl at checked
    simp only [bind_ok_iff, require_ok_iff] at checked
    obtain ⟨_, fresh, _, _, row, found, _, verified, returned⟩ := checked
    cases returned
    obtain ⟨listed, named⟩ := hubNode_ok found
    exact ⟨⟨⟨row, listed, named, env.signatures.unforgeable _ _ _ verified⟩,
      fun other => ⟨fun same => audience_injective same, congrArg Endpoint.audience⟩,
      by simp [NodeHub.realm, control]⟩, fresh⟩

/-- A request that has taken effect is remembered, or it is long ago. -/
def Remembered (nonces : Table NonceRow.key) (clock : Time) (effect : Effect) : Prop :=
  effect.readAt + 600 < clock ∨ ∃ row ∈ nonces.rows,
    row.key = (effect.transcript.nodeId, effect.transcript.nonce) ∧ row.observedAt = effect.readAt

theorem Remembered.later {nonces : Table NonceRow.key} {clock clock' : Time} {effect : Effect}
    (remembered : Remembered nonces clock effect) (later : clock ≤ clock') :
    Remembered nonces clock' effect := by
  rcases remembered with past | held
  · exact .inl (past.trans_le later)
  · exact .inr held

theorem Remembered.pruned {nonces inserted : Table NonceRow.key} {clock : Time}
    {effect : Effect} (remembered : Remembered nonces clock effect) {row : NonceRow}
    (stored : nonces.insert row = some inserted) (read : now ≤ clock) :
    Remembered (inserted.delete fun row => decide (row.observedAt < now - 600)) clock effect := by
  rcases remembered with past | ⟨held, listed, named, observed⟩
  · exact .inl past
  · by_cases old : held.observedAt < now - 600
    · left
      rw [observed] at old
      linarith
    · right
      refine ⟨held, List.mem_filter.mpr ⟨?_, by simpa using old⟩, named, observed⟩
      rw [Table.insert_rows stored]
      exact List.mem_append_left _ listed

theorem waited_long {effect : Effect} {clock checkedAt value : Time}
    (stamped : effect.transcript.timestamp = .number value)
    (first : ¬effect.transcript.timestamp.outside effect.checkedAt)
    (again : ¬effect.transcript.timestamp.outside checkedAt)
    (order : effect.checkedAt ≤ effect.readAt) (past : effect.readAt + 600 < clock) :
    checkedAt + 360 < clock := by
  rw [stamped] at first again
  have lower := (abs_le.mp (not_lt.mp first)).1
  have upper := (abs_le.mp (not_lt.mp again)).2
  linarith

structure Watched (s : NodeHub) : Prop where
  requests : ∀ request ∈ s.requests,
    Vouched env s.store request.endpoint request.transcript ∧
      ¬request.transcript.timestamp.outside request.checkedAt ∧ request.checkedAt ≤ s.clock ∧
        ∀ readAt, request.readAt = some readAt → request.checkedAt ≤ readAt ∧ readAt ≤ s.clock
  effects : ∀ effect ∈ s.effects,
    Vouched env s.store effect.endpoint effect.transcript ∧
      ¬effect.transcript.timestamp.outside effect.checkedAt ∧ effect.checkedAt ≤ effect.readAt ∧
        Remembered s.store.nonces s.clock effect
  redeemed : ∀ payload ∈ s.redeemed, ∃ row, s.store.tickets.lookup payload.ticketId = some row ∧
    row.nodeId = payload.nodeId ∧ row.installationId = payload.installationId ∧
      row.consumedAt ≠ none
  redeemedOnce : (s.redeemed.map TicketPayload.ticketId).Nodup
  enrolled : ∀ use ∈ s.enrolled, ∃ row, s.store.grants.lookup use.1 = some row ∧
    row.consumedAt ≠ none
  enrolledOnce : (s.enrolled.map Prod.fst).Nodup

theorem start_watched : Watched env {} where
  requests := fun _ member => by cases member
  effects := fun _ member => by cases member
  redeemed := fun _ member => by cases member
  redeemedOnce := List.nodup_nil
  enrolled := fun _ member => by cases member
  enrolledOnce := List.nodup_nil

theorem Watched.bound {s : NodeHub} (inv : Watched env s) : Bound env s :=
  { inv with
    effects := fun effect member => (inv.effects effect member).1
    redeemed := by
      intro payload member
      obtain ⟨row, found, node, installation, _⟩ := inv.redeemed payload member
      exact ⟨row, found, node, installation⟩ }

/-- The Nodes keep their keys. -/
def Keyed (s s' : NodeStore) : Prop :=
  ∀ row ∈ s.nodes.rows, ∃ row' ∈ s'.nodes.rows, row'.nodeId = row.nodeId ∧
    row'.identity.signingPublicKey = row.identity.signingPublicKey

variable {env}

theorem Vouched.keyed {s' : NodeStore}
    (vouched : Vouched env s endpoint transcript) (keyed : Keyed s s') :
    Vouched env s' endpoint transcript :=
  { vouched with
    signer := by
      obtain ⟨row, listed, named, signed⟩ := vouched.signer
      obtain ⟨row', listed', named', key⟩ := keyed row listed
      exact ⟨row', listed', named'.trans named, key ▸ signed⟩ }

theorem Keyed.of_eq {s' : NodeStore} (same : s'.nodes = s.nodes) : Keyed s s' :=
  fun row listed => ⟨row, same ▸ listed, rfl, rfl⟩

theorem Watched.aside {s : NodeHub} (inv : Watched env s) (keyed : Keyed s.store s'.store)
    (nonces : s'.store.nonces = s.store.nonces) (clock : s'.clock = s.clock)
    (requests : s'.requests = s.requests) (effects : s'.effects = s.effects)
    (redeemed : ∀ payload ∈ s'.redeemed, ∃ row,
      s'.store.tickets.lookup payload.ticketId = some row ∧ row.nodeId = payload.nodeId ∧
        row.installationId = payload.installationId ∧ row.consumedAt ≠ none)
    (redeemedOnce : (s'.redeemed.map TicketPayload.ticketId).Nodup)
    (enrolled : ∀ use ∈ s'.enrolled, ∃ row, s'.store.grants.lookup use.1 = some row ∧
      row.consumedAt ≠ none)
    (enrolledOnce : (s'.enrolled.map Prod.fst).Nodup) : Watched env s' where
  requests := by
    intro request member
    rw [requests] at member
    rw [clock]
    obtain ⟨vouched, rest⟩ := inv.requests request member
    exact ⟨vouched.keyed keyed, rest⟩
  effects := by
    intro effect member
    rw [effects] at member
    rw [clock, nonces]
    obtain ⟨vouched, rest⟩ := inv.effects effect member
    exact ⟨vouched.keyed keyed, rest⟩
  redeemed := redeemed
  redeemedOnce := redeemedOnce
  enrolled := enrolled
  enrolledOnce := enrolledOnce

theorem Watched.reading {s : NodeHub} (inv : Watched env s) (store : s'.store = s.store)
    (later : s.clock ≤ s'.clock) (effects : s'.effects = s.effects)
    (redeemed : s'.redeemed = s.redeemed) (enrolled : s'.enrolled = s.enrolled)
    (requests : ∀ request ∈ s'.requests, request ∈ s.requests ∨
      Vouched env s.store request.endpoint request.transcript ∧
        ¬request.transcript.timestamp.outside request.checkedAt ∧ request.checkedAt ≤ s'.clock ∧
          ∀ readAt, request.readAt = some readAt →
            request.checkedAt ≤ readAt ∧ readAt ≤ s'.clock) : Watched env s' where
  requests := by
    intro request member
    rw [store]
    rcases requests request member with earlier | new
    · obtain ⟨vouched, fresh, checked, read⟩ := inv.requests request earlier
      exact ⟨vouched, fresh, checked.trans later, fun readAt taken =>
        ⟨(read readAt taken).1, (read readAt taken).2.trans later⟩⟩
    · exact new
  effects := by
    intro effect member
    rw [effects] at member
    rw [store]
    obtain ⟨vouched, fresh, order, remembered⟩ := inv.effects effect member
    exact ⟨vouched, fresh, order, remembered.later later⟩
  redeemed := by
    rw [redeemed, store]
    exact inv.redeemed
  redeemedOnce := by
    rw [redeemed]
    exact inv.redeemedOnce
  enrolled := by
    rw [enrolled, store]
    exact inv.enrolled
  enrolledOnce := by
    rw [enrolled]
    exact inv.enrolledOnce

theorem consumeNonce_ok (consumed : consumeNonce endpoint transcript now s = .ok (returned, made)) :
    Keyed s made ∧ made.grants = s.grants ∧ made.tickets = s.tickets ∧
      ∃ inserted, s.nonces.insert ⟨transcript.nodeId, transcript.nonce, now⟩ = some inserted ∧
        made.nonces = inserted.delete fun row => decide (row.observedAt < now - 600) := by
  unfold consumeNonce at consumed
  simp only [bind_ok_iff, orRaise_ok_iff] at consumed
  obtain ⟨inserted, stored, returned⟩ := consumed
  cases returned
  refine ⟨?_, rfl, rfl, inserted, stored, rfl⟩
  by_cases presence : endpoint = .recordPresence
  · intro row listed
    simp only [if_pos presence]
    refine ⟨_, List.mem_map.mpr ⟨row, listed, rfl⟩, ?_⟩
    split <;> exact ⟨rfl, rfl⟩
  · simp only [if_neg presence]
    exact Keyed.of_eq rfl

theorem remembered_new {nonces inserted : Table NonceRow.key} {effect : Effect} (clock : Time)
    (stored : nonces.insert ⟨effect.transcript.nodeId, effect.transcript.nonce, effect.readAt⟩ =
      some inserted) :
    Remembered (inserted.delete fun row => decide (row.observedAt < effect.readAt - 600)) clock
      effect := by
  right
  refine ⟨⟨effect.transcript.nodeId, effect.transcript.nonce, effect.readAt⟩,
    List.mem_filter.mpr ⟨?_, ?_⟩, rfl, rfl⟩
  · rw [Table.insert_rows stored]
    exact List.mem_concat_self
  · rw [Bool.not_eq_true', decide_eq_false_iff_not]
    intro past
    linarith

theorem consume_watched {s : NodeHub} {i : Nat} (inv : Watched env s)
    (taken : step env s (.consume i) = some s') : Watched env s' := by
  simp only [step] at taken
  split at taken
  · rename_i endpoint transcript checkedAt readAt waiting
    obtain ⟨vouched, fresh, _, read⟩ := inv.requests _ (List.mem_of_getElem? waiting)
    obtain ⟨order, bounded⟩ := read readAt rfl
    split at taken
    · rename_i consumed
      cases taken
      obtain ⟨keyed, grants, tickets, inserted, stored, nonces⟩ := consumeNonce_ok consumed
      constructor
      case requests =>
        intro request member
        obtain ⟨vouched', rest⟩ := inv.requests request (List.mem_of_mem_eraseIdx member)
        exact ⟨vouched'.keyed keyed, rest⟩
      case effects =>
        intro effect member
        rcases List.mem_cons.mp member with rfl | earlier
        · refine ⟨vouched.keyed keyed, fresh, order, ?_⟩
          rw [nonces]
          exact @remembered_new _ _ ⟨endpoint, transcript, checkedAt, readAt⟩ s.clock stored
        · obtain ⟨vouched', fresh', order', remembered⟩ := inv.effects effect earlier
          refine ⟨vouched'.keyed keyed, fresh', order', ?_⟩
          rw [nonces]
          exact remembered.pruned stored bounded
      case redeemed =>
        rw [tickets]
        exact inv.redeemed
      case redeemedOnce => exact inv.redeemedOnce
      case enrolled =>
        rw [grants]
        exact inv.enrolled
      case enrolledOnce => exact inv.enrolledOnce
    · cases taken
      exact inv.reading rfl le_rfl rfl rfl rfl
        (fun _ member => .inl (List.mem_of_mem_eraseIdx member))
  · cases taken

theorem consume_once {s : NodeHub} {i : Nat} (inv : Watched env s) (once : Once s)
    (prompt : Prompt s (.consume i)) (taken : step env s (.consume i) = some s') : Once s' := by
  simp only [step] at taken
  split at taken
  · rename_i endpoint transcript checkedAt readAt waiting
    obtain ⟨_, again, _, _⟩ := inv.requests _ (List.mem_of_getElem? waiting)
    split at taken
    · rename_i consumed
      cases taken
      obtain ⟨_, _, _, inserted, stored, _⟩ := consumeNonce_ok consumed
      have absent := Table.insert_fresh stored
      refine List.nodup_cons.mpr ⟨?_, once⟩
      intro member
      obtain ⟨effect, happened, same⟩ := List.mem_map.mp member
      obtain ⟨_, first, order, remembered⟩ := inv.effects effect happened
      subst same
      obtain ⟨⟨value, stamped⟩, soon⟩ := prompt _ waiting
        ⟨Table.lookup_eq_none_iff.mpr absent, effect, happened, rfl, rfl⟩
      rcases remembered with past | ⟨row, listed, named, _⟩
      · exact absurd (waited_long stamped first again order past) (not_lt.mpr soon)
      · exact absent (List.mem_map.mpr ⟨row, listed, named⟩)
    · cases taken
      exact once
  · cases taken

theorem createNodeGrant_ok {ttl : Int} {row : NodeGrantRow}
    (created : createNodeGrant ttl row now s = .ok (returned, made)) :
    made.nodes = s.nodes ∧ made.nonces = s.nonces ∧ made.tickets = s.tickets ∧
      ∃ new, s.grants.insert new = some made.grants := by
  unfold createNodeGrant at created
  simp only [bind_ok_iff, require_ok_iff, orRaise_ok_iff] at created
  obtain ⟨_, _, grants, inserted, returned⟩ := created
  cases returned
  exact ⟨rfl, rfl, rfl, _, inserted⟩

theorem consumeNodeGrant_ok {request : EnrollmentRequest}
    (consumed : consumeNodeGrant request now s = .ok (returned, made)) :
    Keyed s made ∧ made.nonces = s.nonces ∧ made.tickets = s.tickets ∧
      (∃ row, s.grants.lookup request.grantId = some row ∧ row.consumedAt = none) ∧
      ∀ grantId, made.grants.lookup grantId = (s.grants.lookup grantId).map fun row =>
        if row.grantId == request.grantId then { row with consumedAt := some now } else row := by
  unfold consumeNodeGrant at consumed
  simp only [bind_ok_iff, require_ok_iff, orRaise_ok_iff] at consumed
  obtain ⟨row, found, _, ⟨unused, _⟩, nodes, inserted, returned⟩ := consumed
  cases returned
  refine ⟨?_, rfl, rfl, ⟨row, found, unused⟩, by simp only [Table.lookup_update, implies_true]⟩
  intro node listed
  refine ⟨node, ?_, rfl, rfl⟩
  rw [Table.insert_rows inserted]
  exact List.mem_append_left _ listed

theorem issueTicket_ok {installationId nodeId ticketId : String}
    {transport : Transport} {scope : TicketScope} {subjectId : Option String}
    (issued : issueTicket installationId nodeId transport scope subjectId ticketId now s =
      .ok (returned, made)) :
    made.nodes = s.nodes ∧ made.nonces = s.nonces ∧ made.grants = s.grants ∧
      ∃ row, s.tickets.insert row = some made.tickets := by
  unfold issueTicket at issued
  simp only [bind_ok_iff, require_ok_iff, orRaise_ok_iff] at issued
  obtain ⟨_, _, _, _, _, _, _, _, tickets, inserted, returned⟩ := issued
  cases returned
  exact ⟨rfl, rfl, rfl, _, inserted⟩

theorem verifyAndConsumeTicket_ok {token : String} {payload : TicketPayload}
    (consumed : verifyAndConsumeTicket env token now s = .ok (payload, made)) :
    made.nodes = s.nodes ∧ made.nonces = s.nonces ∧ made.grants = s.grants ∧
      (∃ row, s.tickets.lookup payload.ticketId = some row ∧ row.nodeId = payload.nodeId ∧
        row.installationId = payload.installationId ∧ row.consumedAt = none) ∧
      ∀ ticketId, made.tickets.lookup ticketId = (s.tickets.lookup ticketId).map fun row =>
        if row.ticketId == payload.ticketId then { row with consumedAt := some now } else row := by
  unfold verifyAndConsumeTicket consumeTicket at consumed
  simp only [bind_ok_iff, require_ok_iff, orRaise_ok_iff] at consumed
  obtain ⟨_, _, _, _, ⟨_, _⟩, ⟨row, found, _, ⟨node, installation, unused, _⟩, done⟩, returned⟩ :=
    consumed
  cases done
  cases returned
  exact ⟨rfl, rfl, rfl, ⟨row, found, node, installation, unused⟩,
    by simp only [Table.lookup_update, implies_true]⟩

theorem step_watched {s : NodeHub} (inv : Watched env s)
    (taken : step env s label = some s') : Watched env s' := by
  cases label with
  | createGrant ttl row now =>
    simp only [step] at taken
    split at taken <;> cases taken
    rename_i created
    obtain ⟨nodes, nonces, tickets, new, inserted⟩ := createNodeGrant_ok created
    refine inv.aside (Keyed.of_eq nodes) nonces rfl rfl rfl ?_ inv.redeemedOnce ?_ inv.enrolledOnce
    · rw [tickets]
      exact inv.redeemed
    · intro use member
      obtain ⟨row', found, consumed⟩ := inv.enrolled use member
      refine ⟨row', ?_, consumed⟩
      rw [Table.lookup_insert inserted, if_neg, found]
      intro same
      exact Table.insert_fresh inserted (List.mem_map.mpr
        ⟨row', Table.lookup_mem found, (Table.lookup_key found).trans same.symm⟩)
  | checkEnrollment request now =>
    simp only [step] at taken
    split at taken <;> cases taken
    exact inv.aside (Keyed.of_eq rfl) rfl rfl rfl rfl inv.redeemed inv.redeemedOnce
      inv.enrolled inv.enrolledOnce
  | consumeEnrollment i now =>
    simp only [step] at taken
    split at taken
    · rename_i request waiting
      split at taken
      · rename_i consumed
        cases taken
        obtain ⟨keyed, nonces, tickets, ⟨row, found, unused⟩, after⟩ := consumeNodeGrant_ok consumed
        refine inv.aside keyed nonces rfl rfl rfl ?_ inv.redeemedOnce ?_ ?_
        · rw [tickets]
          exact inv.redeemed
        · intro use member
          rw [after]
          rcases List.mem_cons.mp member with rfl | earlier
          · have named : (row.grantId == request.grantId) = true :=
              beq_iff_eq.mpr (Table.lookup_key found)
            refine ⟨_, by rw [found, Option.map_some, if_pos named], Option.some_ne_none _⟩
          · obtain ⟨row', found', consumed'⟩ := inv.enrolled use earlier
            refine ⟨_, by rw [found', Option.map_some], ?_⟩
            split
            · exact Option.some_ne_none _
            · exact consumed'
        · refine List.nodup_cons.mpr ⟨?_, inv.enrolledOnce⟩
          intro member
          obtain ⟨use, before, same⟩ := List.mem_map.mp member
          obtain ⟨row', found', consumed'⟩ := inv.enrolled use before
          rw [same, found] at found'
          cases found'
          exact consumed' unused
      · cases taken
        exact inv.aside (Keyed.of_eq rfl) rfl rfl rfl rfl inv.redeemed inv.redeemedOnce
          inv.enrolled inv.enrolledOnce
    · cases taken
  | check endpoint request now =>
    simp only [step] at taken
    split at taken
    · rename_i later
      split at taken
      · rename_i checked
        cases taken
        refine inv.reading rfl later rfl rfl rfl ?_
        intro other member
        rcases List.mem_concat.mp member with earlier | new
        · exact .inl earlier
        · rw [new]
          obtain ⟨vouched, fresh⟩ := checkRequest_ok env checked
          exact .inr ⟨vouched, fresh, le_rfl, nofun⟩
      · cases taken
        exact inv.reading rfl later rfl rfl rfl (fun _ => .inl)
    · cases taken
  | readClock i now =>
    simp only [step] at taken
    split at taken
    · rename_i endpoint transcript checkedAt waiting
      split at taken <;> cases taken
      rename_i later
      refine inv.reading rfl later rfl rfl rfl ?_
      intro other member
      rcases List.mem_or_eq_of_mem_set member with earlier | rfl
      · exact .inl earlier
      · obtain ⟨vouched, fresh, checked, _⟩ := inv.requests _ (List.mem_of_getElem? waiting)
        refine .inr ⟨vouched, fresh, checked.trans later, ?_⟩
        intro readAt read
        cases read
        exact ⟨checked.trans later, le_rfl⟩
    · cases taken
  | consume i => exact consume_watched inv taken
  | putInstallation row =>
    cases taken
    exact inv.aside (Keyed.of_eq rfl) rfl rfl rfl rfl inv.redeemed inv.redeemedOnce
      inv.enrolled inv.enrolledOnce
  | issueTicket installationId nodeId transport scope subjectId ticketId now =>
    simp only [step] at taken
    split at taken <;> cases taken
    rename_i issued
    obtain ⟨nodes, nonces, grants, row, inserted⟩ := issueTicket_ok issued
    refine inv.aside (Keyed.of_eq nodes) nonces rfl rfl rfl ?_ inv.redeemedOnce ?_ inv.enrolledOnce
    · intro payload member
      obtain ⟨row', found, rest⟩ := inv.redeemed payload member
      refine ⟨row', ?_, rest⟩
      rw [Table.lookup_insert inserted, if_neg, found]
      intro same
      exact Table.insert_fresh inserted (List.mem_map.mpr
        ⟨row', Table.lookup_mem found, (Table.lookup_key found).trans same.symm⟩)
    · rw [grants]
      exact inv.enrolled
  | consumeTicket token now =>
    simp only [step] at taken
    split at taken <;> cases taken
    rename_i payload _ consumed
    obtain ⟨nodes, nonces, grants, ⟨row, found, node, installation, unused⟩, after⟩ :=
      verifyAndConsumeTicket_ok consumed
    refine inv.aside (Keyed.of_eq nodes) nonces rfl rfl rfl ?_ ?_ ?_ inv.enrolledOnce
    · intro other member
      rw [after]
      rcases List.mem_cons.mp member with rfl | earlier
      · have named : (row.ticketId == other.ticketId) = true :=
          beq_iff_eq.mpr (Table.lookup_key found)
        exact ⟨{ row with consumedAt := some now },
          by rw [found, Option.map_some, if_pos named], node, installation,
          Option.some_ne_none _⟩
      · obtain ⟨row', found', node', installation', consumed'⟩ := inv.redeemed other earlier
        refine ⟨_, by rw [found', Option.map_some], ?_⟩
        split
        · exact ⟨node', installation', Option.some_ne_none _⟩
        · exact ⟨node', installation', consumed'⟩
    · refine List.nodup_cons.mpr ⟨?_, inv.redeemedOnce⟩
      intro member
      obtain ⟨other, before, same⟩ := List.mem_map.mp member
      obtain ⟨row', found', _, _, consumed'⟩ := inv.redeemed other before
      rw [same, found] at found'
      cases found'
      exact consumed' unused
    · rw [grants]
      exact inv.enrolled

theorem step_once {s : NodeHub} (inv : Watched env s) (once : Once s)
    (prompt : Prompt s label) (taken : step env s label = some s') : Once s' := by
  by_cases consumes : ∃ i, label = .consume i
  · obtain ⟨i, rfl⟩ := consumes
    exact consume_once inv once prompt taken
  · have same : s'.effects = s.effects := by
      unfold step at taken
      grind
    unfold Once
    rw [same]
    exact once

variable (env)

/-- Every run keeps what needs no condition, and no request takes effect twice in a run whose
requests store their nonces promptly. -/
theorem replay_protected (labels : List NodeHubStep) :
    (∀ t ∈ Transition.trace (step env) {} labels, Bound env t) ∧
      ((∀ taken ∈ Transition.accepted (step env) {} labels, Prompt taken.1 taken.2) →
        ∀ t ∈ Transition.trace (step env) {} labels, Once t) := by
  constructor
  · intro t member
    exact (Transition.trace_invariant (fun _ _ _ inv taken => step_watched inv taken)
      (start_watched env) labels t member).bound
  · intro prompt t member
    have kept : ∀ s label s', Watched env s ∧ Once s → Prompt s label →
        step env s label = some s' → Watched env s' ∧ Once s' :=
      fun _ _ _ safe prompt taken =>
        ⟨step_watched safe.1 taken, step_once safe.1 safe.2 prompt taken⟩
    exact (Transition.trace_safe_of_clean kept ⟨start_watched env, List.nodup_nil⟩ prompt t
      member).2

def pullRequest (nonce : String) (sentAt : Time) : NodeRequest where
  nodeId := "n"
  timestamp := .number sentAt
  nonce := nonce
  signature := nonce

def pullTranscript (nonce : String) (sentAt : Time) : Transcript where
  audience := Endpoint.pullWebhookEvents.audience
  realm := "workspace"
  nodeId := "n"
  timestamp := .number sentAt
  nonce := nonce
  fields := fun _ => none

/-- The Node `n` has signed what carries its nonce as the signature. -/
def plainHub : HubEnv where
  hubId := "hub"
  workspaceId := "workspace"
  sha256 := id
  signatures :=
    { verify := fun key transcript signature => key == "key" && signature == transcript.nonce
      signed := fun key _ => key = "key"
      unforgeable := by
        intro key transcript signature verified
        simp only [Bool.and_eq_true, beq_iff_eq] at verified
        exact verified.1 }
  verifyEnrollment := fun _ _ => true
  ticketOf := fun _ => none

/-- A test for `Prompt`, without a look at the effects. -/
def promptAt (s : NodeHub) : NodeHubStep → Bool
  | .consume i => s.requests[i]?.all fun request =>
    (s.store.nonces.lookup (request.transcript.nodeId, request.transcript.nonce)).isSome ||
      (match request.transcript.timestamp with
        | .number _ => decide (s.clock ≤ request.checkedAt + 360)
        | _ => false)
  | _ => true

theorem prompt_of_promptAt {s : NodeHub} (tested : promptAt s label = true) : Prompt s label := by
  cases label with
  | consume i =>
    intro request waiting forgotten
    simp only [promptAt, waiting, Option.all_some, forgotten.1, Option.isSome_none,
      Bool.false_or] at tested
    split at tested
    · rename_i value stamped
      exact ⟨⟨value, stamped⟩, of_decide_eq_true tested⟩
    · cases tested
  | _ => trivial

def enrolledNode : List NodeHubStep :=
  [.createGrant 600
      { grantId := "g", secretDigest := "s", challenge := "c", expiresAt := 0 } 1000,
    .checkEnrollment
      { grantId := "g"
        grantSecret := "s"
        challenge := "c"
        identity :=
          { nodeId := "n", displayName := "Node", signingPublicKey := "key", signingKeyVersion := 1,
            configurationPublicKey := "box", configurationKeyVersion := 1, platform := "linux",
            version := "1" }
        signature := "s" } 1000, .consumeEnrollment 0 1000]

theorem prompt_duplicate_once :
    let labels := enrolledNode ++
      [.check .pullWebhookEvents (pullRequest "one" 1000) 1000,
        .check .pullWebhookEvents (pullRequest "one" 1000) 1100, .readClock 0 1100, .consume 0,
        .readClock 0 1110, .consume 0]
    ∀ t ∈ Transition.trace (step plainHub) {} labels, Once t := by
  refine (replay_protected plainHub _).2 fun taken member => prompt_of_promptAt ?_
  have tested : (Transition.accepted (step plainHub) {} (enrolledNode ++
      [.check .pullWebhookEvents (pullRequest "one" 1000) 1000,
        .check .pullWebhookEvents (pullRequest "one" 1000) 1100, .readClock 0 1100, .consume 0,
        .readClock 0 1110, .consume 0])).all (fun taken => promptAt taken.1 taken.2) = true := by
    decide +kernel
  exact List.all_eq_true.mp tested taken member

/-- A request is presented twice; the second presentation waits between its check and its nonce
until the first is forgotten. -/
def lateDuplicate : List NodeHubStep :=
  enrolledNode ++
    [.check .pullWebhookEvents (pullRequest "one" 1000) 1000,
      .check .pullWebhookEvents (pullRequest "one" 1000) 1000, .readClock 0 1000, .consume 0,
      .check .pullWebhookEvents (pullRequest "two" 1700) 1700, .readClock 1 1700, .consume 1,
      .readClock 0 1700, .consume 0]

theorem late_duplicate_takes_effect :
    ¬∀ t ∈ Transition.trace (step plainHub) {} lateDuplicate, Once t := by
  intro once
  have ends := once _ (Transition.mem_trace_final _ lateDuplicate)
  have twice : ((Transition.final (step plainHub) {} lateDuplicate).effects.map Effect.transcript) =
      [pullTranscript "one" 1000, pullTranscript "two" 1700, pullTranscript "one" 1000] := by
    with_unfolding_all rfl
  unfold Once at ends
  rw [twice] at ends
  simp at ends

end Knoa.Hub.NodeHub
