import Knoa.Agents.Definitions

/-!
# Invocation policy snapshots

`InvocationPolicyRepository`: one policy for each turn or Task, the first that was
recorded for it.
-/
namespace Knoa.Agents
open Knoa.Tasks (Time)
open Relational Transaction

structure SnapshotRow where
  turnId : String
  principalId : String
  sessionHandle : String
  policyDigest : String
  policy : ResolvedInvocationPolicy
  createdAt : Time
  deriving DecidableEq

abbrev Snapshots := Table SnapshotRow.turnId

namespace Snapshots

variable (policyDigest : ResolvedInvocationPolicy → String)

def get (snapshots : Snapshots) (turnId : String) : Except AgentError ResolvedInvocationPolicy :=
  orRaise ((snapshots.lookup turnId).map SnapshotRow.policy)
    (.lookup "Invocation policy snapshot not found")

def record (snapshots : Snapshots) (now : Time) (turnId principalId sessionHandle : String)
    (policy : ResolvedInvocationPolicy) : Except AgentError Snapshots :=
  let row : SnapshotRow :=
    { turnId, principalId, sessionHandle,
      policyDigest := policyDigest policy, policy, createdAt := now }
  match snapshots.insert row with
  | some snapshots' => .ok snapshots'
  | none => do
    let existing ← snapshots.get turnId
    if existing.agentId ≠ policy.agentId then
      .error (.runtime "Invocation Agent changed for an existing Turn")
    else return snapshots

variable {policyDigest} {snapshots snapshots' : Snapshots} {now : Time}
  {turnId principalId sessionHandle : String} {policy : ResolvedInvocationPolicy}

theorem get_ok_iff : snapshots.get turnId = .ok policy ↔
    ∃ row, snapshots.lookup turnId = some row ∧ row.policy = policy := by
  rw [get, orRaise_ok_iff, Option.map_eq_some_iff]

theorem record_fresh (fresh : snapshots.lookup turnId = none) :
    ∃ row : SnapshotRow, row.turnId = turnId ∧ row.policy = policy ∧
      row.policyDigest = policyDigest policy ∧ ∃ snapshots', snapshots.insert row = some snapshots' ∧
        snapshots.record policyDigest now turnId principalId sessionHandle policy =
          .ok snapshots' := by
  have absent : snapshots.lookup (SnapshotRow.turnId
      ⟨turnId, principalId, sessionHandle, policyDigest policy, policy, now⟩) = none := fresh
  obtain ⟨snapshots', inserted⟩ := Table.insert_of_lookup_none absent
  refine ⟨_, rfl, rfl, rfl, snapshots', inserted, ?_⟩
  unfold record
  dsimp only
  rw [inserted]

section
variable (h : snapshots.record policyDigest now turnId principalId sessionHandle policy = .ok snapshots')
include h

theorem record_ok :
    snapshots' = snapshots ∨ ∃ row : SnapshotRow, row.turnId = turnId ∧ row.policy = policy ∧
      snapshots.insert row = some snapshots' := by
  unfold record at h
  dsimp only at h
  split at h
  · rename_i inserted
    cases h
    exact Or.inr ⟨_, rfl, rfl, inserted⟩
  · obtain ⟨existing, -, h⟩ := Transaction.of_bind h
    split at h <;> cases h
    exact Or.inl rfl

theorem record_keeps {row : SnapshotRow} (stored : snapshots.lookup row.turnId = some row) :
    snapshots'.lookup row.turnId = some row := by
  rcases record_ok h with rfl | ⟨added, -, -, inserted⟩
  · exact stored
  · exact Table.lookup_of_mem (by
      rw [Table.insert_rows inserted]
      exact List.mem_append_left _ (Table.lookup_mem stored))

theorem get_keeps {id : String} {known : ResolvedInvocationPolicy}
    (read : snapshots.get id = .ok known) : snapshots'.get id = .ok known := by
  obtain ⟨row, stored, same⟩ := get_ok_iff.mp read
  obtain rfl := Table.lookup_key stored
  exact get_ok_iff.mpr ⟨row, record_keeps h stored, same⟩

theorem get_recorded (absent : snapshots.lookup turnId = none) :
    snapshots'.get turnId = .ok policy := by
  unfold record at h
  dsimp only at h
  split at h
  · rename_i inserted
    cases h
    exact get_ok_iff.mpr ⟨_, (Table.lookup_insert inserted _).trans (if_pos rfl), rfl⟩
  · rename_i refused
    exact absurd (Table.insert_eq_none refused) (Table.lookup_eq_none_iff.mp absent)

end

end Snapshots

end Knoa.Agents
