import Knoa.Extensions.ResourceBridge

/-!
# The definitions that a reconciliation serves

Of what the Task store lists for the server of a bridge, a reconciliation takes up every definition
that it does not pass over.
-/
namespace Knoa.Extensions
open Knoa.Automation Knoa.Tasks Relational

/-- The definitions of a round are the ones that the Task store lists for the server. -/
def Round.Lists (env : BridgeEnv) (round : Round) (stored : Table Tasks.EventDefinition.taskId) :
    Prop :=
  ∃ found, listEventTaskDefinitions stored ("mcp:" ++ env.serverId) 5000 = .ok found ∧
    round.definitions.rows.map EventDefinition.taskId = found.map Tasks.EventDefinition.taskId

/-- A reconciliation goes on without the definition: its Session is not found, another kind of launch
is bound to its Task, or the trigger that is bound is gone. -/
def Round.PassesOver (round : Round) (definition : EventDefinition) : Prop :=
  round.resolves definition.taskId = false ∨ ∃ s s' : Bridge,
    s.ensureTriggerBinding round definition = (.ok none, s') ∨
      ∃ triggerId message, s.ensureTriggerBinding round definition = (.ok (some triggerId), s') ∧
        s'.trigger definition.principalId triggerId = .error (.notFound message)

variable {env : BridgeEnv} {round : Round} {definitions : List EventDefinition}
  {owned : List OwnedDefinition} {s s' : Bridge}

theorem ownDefinitions_owns (h : BridgeEnv.ownDefinitions round definitions s = (.ok owned, s')) :
    ∀ definition ∈ definitions, round.PassesOver definition ∨
      ∃ own ∈ owned, own.definition = definition := by
  induction definitions generalizing s owned with
  | nil => nofun
  | cons first rest ih =>
    -- what becomes of the first one; the rest is listed from the state after it
    have split_first : ∀ {later : List OwnedDefinition} {t : Bridge},
        BridgeEnv.ownDefinitions round rest t = (.ok later, s') →
        (∀ own ∈ later, own ∈ owned) →
        (round.PassesOver first ∨ ∃ own ∈ owned, own.definition = first) →
        ∀ definition ∈ first :: rest, round.PassesOver definition ∨
          ∃ own ∈ owned, own.definition = definition := by
      intro later t listed part here definition member
      rcases List.mem_cons.mp member with rfl | later_one
      · exact here
      · refine (ih listed definition later_one).imp_right ?_
        rintro ⟨own, known, same⟩
        exact ⟨own, part own known, same⟩
    unfold BridgeEnv.ownDefinitions at h
    split at h
    next unresolved => exact split_first h (fun _ known => known) (.inl (.inl unresolved))
    · split at h
      · cases h
      next t ensured =>
        exact split_first h (fun _ known => known) (.inl (.inr ⟨s, t, .inl ensured⟩))
      next triggerId t ensured =>
        split at h
        next message gone =>
          exact split_first h (fun _ known => known)
            (.inl (.inr ⟨s, t, .inr ⟨triggerId, message, ensured, gone⟩⟩))
        · cases h
        · split at h
          · cases h
          next trigger _ later _ listed =>
            cases h
            exact split_first listed (fun _ known => List.mem_cons_of_mem _ known)
              (.inr ⟨_, List.mem_cons_self, rfl⟩)

/-- Where the listing is complete, a reconciliation misses no definition of its server. -/
theorem routed_served {stored : Table Tasks.EventDefinition.taskId}
    (lists : round.Lists env stored) (complete : RoutesAll stored ("mcp:" ++ env.serverId) 5000)
    (few : (routed stored ("mcp:" ++ env.serverId)).length ≤ 5000)
    (listed : BridgeEnv.ownDefinitions round round.definitions.rows s = (.ok owned, s')) :
    ∀ definition ∈ routed stored ("mcp:" ++ env.serverId),
      ∃ known ∈ round.definitions.rows, known.taskId = definition.taskId ∧
        (round.PassesOver known ∨ ∃ own ∈ owned, own.definition = known) := by
  intro definition member
  obtain ⟨found, lists, same⟩ := lists
  obtain ⟨found', lists', all⟩ := complete (by exact_mod_cast few)
  rw [lists] at lists'
  cases lists'
  have named : definition.taskId ∈ round.definitions.rows.map EventDefinition.taskId := by
    rw [same]
    exact List.mem_map_of_mem (all definition member)
  obtain ⟨known, row, id⟩ := List.mem_map.mp named
  exact ⟨known, row, id, ownDefinitions_owns listed known row⟩

end Knoa.Extensions
