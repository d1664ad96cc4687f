import Knoa.Tasks.Invariants

/-!
# The gap-free journal

What a subscriber may rely on when it replays a Task or a principal's feed.
-/
namespace Knoa.Tasks
open Relational (Table)
open Transition (final trace)

/-- The journals are numbered without gap or repetition, the feed increases. -/
structure GapFree (s : Store) : Prop where
  journal : ∀ row ∈ s.tasks.rows,
    (s.eventsOf row.taskId).map EventRow.eventSeq = List.range' 1 (row.nextEventSeq - 1)
  feed : (s.feed.rows.map FeedRow.feedEventId).Pairwise (· < ·)

structure AllOrNothing (env : Env) (s : Store) : Prop where
  refused : ∀ (op : Op) (e : TaskError), (op.call env s).1 = .error e → (op.call env s).2 = s
  returned : ∀ (op : Op) (s' : Store), op.call env s = (.ok ⟨⟩, s') → FeedGrows s s'

theorem Sound.gapFree {s : Store} (sound : Sound s) : GapFree s where
  journal := by
    intro row member
    obtain ⟨v, seen, rfl⟩ := view_of_mem member
    have numbered := (sound.numbered _ v seen).2
    rwa [view_events seen] at numbered
  feed := sound.feed.increasing

theorem Sound.allOrNothing {s : Store} (env : Env) (sound : Sound s) : AllOrNothing env s where
  refused := fun _ _ => call_error
  returned := by
    intro op s' called
    have taken : step env s op = some s' := by rw [step, called]
    exact (step_refines sound.rooted taken).feed

theorem journal_gap_free (env : Env) (sessions : Table SessionRow.sessionHandle)
    (definitions : Table DefinitionRow.taskId) (executions : Table ExecutionRow.executionId)
    (ops : List Op) :
    GapFree (final (step env) (Store.initial sessions definitions executions) ops) ∧
      AllOrNothing env (final (step env) (Store.initial sessions definitions executions) ops) := by
  have sound : Sound (final (step env) (Store.initial sessions definitions executions) ops) :=
    final_sound sessions definitions executions ops
  exact ⟨sound.gapFree, sound.allOrNothing env⟩

end Knoa.Tasks
