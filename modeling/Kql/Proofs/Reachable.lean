import Kql.Proofs.BuilderSteps
import Kql.Proofs.SchemaNames

/-!
The pipelines that can be built: from a table with a schema that can be made, by builder calls that
succeed, where the right side of a join is itself such a pipeline. What every call preserves holds
of all of them.
-/

namespace Kql.Pipeline

/-- The pipeline that a call joins with. -/
def Call.right? : Call → Option Pipeline
  | .join right _ _ _ => some right
  | _ => none

inductive Reachable : Pipeline → Prop
  | ofTable (table : String) (database : DatabaseRef) {schema : Schema} :
      schema.Constructed → Reachable (ofTable table database schema)
  | perform {p q : Pipeline} {call : Call} : Reachable p →
      (∀ right, call.right? = some right → Reachable right) →
      p.perform call = .ok q → Reachable q

theorem nodup_names_perform {p q : Pipeline} {call : Call} (hp : p.schema.names.Nodup)
    (h : p.perform call = .ok q) : q.schema.names.Nodup := by
  obtain hs | hs | ⟨columns, hs⟩ | ⟨columns, hs⟩ | ⟨right, on, kind, strategy, rfl, hs⟩ :=
    perform_schema h
  all_goals rw [hs]
  · exact hp
  · exact hp
  · exact Schema.nodup_names_foldl_insert hp columns
  · exact Schema.nodup_names_ofColumns columns
  · exact Schema.nodup_names_join hp kind right.schema

theorem Reachable.nodup_names {p : Pipeline} (h : p.Reachable) : p.schema.names.Nodup := by
  induction h with
  | ofTable table database h => exact h.nodup_names
  | perform _ _ h ihp _ => exact nodup_names_perform ihp h

end Kql.Pipeline
