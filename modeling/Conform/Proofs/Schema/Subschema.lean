import Conform.Proofs.Schema.Renaming

namespace Conform

open Relation

namespace Schema

variable {schema : Schema}

def rootedAt (schema : Schema) (id : NodeId) : Schema := { schema with root := id }

theorem Reachable.of_rootedAt {id below : NodeId} (reached : schema.Reachable id)
    (h : (schema.rootedAt id).Reachable below) : schema.Reachable below :=
  ReflTransGen.trans reached h

theorem copies_rootedAt (schema : Schema) (start : NodeId) :
    schema.Copies (schema.rootedAt start) id Set.univ where
  closed := fun _ _ _ _ => trivial
  injective := Set.injOn_id _
  node?_eq := by
    intro id _
    rw [funext Node.rename_id, Option.map_id_fun']
    rfl

theorem render_rootedAt (schema : Schema) (start : NodeId) :
    (schema.rootedAt start).render = schema.render :=
  funext fun _ => (copies_rootedAt schema start).render_eq trivial

theorem declaredKeys_rootedAt (schema : Schema) (start : NodeId) :
    (schema.rootedAt start).declaredKeys = schema.declaredKeys := by
  funext combining members
  have same := (copies_rootedAt schema start).declaredKeys_eq (Set.mem_univ combining)
    fun m (_ : m ∈ members) => trivial
  rw [List.map_id] at same
  exact same

end Schema
end Conform
