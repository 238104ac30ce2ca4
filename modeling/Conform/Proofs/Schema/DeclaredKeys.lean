import Conform.Proofs.Schema.Reachability
import Conform.Validator.DeclaredKeys

/-!
The keys that an intersection knows are those of the objects that it reaches through members. The
search enters a union or an intersection once, so what is left to show is that nothing is passed
over.
-/

namespace Conform

def Node.keys : Node → List String
  | .object _ properties => properties.map (·.1)
  | _ => []

namespace Schema

open Relation

def Declares (schema : Schema) (id : NodeId) (key : String) : Prop :=
  ∃ node, schema.node? id = some node ∧ key ∈ node.keys

/-- The keys of the objects that a node is or reaches through members alone. -/
def keysFrom (schema : Schema) (id : NodeId) : Set String :=
  {key | ∃ object, ReflTransGen schema.Combines id object ∧ schema.Declares object key}

def keysBelow (schema : Schema) (id : NodeId) : Set String :=
  {key | ∃ object, TransGen schema.Combines id object ∧ schema.Declares object key}

variable {schema : Schema} {keys : List String} {entered waiting : List NodeId} {id m : NodeId}
  {node : Node} {key : String}

/-! The search by one equation for each case of the node that is next. -/

theorem collectKeys_nil : schema.collectKeys keys entered [] = keys := by
  rw [collectKeys]

theorem collectKeys_of_object {name : String} {properties : List (String × Property)}
    (hnode : schema.node? id = some (.object name properties)) :
    schema.collectKeys keys entered (id :: waiting) =
      schema.collectKeys (addKeys keys properties) entered waiting := by
  rw [collectKeys]
  split <;> simp_all

theorem collectKeys_of_entered {members : List NodeId} (hentered : id ∈ entered)
    (hnode : schema.node? id = some (.union members) ∨
      schema.node? id = some (.intersection members)) :
    schema.collectKeys keys entered (id :: waiting) = schema.collectKeys keys entered waiting := by
  rw [collectKeys]
  split <;> simp_all

theorem collectKeys_of_combinator {members : List NodeId} (hentered : id ∉ entered)
    (hnode : schema.node? id = some (.union members) ∨
      schema.node? id = some (.intersection members)) :
    schema.collectKeys keys entered (id :: waiting) =
      schema.collectKeys keys (id :: entered) (members ++ waiting) := by
  rw [collectKeys]
  split <;> simp_all

theorem collectKeys_of_other
    (hobject : ∀ name properties, schema.node? id ≠ some (.object name properties))
    (hunion : ∀ members, schema.node? id ≠ some (.union members))
    (hintersection : ∀ members, schema.node? id ≠ some (.intersection members)) :
    schema.collectKeys keys entered (id :: waiting) = schema.collectKeys keys entered waiting := by
  rw [collectKeys]
  split <;> simp_all

theorem combines_iff_of_node (hnode : schema.node? id = some node) :
    schema.Combines id m ↔ m ∈ node.combined := by
  simp [Combines, hnode]

theorem declares_iff_of_node (hnode : schema.node? id = some node) :
    schema.Declares id key ↔ key ∈ node.keys := by
  simp [Declares, hnode]

theorem mem_addKeys {properties : List (String × Property)} :
    key ∈ addKeys keys properties ↔ key ∈ keys ∨ key ∈ properties.map (·.1) := by
  induction properties generalizing keys with
  | nil => simp [addKeys]
  | cons first rest ih =>
      have hrest : key ∈ addKeys keys (first :: rest) ↔
          key ∈ (if first.1 ∈ keys then keys else keys ++ [first.1]) ∨ key ∈ rest.map (·.1) := ih
      rw [hrest, List.map_cons, List.mem_cons]
      split
      · rename_i hfirst
        constructor
        · rintro (hkeys | hlater)
          · exact .inl hkeys
          · exact .inr (.inr hlater)
        · rintro (hkeys | rfl | hlater)
          · exact .inl hkeys
          · exact .inl hfirst
          · exact .inr hlater
      · rw [List.mem_append, List.mem_singleton, or_assoc]

theorem mem_keysFrom_of_combines (h : schema.Combines id m) (hkey : key ∈ schema.keysFrom m) :
    key ∈ schema.keysFrom id := by
  obtain ⟨object, hpath, hdeclares⟩ := hkey
  exact ⟨object, hpath.head h, hdeclares⟩

theorem mem_keysBelow_iff :
    key ∈ schema.keysBelow id ↔ ∃ m, schema.Combines id m ∧ key ∈ schema.keysFrom m := by
  constructor
  · rintro ⟨object, hpath, hdeclares⟩
    obtain ⟨m, hm, hrest⟩ := TransGen.head'_iff.mp hpath
    exact ⟨m, hm, object, hrest, hdeclares⟩
  · rintro ⟨m, hm, object, hrest, hdeclares⟩
    exact ⟨object, TransGen.head' hm hrest, hdeclares⟩

theorem keysBelow_subset_keysFrom (schema : Schema) (id : NodeId) :
    schema.keysBelow id ⊆ schema.keysFrom id := by
  rintro key ⟨object, hpath, hdeclares⟩
  exact ⟨object, hpath.to_reflTransGen, hdeclares⟩

theorem mem_keysFrom_iff :
    key ∈ schema.keysFrom id ↔ schema.Declares id key ∨ key ∈ schema.keysBelow id := by
  constructor
  · rintro ⟨object, hpath, hdeclares⟩
    rcases ReflTransGen.cases_head hpath with rfl | ⟨m, hm, hrest⟩
    · exact .inl hdeclares
    · exact .inr ⟨object, TransGen.head' hm hrest, hdeclares⟩
  · rintro (hdeclares | hbelow)
    · exact ⟨id, .refl, hdeclares⟩
    · exact schema.keysBelow_subset_keysFrom id hbelow

theorem keysFrom_of_mem_collectKeys (h : key ∈ schema.collectKeys keys entered waiting) :
    key ∈ keys ∨ ∃ m ∈ waiting, key ∈ schema.keysFrom m := by
  have later : ∀ {first : NodeId} {rest : List NodeId},
      (∃ m ∈ rest, key ∈ schema.keysFrom m) → ∃ m ∈ first :: rest, key ∈ schema.keysFrom m := by
    rintro first rest ⟨m, hm, hkey⟩
    exact ⟨m, List.mem_cons_of_mem _ hm, hkey⟩
  have below : ∀ {first : NodeId} {node : Node} {rest : List NodeId},
      schema.node? first = some node →
      (∃ m ∈ node.combined ++ rest, key ∈ schema.keysFrom m) →
      ∃ m ∈ first :: rest, key ∈ schema.keysFrom m := by
    rintro first node rest hnode ⟨m, hm, hkey⟩
    rcases List.mem_append.mp hm with hmember | hrest
    · have hcombines := (combines_iff_of_node hnode).mpr hmember
      exact ⟨first, List.mem_cons_self, mem_keysFrom_of_combines hcombines hkey⟩
    · exact ⟨m, List.mem_cons_of_mem _ hrest, hkey⟩
  fun_induction collectKeys schema keys entered waiting with
  | case1 keys entered => exact .inl h
  | case2 keys entered member waiting name properties hnode ih =>
      rcases ih h with hkeys | hlater
      · rcases mem_addKeys.mp hkeys with hold | hnew
        · exact .inl hold
        · have hdeclares := (declares_iff_of_node hnode).mpr hnew
          exact .inr ⟨member, List.mem_cons_self, member, .refl, hdeclares⟩
      · exact .inr (later hlater)
  | case3 keys entered member waiting members hnode hentered ih => exact (ih h).imp_right later
  | case4 keys entered member waiting members hnode hentered ih =>
      exact (ih h).imp_right (below hnode)
  | case5 keys entered member waiting members hnode hentered ih => exact (ih h).imp_right later
  | case6 keys entered member waiting members hnode hentered ih =>
      exact (ih h).imp_right (below hnode)
  | case7 keys entered member waiting hobject hunion hintersection ih =>
      exact (ih h).imp_right later

theorem keys_subset_collectKeys (schema : Schema) (keys : List String)
    (entered waiting : List NodeId) : keys ⊆ schema.collectKeys keys entered waiting := by
  fun_induction collectKeys schema keys entered waiting with
  | case1 keys entered => exact List.Subset.refl keys
  | case2 keys entered member waiting name properties hnode ih =>
      exact fun key hkey => ih (mem_addKeys.mpr (.inl hkey))
  | case3 keys entered member waiting members hnode hentered ih => exact ih
  | case4 keys entered member waiting members hnode hentered ih => exact ih
  | case5 keys entered member waiting members hnode hentered ih => exact ih
  | case6 keys entered member waiting members hnode hentered ih => exact ih
  | case7 keys entered member waiting hobject hunion hintersection ih => exact ih

/-- Nothing is left to do for a node: its keys are found, and if it has members it was entered. -/
structure Settled (schema : Schema) (keys : List String) (entered : List NodeId) (id : NodeId) :
    Prop where
  found : ∀ key, schema.Declares id key → key ∈ keys
  entered : ∀ m, schema.Combines id m → id ∈ entered

theorem Settled.mono {more : List String} {later : List NodeId} (h : schema.Settled keys entered id)
    (hkeys : keys ⊆ more) (hentered : entered ⊆ later) : schema.Settled more later id where
  found := fun key hkey => hkeys (h.found key hkey)
  entered := fun m hm => hentered (h.entered m hm)

theorem settled_of_node (hnode : schema.node? id = some node) (hkeys : node.keys ⊆ keys)
    (hentered : node.combined = [] ∨ id ∈ entered) : schema.Settled keys entered id where
  found := fun key hkey => hkeys ((declares_iff_of_node hnode).mp hkey)
  entered := by
    intro m hm
    rw [combines_iff_of_node hnode] at hm
    rcases hentered with hnone | hentered
    · rw [hnone] at hm
      cases hm
    · exact hentered

theorem plain_of_other
    (hobject : ∀ name properties, schema.node? id ≠ some (.object name properties))
    (hunion : ∀ members, schema.node? id ≠ some (.union members))
    (hintersection : ∀ members, schema.node? id ≠ some (.intersection members)) (node : Node)
    (hnode : schema.node? id = some node) : node.keys = [] ∧ node.combined = [] := by
  cases node with
  | object name properties => exact absurd hnode (hobject name properties)
  | union members => exact absurd hnode (hunion members)
  | intersection members => exact absurd hnode (hintersection members)
  | _ => exact ⟨rfl, rfl⟩

theorem settled_of_plain
    (plain : ∀ node, schema.node? id = some node → node.keys = [] ∧ node.combined = []) :
    schema.Settled keys entered id where
  found := by
    rintro key ⟨node, hnode, hkey⟩
    rw [(plain node hnode).1] at hkey
    cases hkey
  entered := by
    rintro m ⟨node, hnode, hm⟩
    rw [(plain node hnode).2] at hm
    cases hm

/-- The members of what was entered are settled or wait. -/
def Pending (schema : Schema) (keys : List String) (entered waiting : List NodeId) : Prop :=
  ∀ e ∈ entered, ∀ m, schema.Combines e m → schema.Settled keys entered m ∨ m ∈ waiting

theorem Pending.pass {more : List String} {later rest : List NodeId}
    (h : schema.Pending keys entered (id :: waiting)) (hid : schema.Settled more later id)
    (hkeys : keys ⊆ more) (hentered : entered ⊆ later) (hrest : waiting ⊆ rest) :
    ∀ e ∈ entered, ∀ m, schema.Combines e m → schema.Settled more later m ∨ m ∈ rest := by
  intro e he m hm
  rcases h e he m hm with hsettled | hwaiting
  · exact .inl (hsettled.mono hkeys hentered)
  · rcases List.mem_cons.mp hwaiting with rfl | hlater
    · exact .inl hid
    · exact .inr (hrest hlater)

/-- Where the search ends with the keys `all`, what waited is settled, and so are the members of
everything that was entered. -/
def Finished (schema : Schema) (all : List String) (entered waiting : List NodeId) : Prop :=
  ∃ last, entered ⊆ last ∧ (∀ m ∈ waiting, schema.Settled all last m) ∧ schema.Pending all last []

theorem Finished.cons {all more : List String} {later rest : List NodeId}
    (h : schema.Finished all later rest) (hid : schema.Settled more later id) (hmore : more ⊆ all)
    (hentered : entered ⊆ later) (hrest : waiting ⊆ rest) :
    schema.Finished all entered (id :: waiting) := by
  obtain ⟨last, hlast, hwaiting, hclosed⟩ := h
  refine ⟨last, List.Subset.trans hentered hlast, List.forall_mem_cons.mpr ⟨?_, ?_⟩, hclosed⟩
  · exact hid.mono hmore hlast
  · exact fun m hm => hwaiting m (hrest hm)

theorem Pending.enter (pending : schema.Pending keys entered (id :: waiting))
    (hnode : schema.node? id = some node) (hkeys : node.keys = []) :
    schema.Settled keys (id :: entered) id ∧
      schema.Pending keys (id :: entered) (node.combined ++ waiting) := by
  have settled : schema.Settled keys (id :: entered) id :=
    settled_of_node hnode (by simp [hkeys]) (.inr List.mem_cons_self)
  refine ⟨settled, List.forall_mem_cons.mpr ⟨fun m hm => .inr ?_, ?_⟩⟩
  · exact List.mem_append_left _ ((combines_iff_of_node hnode).mp hm)
  · exact pending.pass settled (List.Subset.refl _) (List.subset_cons_self _ _)
      (List.subset_append_right _ _)

theorem finished_collectKeys (pending : schema.Pending keys entered waiting) :
    schema.Finished (schema.collectKeys keys entered waiting) entered waiting := by
  have same {α : Type} (l : List α) : l ⊆ l := List.Subset.refl l
  fun_induction collectKeys schema keys entered waiting with
  | case1 keys entered => exact ⟨entered, same _, by simp, pending⟩
  | case2 keys entered member waiting name properties hnode ih =>
      have settled : schema.Settled (addKeys keys properties) entered member :=
        settled_of_node hnode (fun key hkey => mem_addKeys.mpr (.inr hkey)) (.inl rfl)
      have kept : keys ⊆ addKeys keys properties := fun key hkey => mem_addKeys.mpr (.inl hkey)
      have finished := ih (pending.pass settled kept (same _) (same _))
      exact finished.cons settled (keys_subset_collectKeys schema _ _ _) (same _) (same _)
  | case3 keys entered member waiting members hnode hentered ih =>
      have settled : schema.Settled keys entered member :=
        settled_of_node hnode (List.nil_subset _) (.inr hentered)
      have finished := ih (pending.pass settled (same _) (same _) (same _))
      exact finished.cons settled (keys_subset_collectKeys schema _ _ _) (same _) (same _)
  | case4 keys entered member waiting members hnode hentered ih =>
      -- It is entered before its members are, so it counts as settled although they still wait.
      obtain ⟨settled, next⟩ := pending.enter hnode rfl
      exact (ih next).cons settled (keys_subset_collectKeys schema _ _ _)
        (List.subset_cons_self _ _) (List.subset_append_right _ _)
  | case5 keys entered member waiting members hnode hentered ih =>
      have settled : schema.Settled keys entered member :=
        settled_of_node hnode (List.nil_subset _) (.inr hentered)
      have finished := ih (pending.pass settled (same _) (same _) (same _))
      exact finished.cons settled (keys_subset_collectKeys schema _ _ _) (same _) (same _)
  | case6 keys entered member waiting members hnode hentered ih =>
      obtain ⟨settled, next⟩ := pending.enter hnode rfl
      exact (ih next).cons settled (keys_subset_collectKeys schema _ _ _)
        (List.subset_cons_self _ _) (List.subset_append_right _ _)
  | case7 keys entered member waiting hobject hunion hintersection ih =>
      have settled : schema.Settled keys entered member :=
        settled_of_plain (plain_of_other hobject hunion hintersection)
      have finished := ih (pending.pass settled (same _) (same _) (same _))
      exact finished.cons settled (keys_subset_collectKeys schema _ _ _) (same _) (same _)

theorem Pending.settled_of_path (closed : schema.Pending keys entered [])
    (hid : schema.Settled keys entered id) (hpath : ReflTransGen schema.Combines id m) :
    schema.Settled keys entered m := by
  induction hpath with
  | refl => exact hid
  | tail _ hstep ih => exact (closed _ (ih.entered _ hstep) _ hstep).resolve_right List.not_mem_nil

/-- An intersection knows the keys of the objects it reaches through members alone, and no others.
-/
theorem mem_declaredKeys_iff {members : List NodeId}
    (hnode : schema.node? id = some (.intersection members)) :
    key ∈ schema.declaredKeys id members ↔ key ∈ schema.keysBelow id := by
  have isMember : ∀ {m}, schema.Combines id m ↔ m ∈ members := combines_iff_of_node hnode
  rw [mem_keysBelow_iff]
  constructor
  · intro h
    rcases keysFrom_of_mem_collectKeys h with hnone | ⟨m, hm, hkey⟩
    · cases hnone
    · exact ⟨m, isMember.mpr hm, hkey⟩
  · rintro ⟨m, hm, hkey⟩
    have pending : schema.Pending [] [id] members :=
      List.forall_mem_singleton.mpr fun m hm => .inr (isMember.mp hm)
    obtain ⟨last, -, hmembers, hclosed⟩ := finished_collectKeys pending
    obtain ⟨object, hpath, hdeclares⟩ := hkey
    exact (hclosed.settled_of_path (hmembers m (isMember.mp hm)) hpath).found key hdeclares

end Schema
end Conform
