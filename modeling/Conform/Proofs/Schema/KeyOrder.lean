import Conform.Proofs.Schema.Runs
import Mathlib.Data.List.Induction

/-!
The order of the keys that an intersection knows. If the members are written out in full, what two
of them share is there twice. Collecting enters it once, so the keys that come out are those of the
full text in the order in which each of them first stands there.
-/

namespace Conform

/-! The first occurrences in a list, in their order. -/

theorem eraseDups_append_singleton {α : Type} [DecidableEq α] (l : List α) (a : α) :
    (l ++ [a]).eraseDups = if a ∈ l then l.eraseDups else l.eraseDups ++ [a] := by
  rw [List.eraseDups_append, List.removeAll, List.filter_singleton]
  by_cases h : a ∈ l <;> simp [h, List.eraseDups_cons]

theorem eraseDups_append_of_subset {α : Type} [DecidableEq α] {l more : List α} (h : more ⊆ l) :
    (l ++ more).eraseDups = l.eraseDups := by
  have nothing : more.removeAll l = [] := by
    rw [List.removeAll, List.filter_eq_nil_iff]
    intro a ha
    simp [h ha]
  rw [List.eraseDups_append, nothing, List.eraseDups_nil, List.append_nil]

theorem pairwise_idxOf_eraseDups {α : Type} [DecidableEq α] (l : List α) :
    l.eraseDups.Pairwise fun a b => l.idxOf a < l.idxOf b := by
  induction l using List.reverseRecOn with
  | nil => exact .nil
  | append_singleton l last ih =>
      have before : l.eraseDups.Pairwise fun a b => (l ++ [last]).idxOf a < (l ++ [last]).idxOf b :=
        ih.imp_of_mem fun ha hb hab => by
          rwa [List.idxOf_append_of_mem (List.mem_eraseDups.mp ha),
            List.idxOf_append_of_mem (List.mem_eraseDups.mp hb)]
      rw [eraseDups_append_singleton]
      split
      · exact before
      · rename_i new
        refine List.pairwise_append.mpr ⟨before, List.pairwise_singleton _ _, ?_⟩
        intro a ha b hb
        obtain rfl := List.mem_singleton.mp hb
        have ha := List.mem_eraseDups.mp ha
        rw [List.idxOf_append_of_mem ha, List.idxOf_append_of_notMem new]
        exact Nat.lt_add_right _ (List.idxOf_lt_length_of_mem ha)

namespace Schema

/-- The keys of some nodes that are written out in full, depth first and in declaration order. What
is shared is written out each time that it is met, but nothing is written out inside itself. -/
def keysWithin (schema : Schema) (opened : List NodeId) : List NodeId → List String
  | [] => []
  | id :: waiting =>
    match _ : schema.node? id with
    | none => schema.keysWithin opened waiting
    | some node =>
      if _ : id ∈ opened then node.keys ++ schema.keysWithin opened waiting
      else
        node.keys ++ schema.keysWithin (id :: opened) node.combined ++
          schema.keysWithin opened waiting
termination_by waiting => (schema.unvisited opened, waiting.length)
decreasing_by
  · exact Prod.Lex.right _ (Nat.lt_succ_self _)
  · exact Prod.Lex.right _ (Nat.lt_succ_self _)
  · exact Prod.Lex.left _ _ (unvisited_cons_lt ‹_› ‹_›)
  · exact Prod.Lex.right _ (Nat.lt_succ_self _)

variable {schema : Schema} {opened waiting seen log : List NodeId} {id m : NodeId} {node : Node}
  {keys keys' written : List String}

theorem keysWithin_nil : schema.keysWithin opened [] = [] := by
  rw [keysWithin]

theorem keysWithin_cons (schema : Schema) (opened waiting : List NodeId) (id : NodeId) :
    schema.keysWithin opened (id :: waiting) =
      schema.keysWithin opened [id] ++ schema.keysWithin opened waiting := by
  rw [keysWithin, keysWithin]
  split
  · rw [keysWithin_nil, List.nil_append]
  · split <;> rw [keysWithin_nil, List.append_nil]

theorem keysWithin_of_dangling (hnode : schema.node? id = none) :
    schema.keysWithin opened [id] = [] := by
  rw [keysWithin]
  split <;> simp_all [keysWithin_nil]

theorem keysWithin_of_uncombined (hnode : schema.node? id = some node)
    (hnone : node.combined = []) : schema.keysWithin opened [id] = node.keys := by
  rw [keysWithin]
  split <;> simp_all [keysWithin_nil]

theorem keysWithin_of_notMem (hnode : schema.node? id = some node) (hopened : id ∉ opened) :
    schema.keysWithin opened [id] =
      node.keys ++ schema.keysWithin (id :: opened) node.combined := by
  rw [keysWithin]
  split <;> simp_all [keysWithin_nil]

theorem keysWithin_of_plain
    (plain : ∀ node, schema.node? id = some node → node.keys = [] ∧ node.combined = []) :
    schema.keysWithin opened [id] = [] := by
  cases hnode : schema.node? id with
  | none => exact keysWithin_of_dangling hnode
  | some node =>
      obtain ⟨hkeys, hcombined⟩ := plain node hnode
      rw [keysWithin_of_uncombined hnode hcombined, hkeys]

/-- Of what was seen, the members are settled, unless it is still open. -/
def Explored (schema : Schema) (opened : List NodeId) (keys : List String) (seen : List NodeId) :
    Prop :=
  ∀ e ∈ seen, e ∉ opened → ∀ m, schema.Combines e m → schema.Settled keys seen m

theorem Explored.append (h : schema.Explored opened keys seen) (more : List String) :
    schema.Explored opened (keys ++ more) seen :=
  fun e he closed m hm =>
    (h e he closed m hm).mono (List.subset_append_left _ _) (List.Subset.refl _)

theorem Explored.enter (h : schema.Explored opened keys seen) (id : NodeId) :
    schema.Explored (id :: opened) keys (seen ++ [id]) := by
  intro e he closed m hm
  rw [List.mem_cons, not_or] at closed
  have before : e ∈ seen := by simpa [closed.1] using he
  exact (h e before closed.2 m hm).mono (List.Subset.refl _) (List.subset_append_left _ _)

theorem Explored.leave (h : schema.Explored (id :: opened) keys seen)
    (members : ∀ m, schema.Combines id m → schema.Settled keys seen m) :
    schema.Explored opened keys seen := by
  intro e he closed m hm
  by_cases same : e = id
  · exact members m (same ▸ hm)
  · exact h e he (List.not_mem_cons_of_ne_of_not_mem same closed) m hm

theorem Settled.keys_subset (settled : schema.Settled keys seen id)
    (hnode : schema.node? id = some node) : node.keys ⊆ keys :=
  fun key hkey => settled.found key ((declares_iff_of_node hnode).mpr hkey)

/-- What is settled writes out no other keys than those that are there. It has entered all that it
combines, and of that nothing is left out but what is open, which it does not write out again. -/
theorem keysWithin_subset {around : List NodeId} (explored : schema.Explored opened keys seen)
    (inside : opened ⊆ around) (settled : ∀ id ∈ waiting, schema.Settled keys seen id) :
    schema.keysWithin around waiting ⊆ keys := by
  fun_induction keysWithin schema around waiting with
  | case1 around => exact List.nil_subset _
  | case2 around id waiting hnode ih =>
      exact ih inside (List.forall_mem_cons.mp settled).2
  | case3 around id waiting node hnode hopened ih =>
      obtain ⟨here, later⟩ := List.forall_mem_cons.mp settled
      have declared := here.keys_subset hnode
      exact List.append_subset.mpr ⟨declared, ih inside later⟩
  | case4 around id waiting node hnode hopened ihMembers ih =>
      obtain ⟨here, later⟩ := List.forall_mem_cons.mp settled
      have declared := here.keys_subset hnode
      have members : schema.keysWithin (id :: around) node.combined ⊆ keys := by
        refine ihMembers (List.subset_cons_of_subset _ inside) fun m hm => ?_
        have hcombines := (combines_iff_of_node hnode).mpr hm
        exact explored id (here.entered m hcombines) (fun h => hopened (inside h)) m hcombines
      exact List.append_subset.mpr ⟨List.append_subset.mpr ⟨declared, members⟩, ih inside later⟩

theorem addKeys_eraseDups (written : List String) (properties : List (String × Property)) :
    addKeys written.eraseDups properties = (written ++ properties.map (·.1)).eraseDups := by
  induction properties generalizing written with
  | nil => rw [List.map_nil, List.append_nil, addKeys, List.foldl_nil]
  | cons first rest ih =>
      have step : addKeys written.eraseDups (first :: rest) =
          addKeys (if first.1 ∈ written.eraseDups then written.eraseDups
            else written.eraseDups ++ [first.1]) rest := rfl
      have next : (if first.1 ∈ written.eraseDups then written.eraseDups
          else written.eraseDups ++ [first.1]) = (written ++ [first.1]).eraseDups := by
        rw [eraseDups_append_singleton]
        simp only [List.mem_eraseDups]
      rw [step, next, ih, List.map_cons, List.append_assoc, List.singleton_append]

/-- Where collecting stands when it has gone through some nodes, and `written` is the full text
before them. -/
structure Collected (schema : Schema) (opened waiting : List NodeId) (written keys : List String)
    (seen : List NodeId) : Prop where
  keys_eq : keys = (written ++ schema.keysWithin opened waiting).eraseDups
  explored : schema.Explored opened (written ++ schema.keysWithin opened waiting) seen
  settled : ∀ m ∈ waiting, schema.Settled (written ++ schema.keysWithin opened waiting) seen m

theorem Collected.cons {later : List NodeId}
    (rest : schema.Collected opened waiting (written ++ schema.keysWithin opened [id]) keys later)
    (here : schema.Settled (written ++ schema.keysWithin opened [id]) seen id)
    (hseen : seen ⊆ later) : schema.Collected opened (id :: waiting) written keys later := by
  have whole : written ++ schema.keysWithin opened (id :: waiting) =
      written ++ schema.keysWithin opened [id] ++ schema.keysWithin opened waiting := by
    rw [keysWithin_cons, List.append_assoc]
  constructor
  · rw [whole]
    exact rest.keys_eq
  · rw [whole]
    exact rest.explored
  · rw [whole]
    exact List.forall_mem_cons.mpr
      ⟨here.mono (List.subset_append_left _ _) hseen, rest.settled⟩

theorem combinator_of_node {members : List NodeId}
    (hnode : schema.node? id = some (.union members) ∨
      schema.node? id = some (.intersection members)) :
    ∃ node, schema.node? id = some node ∧ node.keys = [] ∧ node.combined = members := by
  rcases hnode with hnode | hnode
  · exact ⟨_, hnode, rfl, rfl⟩
  · exact ⟨_, hnode, rfl, rfl⟩

/-- A run collects the first occurrences in the full text. What it passes over is settled, so the
text of that adds no key. -/
theorem CollectRun.collected (run : schema.CollectRun seen waiting log keys keys')
    (inside : opened ⊆ seen) (hkeys : keys = written.eraseDups)
    (explored : schema.Explored opened written seen) :
    schema.Collected opened waiting written keys' (seen ++ log) := by
  induction run generalizing opened written with
  | @done seen keys =>
      rw [List.append_nil]
      constructor
      · rw [keysWithin_nil, List.append_nil]
        exact hkeys
      · exact explored.append _
      · exact List.forall_mem_nil _
  | @object seen waiting log id name properties keys keys' hnode _ ih =>
      have here : schema.keysWithin opened [id] = properties.map (·.1) :=
        keysWithin_of_uncombined hnode rfl
      have added : addKeys keys properties =
          (written ++ schema.keysWithin opened [id]).eraseDups := by
        rw [hkeys, addKeys_eraseDups, here]
      have settled : schema.Settled (written ++ schema.keysWithin opened [id]) seen id :=
        settled_of_node hnode (here ▸ List.subset_append_right _ _) (.inl rfl)
      have rest := ih inside added (explored.append _)
      exact rest.cons settled (List.subset_append_left _ _)
  | @entered seen waiting members inner outer id keys keys' keys'' hnode new _ _ ihInside ih =>
      obtain ⟨node, known, noKeys, hmembers⟩ := combinator_of_node hnode
      have here : schema.keysWithin opened [id] = schema.keysWithin (id :: opened) members := by
        rw [keysWithin_of_notMem known (fun h => new (inside h)), noKeys, hmembers, List.nil_append]
      have wider : id :: opened ⊆ seen ++ [id] := by
        refine List.cons_subset.mpr ⟨by simp, ?_⟩
        exact List.subset_append_of_subset_left _ inside
      have below := ihInside wider hkeys (explored.enter id)
      have logged : seen ++ [id] ++ inner = seen ++ id :: inner := by simp
      rw [logged] at below
      have after : schema.Explored opened (written ++ schema.keysWithin opened [id])
          (seen ++ id :: inner) := by
        rw [here]
        refine below.explored.leave fun m hm => below.settled m ?_
        rwa [combines_iff_of_node known, hmembers] at hm
      have settled : schema.Settled (written ++ schema.keysWithin opened [id])
          (seen ++ id :: inner) id :=
        settled_of_node known (by simp [noKeys]) (.inr (by simp))
      have rest := ih (List.subset_append_of_subset_left _ inside) (here ▸ below.keys_eq) after
      rw [← List.append_assoc]
      exact rest.cons settled (List.subset_append_left _ _)
  | @passed seen waiting members log id keys keys' hnode again _ ih =>
      obtain ⟨node, known, noKeys, -⟩ := combinator_of_node hnode
      have settled : ∀ {keys}, schema.Settled keys seen id :=
        settled_of_node known (by simp [noKeys]) (.inr again)
      have nothingNew : schema.keysWithin opened [id] ⊆ written :=
        keysWithin_subset explored (List.Subset.refl _) (by simpa using settled)
      have same : keys = (written ++ schema.keysWithin opened [id]).eraseDups := by
        rw [hkeys, eraseDups_append_of_subset nothingNew]
      have rest := ih inside same (explored.append _)
      exact rest.cons settled (List.subset_append_left _ _)
  | @other seen waiting log id keys keys' hobject hunion hintersection _ ih =>
      have plain := plain_of_other hobject hunion hintersection
      have same : keys = (written ++ schema.keysWithin opened [id]).eraseDups := by
        rw [keysWithin_of_plain plain, List.append_nil, hkeys]
      have rest := ih inside same (explored.append _)
      exact rest.cons (settled_of_plain plain) (List.subset_append_left _ _)

theorem declaredKeys_eq (schema : Schema) (id : NodeId) (members : List NodeId) :
    schema.declaredKeys id members = (schema.keysWithin [id] members).eraseDups := by
  obtain ⟨log, keys, run⟩ := exists_collectRun schema [id] members []
  have nothing : schema.Explored [id] [] [id] := fun e he closed => absurd he closed
  have collected := run.collected (List.Subset.refl _) List.eraseDups_nil.symm nothing
  rw [run.declaredKeys_eq, collected.keys_eq, List.nil_append]

end Schema
end Conform
