import Conform.Proofs.Json.Reordering
import Conform.Proofs.Schema.Reordering
import Conform.Proofs.Validator.Acceptance
import Conform.Proofs.Validator.Composition

namespace Conform

def Mismatch.place (mismatch : Mismatch) : List String × MismatchKind :=
  (mismatch.path, mismatch.kind)

/-- Two answers with equally many mismatches of each kind at each path, neither a failure. -/
def SamePlaces {ε : Type} (result result' : Except ε (List Mismatch)) : Prop :=
  ∃ found found', result = .ok found ∧ result' = .ok found' ∧
    (found'.map Mismatch.place).Perm (found.map Mismatch.place)

namespace SamePlaces

variable {ε α β : Type} {result result' : Except ε (List Mismatch)} {found found' : List Mismatch}

theorem of_perm (same : (found'.map Mismatch.place).Perm (found.map Mismatch.place)) :
    SamePlaces (ε := ε) (.ok found) (.ok found') :=
  ⟨found, found', rfl, rfl, same⟩

theorem saying (path : List String) (kind : MismatchKind) (text text' : String) :
    SamePlaces (ε := ε) (.ok [.saying path kind text]) (.ok [.saying path kind text']) :=
  of_perm (.refl _)

theorem saying_unless (accepted : Bool) (path : List String) (kind : MismatchKind)
    (text text' : String) :
    SamePlaces (ε := ε) (if accepted then .ok [] else .ok [.saying path kind text])
      (if accepted then .ok [] else .ok [.saying path kind text']) := by
  cases accepted with
  | true => exact of_perm (.refl _)
  | false => exact saying path kind text text'

theorem trans {result'' : Except ε (List Mismatch)} (first : SamePlaces result result')
    (second : SamePlaces result' result'') : SamePlaces result result'' := by
  obtain ⟨found, _, hfound, hfound', same⟩ := first
  obtain ⟨_, found'', hsecond, hfound'', same'⟩ := second
  obtain rfl := Except.ok.inj (hfound'.symm.trans hsecond)
  exact ⟨found, found'', hfound, hfound'', same'.trans same⟩

theorem eq_ok_nil_iff (same : SamePlaces result result') : result' = .ok [] ↔ result = .ok [] := by
  obtain ⟨found, found', rfl, rfl, perm⟩ := same
  rw [Except.ok.injEq, Except.ok.injEq, ← List.length_eq_zero_iff, ← List.length_eq_zero_iff,
    ← List.length_map Mismatch.place, perm.length_eq, List.length_map]

theorem append {more more' : List Mismatch} (same : SamePlaces result result')
    (rest : (more'.map Mismatch.place).Perm (more.map Mismatch.place)) :
    SamePlaces (return (← result) ++ more) (return (← result') ++ more') := by
  obtain ⟨found, found', rfl, rfl, perm⟩ := same
  apply of_perm
  rw [List.map_append, List.map_append]
  exact perm.append rest

theorem gather_of_forall₂ {R : α → β → Prop} {f : α → Except ε (List Mismatch)}
    {g : β → Except ε (List Mismatch)} {xs : List α} {ys : List β} (each : List.Forall₂ R xs ys)
    (same : ∀ x ∈ xs, ∀ y, R x y → SamePlaces (f x) (g y)) :
    SamePlaces (gather (xs.map f)) (gather (ys.map g)) := by
  induction each with
  | nil => exact of_perm (.refl _)
  | @cons x y xs ys related _ ih =>
      obtain ⟨here, later⟩ := List.forall_mem_cons.mp same
      obtain ⟨more, more', hmore, hmore', rest⟩ := ih later
      rw [List.map_cons, List.map_cons, gather, gather, hmore, hmore']
      exact (here y related).append rest

theorem gather_of_perm {results results' : List (Except ε (List Mismatch))}
    (permuted : results'.Perm results) (outcome : ∀ result ∈ results, ∃ found, result = .ok found) :
    SamePlaces (gather results) (gather results') := by
  induction permuted with
  | nil => exact of_perm (.refl _)
  | cons first _ ih =>
      obtain ⟨⟨found, rfl⟩, later⟩ := List.forall_mem_cons.mp outcome
      obtain ⟨more, more', hmore, hmore', rest⟩ := ih later
      rw [gather, gather, hmore, hmore']
      exact append (of_perm (.refl _)) rest
  | swap first second rest =>
      obtain ⟨⟨found, rfl⟩, ⟨found', rfl⟩, later⟩ := by
        simpa only [List.forall_mem_cons] using outcome
      obtain ⟨more, hmore⟩ := exists_gather_eq_ok later
      simp only [gather, hmore]
      exact of_perm ((List.perm_append_comm_assoc _ _ _).map _)
  | trans _ inner ih ih' =>
      exact (ih' outcome).trans (ih fun result h => outcome result (inner.mem_iff.mp h))

section Permuted

variable {f g : α → Except ε (List Mismatch)} {xs ys : List α}

theorem gather_map_of_perm (permuted : ys.Perm xs) (same : ∀ x ∈ xs, SamePlaces (f x) (g x)) :
    SamePlaces (gather (xs.map f)) (gather (ys.map g)) := by
  have inPlace : SamePlaces (gather (xs.map f)) (gather (xs.map g)) := by
    apply gather_of_forall₂ (List.forall₂_same.mpr fun x _ => rfl)
    rintro x hx _ rfl
    exact same x hx
  refine inPlace.trans (gather_of_perm (permuted.map g) (List.forall_mem_map.mpr fun x hx => ?_))
  obtain ⟨-, found, -, hfound, -⟩ := same x hx
  exact ⟨found, hfound⟩

theorem anyEmpty_map_of_perm (permuted : ys.Perm xs)
    (same : ∀ x ∈ xs, SamePlaces (f x) (g x)) :
    ∃ accepted, anyEmpty (xs.map f) = .ok accepted ∧ anyEmpty (ys.map g) = .ok accepted := by
  have outcome : ∀ result ∈ xs.map f, ∃ found, result = .ok found := by
    refine List.forall_mem_map.mpr fun x hx => ?_
    obtain ⟨found, -, hfound, -⟩ := same x hx
    exact ⟨found, hfound⟩
  have outcome' : ∀ result ∈ ys.map g, ∃ found, result = .ok found := by
    refine List.forall_mem_map.mpr fun x hx => ?_
    obtain ⟨-, found, -, hfound, -⟩ := same x (permuted.mem_iff.mp hx)
    exact ⟨found, hfound⟩
  have alike : .ok [] ∈ ys.map g ↔ .ok [] ∈ xs.map f := by
    simp only [List.mem_map, permuted.mem_iff]
    exact exists_congr fun x => and_congr_right fun hx => (same x hx).eq_ok_nil_iff
  obtain ⟨accepted, h⟩ := exists_anyEmpty_eq_ok outcome
  obtain ⟨accepted', h'⟩ := exists_anyEmpty_eq_ok outcome'
  rw [← anyEmpty_eq_ok_true_iff outcome, ← anyEmpty_eq_ok_true_iff outcome', h, h',
    Except.ok.injEq, Except.ok.injEq, ← Bool.eq_iff_iff] at alike
  exact ⟨accepted, h, alike ▸ h'⟩

end Permuted

end SamePlaces

theorem map_place_absence (path : List String) (property : PropertyCheck) :
    (absence path property).map Mismatch.place =
      if property.isOptional then [] else [(propertyPath path property.key, .property)] := by
  rw [absence]
  split <;> rfl

theorem map_place_unknownKeys (path : List String) (name : String)
    (properties : List PropertyCheck) (widened : List String) (entries : List (String × Json)) :
    (unknownKeys path name properties widened entries).map Mismatch.place =
      ((entries.map (·.1)).filter fun key =>
        !properties.any (·.key == key) && key ∉ widened).map fun _ => (path, .property) := by
  rw [unknownKeys, List.filter_map, List.map_map, List.map_map]
  rfl

theorem unknownKeys_perm (path : List String) (name : String)
    {properties properties' : List PropertyCheck} {widened widened' : List String}
    {entries entries' : List (String × Json)}
    (declared : ∀ key, properties'.any (·.key == key) = properties.any (·.key == key))
    (known : ∀ key, key ∈ widened' ↔ key ∈ widened)
    (keys : (entries'.map (·.1)).Perm (entries.map (·.1))) :
    ((unknownKeys path name properties' widened' entries').map Mismatch.place).Perm
      ((unknownKeys path name properties widened entries).map Mismatch.place) := by
  simp only [map_place_unknownKeys, declared, known]
  exact (keys.filter _).map _

namespace Schema

/-- Calls for the same node, each in its own schema, on the same value up to order and with the same
keys known around it, both without a limit. -/
structure Alike (schema other : Schema) (id : NodeId) (call call' : Call) : Prop where
  slot : call.slot = schema.preorder.idxOf id
  slot' : call'.slot = other.preorder.idxOf id
  path : call'.path = call.path
  unlimited : call.guard.Unlimited call'.guard
  widened : keySet call'.widened = keySet call.widened
  value : call.value.Reordered call'.value

variable {schema other : Schema} {validator validator' : Validator} {id : NodeId}
  {call call' : Call}

namespace Alike

theorem item (alike : Alike schema other id call call') {value value' : Json}
    (reordered : value.Reordered value') (element : NodeId) (i : Nat) :
    Alike schema other element (call.item (schema.preorder.idxOf element) i value)
      (call'.item (other.preorder.idxOf element) i value') where
  slot := rfl
  slot' := rfl
  path := congrArg (elementPath · i) alike.path
  unlimited := alike.unlimited
  widened := rfl
  value := reordered

theorem member (alike : Alike schema other id call call') (m : NodeId) :
    Alike schema other m (call.member (schema.preorder.idxOf m))
      (call'.member (other.preorder.idxOf m)) :=
  { alike with slot := rfl, slot' := rfl }

theorem part (alike : Alike schema other id call call') (reordered : schema.Reordered other)
    {members members' : List NodeId} (hnode : schema.node? id = some (.intersection members))
    (hnode' : other.node? id = some (.intersection members')) (m : NodeId) :
    Alike schema other m (call.part (schema.declaredKeys id members) (schema.preorder.idxOf m))
      (call'.part (other.declaredKeys id members') (other.preorder.idxOf m)) where
  slot := rfl
  slot' := rfl
  path := alike.path
  unlimited := alike.unlimited
  widened := by
    simp only [Call.part]
    rw [keySet_getD_declaredKeys hnode, keySet_getD_declaredKeys hnode', alike.widened,
      reordered.keysBelow_eq]
  value := alike.value

theorem field (alike : Alike schema other id call call') {value value' : Json}
    (reordered : value.Reordered value') (name : String) (entry : String × Property) :
    Alike schema other entry.2.definition
      (call.field name (call.guard.after call.slot)
        (schema.propertyCheck entry (schema.preorder.idxOf entry.2.definition)) value)
      (call'.field name (call'.guard.after call'.slot)
        (other.propertyCheck entry (other.preorder.idxOf entry.2.definition)) value') where
  slot := rfl
  slot' := rfl
  path := congrArg (fun path => propertyPath (objectPath path name) entry.1) alike.path
  unlimited := ⟨(call.guard.after_limit _).trans alike.unlimited.1,
    (call'.guard.after_limit _).trans alike.unlimited.2⟩
  widened := rfl
  value := reordered

end Alike

section Answers

variable {ε : Type} {abort : LimitReached → ε} {checks checks' : List Check}
  {recur recur' : Call → Except ε (List Mismatch)}

def SameBelow (schema other : Schema) (checks : List Check) (call : Call)
    (recur recur' : Call → Except ε (List Mismatch)) (children : List NodeId) : Prop :=
  ∀ next next' child, call.MayMake checks next → child ∈ children →
    Alike schema other child next next' → SamePlaces (recur next) (recur' next')

theorem Alike.answer_array (alike : Alike schema other id call call') {element : NodeId}
    (hcheck : checks[call.slot]? = some (.array (schema.preorder.idxOf element)))
    (hcheck' : checks'[call'.slot]? = some (.array (other.preorder.idxOf element)))
    (below : SameBelow schema other checks call recur recur' [element]) :
    SamePlaces (call.answer abort checks recur) (call'.answer abort checks' recur') := by
  have reordered := alike.value
  simp only [Call.answer, hcheck, hcheck', alike.path]
  generalize hvalue : call.value = value at reordered ⊢
  generalize call'.value = value' at reordered ⊢
  cases reordered with
  | array each =>
      apply SamePlaces.gather_of_forall₂ (forall₂_zipIdx each 0)
      rintro ⟨item, i⟩ hentry ⟨item', _⟩ ⟨same, rfl⟩
      exact below _ _ element (Call.mayMake_item hcheck hvalue hentry) List.mem_cons_self
        (alike.item same element i)
  | _ => exact .saying ..

theorem Alike.answer_tuple (alike : Alike schema other id call call') {elements : List NodeId}
    {rendered rendered' : String}
    (hcheck : checks[call.slot]? = some (.tuple (elements.map schema.preorder.idxOf) rendered))
    (hcheck' : checks'[call'.slot]? = some (.tuple (elements.map other.preorder.idxOf) rendered'))
    (below : SameBelow schema other checks call recur recur' elements) :
    SamePlaces (call.answer abort checks recur) (call'.answer abort checks' recur') := by
  have reordered := alike.value
  simp only [Call.answer, hcheck, hcheck', alike.path]
  generalize hvalue : call.value = value at reordered ⊢
  generalize call'.value = value' at reordered ⊢
  cases reordered with
  | @array items items' each =>
      simp only [List.length_map, ← each.length_eq]
      split
      · rename_i hlength
        have numbered : List.Forall₂
            (fun slot slot' => ∃ element ∈ elements, slot = schema.preorder.idxOf element ∧
              slot' = other.preorder.idxOf element)
            (elements.map schema.preorder.idxOf) (elements.map other.preorder.idxOf) := by
          rw [List.forall₂_map_left_iff, List.forall₂_map_right_iff, List.forall₂_same]
          exact fun element helement => ⟨element, helement, rfl, rfl⟩
        apply SamePlaces.gather_of_forall₂ (forall₂_zipIdx (forall₂_zip_zip numbered each) 0)
        rintro ⟨⟨slot, item⟩, i⟩ hentry ⟨⟨slot', item'⟩, _⟩ ⟨⟨numbers, same⟩, rfl⟩
        obtain ⟨element, helement, rfl, rfl⟩ := numbers
        refine below _ _ element ?_ helement (alike.item same element i)
        exact Call.mayMake_position hcheck hvalue (by rwa [List.length_map]) hentry
      · exact .saying ..
  | _ => exact .saying ..

theorem Alike.answer_union (alike : Alike schema other id call call')
    {members members' : List NodeId} {possibilities possibilities' : String}
    (permuted : members'.Perm members)
    (hcheck : checks[call.slot]? =
      some (.union (members.map schema.preorder.idxOf) possibilities))
    (hcheck' : checks'[call'.slot]? =
      some (.union (members'.map other.preorder.idxOf) possibilities'))
    (below : SameBelow schema other checks call recur recur' members) :
    SamePlaces (call.answer abort checks recur) (call'.answer abort checks' recur') := by
  have same : ∀ m ∈ members, SamePlaces (recur (call.member (schema.preorder.idxOf m)))
      (recur' (call'.member (other.preorder.idxOf m))) := fun m hm =>
    below _ _ m (Call.mayMake_member hcheck (List.mem_map_of_mem hm)) hm (alike.member m)
  obtain ⟨accepted, h, h'⟩ := SamePlaces.anyEmpty_map_of_perm permuted same
  simp only [Call.answer, hcheck, hcheck', alike.path, List.map_map, Function.comp_def, h, h']
  cases accepted with
  | true => exact .of_perm (.refl _)
  | false => exact .saying ..

theorem Alike.answer_intersection (alike : Alike schema other id call call')
    (reordered : schema.Reordered other) {members members' : List NodeId}
    (hnode : schema.node? id = some (.intersection members))
    (hnode' : other.node? id = some (.intersection members')) (permuted : members'.Perm members)
    (hcheck : checks[call.slot]? = some (.intersection (members.map schema.preorder.idxOf)
      (schema.declaredKeys id members)))
    (hcheck' : checks'[call'.slot]? = some (.intersection (members'.map other.preorder.idxOf)
      (other.declaredKeys id members')))
    (below : SameBelow schema other checks call recur recur' members) :
    SamePlaces (call.answer abort checks recur) (call'.answer abort checks' recur') := by
  simp only [Call.answer, hcheck, hcheck', List.map_map]
  apply SamePlaces.gather_map_of_perm permuted
  intro m hm
  exact below _ _ m (.part hcheck (List.mem_map_of_mem hm)) hm
    (alike.part reordered hnode hnode' m)

theorem Alike.ofProperty (alike : Alike schema other id call call') {name : String}
    {entries entries' : List (String × Json)}
    (reordered : (Json.object entries).Reordered (.object entries')) {entry : String × Property}
    (below : ∀ value value', Json.field? entries entry.1 = some value →
      value.Reordered value' →
      SamePlaces
        (recur (call.field name (call.guard.after call.slot)
          (schema.propertyCheck entry (schema.preorder.idxOf entry.2.definition)) value))
        (recur' (call'.field name (call'.guard.after call'.slot)
          (other.propertyCheck entry (other.preorder.idxOf entry.2.definition)) value'))) :
    SamePlaces
      (call.ofProperty recur name (call.guard.after call.slot) entries
        (schema.propertyCheck entry (schema.preorder.idxOf entry.2.definition)))
      (call'.ofProperty recur' name (call'.guard.after call'.slot) entries'
        (other.propertyCheck entry (other.preorder.idxOf entry.2.definition))) := by
  have related := reordered.field? entry.1
  simp only [Call.ofProperty, propertyCheck] at below ⊢
  generalize hvalue : Json.field? entries entry.1 = found at related ⊢
  generalize Json.field? entries' entry.1 = found' at related ⊢
  cases related with
  | none =>
      apply SamePlaces.of_perm
      rw [map_place_absence, map_place_absence, alike.path]
  | some same => exact below _ _ hvalue same

theorem Alike.answer_object (alike : Alike schema other id call call') {name : String}
    {properties properties' : List (String × Property)} (permuted : properties'.Perm properties)
    (hcheck : checks[call.slot]? = some (.object name (properties.map fun entry =>
      schema.propertyCheck entry (schema.preorder.idxOf entry.2.definition))))
    (hcheck' : checks'[call'.slot]? = some (.object name (properties'.map fun entry =>
      other.propertyCheck entry (other.preorder.idxOf entry.2.definition))))
    (below : SameBelow schema other checks call recur recur'
      (properties.map (·.2.definition))) :
    SamePlaces (call.answer abort checks recur) (call'.answer abort checks' recur') := by
  have reordered := alike.value
  have enters := Guard.enter_eq_ok call.slot (.inl alike.unlimited.1)
  have enters' := Guard.enter_eq_ok call'.slot (.inl alike.unlimited.2)
  simp only [Call.answer, hcheck, hcheck', enters, enters', alike.path]
  generalize hvalue : call.value = value at reordered ⊢
  generalize call'.value = value' at reordered ⊢
  cases reordered with
  | @object entries entries' distinct keys each =>
      apply SamePlaces.append
      · rw [List.map_map, List.map_map]
        apply SamePlaces.gather_map_of_perm permuted
        intro entry hentry
        refine alike.ofProperty (.object distinct keys each) fun value value' hfield same => ?_
        refine below _ _ entry.2.definition ?_ (List.mem_map_of_mem hentry)
          (alike.field same name entry)
        exact .field hcheck hvalue enters (List.mem_map_of_mem hentry) hfield
      · apply unknownKeys_perm (objectPath call.path name) name _ _ keys
        · intro key
          rw [any_key_propertyChecks, any_key_propertyChecks, Bool.eq_iff_iff, decide_eq_true_iff,
            decide_eq_true_iff]
          exact (permuted.map (·.1)).mem_iff
        · intro key
          rw [← mem_keySet_getD, ← mem_keySet_getD, alike.widened]
  | _ => exact .saying ..

end Answers

theorem Reordered.samePlaces_run (reordered : schema.Reordered other)
    (compiled : schema.compile = .ok validator) (compiled' : other.compile = .ok validator')
    (reached : schema.Reachable id) (alike : Alike schema other id call call') :
    SamePlaces (validator.run call) (validator'.run call') := by
  induction call using validator.call_induction generalizing id call' with
  | step call ih =>
      obtain ⟨node, hnode, hcheck⟩ := exists_check_of_compile compiled reached
      obtain ⟨node', hnode', hcheck'⟩ :=
        exists_check_of_compile compiled' (reordered.reachable_eq ▸ reached)
      obtain ⟨_, hother, related⟩ := reordered.exists_node hnode
      obtain rfl := Option.some.inj (hnode'.symm.trans hother)
      rw [← alike.slot] at hcheck
      rw [← alike.slot'] at hcheck'
      have below : SameBelow schema other validator.checks call validator.run validator'.run
          node.children := fun next next' child hnext hchild alike =>
        ih next hnext (reached.child (refers_of_node hnode hchild)) alike
      rw [Validator.run_eq_answer, Validator.run_eq_answer]
      cases related with
      | valueType kind =>
          simp only [Call.answer, hcheck, hcheck', Check.ofNode, alike.path,
            kind.admits_eq_of_reordered alike.value]
          exact .saying_unless ..
      | literal expected =>
          simp only [Call.answer, hcheck, hcheck', Check.ofNode, alike.path,
            expected.admits_eq_of_reordered alike.value]
          exact .saying_unless ..
      | enum permuted =>
          simp only [Call.answer, hcheck, hcheck', Check.ofNode, alike.path,
            Scalar.admits_eq_of_reordered alike.value, permuted.any_eq]
          exact .saying_unless ..
      | array element => exact alike.answer_array hcheck hcheck' below
      | tuple elements => exact alike.answer_tuple hcheck hcheck' below
      | union permuted => exact alike.answer_union permuted hcheck hcheck' below
      | intersection permuted =>
          exact alike.answer_intersection reordered hnode hnode' permuted hcheck hcheck' below
      | object permuted => exact alike.answer_object permuted hcheck hcheck' below

theorem Reordered.exists_validator_iff (reordered : schema.Reordered other) :
    (∃ validator, other.compile = .ok validator) ↔ ∃ validator, schema.compile = .ok validator := by
  rw [Schema.exists_validator_iff, Schema.exists_validator_iff]
  simp only [Closed, OnCombinatorCycle, reordered.reachable_eq, reordered.dangling_eq,
    reordered.combines_eq]

/-- The order of declarations in a schema and that of the keys in a value are not to be seen in what
is reported, except for the order of the mismatches. -/
theorem reordering_unobservable (reordered : schema.Reordered other) :
    ((∃ validator, other.compile = .ok validator) ↔
      ∃ validator, schema.compile = .ok validator) ∧
    ∀ validator validator', schema.compile = .ok validator → other.compile = .ok validator' →
      validator'.slotCount = validator.slotCount ∧
      ∀ value value', value.Reordered value' →
        (∃ found found', validator.validate value 0 = .ok found ∧
          validator'.validate value' 0 = .ok found' ∧
          (found'.map Mismatch.place).Perm (found.map Mismatch.place)) ∧
        (validator'.validate value' 0 = .ok [] ↔ validator.validate value 0 = .ok []) := by
  refine ⟨reordered.exists_validator_iff, fun validator validator' compiled compiled' =>
    ⟨?_, fun value value' same => ?_⟩⟩
  · rw [slotCount_of_compile compiled, slotCount_of_compile compiled']
    exact reordered.preorder_perm.length_eq
  · obtain ⟨-, -, -, -, hroot, -⟩ := holds_images_of_compile compiled
    obtain ⟨-, -, -, -, hroot', -⟩ := holds_images_of_compile compiled'
    have alike : Alike schema other schema.root (.start validator.root value 0)
        (.start validator'.root value' 0) :=
      ⟨hroot, reordered.1 ▸ hroot', rfl, ⟨rfl, rfl⟩, rfl, same⟩
    have samePlaces := reordered.samePlaces_run compiled compiled' (Reachable.root schema) alike
    exact ⟨samePlaces, samePlaces.eq_ok_nil_iff⟩

def readings : Schema where
  root := ⟨0⟩
  nodes := [
    .intersection [⟨1⟩, ⟨2⟩],
    .object "Reading" [("unit", { definition := ⟨3⟩ }),
      ("before", { definition := ⟨4⟩, isOptional := true })],
    .object "Named" [("name", { definition := ⟨5⟩ })],
    .enum "Unit" [.string "m", .string "s"],
    .union [⟨6⟩, ⟨0⟩],
    .valueType .string,
    .valueType .null]

def reversedReadings : Schema where
  root := ⟨0⟩
  nodes := [
    .intersection [⟨2⟩, ⟨1⟩],
    .object "Reading" [("before", { definition := ⟨4⟩, isOptional := true }),
      ("unit", { definition := ⟨3⟩ })],
    .object "Named" [("name", { definition := ⟨5⟩ })],
    .enum "Unit" [.string "s", .string "m"],
    .union [⟨0⟩, ⟨6⟩],
    .valueType .string,
    .valueType .null]

private theorem reordered_of_swap {key key' : String} {first first' second second' : Json}
    (distinct : key ≠ key') (hfirst : first.Reordered first') (hsecond : second.Reordered second') :
    (Json.object [(key, first), (key', second)]).Reordered
      (.object [(key', second'), (key, first')]) := by
  refine .object (by simpa using distinct) (.swap ..) fun name value value' h h' => ?_
  simp only [List.mem_cons, Prod.mk.injEq, List.not_mem_nil, or_false] at h h'
  rcases h with ⟨rfl, rfl⟩ | ⟨rfl, rfl⟩
  · rcases h' with ⟨same, -⟩ | ⟨-, rfl⟩
    · exact absurd same distinct
    · exact hfirst
  · rcases h' with ⟨-, rfl⟩ | ⟨same, -⟩
    · exact hsecond
    · exact absurd same.symm distinct

theorem reversedReadings_same : ∃ validator validator',
    readings.compile = .ok validator ∧ reversedReadings.compile = .ok validator' ∧
    readings.Reordered reversedReadings ∧
    (Json.object [("unit", .string "kg"), ("before", .object [("name", .null), ("size", .null)])]
      ).Reordered
      (.object [("before", .object [("size", .null), ("name", .null)]), ("unit", .string "kg")]) ∧
    validator'.slotCount = validator.slotCount ∧
    ∃ found found',
      validator.validate (.object
        [("unit", .string "kg"), ("before", .object [("name", .null), ("size", .null)])]) 0 =
          .ok found ∧
      validator'.validate (.object
        [("before", .object [("size", .null), ("name", .null)]), ("unit", .string "kg")]) 0 =
          .ok found' ∧
      (found'.map Mismatch.place).Perm (found.map Mismatch.place) := by
  have known : readings.firstDangling? = none := by cbv
  have search : readings.images.searchCycles = .ok [6, 3, 4, 2, 0, 5, 1] := by cbv
  obtain ⟨validator, compiled⟩ := exists_validator_iff_searchCycles.mpr
    ⟨firstDangling?_eq_none_iff.mp known, _, search⟩
  have reordered : readings.Reordered reversedReadings :=
    ⟨rfl, .cons (.intersection (.swap ..)) <| .cons (.object (.swap ..)) <|
      .cons (.object (.refl _)) <| .cons (.enum (.swap ..)) <| .cons (.union (.swap ..)) <|
      .cons (.valueType _) <| .cons (.valueType _) .nil⟩
  obtain ⟨compiles_iff, same⟩ := reordering_unobservable reordered
  obtain ⟨validator', compiled'⟩ := compiles_iff.mpr ⟨validator, compiled⟩
  obtain ⟨sameCount, samePlaces⟩ := same validator validator' compiled compiled'
  have sameBefore : (Json.object [("name", .null), ("size", .null)]).Reordered
      (.object [("size", .null), ("name", .null)]) := reordered_of_swap (by decide) .null .null
  have sameValue : (Json.object [("unit", .string "kg"),
        ("before", .object [("name", .null), ("size", .null)])]).Reordered
      (.object [("before", .object [("size", .null), ("name", .null)]), ("unit", .string "kg")]) :=
    reordered_of_swap (by decide) (.string "kg") sameBefore
  exact ⟨validator, validator', compiled, compiled', reordered, sameValue, sameCount,
    (samePlaces _ _ sameValue).1⟩

end Schema
end Conform
