import Conform.Proofs.Schema.KeyOrder
import Conform.Proofs.Validator.Merging
import Conform.Proofs.Validator.Numbering

/-!
An intersection inside another one is checked with the keys of the outer one in place of its own.
That loses none of them: along the calls of a run, what a call knows covers what its node declares.
-/

namespace Conform

open Relation

/-- A call forgets the known keys, or it goes on to a member, with those it had or, if there were
none, with those of an intersection. -/
theorem Call.MayMake.widened_cases {checks : List Check} {call next : Call}
    (h : call.MayMake checks next) :
    next.widened = none ∨
      ∃ check, checks[call.slot]? = some check ∧ next.slot ∈ check.combined ∧
        (next.widened = call.widened ∨
          ∃ members declared, check = .intersection members declared ∧
            next.widened = some (call.widened.getD declared)) := by
  cases h with
  | item hcheck hvalue hitem => exact .inl rfl
  | position hcheck hvalue hlength helement hitem => exact .inl rfl
  | member hcheck _ =>
      exact .inr ⟨_, hcheck, by simp [Call.member, Check.combined], .inl rfl⟩
  | part hcheck hm => exact .inr ⟨_, hcheck, hm, .inr ⟨_, _, rfl, rfl⟩⟩
  | field hcheck hvalue henter hproperty hfield => exact .inl rfl

namespace Schema

variable {schema : Schema} {validator : Validator} {call next : Call} {id : NodeId}
  {members : List NodeId}

theorem intersection_of_ofNode {order : List NodeId} {node : Node} {slots : List Slot}
    {declared : List String}
    (h : Check.ofNode schema order id node = .intersection slots declared) :
    ∃ members, node = .intersection members ∧ declared = schema.declaredKeys id members := by
  cases node with
  | intersection members =>
      rw [Check.ofNode, Check.intersection.injEq] at h
      exact ⟨members, rfl, h.2.symm⟩
  | _ => cases h

/-- The call is for a node that is reached, and what it knows covers the keys from there on. -/
structure IsCovered (schema : Schema) (call : Call) (id : NodeId) : Prop where
  reached : schema.Reachable id
  slot : call.slot = schema.preorder.idxOf id
  covers : schema.Covers (keySet call.widened) id

theorem IsCovered.step (compiled : schema.compile = .ok validator)
    (covered : schema.IsCovered call id) (h : call.MayMake validator.checks next) :
    ∃ child, schema.IsCovered next child := by
  obtain ⟨node, hnode, hat⟩ := exists_check_of_compile compiled covered.reached
  rw [← covered.slot] at hat
  rcases h.widened_cases with forgotten | ⟨check, hcheck, hmember, known⟩
  · obtain ⟨check, hcheck, hslot⟩ := h.exists_slot
    obtain rfl := Option.some.inj (hat.symm.trans hcheck)
    rw [slots_ofNode] at hslot
    obtain ⟨child, hchild, hnumber⟩ := List.mem_map.mp hslot
    refine ⟨child, covered.reached.child (refers_of_node hnode hchild), hnumber.symm, ?_⟩
    rw [forgotten]
    exact covers_none
  · obtain rfl := Option.some.inj (hat.symm.trans hcheck)
    rw [combined_ofNode] at hmember
    obtain ⟨m, hm, hnumber⟩ := List.mem_map.mp hmember
    have combines : schema.Combines id m := (combines_iff_of_node hnode).mpr hm
    refine ⟨m, covered.reached.child combines.refers, hnumber.symm, ?_⟩
    rcases known with same | ⟨slots, declared, hintersection, widened⟩
    · exact covered.covers.member combines (.inl (congrArg keySet same))
    · obtain ⟨members, rfl, rfl⟩ := intersection_of_ofNode hintersection
      rw [widened, keySet_getD_declaredKeys hnode]
      exact covered.covers.member combines (.inr rfl)

theorem exists_isCovered (compiled : schema.compile = .ok validator) {value : Json} {limit : Nat}
    (made : ReflTransGen (Call.MayMake validator.checks) (.start validator.root value limit) call) :
    ∃ id, schema.IsCovered call id := by
  induction made with
  | refl =>
      obtain ⟨-, -, -, -, hroot, -⟩ := holds_images_of_compile compiled
      exact ⟨schema.root, .root schema, hroot, covers_none⟩
  | tail _ hnext ih =>
      obtain ⟨id, covered⟩ := ih
      exact covered.step compiled hnext

theorem IsCovered.declaredKeys_subset (covered : schema.IsCovered call id)
    (hnode : schema.node? id = some (.intersection members)) :
    schema.declaredKeys id members ⊆ call.widened.getD (schema.declaredKeys id members) := by
  intro key hkey
  cases hwidened : call.widened with
  | none => exact hkey
  | some known =>
      have below := (mem_declaredKeys_iff hnode).mp hkey
      have covers := covered.covers
      rw [hwidened] at covers
      exact covers _ rfl (schema.keysBelow_subset_keysFrom id below)

theorem exists_known_of_call (compiled : schema.compile = .ok validator) {value : Json}
    {limit : Nat} {slots : List Slot} {declared : List String}
    (made : ReflTransGen (Call.MayMake validator.checks) (.start validator.root value limit) call)
    (hcheck : validator.checks[call.slot]? = some (.intersection slots declared))
    (h : call.MayMake validator.checks next) :
    ∃ known, next.widened = some known ∧ declared ⊆ known := by
  obtain ⟨id, covered⟩ := exists_isCovered compiled made
  obtain ⟨node, hnode, hat⟩ := exists_check_of_compile compiled covered.reached
  rw [← covered.slot, hcheck] at hat
  obtain ⟨members, rfl, rfl⟩ := intersection_of_ofNode (Option.some.inj hat).symm
  have subset := covered.declaredKeys_subset hnode
  cases h with
  | part hpart hm =>
      obtain ⟨rfl, rfl⟩ := Check.intersection.inj (Option.some.inj (hcheck.symm.trans hpart))
      exact ⟨_, rfl, subset⟩
  | item hother | position hother | member hother | field hother =>
      rw [hcheck] at hother
      cases hother

theorem declares_iff {key : String} :
    schema.Declares id key ↔ ∃ name properties,
      schema.node? id = some (.object name properties) ∧ key ∈ properties.map (·.1) := by
  constructor
  · rintro ⟨node, hnode, hkey⟩
    cases node with
    | object name properties => exact ⟨name, properties, hnode, hkey⟩
    | _ => cases hkey
  · rintro ⟨name, properties, hnode, hkey⟩
    exact ⟨_, hnode, hkey⟩

theorem build_intersection {builder : Builder} {built : builder.Grown Check}
    (h : schema.build builder id (.intersection members) = .ok built) :
    ∃ slots, built.1.1 = .intersection slots (schema.declaredKeys id members) := by
  rw [build] at h
  cases hslots : schema.slotsFor builder members with
  | error fault =>
      rw [hslots] at h
      cases h
  | ok slots =>
      rw [hslots] at h
      cases h
      exact ⟨slots.1.1, rfl⟩

/-- The keys stored for an intersection are those that the objects which it reaches through members
alone declare. Each is there once, in the order in which they first stand in the members written out
in full. An intersection that another one reaches knows no other keys than that one, so whenever a
run checks its members, they are checked with all keys of its own. -/
theorem declaredKeys_exact (schema : Schema) :
    (∀ id members, schema.node? id = some (.intersection members) →
      (∀ builder built, schema.build builder id (.intersection members) = .ok built →
        ∃ slots, built.1.1 = .intersection slots (schema.declaredKeys id members)) ∧
      (schema.declaredKeys id members).Nodup ∧
      (∀ key, key ∈ schema.declaredKeys id members ↔
        ∃ object name properties, TransGen schema.Combines id object ∧
          schema.node? object = some (.object name properties) ∧ key ∈ properties.map (·.1)) ∧
      schema.declaredKeys id members = (schema.keysWithin [id] members).eraseDups ∧
      (schema.declaredKeys id members).Pairwise (fun key later =>
        (schema.keysWithin [id] members).idxOf key < (schema.keysWithin [id] members).idxOf later) ∧
      ∀ inner others, TransGen schema.Combines id inner →
        schema.node? inner = some (.intersection others) →
          schema.declaredKeys inner others ⊆ schema.declaredKeys id members) ∧
    ∀ validator, schema.compile = .ok validator → ∀ value limit call,
      ReflTransGen (Call.MayMake validator.checks) (.start validator.root value limit) call →
      ∀ slots declared, validator.checks[call.slot]? = some (.intersection slots declared) →
      ∀ next, call.MayMake validator.checks next →
        ∃ known, next.widened = some known ∧ declared ⊆ known := by
  refine ⟨fun id members hnode => ?_, fun validator compiled value limit call made slots declared
    hcheck next h => exists_known_of_call compiled made hcheck h⟩
  have first := schema.declaredKeys_eq id members
  have ordered := pairwise_idxOf_eraseDups (schema.keysWithin [id] members)
  rw [← first] at ordered
  refine ⟨fun builder built h => build_intersection h, ?_, fun key => ?_, first, ordered, ?_⟩
  · refine ordered.imp ?_
    rintro key _ before rfl
    exact absurd before (Nat.lt_irrefl _)
  · rw [mem_declaredKeys_iff hnode]
    simp only [keysBelow, Set.mem_ofPred_eq, declares_iff, exists_and_left]
  · intro inner others path hinner key hkey
    rw [mem_declaredKeys_iff hinner] at hkey
    obtain ⟨object, below, declares⟩ := hkey
    exact (mem_declaredKeys_iff hnode).mpr ⟨object, path.trans below, declares⟩

/-- Two intersections that reach each other, with a shared union and a handle of nothing. -/
def knot : Schema where
  root := ⟨0⟩
  nodes := [
    .intersection [⟨1⟩, ⟨2⟩, ⟨1⟩, ⟨7⟩],
    .union [⟨3⟩, ⟨0⟩],
    .intersection [⟨1⟩, ⟨4⟩, ⟨2⟩],
    .object "Pair" [("b", { definition := ⟨5⟩ }), ("a", { definition := ⟨5⟩ })],
    .object "Other" [("a", { definition := ⟨5⟩ }), ("c", { definition := ⟨5⟩ })],
    .valueType .string]

theorem knot_declaredKeys :
    knot.declaredKeys ⟨0⟩ [⟨1⟩, ⟨2⟩, ⟨1⟩, ⟨7⟩] = ["b", "a", "c"] ∧
    knot.declaredKeys ⟨2⟩ [⟨1⟩, ⟨4⟩, ⟨2⟩] ⊆ ["b", "a", "c"] := by
  obtain ⟨exact, -⟩ := knot.declaredKeys_exact
  obtain ⟨-, -, -, first, -, inner⟩ := exact ⟨0⟩ _ rfl
  have written : knot.keysWithin [⟨0⟩] [⟨1⟩, ⟨2⟩, ⟨1⟩, ⟨7⟩] =
      ["b", "a", "b", "a", "a", "c", "b", "a"] := by cbv
  have keys : knot.declaredKeys ⟨0⟩ [⟨1⟩, ⟨2⟩, ⟨1⟩, ⟨7⟩] = ["b", "a", "c"] := by
    rw [first, written]
    rfl
  refine ⟨keys, keys ▸ inner ⟨2⟩ _ (.single ⟨_, rfl, ?_⟩) rfl⟩
  simp [Node.combined]

end Schema
end Conform
