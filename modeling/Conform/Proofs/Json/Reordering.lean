import Conform.Proofs.Json.Fields
import Conform.Schema.Basic
import Mathlib.Data.List.Forall2
import Mathlib.Data.Option.Basic

namespace Conform

namespace Json

/-- The same document, except that the objects inside it, which hold each key once, may hold their
keys in another order. -/
inductive Reordered : Json → Json → Prop
  | null : Reordered .null .null
  | bool (b : Bool) : Reordered (.bool b) (.bool b)
  | number (n : Number) : Reordered (.number n) (.number n)
  | string (s : String) : Reordered (.string s) (.string s)
  | array {items items' : List Json} (each : List.Forall₂ Reordered items items') :
      Reordered (.array items) (.array items')
  | object {entries entries' : List (String × Json)} (distinct : (entries.map (·.1)).Nodup)
      (keys : (entries'.map (·.1)).Perm (entries.map (·.1)))
      (each : ∀ key value value', (key, value) ∈ entries → (key, value') ∈ entries' →
        Reordered value value') : Reordered (.object entries) (.object entries')

theorem Reordered.field? {entries entries' : List (String × Json)}
    (reordered : (Json.object entries).Reordered (.object entries')) (key : String) :
    Option.Rel Reordered (Json.field? entries key) (Json.field? entries' key) := by
  cases reordered with
  | object distinct keys each =>
      exact field?_rel distinct keys fun value value' => each key value value'

end Json

theorem ValueKind.admits_eq_of_reordered {value value' : Json} (reordered : value.Reordered value')
    (kind : ValueKind) : kind.admits value' = kind.admits value := by
  cases kind <;> cases reordered <;> rfl

theorem Scalar.admits_eq_of_reordered {value value' : Json} (reordered : value.Reordered value')
    (expected : Scalar) : expected.admits value' = expected.admits value := by
  cases expected <;> cases reordered <;> rfl

end Conform
