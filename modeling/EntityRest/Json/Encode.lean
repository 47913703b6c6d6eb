import EntityRest.Data.OrdMap
import EntityRest.Json.Basic

/-!
Values that are shown as JSON.

An ordered map is shown as a list of pairs, since an object would lose the order of its entries.
-/

namespace EntityRest

/-- The types whose values are shown as JSON. -/
class ToJson (α : Type) where
  toJson : α → Json

export ToJson (toJson)

instance : ToJson Json := ⟨id⟩

instance : ToJson String := ⟨.str⟩

instance : ToJson Bool := ⟨.bool⟩

instance : ToJson Nat := ⟨fun n => .int n⟩

variable {α β : Type} [ToJson α] [ToJson β]

instance : ToJson (Option α) := ⟨fun o => o.elim .null toJson⟩

instance : ToJson (List α) := ⟨fun l => .arr (l.map toJson)⟩

instance : ToJson (α × β) := ⟨fun p => .arr [toJson p.1, toJson p.2]⟩

instance : ToJson (OrdMap α β) := ⟨fun m => toJson m.toList⟩

/-- The field of an object for a value that there may not be. -/
def Json.fieldIfAny (key : String) (value : Option α) : List (String × Json) :=
  (value.map fun v => (key, toJson v)).toList

end EntityRest
