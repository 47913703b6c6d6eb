import EntityRest.Proofs.Store.Identity
import EntityRest.Proofs.Validation.Input

/-! # Rows that follow the schema

A row holds nothing but what its entity permits: values that their fields accept, the owner key, and the
columns that the driver fills in. The rows that writes make are of this kind, if the defaults are accepted
by their fields and the data hold nothing else either (`Conforms.newRow`, `Conforms.updatedRow`). -/

namespace EntityRest

open Validation (Accepts)

/-- The columns that the driver fills in itself. -/
def driverColumns : List String := ["id", "createdAt", "updatedAt"]

/-- What a row of an entity may hold under a key. -/
inductive Permits (e : Entity) (key : String) (v : Json) : Prop
  | input {d : FieldDef} (hd : (key, d) ∈ e.inputFields) (hv : Accepts d v) : Permits e key v
  | owner (h : e.ownerField = some key) : Permits e key v
  | driver (h : key ∈ driverColumns) : Permits e key v

def Conforms (e : Entity) (row : Fields) : Prop := ∀ c ∈ row, Permits e c.1 c.2

/-- Only scalar fields have defaults, and they accept them. -/
def AcceptsDefaults (e : Entity) : Prop :=
  ∀ name d v, e.field? name = some d → d.default = some v → d.relation = none ∧ Accepts d v

theorem Entity.mem_inputFields_of_scalar {e : Entity} {name : String} {d : FieldDef}
    (h : e.field? name = some d) (hscalar : d.relation = none) : (name, d) ∈ e.inputFields := by
  refine List.mem_filterMap.2 ⟨(name, d), OrdMap.get?_eq_some_iff.1 h, ?_⟩
  dsimp only
  rw [FieldDef.inputKey?, hscalar]
  rfl

namespace Conforms

variable {e : Entity} {row data : Fields}

theorem insert (h : Conforms e row) {key : String} {v : Json} (hv : Permits e key v) :
    Conforms e (row.insert key v) := by
  intro c hc
  rcases Fields.mem_insert hc with rfl | hc
  · exact hv
  · exact h c hc

theorem union (h : Conforms e row) (hdata : Conforms e data) : Conforms e (row.union data) := by
  intro c hc
  rcases Fields.mem_union hc with hc | hc
  · exact h c hc
  · exact hdata c hc

theorem withDefaults (hdefaults : AcceptsDefaults e) (h : Conforms e data) :
    Conforms e (Store.withDefaults e data) := by
  refine List.foldlRecOn (motive := Conforms e) _ _ h ?_
  rintro record hrecord ⟨name, d⟩ hd
  have hfield : e.field? name = some d := OrdMap.get?_eq_some_iff.2 hd
  dsimp only
  split
  · next v hv =>
    obtain ⟨hscalar, haccepts⟩ := hdefaults name d v hfield hv
    split
    · exact hrecord
    · exact hrecord.insert (.input (Entity.mem_inputFields_of_scalar hfield hscalar) haccepts)
  · exact hrecord

theorem withId (h : Conforms e row) (id : String) : Conforms e (Store.withId id row) := by
  unfold Store.withId
  split
  · exact h
  · exact h.insert (.driver (by decide))

theorem newRow (hdefaults : AcceptsDefaults e) (h : Conforms e data) (stamp : Stamp) :
    Conforms e (Store.newRow e stamp data) := by
  have hid := (h.withDefaults hdefaults).withId stamp.id
  unfold Store.newRow
  dsimp only
  split
  · exact (hid.insert (.driver (by decide))).insert (.driver (by decide))
  · exact hid

theorem updatedRow (h : Conforms e row) (hdata : Conforms e data) (stamp : Stamp) :
    Conforms e (Store.updatedRow e stamp row data) := by
  have hmerged := h.union hdata
  unfold Store.updatedRow
  dsimp only
  split
  · exact hmerged.insert (.driver (by decide))
  · exact hmerged

/-- Of a key that is an input key and neither the owner key nor the driver's, the one field accepts the
value. -/
theorem accepts (h : Conforms e row) (hnodup : (e.inputFields.map Prod.fst).Nodup)
    (hfree : ∀ key ∈ e.inputFields.map Prod.fst, key ∉ driverColumns) {key : String} {v : Json}
    (hc : (key, v) ∈ row) {d : FieldDef} (hd : (key, d) ∈ e.inputFields) (howner : e.ownerField ≠ some key) :
    Accepts d v := by
  cases h (key, v) hc with
  | @input d' hd' hv =>
    have hlookup := (OrdMap.lookup_eq_some_iff hnodup).2 hd
    obtain rfl : d = d' := Option.some.inj (hlookup.symm.trans ((OrdMap.lookup_eq_some_iff hnodup).2 hd'))
    exact hv
  | owner h => exact absurd h howner
  | driver h => exact absurd h (hfree key (List.mem_map.2 ⟨_, hd, rfl⟩))

end Conforms

end EntityRest
