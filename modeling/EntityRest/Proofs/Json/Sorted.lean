import EntityRest.Proofs.Json.Fields

/-! # Objects in the order of their keys

Fields that are set one after the other stand in the order of their keys, each key once. Setting a key of such
an object to the value that it has changes nothing (`Sorted.insert_eq_self`), so an object takes up its own
fields without change (`Sorted.union_eq_self`). -/

namespace EntityRest.Fields

/-- Every key is less than the keys behind it. -/
def Sorted (o : Fields) : Prop := o.Pairwise fun c c' => c.1 < c'.1

namespace Sorted

variable {o : Fields} {k : String} {v : Json}

theorem insert (h : Sorted o) (k : String) (v : Json) : Sorted (o.insert k v) := by
  induction o with
  | nil => exact List.pairwise_singleton ..
  | cons c o ih =>
    obtain ⟨l, w⟩ := c
    obtain ⟨hfirst, hrest⟩ := List.pairwise_cons.1 h
    unfold Fields.insert
    split
    · next heq => exact List.pairwise_cons.2 ⟨fun c hc => heq ▸ hfirst c hc, hrest⟩
    · next hne =>
      split
      · next hlt =>
        refine List.pairwise_cons.2 ⟨fun c hc => ?_, h⟩
        rcases List.mem_cons.1 hc with rfl | hc
        · exact hlt
        · exact String.lt_trans hlt (hfirst c hc)
      · next hge =>
        refine List.pairwise_cons.2 ⟨fun c hc => ?_, ih hrest⟩
        rcases mem_insert hc with rfl | hc
        · refine Decidable.not_not.1 fun hnot => hne ?_
          exact String.le_antisymm (String.not_lt.1 hnot) (String.not_lt.1 hge)
        · exact hfirst c hc

theorem union (h : Sorted o) (p : Fields) : Sorted (o.union p) :=
  List.foldlRecOn (motive := Sorted) p _ h fun _ ho c _ => ho.insert c.1 c.2

theorem insert_eq_self (h : Sorted o) (hget : o.get? k = some v) : o.insert k v = o := by
  induction o with
  | nil => cases hget
  | cons c o ih =>
    obtain ⟨l, w⟩ := c
    obtain ⟨hfirst, hrest⟩ := List.pairwise_cons.1 h
    rw [get?_cons] at hget
    unfold Fields.insert
    by_cases hk : k = l
    · rw [if_pos hk] at hget ⊢
      cases hget
      rw [hk]
    · rw [if_neg hk] at hget ⊢
      -- a key that is there does not stand before the first one
      have hlt : l < k := hfirst (k, v) (Lookup.mem_of_lookup_eq_some hget)
      rw [if_neg (String.lt_asymm hlt), ih hrest hget]

/-- The fields of the second object win. -/
theorem get?_union {p : Fields} (h : Sorted p) (o : Fields) (k : String) :
    (o.union p).get? k = (p.get? k).or (o.get? k) := by
  induction p generalizing o with
  | nil => rfl
  | cons c p ih =>
    obtain ⟨l, v⟩ := c
    obtain ⟨hfirst, hrest⟩ := List.pairwise_cons.1 h
    rw [union_cons, ih hrest, get?_insert, get?_cons]
    by_cases hk : k = l
    · have hnone : Fields.get? p k = none := Lookup.lookup_eq_none_iff.2 fun hmem => by
        obtain ⟨c, hc, rfl⟩ := List.mem_map.1 hmem
        exact absurd (hk ▸ hfirst c hc) (String.lt_irrefl _)
      rw [if_pos hk, if_pos hk, hnone]; rfl
    · rw [if_neg hk, if_neg hk]

theorem union_eq_self (h : Sorted o) {p : Fields} (hp : ∀ c ∈ p, o.get? c.1 = some c.2) :
    o.union p = o := by
  induction p with
  | nil => rfl
  | cons c p ih =>
    obtain ⟨hc, hp⟩ := List.forall_mem_cons.1 hp
    rw [union_cons, h.insert_eq_self hc]
    exact ih hp

end Sorted

end EntityRest.Fields
