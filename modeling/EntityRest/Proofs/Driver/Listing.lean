import EntityRest.Proofs.Driver.InMemory
import EntityRest.Proofs.Query.Order

/-! # Listing records

A search without a page gives all rows that its filter accepts, in the order that its sorting asks for, and of those
that tie the ones that stand first in the table first; a page is a part of that list (`findMany_sorted`). Numbers are
ordered as doubles, so only numbers that are rounded to one double can stand in the wrong order
(`not_sorted_large_numbers`). -/

namespace EntityRest

namespace Store

theorem window_eq_take_drop {α : Type} (skip take : Option Nat) (l : List α) :
    window skip take l = (l.drop (skip.getD 0)).take (take.getD l.length) := by
  cases take with
  | none =>
    rw [Option.getD_none, List.take_of_length_le (List.length_drop.trans_le (Nat.sub_le _ _))]
    rfl
  | some n => rfl

theorem window_map {α β : Type} (skip take : Option Nat) (g : α → β) (l : List α) :
    window skip take (l.map g) = (window skip take l).map g := by
  rw [window_eq_take_drop, window_eq_take_drop, List.map_take, List.map_drop, List.length_map]

end Store

namespace InMemory

/-- A search without a page gives the rows that its filter accepts, numbered as they stand in the table and brought in
order by the doubles nearest to their numbers; where these tell the numbers apart, that is the order of the numbers
themselves. Pages are cut out of that list, and `count` gives its length. -/
theorem findMany_sorted (enforceKeys : Bool) (scope : Nat) (env : Env) (e : Entity) (f : Filter) (sort : Sorting)
    (h : Sorting.Comparable sort.toList (((env.tables scope).rows e.name).filter f.accepts)) :
    let c := connect enforceKeys scope
    let matching := ((env.tables scope).rows e.name).filter f.accepts
    ∃ numbered : List (Fields × Nat), numbered.Perm matching.zipIdx ∧
      numbered.Pairwise (Sorting.Before Number.rounded sort.toList) ∧
      (Sorting.Separated sort.toList matching → numbered.Pairwise (Sorting.Before Number.value sort.toList)) ∧
      (c.count e (some f)).runOn env = (.ok numbered.length, env) ∧
      ∀ names,
        let records := numbered.map fun a => Json.obj ((env.tables scope).embed e names a.1)
        (c.findMany e ⟨f, sort, none, none, names⟩).runOn env = (.ok records, env) ∧
          ∀ take skip, (c.findMany e ⟨f, sort, take, skip, names⟩).runOn env =
            (.ok ((records.drop (skip.getD 0)).take (take.getD records.length)), env) := by
  intro c matching
  obtain ⟨numbered, hperm, hsorted, hsort⟩ := Sorting.exists_numbered h
  have hmem : ∀ a ∈ numbered, a.1 ∈ matching := fun a ha =>
    List.fst_mem_of_mem_zipIdx (hperm.mem_iff.1 ha)
  refine ⟨numbered, hperm, hsorted, fun hseparated => Sorting.pairwise_exact hseparated hmem hsorted, ?_,
    fun names => ?_⟩
  · have hcount : (c.count e (some f)).runOn env = (.ok matching.length, env) := rfl
    rw [hcount, hperm.length_eq, List.length_zipIdx]
  · intro records
    have hfound : ∀ take skip, (c.findMany e ⟨f, sort, take, skip, names⟩).runOn env =
        (.ok (Store.window skip take records), env) := by
      intro take skip
      show (Except.ok (((Store.window skip take (sort.sortRecords matching)).map _).map Json.obj), env) = _
      rw [hsort, ← Store.window_map, ← Store.window_map, List.map_map, List.map_map]
      rfl
    exact ⟨hfound none none, fun take skip => by rw [hfound, Store.window_eq_take_drop]⟩

def people (rows : List Fields) : Env := { Env.empty with live := OrdMap.ofList [("person", rows)] }

/-- Asks for the people of a given age at least, the oldest first. -/
def olderThan (age : ℤ) : Filter := OrdMap.ofList [("age", .ops (OrdMap.ofList [(.gte, .int age)]))]

theorem findMany_sorted_people :
    let person := Entity.placeholder "person"
    let env := people [[("age", .int 30)], [("age", .int 20)], [("age", .int 40)], [("age", .int 10)]]
    let sort : Sorting := OrdMap.ofList [("age", .desc)]
    ∃ numbered : List (Fields × Nat),
      numbered.Perm [([("age", .int 30)], 0), ([("age", .int 20)], 1), ([("age", .int 40)], 2)] ∧
        numbered.Pairwise (Sorting.Before Number.value [("age", .desc)]) ∧
        ((connect false 0).findMany person ⟨olderThan 20, sort, some 2, some 0, []⟩).runOn env =
          (.ok ((numbered.map fun a => Json.obj a.1).take 2), env) := by
  intro person env sort
  have hmatching : ((env.tables 0).rows person.name).filter (olderThan 20).accepts =
      [[("age", .int 30)], [("age", .int 20)], [("age", .int 40)]] := rfl
  have hages : ∀ row ∈ ((env.tables 0).rows person.name).filter (olderThan 20).accepts,
      ∃ k : ℤ, row.getOrNull "age" = .int k ∧ k.natAbs ≤ 2 ^ 53 := by
    rw [hmatching]
    exact List.forall_mem_cons.2 ⟨⟨30, rfl, by decide⟩, List.forall_mem_cons.2 ⟨⟨20, rfl, by decide⟩,
      List.forall_mem_singleton.2 ⟨40, rfl, by decide⟩⟩⟩
  have hkinds : Sorting.Comparable sort.toList
      (((env.tables 0).rows person.name).filter (olderThan 20).accepts) := by
    refine fun field hfield => ⟨.number, fun row hrow => ?_⟩
    obtain ⟨k, hk, -⟩ := hages row hrow
    rw [List.mem_singleton.1 hfield, hk]
    exact .number (.int k)
  have hseparated : Sorting.Separated sort.toList
      (((env.tables 0).rows person.name).filter (olderThan 20).accepts) := by
    refine Sorting.separated_of_natAbs_le fun field hfield row hrow k hk => ?_
    obtain ⟨k', hk', hle⟩ := hages row hrow
    rw [List.mem_singleton.1 hfield, hk'] at hk
    cases hk
    exact hle
  obtain ⟨numbered, hperm, -, hexact, -, hfound⟩ := findMany_sorted false 0 env person (olderThan 20) sort hkinds
  refine ⟨numbered, ?_, hexact hseparated, ?_⟩
  · rw [hmatching] at hperm; exact hperm
  · have hpage := (hfound []).2 (some 2) (some 0)
    rwa [Option.getD_some, Option.getD_some, List.drop_zero] at hpage

/-- Two integers that are rounded to one double, the greater one first. -/
def largeNumbers : List Fields := [[("age", .int 9007199254740993)], [("age", .int 9007199254740992)]]

/-- Integers of more than 53 bits that tie as doubles stay as they were, though one is less than the other. -/
theorem not_sorted_large_numbers :
    let person := Entity.placeholder "person"
    let env := people largeNumbers
    let sort : Sorting := OrdMap.ofList [("age", .asc)]
    Sorting.Comparable sort.toList largeNumbers ∧
      ((connect false 0).findMany person ⟨∅, sort, none, none, []⟩).runOn env =
        (.ok (largeNumbers.map Json.obj), env) ∧
      ¬largeNumbers.Pairwise fun a b => ¬Sorting.Precedes Number.value sort.toList b a := by
  intro person env sort
  refine ⟨fun field hfield => ⟨.number, fun row hrow => ?_⟩, rfl, ?_⟩
  · rw [List.mem_singleton.1 hfield]
    rcases List.mem_cons.1 hrow with rfl | hrow
    · exact .number (.int 9007199254740993)
    · rw [List.mem_singleton.1 hrow]; exact .number (.int 9007199254740992)
  · intro hordered
    have hless : Json.Below Number.value (.int 9007199254740992) (.int 9007199254740993) :=
      .num (Int.cast_lt.2 (by decide))
    exact List.rel_of_pairwise_cons hordered (List.mem_singleton_self _) (.here hless)

end InMemory

end EntityRest
