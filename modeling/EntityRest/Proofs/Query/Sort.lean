import EntityRest.Query.Sort

/-! # Sorting by insertion

Sorting loses no record and repeats none, whatever the order is. If elements that come later are never put before
earlier ones without need, the result stands in the order of any transitive relation that the comparisons decide
(`pairwise_insertionSort`); as this may be a relation on numbered elements, it covers stability. -/

namespace EntityRest.Sorting

variable {α : Type} (order : α → α → Ordering)

theorem insertRev_perm (x : α) (l : List α) : (insertRev order x l).Perm (x :: l) := by
  induction l with
  | nil => exact .refl _
  | cons y ys ih =>
    unfold insertRev
    split
    · exact (ih.cons y).trans (.swap x y ys)
    · exact .refl _

theorem foldl_insertRev_perm (l sorted : List α) :
    (l.foldl (fun sorted x => insertRev order x sorted) sorted).Perm (l ++ sorted) := by
  induction l generalizing sorted with
  | nil => exact .refl _
  | cons x l ih =>
    calc (l.foldl (fun sorted x => insertRev order x sorted) (insertRev order x sorted)).Perm
          (l ++ insertRev order x sorted) := ih _
      _ |>.Perm (l ++ x :: sorted) := (insertRev_perm order x sorted).append_left l
      _ |>.Perm (x :: l ++ sorted) := List.perm_middle

theorem insertionSort_perm (l : List α) : (insertionSort order l).Perm l := by
  have h := foldl_insertRev_perm order l []
  rw [List.append_nil] at h
  exact (List.reverse_perm _).trans h

/-! ### The result in order -/

section Order

variable {order} {R : α → α → Prop}

theorem pairwise_insertRev (htrans : ∀ a b c, R a b → R b c → R a c) {x : α} {l : List α}
    (hx : ∀ y ∈ l, if order x y = .lt then R x y else R y x) (hl : l.Pairwise (flip R)) :
    (insertRev order x l).Pairwise (flip R) := by
  induction l with
  | nil => exact List.pairwise_singleton ..
  | cons y ys ih =>
    obtain ⟨hy, hys⟩ := List.pairwise_cons.1 hl
    obtain ⟨hxy, hxys⟩ := List.forall_mem_cons.1 hx
    unfold insertRev
    split
    · next hlt =>
      rw [if_pos hlt] at hxy
      refine List.pairwise_cons.2 ⟨fun z hz => ?_, ih hxys hys⟩
      rcases List.mem_cons.1 ((insertRev_perm order x ys).mem_iff.1 hz) with rfl | hz
      · exact hxy
      · exact hy z hz
    · next hge =>
      rw [if_neg hge] at hxy
      refine List.pairwise_cons.2 ⟨fun z hz => ?_, hl⟩
      rcases List.mem_cons.1 hz with rfl | hz
      · exact hxy
      · exact htrans _ _ _ (hy z hz) hxy

theorem pairwise_foldl_insertRev (htrans : ∀ a b c, R a b → R b c → R a c) {l sorted : List α}
    (hl : l.Pairwise fun y x => if order x y = .lt then R x y else R y x)
    (hsorted : sorted.Pairwise (flip R))
    (hcross : ∀ x ∈ l, ∀ y ∈ sorted, if order x y = .lt then R x y else R y x) :
    (l.foldl (fun sorted x => insertRev order x sorted) sorted).Pairwise (flip R) := by
  induction l generalizing sorted with
  | nil => exact hsorted
  | cons x l ih =>
    obtain ⟨hx, hl⟩ := List.pairwise_cons.1 hl
    obtain ⟨hxs, hcross⟩ := List.forall_mem_cons.1 hcross
    refine ih hl (pairwise_insertRev htrans hxs hsorted) fun z hz y hy => ?_
    rcases List.mem_cons.1 ((insertRev_perm order x sorted).mem_iff.1 hy) with rfl | hy
    · exact hx z hz
    · exact hcross z hz y hy

/-- Of two elements, the later one is put first only where the order says less. -/
theorem pairwise_insertionSort (htrans : ∀ a b c, R a b → R b c → R a c) {l : List α}
    (hl : l.Pairwise fun y x => if order x y = .lt then R x y else R y x) :
    (insertionSort order l).Pairwise R :=
  List.pairwise_reverse.2 (pairwise_foldl_insertRev htrans hl .nil fun _ _ _ hy => absurd hy List.not_mem_nil)

end Order

/-! ### Elements with their numbers -/

theorem pairwise_zipIdx_lt (l : List α) : l.zipIdx.Pairwise fun a b => a.2 < b.2 := by
  refine List.pairwise_iff_getElem.2 fun i j hi hj hij => ?_
  simpa using hij

section Map

variable {β : Type} (g : β → α)

theorem insertRev_map (x : β) (l : List β) :
    insertRev order (g x) (l.map g) = (insertRev (fun a b => order (g a) (g b)) x l).map g := by
  induction l with
  | nil => rfl
  | cons y ys ih =>
    simp only [List.map_cons, insertRev]
    split
    · rw [ih, List.map_cons]
    · rfl

theorem insertionSort_map (l : List β) :
    insertionSort order (l.map g) = (insertionSort (fun a b => order (g a) (g b)) l).map g := by
  have hfold : ∀ sorted : List β, (l.map g).foldl (fun sorted x => insertRev order x sorted) (sorted.map g) =
      (l.foldl (fun sorted x => insertRev (fun a b => order (g a) (g b)) x sorted) sorted).map g := by
    induction l with
    | nil => exact fun _ => rfl
    | cons x l ih =>
      intro sorted
      rw [List.map_cons, List.foldl_cons, List.foldl_cons, insertRev_map, ih]
  rw [insertionSort, insertionSort, ← List.map_nil (f := g), hfold, List.map_reverse]

end Map

end EntityRest.Sorting
