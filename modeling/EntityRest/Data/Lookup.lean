/-!
Looking a key up in a list of pairs: the first pair with the key counts.
-/

namespace EntityRest.Lookup

variable {κ ν : Type} [DecidableEq κ]

theorem lookup_cons_pair (k l : κ) (v : ν) (ps : List (κ × ν)) :
    ((k, v) :: ps).lookup l = if l = k then some v else ps.lookup l := by
  rw [List.lookup_cons]
  by_cases h : l = k
  · simp [h]
  · have : (l == k) = false := by simpa using h
    simp [this, h]

theorem lookup_eq_none_iff {ps : List (κ × ν)} {k : κ} :
    ps.lookup k = none ↔ k ∉ ps.map Prod.fst := by
  induction ps with
  | nil => simp
  | cons e ps ih =>
    obtain ⟨l, w⟩ := e
    rw [lookup_cons_pair]
    by_cases h : k = l
    · simp [h]
    · rw [if_neg h, ih]
      simp [h]

theorem mem_of_lookup_eq_some {ps : List (κ × ν)} {k : κ} {v : ν} (h : ps.lookup k = some v) :
    (k, v) ∈ ps := by
  induction ps with
  | nil => simp at h
  | cons e ps ih =>
    obtain ⟨l, w⟩ := e
    rw [lookup_cons_pair] at h
    split at h
    · simp_all
    · exact List.mem_cons_of_mem _ (ih h)

end EntityRest.Lookup
