import EntityRest.Naming.Plural
import Mathlib.Data.List.Basic

/-! # Where the singular undoes the plural

The plural of a word ends in `ies`, in `es` or in `s`, and the singular asks for these endings in this order.
A plural in `ies` or `es` is therefore always undone. One in `s` is not if the word itself gives the letters
that make up one of the longer endings: if it ends in `ie` behind another letter, or in an `e` behind a sound
that takes `es` (`singular_plural_iff`). -/

namespace EntityRest.Naming

/-- A word ends in a text, which may be the whole of it. -/
def EndsIn (w ending : String) : Prop := ∃ stem, w = stem ++ ending

/-- The endings of words that take `es`. -/
def sibilants : List String := ["s", "x", "z", "ch", "sh"]

/-- A word takes `es`. -/
def TakesEs (w : String) : Prop := ∃ s ∈ sibilants, EndsIn w s

/-! ### Words from their end -/

theorem endsIn_iff_isPrefix {w ending : String} :
    EndsIn w ending ↔ ending.toList.reverse <+: w.toList.reverse := by
  rw [List.reverse_prefix]
  constructor
  · rintro ⟨stem, rfl⟩
    exact ⟨stem.toList, String.toList_append.symm⟩
  · rintro ⟨cs, hcs⟩
    exact ⟨String.ofList cs, String.toList_inj.1 (by rw [String.toList_append, String.toList_ofList, hcs])⟩

theorem isSibilant_iff {cs : List Char} :
    isSibilant cs = true ↔ ∃ s ∈ sibilants, s.toList.reverse <+: cs := by
  constructor
  · intro h
    unfold isSibilant at h
    split at h
    · exact ⟨"s", by decide, _, rfl⟩
    · exact ⟨"x", by decide, _, rfl⟩
    · exact ⟨"z", by decide, _, rfl⟩
    · exact ⟨"ch", by decide, _, rfl⟩
    · exact ⟨"sh", by decide, _, rfl⟩
    · cases h
  · rintro ⟨s, hs, rest, rfl⟩
    simp only [sibilants, List.mem_cons, List.not_mem_nil, or_false] at hs
    rcases hs with rfl | rfl | rfl | rfl | rfl <;> rfl

theorem takesEs_iff {w : String} : TakesEs w ↔ isSibilant w.toList.reverse = true := by
  rw [isSibilant_iff]
  exact exists_congr fun s => and_congr_right fun _ => endsIn_iff_isPrefix

/-! ### The three endings -/

theorem singularRev_ies (c : Char) (w : List Char) :
    singularRev ('s' :: 'e' :: 'i' :: c :: w) = 'y' :: c :: w := rfl

theorem singularRev_es {w : List Char} (h : isSibilant w = true) : singularRev ('s' :: 'e' :: w) = w := by
  cases w with
  | nil => cases h
  | cons c w =>
    have hi : c ≠ 'i' := by
      rintro rfl
      cases h
    have hies : stemOfIes? ('s' :: 'e' :: c :: w) = none := by simp [stemOfIes?, hi]
    have hes : stemOfEs? ('s' :: 'e' :: c :: w) = some (c :: w) := if_pos h
    rw [singularRev, hies, hes]
    rfl

theorem singularRev_s {c : Char} {w : List Char} (hc : c ≠ 's') (hies : stemOfIes? ('s' :: c :: w) = none)
    (hes : stemOfEs? ('s' :: c :: w) = none) : singularRev ('s' :: c :: w) = c :: w := by
  have hs : stemOfS? ('s' :: c :: w) = some (c :: w) := if_neg hc
  rw [singularRev, hies, hes, hs]
  rfl

/-- A word in `e`, read backwards: its plural is undone unless the plural ends in `ies` or `es`. -/
theorem singularRev_s_e_iff (w : List Char) : singularRev ('s' :: 'e' :: w) = 'e' :: w ↔
    (∀ c v, w ≠ 'i' :: c :: v) ∧ isSibilant w = false := by
  by_cases hsib : isSibilant w = true
  · rw [singularRev_es hsib]
    simp [hsib]
  by_cases hie : ∃ c v, w = 'i' :: c :: v
  · obtain ⟨c, v, rfl⟩ := hie
    simp [singularRev_ies]
  have hies : stemOfIes? ('s' :: 'e' :: w) = none := by
    unfold stemOfIes?
    split
    · next heq => cases heq; exact absurd ⟨_, _, rfl⟩ hie
    · rfl
  have hes : stemOfEs? ('s' :: 'e' :: w) = none := if_neg hsib
  simp only [singularRev_s (by decide) hies hes, true_iff]
  exact ⟨fun c v heq => hie ⟨c, v, heq⟩, Bool.eq_false_iff.2 hsib⟩

theorem singularRev_s_of_ne {c : Char} {w : List Char} (hs : c ≠ 's') (he : c ≠ 'e') :
    singularRev ('s' :: c :: w) = c :: w := by
  refine singularRev_s hs ?_ ?_
  · simp [stemOfIes?, he]
  · simp [stemOfEs?, he]

theorem singularRev_pluralRev_iff (w : List Char) : singularRev (pluralRev w) = w ↔
    ∀ v, w = 'e' :: v → (∀ c u, v ≠ 'i' :: c :: u) ∧ isSibilant v = false := by
  unfold pluralRev
  split
  · next h => subst h; exact iff_of_true rfl nofun
  · next hne =>
    split
    · next hy =>
      unfold endsInConsonantY at hy
      split at hy
      · exact iff_of_true (singularRev_ies _ _) nofun
      · cases hy
    · split
      · next hsib =>
        refine iff_of_true (singularRev_es hsib) ?_
        rintro v rfl
        cases hsib
      · next hsib =>
        obtain ⟨c, w, rfl⟩ := List.exists_cons_of_ne_nil hne
        by_cases he : c = 'e'
        · subst he
          rw [singularRev_s_e_iff]
          simp
        · have hs : c ≠ 's' := by
            rintro rfl
            exact hsib rfl
          exact iff_of_true (singularRev_s_of_ne hs he) fun v heq => absurd (List.cons.inj heq).1 he

/-! ### Whole words -/

theorem long_ie_iff {w : String} :
    EndsIn w "ie" ∧ 2 < w.length ↔ ∃ c u, w.toList.reverse = 'e' :: 'i' :: c :: u := by
  rw [endsIn_iff_isPrefix, ← String.length_toList, ← List.length_reverse]
  constructor
  · rintro ⟨⟨rest, hrest⟩, hlength⟩
    rw [← hrest] at hlength ⊢
    cases rest with
    | nil => exact absurd hlength (by decide)
    | cons c u => exact ⟨c, u, rfl⟩
  · rintro ⟨c, u, heq⟩
    rw [heq]
    exact ⟨⟨c :: u, rfl⟩, by simp⟩

theorem sibilant_e_iff {w : String} :
    (∃ v, w = v ++ "e" ∧ TakesEs v) ↔ ∃ v, w.toList.reverse = 'e' :: v ∧ isSibilant v = true := by
  constructor
  · rintro ⟨v, rfl, hv⟩
    refine ⟨v.toList.reverse, ?_, takesEs_iff.1 hv⟩
    rw [String.toList_append, List.reverse_append]
    rfl
  · rintro ⟨v, heq, hv⟩
    refine ⟨String.ofList v.reverse, ?_, takesEs_iff.2 ?_⟩
    · refine String.toList_inj.1 ?_
      rw [String.toList_append, String.toList_ofList, List.reverse_eq_iff.1 heq, List.reverse_cons]
      rfl
    · rwa [String.toList_ofList, List.reverse_reverse]

theorem singular_plural_eq_iff (w : String) :
    singular (plural w) = w ↔ singularRev (pluralRev w.toList.reverse) = w.toList.reverse := by
  rw [singular, plural, String.toList_ofList, List.reverse_reverse, ← String.toList_inj, String.toList_ofList,
    List.reverse_eq_iff]

/-- The singular undoes the plural of every word but those in `ie` behind a letter, and those in `e` behind
what takes `es`. -/
theorem singular_plural_iff (w : String) : singular (plural w) = w ↔
    ¬(EndsIn w "ie" ∧ 2 < w.length) ∧ ¬∃ v, w = v ++ "e" ∧ TakesEs v := by
  rw [singular_plural_eq_iff, singularRev_pluralRev_iff, long_ie_iff, sibilant_e_iff]
  constructor
  · intro h
    constructor
    · rintro ⟨c, u, heq⟩
      exact (h _ heq).1 c u rfl
    · rintro ⟨v, heq, hv⟩
      rw [(h v heq).2] at hv
      cases hv
  · rintro ⟨hie, he⟩ v heq
    constructor
    · rintro c u rfl
      exact hie ⟨c, u, heq⟩
    · exact Bool.eq_false_iff.2 fun hv => he ⟨v, heq, hv⟩

/-- The plural of `tie` is that of `ty`, and the plural of `axe` that of `ax`; nothing stands in front of `ie`
in `ie`. -/
example : singular (plural "tie") = "ty" ∧ singular (plural "axe") = "ax" ∧ singular (plural "ie") = "ie" := by
  decide

end EntityRest.Naming
