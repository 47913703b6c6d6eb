import EntityRest.Text.Blank

/-! # Lists in one text

Splitting at a separator undoes joining with it (`splitOn_append_cons`), and trimming leaves alone what has
no blanks at its ends. So items that can stand between commas are read back from the text in which they are
joined, one by one and in their order (`listItems_intercalate`). -/

namespace EntityRest.Text

/-! ### Splitting -/

section

variable {sep : Char} {cs : List Char}

theorem splitOn_ne_nil (sep : Char) (cs : List Char) : splitOn sep cs ≠ [] := by
  cases cs with
  | nil => simp [splitOn]
  | cons c cs =>
    unfold splitOn
    split
    · simp
    · split <;> simp

theorem splitOn_append_cons (sep : Char) (as bs : List Char) :
    splitOn sep (as ++ sep :: bs) = splitOn sep as ++ splitOn sep bs := by
  induction as with
  | nil => simp [splitOn]
  | cons c as ih =>
    rw [List.cons_append, splitOn, splitOn, ih]
    by_cases hc : c = sep
    · rw [if_pos hc, if_pos hc, List.cons_append]
    · rw [if_neg hc, if_neg hc]
      cases h : splitOn sep as with
      | nil => exact absurd h (splitOn_ne_nil sep as)
      | cons piece pieces => rfl

theorem splitOn_of_not_mem (h : sep ∉ cs) : splitOn sep cs = [cs] := by
  induction cs with
  | nil => rfl
  | cons c cs ih =>
    have hc : c ≠ sep := fun hc => h (by simp [hc])
    have hcs : sep ∉ cs := fun hcs => h (by simp [hcs])
    rw [splitOn, if_neg hc, ih hcs]

theorem not_mem_of_mem_splitOn {piece : List Char} (h : piece ∈ splitOn sep cs) : sep ∉ piece := by
  induction cs generalizing piece with
  | nil => simp [splitOn] at h; simp [h]
  | cons c cs ih =>
    rw [splitOn] at h
    split at h
    · rcases List.mem_cons.1 h with rfl | h
      · simp
      · exact ih h
    · next hc =>
      cases hcs : splitOn sep cs with
      | nil => exact absurd hcs (splitOn_ne_nil sep cs)
      | cons first pieces =>
        rw [hcs] at h ih
        rcases List.mem_cons.1 h with rfl | h
        · have hfirst : sep ∉ first := ih List.mem_cons_self
          simp [hfirst, Ne.symm hc]
        · exact ih (List.mem_cons_of_mem _ h)

theorem splitOn_intercalate {pieces : List (List Char)} (hne : pieces ≠ [])
    (h : ∀ piece ∈ pieces, sep ∉ piece) : splitOn sep ([sep].intercalate pieces) = pieces := by
  induction pieces with
  | nil => exact absurd rfl hne
  | cons piece pieces ih =>
    rw [List.forall_mem_cons] at h
    cases pieces with
    | nil => rw [List.intercalate_singleton, splitOn_of_not_mem h.1]
    | cons next pieces =>
      rw [List.intercalate_cons_cons, List.append_assoc, List.singleton_append, splitOn_append_cons,
        splitOn_of_not_mem h.1, ih (List.cons_ne_nil _ _) h.2, List.singleton_append]

end

/-! ### Two texts in one -/

theorem append_cons_eq_of_append {sep : Char} {a b m n cs : List Char} (hb : b = a ++ cs)
    (hm : sep :: m = cs ++ sep :: n) : a = b ∧ m = n ∨ ∃ s, b = a ++ sep :: s ∧ m = s ++ sep :: n := by
  -- the separator after `a` is the one after `b`, or the first one that `b` goes on with
  obtain ⟨rfl, hm⟩ | ⟨s, rfl, hs⟩ := List.cons_eq_append_iff.1 hm
  · exact .inl ⟨by rw [hb, List.append_nil], (List.cons.inj hm).2⟩
  · exact .inr ⟨s, hb, hs⟩

/-- Two texts joined at a separator are told apart, unless one of the first ones goes on to a part of the
other second one. -/
theorem append_cons_eq_iff {sep : Char} {a b m n : List Char} : a ++ sep :: m = b ++ sep :: n ↔
    a = b ∧ m = n ∨ (∃ s, b = a ++ sep :: s ∧ m = s ++ sep :: n) ∨
      ∃ s, a = b ++ sep :: s ∧ n = s ++ sep :: m := by
  constructor
  · intro h
    obtain ⟨cs, hb, hm⟩ | ⟨cs, ha, hn⟩ := List.append_eq_append_iff.1 h
    · exact (append_cons_eq_of_append hb hm).imp_right .inl
    · obtain ⟨rfl, rfl⟩ | hs := append_cons_eq_of_append ha hn
      · exact .inl ⟨rfl, rfl⟩
      · exact .inr (.inr hs)
  · rintro (⟨rfl, rfl⟩ | ⟨s, rfl, rfl⟩ | ⟨s, rfl, rfl⟩)
    · rfl
    · rw [List.append_assoc, List.cons_append]
    · rw [List.append_assoc, List.cons_append]

/-! ### Trimming -/

theorem dropWhile_of_head? {p : Char → Bool} {cs : List Char} (h : ∀ c ∈ cs.head?, p c = false) :
    cs.dropWhile p = cs := by
  cases cs with
  | nil => rfl
  | cons c cs => rw [List.dropWhile_cons, h c rfl]; rfl

/-- A text without blanks at its ends stays as it is. -/
theorem trimChars_eq_self {cs : List Char} (hfirst : ∀ c ∈ cs.head?, isBlank c = false)
    (hlast : ∀ c ∈ cs.getLast?, isBlank c = false) : trimChars cs = cs := by
  have hreverse : cs.reverse.dropWhile isBlank = cs.reverse :=
    dropWhile_of_head? (by rwa [List.head?_reverse])
  rw [trimChars, trimLeft, dropWhile_of_head? hfirst, dropEndWhile, hreverse, List.reverse_reverse]

/-- Trimming takes off the blanks around what has none at its ends. -/
theorem trimChars_append {before cs after : List Char} (hbefore : ∀ c ∈ before, isBlank c = true)
    (hafter : ∀ c ∈ after, isBlank c = true) (hne : cs ≠ []) (hfirst : ∀ c ∈ cs.head?, isBlank c = false)
    (hlast : ∀ c ∈ cs.getLast?, isBlank c = false) : trimChars (before ++ (cs ++ after)) = cs := by
  have hleft : (before ++ (cs ++ after)).dropWhile isBlank = cs ++ after := by
    obtain ⟨c, cs, rfl⟩ := List.exists_cons_of_ne_nil hne
    rw [List.dropWhile_append_of_pos hbefore]
    exact dropWhile_of_head? hfirst
  have hright : (cs ++ after).reverse.dropWhile isBlank = cs.reverse := by
    rw [List.reverse_append, List.dropWhile_append_of_pos fun c hc => hafter c (List.mem_reverse.1 hc)]
    exact dropWhile_of_head? (by rwa [List.head?_reverse])
  rw [trimChars, trimLeft, hleft, dropEndWhile, hright, List.reverse_reverse]

/-! ### Items -/

/-- An item that can stand between commas: it is not empty, and has no comma and no blanks around it. -/
structure Listable (item : String) : Prop where
  nonempty : item ≠ ""
  no_comma : ',' ∉ item.toList
  first : ∀ c ∈ item.toList.head?, isBlank c = false
  last : ∀ c ∈ item.toList.getLast?, isBlank c = false

theorem all_not_isBlank_iff {o : Option Char} : o.all (!isBlank ·) = true ↔ ∀ c ∈ o, isBlank c = false := by
  cases o <;> simp

instance : DecidablePred Listable := fun item =>
  decidable_of_iff (item ≠ "" ∧ ',' ∉ item.toList ∧ item.toList.head?.all (!isBlank ·) = true ∧
      item.toList.getLast?.all (!isBlank ·) = true)
    ⟨fun ⟨h, hcomma, hfirst, hlast⟩ => ⟨h, hcomma, all_not_isBlank_iff.1 hfirst, all_not_isBlank_iff.1 hlast⟩,
      fun h => ⟨h.nonempty, h.no_comma, all_not_isBlank_iff.2 h.first, all_not_isBlank_iff.2 h.last⟩⟩

theorem listItems_empty : listItems "" = [] := rfl

/-- The items of a list are read back from the text in which commas join them. -/
theorem listItems_intercalate {items : List String} (h : ∀ item ∈ items, Listable item) :
    listItems (",".intercalate items) = items := by
  cases hitems : items with
  | nil => rw [String.intercalate_nil, listItems_empty]
  | cons first rest =>
    rw [← hitems]
    have hne : items.map String.toList ≠ [] := by rw [hitems]; exact List.cons_ne_nil _ _
    have hcomma : ∀ piece ∈ items.map String.toList, ',' ∉ piece :=
      List.forall_mem_map.2 fun item hitem => (h item hitem).no_comma
    have hsplit : splitOn ',' (",".intercalate items).toList = items.map String.toList := by
      rw [String.toList_intercalate]
      exact splitOn_intercalate hne hcomma
    have htrim : (items.map String.toList).map trimChars = items.map String.toList := by
      rw [List.map_map]
      exact List.map_congr_left fun item hitem => trimChars_eq_self (h item hitem).first (h item hitem).last
    have hkeep : (items.map String.toList).filter (· ≠ []) = items.map String.toList := by
      refine List.filter_eq_self.2 (List.forall_mem_map.2 fun item hitem => decide_eq_true ?_)
      exact fun heq => (h item hitem).nonempty (String.toList_eq_nil_iff.1 heq)
    have hback : (items.map String.toList).map String.ofList = items := by
      rw [List.map_map]
      exact (List.map_congr_left fun item _ => String.ofList_toList).trans (List.map_id items)
    rw [listItems, hsplit, htrim, hkeep, hback]

theorem ne_empty_of_mem_listItems {raw item : String} (h : item ∈ listItems raw) : item ≠ "" := by
  obtain ⟨piece, hpiece, rfl⟩ := List.mem_map.1 h
  have hne : piece ≠ [] := by simpa using (List.mem_filter.1 hpiece).2
  exact fun heq => hne (by simpa using congrArg String.toList heq)

end EntityRest.Text
