import EntityRest.Proofs.Plugin.Simultaneous

/-! # The declared name of a resolved entity

The name that the metadata of an entity tell as its declared one is read off the table of renames, and so are the
targets of hooks. The table has single renames only: from the name of one change to the next. An entity that is
renamed at most once has its declared name there (`Named`, an invariant of the changes); one that is renamed again
does not, as the rename from the declared name is keyed by the name in between
(`Plugin.resolveWith_declaredName_iff`). -/

namespace EntityRest

namespace Resolve.Work

variable {plugin n entity : String} {w : Work} {c : EntityChange} {changes : List (String × EntityChange)}
  {t t₁ t' : Tracked}

/-- One of the changes renames the entity when it does not bear the name `n`. -/
inductive RenamedAgain (plugin n : String) : Work → List (String × EntityChange) → Tracked → Prop
  | here {w : Work} {entity : String} {c : EntityChange} {changes : List (String × EntityChange)} {t : Tracked}
      (hname : t.name = entity) (hne : entity ≠ n) (hrename : c.nameFor entity ≠ entity) :
      RenamedAgain plugin n w ((entity, c) :: changes) t
  | later {w : Work} {entity : String} {c : EntityChange} {changes : List (String × EntityChange)} {t t₁ : Tracked}
      (hpass : w.pass plugin entity c t = some t₁)
      (hrest : RenamedAgain plugin n (w.change plugin entity c) changes t₁) :
      RenamedAgain plugin n w ((entity, c) :: changes) t

/-! ### Renamed again -/

/-- Only the change of its name gives an entity another one, and no further change has that key. -/
theorem not_mem_of_pass {keys : List String} (hpass : w.pass plugin entity c t = some t')
    (hleft : t.name ≠ n → n ∉ entity :: keys) (hkey : entity ∉ keys) (hname : t'.name ≠ n) : n ∉ keys := by
  by_cases htn : t.name = n
  · obtain ⟨rfl, -, -⟩ | ⟨-, -, rfl⟩ := pass_eq_some hpass
    · exact htn ▸ hkey
    · exact absurd htn hname
  · exact fun hmem => hleft htn (List.mem_cons_of_mem _ hmem)

theorem follow_formerName_eq_or_mem (h : w.follow plugin changes t = some t') :
    t'.formerName = t.formerName ∨ t'.formerName ∈ changes.map Prod.fst := by
  induction changes generalizing w t with
  | nil => cases h; exact .inl rfl
  | cons e changes ih =>
    obtain ⟨t₁, hpass, hrest⟩ := follow_cons_eq_some h
    obtain heq | hmem := ih hrest
    · rw [heq]
      obtain ⟨hname, -, rfl⟩ | ⟨-, -, rfl⟩ := pass_eq_some hpass
      · show ite _ _ _ = _ ∨ ite _ _ _ ∈ _
        split
        · exact .inl rfl
        · exact .inr (hname ▸ List.mem_cons_self)
      · exact .inl rfl
    · exact .inr (List.mem_cons_of_mem _ hmem)

theorem RenamedAgain.formerName_ne (h : RenamedAgain plugin n w changes t) (hkeys : (changes.map Prod.fst).Nodup)
    (hleft : t.name ≠ n → n ∉ changes.map Prod.fst) (hfollow : w.follow plugin changes t = some t') :
    t'.formerName ≠ n := by
  induction h with
  | here hname hne hrename =>
    obtain ⟨t₁, hpass, hrest⟩ := follow_cons_eq_some hfollow
    obtain ⟨-, -, rfl⟩ | ⟨hother, -⟩ := pass_eq_some hpass
    · subst hname
      -- later changes leave the former name or put one of their keys there, and `n` is none of them
      obtain heq | hmem := follow_formerName_eq_or_mem hrest
      · rw [heq]
        show ite _ _ _ ≠ _
        rwa [if_neg hrename]
      · rintro rfl
        exact hleft hne (List.mem_cons_of_mem _ hmem)
    · exact absurd hname hother
  | later hpass _ ih =>
    obtain ⟨t₁, hpass', hrest⟩ := follow_cons_eq_some hfollow
    obtain rfl := Option.some.inj (hpass.symm.trans hpass')
    obtain ⟨hkey, hkeys⟩ := List.nodup_cons.1 hkeys
    exact ih hkeys (not_mem_of_pass hpass hleft hkey) hrest

/-! ### Renamed at most once -/

/-- The entity has the former name `n`, and the table of renames says so: it leads from the name of the entity to
`n`, if the two differ, and from no other name. -/
structure Named (n : String) (w : Work) (t : Tracked) : Prop where
  there : w.entities.get? t.name = some t.entity
  former : t.formerName = n
  table : ∀ name, w.renames.get? name = some n ↔ name = t.name ∧ name ≠ n

theorem get?_of_pass (hthere : w.entities.get? t.name = some t.entity) (hpass : w.pass plugin entity c t = some t') :
    (w.change plugin entity c).entities.get? t'.name = some t'.entity := by
  have hentry : w.passEntry plugin entity c t.entry = some t'.entry := by
    rw [← map_entry_pass, hpass]
    rfl
  refine OrdMap.get?_eq_some_iff.2 ((toList_change plugin w entity c).1.symm.subset ?_)
  exact List.mem_filterMap.2 ⟨t.entry, OrdMap.get?_eq_some_iff.1 hthere, hentry⟩

/-- A change that meets the entity renames it from `n` or not at all. -/
theorem Named.change_self (h : w.Named n t) (hr : c.removes t.entity = false)
    (honce : c.nameFor t.name ≠ t.name → t.name = n) : (w.change plugin t.name c).Named n (t.changed plugin c) where
  there := get?_of_pass h.there (by rw [pass, if_pos rfl, Tracked.change, hr]; rfl)
  former := by
    show ite _ _ _ = n
    split
    · exact h.former
    · next hrename => exact honce hrename
  table name := by
    show _ ↔ name = c.nameFor t.name ∧ _
    rw [renames_change h.there hr]
    split
    · next hsame => rw [hsame]; exact h.table name
    · next hrename =>
      have hname := honce hrename
      rw [OrdMap.get?_insert]
      split
      · next heq => exact iff_of_true (congrArg some hname) ⟨heq, by rwa [heq, ← hname]⟩
      · next hne =>
        rw [h.table name, hname]
        exact iff_of_false (fun hn => hn.2 hn.1) fun hn => hne (hname ▸ hn.1)

/-- A change of another entity says nothing of `n`. -/
theorem Named.change_other (h : w.Named n t) (hname : t.name ≠ entity) (hkept : w.givesAway entity c t.name = false)
    (hentity : entity ≠ n) : (w.change plugin entity c).Named n t where
  there := get?_of_pass h.there (by rw [pass, if_neg hname, hkept]; rfl)
  former := h.former
  table name := by
    obtain hsame | ⟨d, hd, hr, hrenames⟩ := renames_change_cases plugin w entity c
    · rw [hsame]; exact h.table name
    · rw [hrenames, OrdMap.get?_insert]
      split
      · next heq =>
        have hgiven : t.name ≠ c.nameFor entity := fun htaken =>
          Bool.false_ne_true (hkept.symm.trans ((givesAway_iff hd hr hname).2 htaken))
        exact iff_of_false (fun hn => hentity (Option.some.inj hn)) fun hn => hgiven (hn.1.symm.trans heq)
      · exact h.table name

theorem Named.run (h : w.Named n t) (hkeys : (changes.map Prod.fst).Nodup)
    (hleft : t.name ≠ n → n ∉ changes.map Prod.fst) (hfollow : w.follow plugin changes t = some t')
    (honce : ¬RenamedAgain plugin n w changes t) : (w.run plugin changes).Named n t' := by
  induction changes generalizing w t with
  | nil => cases hfollow; exact h
  | cons e changes ih =>
    obtain ⟨entity, c⟩ := e
    obtain ⟨t₁, hpass, hrest⟩ := follow_cons_eq_some hfollow
    obtain ⟨hkey, hkeys⟩ := List.nodup_cons.1 hkeys
    refine ih ?_ hkeys (not_mem_of_pass hpass hleft hkey) hrest fun hagain => honce (.later hpass hagain)
    obtain ⟨rfl, hr, rfl⟩ | ⟨hname, hkept, rfl⟩ := pass_eq_some hpass
    · exact h.change_self hr fun hrename => Classical.byContradiction fun hne => honce (.here rfl hne hrename)
    · refine h.change_other hname hkept ?_
      rintro rfl
      exact hleft hname List.mem_cons_self

theorem named_start {p : Plugin} {d : PluginEntity} (hd : p.entities.get? n = some d) :
    (start p).Named n (.ofDeclared n d) where
  there := hd
  former := rfl
  table _ := iff_of_false nofun fun h => h.2 h.1

/-- In the table turned round, the declared name leads to the name of the entity. -/
theorem Named.getD_swap (h : w.Named n t) :
    (OrdMap.ofList (w.renames.toList.map Prod.swap)).getD n n = t.name := by
  have hmem (name : String) : (n, name) ∈ w.renames.toList.map Prod.swap ↔ name = t.name ∧ name ≠ n := by
    rw [← h.table, OrdMap.get?_eq_some_iff, List.mem_map]
    constructor
    · rintro ⟨⟨_, _⟩, he, heq⟩
      cases heq
      exact he
    · exact fun he => ⟨_, he, rfl⟩
  unfold OrdMap.getD
  cases hget : (OrdMap.ofList (w.renames.toList.map Prod.swap)).get? n with
  | some name =>
    obtain hlist | hempty := OrdMap.mem_of_get?_insertMany hget
    · exact ((hmem name).1 hlist).1
    · cases hempty
  | none =>
    -- an entity with another name would be found
    by_contra hne
    have hkey : n ∈ (w.renames.toList.map Prod.swap).map Prod.fst :=
      List.mem_map.2 ⟨(n, t.name), (hmem t.name).2 ⟨rfl, fun heq => hne heq.symm⟩, rfl⟩
    exact OrdMap.get?_eq_none_iff.1 hget (OrdMap.mem_keys_insertMany.2 (.inl hkey))

end Resolve.Work

open Resolve

/-- The metadata of an entity tell its declared name just if the extension does not rename it again; and then the
hooks for the declared name are run for it. -/
theorem Plugin.resolveWith_declaredName_iff {p : Plugin} {x : Extension} {n : String} {d : PluginEntity} {t : Tracked}
    (hd : p.entities.get? n = some d) (ht : counterpart? p x n = some t) :
    let r := (p.resolveWith x).1
    let again := Work.RenamedAgain p.id n (Work.start p) x.entities.toList (.ofDeclared n d)
    ∃ m, r.entityMeta.get? t.name = some m ∧ (m.declaredName = n ↔ ¬again) ∧
      (¬again → ∀ (i : Nat) (h : Hook), p.hooks[i]? = some h → h.entity = n →
        r.hooks[i]? = some { h with entity := t.name }) := by
  intro r again
  obtain ⟨hfollow, -⟩ := (counterpart?_eq_some_iff hd).1 ht
  have hkeys : (x.entities.toList.map Prod.fst).Nodup := x.entities.nodup_keys
  have hleft : n ≠ n → n ∉ x.entities.toList.map Prod.fst := fun hne => absurd rfl hne
  have honce : ¬again → ((Work.start p).run p.id x.entities.toList).Named n t := fun hnot =>
    (Work.named_start hd).run hkeys hleft hfollow hnot
  refine ⟨metaOf p x t, get?_entityMeta_counterpart ht, ⟨fun hname hagain => ?_, fun hnot => (honce hnot).former⟩,
    fun hnot i h hi hentity => ?_⟩
  · exact hagain.formerName_ne hkeys hleft hfollow hname
  · have htarget : (hookTargets p x (applyChanges p.id p.entities x).renames).getD n n = t.name := by
      have hdeclared : ¬(n ∈ x.addEntities.keys ∧ n ∉ p.entities.keys) := fun hn =>
        hn.2 (OrdMap.mem_keys_of_get? hd)
      rw [OrdMap.getD, get?_hookTargets, if_neg hdeclared]
      exact (honce hnot).getD_swap
    show (p.hooks.map (retarget _))[i]? = _
    rw [List.getElem?_map, hi, Option.map_some, retarget, hentity, htarget]

/-- The accounts with a hook for each of their entities. -/
def Plugin.hookedAccounts : Plugin :=
  { Plugin.accounts with hooks := ["user", "session"].map fun entity => ⟨entity, .after .create, pure⟩ }

/-- Sessions become logins. Users become members, and members become persons. -/
def Extension.personsAndLogins : Extension :=
  ((({} : Extension).renameEntity "session" "login").renameEntity "user" "member").renameEntity "member" "person"

/-- Of logins the metadata say that they are sessions, and the hook for sessions is run for them. Of persons they do
not say that they are users, and the hook for users is for members, which there are none of. -/
theorem Plugin.resolveWith_declaredName_persons :
    let r := (Plugin.hookedAccounts.resolveWith .personsAndLogins).1
    (∃ m, r.entityMeta.get? "login" = some m ∧ m.declaredName = "session" ∧
      ∃ h, r.hooks[1]? = some h ∧ h.entity = "login") ∧
    (∃ m, r.entityMeta.get? "person" = some m ∧ m.declaredName ≠ "user") ∧
      r.entities.map (·.name) = ["person", "login"] ∧ r.hooks.map (·.entity) = ["member", "login"] := by
  intro r
  refine ⟨?_, ?_, by decide +kernel, by decide +kernel⟩
  · obtain ⟨m, hmeta, hiff, hhooks⟩ := Plugin.resolveWith_declaredName_iff (p := Plugin.hookedAccounts)
      (x := .personsAndLogins) (n := "session") rfl rfl
    have honce : ∀ d, ¬Work.RenamedAgain "auth" "session" (Work.start Plugin.hookedAccounts)
        Extension.personsAndLogins.entities.toList (.ofDeclared "session" d) := by
      rintro d (⟨-, hne, -⟩ | ⟨hpass, ⟨hname, -, -⟩ | ⟨hpass', ⟨hname, -, -⟩ | ⟨-, hrest⟩⟩⟩)
      · exact hne rfl
      · cases hpass
        exact (by decide : "login" ≠ "user") hname
      · cases hpass
        cases hpass'
        exact (by decide : "login" ≠ "member") hname
      · cases hrest
    exact ⟨m, hmeta, hiff.2 (honce _), _, hhooks (honce _) 1 _ rfl rfl, rfl⟩
  · obtain ⟨m, hmeta, hiff, -⟩ := Plugin.resolveWith_declaredName_iff (p := Plugin.hookedAccounts)
      (x := .personsAndLogins) (n := "user") rfl rfl
    exact ⟨m, hmeta, fun hname => hiff.1 hname (.later rfl (.later rfl (.here rfl (by decide) (by decide))))⟩

end EntityRest
