import EntityRest.Proofs.Plugin.Counterpart
import EntityRest.Proofs.Routing.Router

/-! # Hidden entities

An entity is internal in the resolved plugin if it is declared so, or if the change by which its routing
facts go says so (`tagOf`): the one that renamed it last, or the one of its declared name if none renamed
it. The router then leads to it by no request (`resolveWith_internal_iff`). No other change counts, even
if it meets the entity: users that are hidden and renamed are out in the open again once their new name
is changed (`resolveWith_internal_persons`). -/

namespace EntityRest

open Resolve

theorem Resolve.isInternal_tagOf (p : Plugin) (x : Extension) (t : Tracked) :
    (tagOf p x t).isInternal = true ↔ t.entity.isInternal = true ∨
      ∃ c, x.entities.get? t.formerName = some c ∧ c.isInternal = some true := by
  show (t.entity.isInternal || (changeOf x t).bind (·.isInternal) == some true) = true ↔ _
  rw [Bool.or_eq_true, beq_iff_eq, Option.bind_eq_some_iff]
  rfl

/-- Whether a declared entity is internal once it is resolved; if it is, no request leads to it. -/
theorem Plugin.resolveWith_internal_iff (p : Plugin) (x : Extension) {n : String} {d : PluginEntity}
    {t : Tracked} (hd : p.entities.get? n = some d) (ht : counterpart? p x n = some t) :
    let r := (p.resolveWith x).1
    ∃ m, r.entityMeta.get? t.name = some m ∧
      (∃ e ∈ r.entities, e.name = t.name ∧ e.plugin.map (·.isInternal) = some m.isInternal) ∧
      (m.isInternal = true ↔ d.isInternal = true ∨
        ∃ c, x.entities.get? t.formerName = some c ∧ c.isInternal = some true) ∧
      (m.isInternal = true → ∀ entities routes method path em,
        (Router.build entities r.entityMeta routes).1.matchRequest method path = .entity em →
          em.entity ≠ t.name) := by
  intro r
  obtain ⟨hfollow, -⟩ := (counterpart?_eq_some_iff hd).1 ht
  have hmeta : r.entityMeta.get? t.name = some (metaOf p x t) := get?_entityMeta_counterpart ht
  have hdeclared : t.entity.isInternal = d.isInternal := by rw [Work.follow_entity hfollow]; rfl
  refine ⟨metaOf p x t, hmeta, ⟨_, mem_entities_resolveWith ht, rfl, rfl⟩, ?_, ?_⟩
  · rw [← hdeclared]
    exact isInternal_tagOf p x t
  · rintro hinternal entities routes method path em hmatch hname
    have hpublic := Router.isInternal_eq_false_of_matchRequest hmatch (hname ▸ hmeta)
    rw [hinternal] at hpublic
    cases hpublic

/-- Sessions are hidden; so are users, which become members and then persons. -/
def Extension.persons : Extension :=
  ((((({} : Extension).withInternal "session" true).renameEntity "user" "member").withInternal "user"
    true).renameEntity "member" "person")

theorem Plugin.resolveWith_internal_persons :
    let r := (Plugin.accounts.resolveWith .persons).1
    (∃ m, r.entityMeta.get? "session" = some m ∧ m.isInternal = true ∧
      ∀ entities routes method path em,
        (Router.build entities r.entityMeta routes).1.matchRequest method path = .entity em →
          em.entity ≠ "session") ∧
      ∃ m, r.entityMeta.get? "person" = some m ∧ m.isInternal = false := by
  intro r
  constructor
  · obtain ⟨m, hmeta, -, hinternal, hhidden⟩ :=
      Plugin.resolveWith_internal_iff Plugin.accounts .persons (n := "session") rfl rfl
    have hm : m.isInternal = true := hinternal.2 (.inr ⟨_, rfl, rfl⟩)
    exact ⟨m, hmeta, hm, hhidden hm⟩
  · obtain ⟨m, hmeta, -, hinternal, -⟩ :=
      Plugin.resolveWith_internal_iff Plugin.accounts .persons (n := "user") rfl rfl
    refine ⟨m, hmeta, Bool.eq_false_iff.2 fun hm => ?_⟩
    rcases hinternal.1 hm with hd | ⟨c, hc, hwanted⟩
    · cases hd
    · cases hc; cases hwanted

end EntityRest
