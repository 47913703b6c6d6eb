import EntityRest.Proofs.Plugin.Counterpart

/-! # Where the fields of resolved entities come from

A field of a resolved entity is one that the plugin declares or that its extension brings along; on the way
it may be moved to another name, and what happens to its definition is patches only. So what holds of all
these fields, and is kept by the patches, holds of every field that is resolved
(`forall_fields_resolveWith`). No step looks at more than the fields that are there and those of the change
at hand, which is what `FieldsAre` and `Respects` say of the two. -/

namespace EntityRest

/-- A field that the plugin declares, or that its extension brings along. -/
inductive SourceField (p : Plugin) (x : Extension) (f : FieldDef) : Prop
  | declared {n name : String} {d : PluginEntity} (hd : p.entities.get? n = some d)
    (hf : d.fields.get? name = some f) : SourceField p x f
  | withEntity {n name : String} {d : PluginEntity} (hd : x.addEntities.get? n = some d)
    (hf : d.fields.get? name = some f) : SourceField p x f
  | putIn {n name : String} {c : EntityChange} (hc : x.entities.get? n = some c)
    (hf : c.addFields.get? name = some f) : SourceField p x f
  | added {n name : String} {c : EntityChange} {fc : FieldChange} (hc : x.entities.get? n = some c)
    (hfc : c.fields.get? name = some fc) (hf : fc.add = some f) : SourceField p x f

/-- The extension has the patch for some field. -/
def Extension.HasPatch (x : Extension) (patch : FieldPatch) : Prop :=
  ∃ n name c fc, x.entities.get? n = some c ∧ c.fields.get? name = some fc ∧ fc.patch = some patch

/-- Every field is of a kind. -/
def FieldsAre (P : FieldDef → Prop) (fields : OrdMap String FieldDef) : Prop :=
  ∀ name f, fields.get? name = some f → P f

namespace FieldsAre

variable {P : FieldDef → Prop} {fields : OrdMap String FieldDef} (h : FieldsAre P fields)
include h

theorem insert {f : FieldDef} (hf : P f) (name : String) : FieldsAre P (fields.insert name f) := by
  intro other f' hother
  rw [OrdMap.get?_insert] at hother
  split at hother
  · cases hother; exact hf
  · exact h other f' hother

theorem erase (name : String) : FieldsAre P (fields.erase name) := by
  intro other f hother
  rw [OrdMap.get?_erase] at hother
  split at hother
  · cases hother
  · exact h other f hother

theorem rename (name target : String) : FieldsAre P (fields.rename name target) := by
  cases hname : fields.get? name with
  | none => rwa [OrdMap.rename_of_get?_eq_none hname]
  | some f =>
    intro other f' hother
    rw [OrdMap.get?_rename hname] at hother
    split at hother
    · cases hother; exact h name f hname
    · split at hother
      · cases hother
      · exact h other f' hother

theorem modify {g : FieldDef → FieldDef} (hg : ∀ f, P f → P (g f)) (name : String) :
    FieldsAre P (fields.modify name g) := by
  intro other f hother
  rw [OrdMap.modify, OrdMap.get?_mapEntries] at hother
  obtain ⟨f', hf', rfl⟩ := Option.map_eq_some_iff.1 hother
  split
  · exact hg f' (h other f' hf')
  · exact h other f' hf'

theorem union {added : OrdMap String FieldDef} (hadded : FieldsAre P added) :
    FieldsAre P (fields.union added) := by
  intro name f hname
  rw [OrdMap.get?_union] at hname
  rcases Option.or_eq_some_iff.1 hname with hname | ⟨-, hname⟩
  · exact hadded name f hname
  · exact h name f hname

end FieldsAre

/-- A change brings fields of the kind only, and its patch leaves them of the kind. -/
structure FieldChange.Respects (P : FieldDef → Prop) (c : FieldChange) : Prop where
  add : ∀ f, c.add = some f → P f
  patch : ∀ patch, c.patch = some patch → ∀ f, P f → P (patch.apply f)

structure EntityChange.Respects (P : FieldDef → Prop) (c : EntityChange) : Prop where
  addFields : FieldsAre P c.addFields
  fields : ∀ name fc, c.fields.get? name = some fc → fc.Respects P

namespace Resolve

variable {P : FieldDef → Prop} {plugin entity : String}

/-! ### The fields of one entity -/

namespace FieldWork

variable {w : FieldWork} (h : FieldsAre P w.fields)
include h

theorem fieldsAre_rename (field : String) (target : Option String) :
    FieldsAre P (w.rename plugin entity field target).1.fields := by
  cases target with
  | none => exact h
  | some target =>
    unfold rename
    dsimp only
    split
    · exact h
    · exact h.rename field target

theorem fieldsAre_patch {patch : Option FieldPatch} (hpatch : ∀ p, patch = some p → ∀ f, P f → P (p.apply f))
    (field : String) : FieldsAre P (w.patch field patch).fields := by
  cases patch with
  | none => exact h
  | some p => exact h.modify (hpatch p rfl) field

theorem fieldsAre_change {c : FieldChange} (hc : c.Respects P) (field : String) :
    FieldsAre P (w.change plugin entity field c).fields := by
  unfold change
  cases hadd : c.add with
  | some f => exact h.insert (hc.add f hadd) field
  | none =>
    dsimp only
    split
    · exact h
    · split
      · exact h.erase field
      · have hwarned : FieldsAre P (if c.remove = true then
            w.warn plugin entity field "cannot remove locked field" else w).fields := by
          split
          · exact h
          · exact h
        exact fieldsAre_patch (fieldsAre_rename hwarned field c.rename) hc.patch _

end FieldWork

theorem fieldsAre_changeFields {fields : OrdMap String FieldDef} (h : FieldsAre P fields) {c : EntityChange}
    (hc : c.Respects P) : FieldsAre P (changeFields plugin entity fields c).fields := by
  unfold changeFields
  refine List.foldlRecOn (motive := fun w : FieldWork => FieldsAre P w.fields) _ _ (h.union hc.addFields) ?_
  rintro w hw ⟨field, fc⟩ hmem
  exact FieldWork.fieldsAre_change hw (hc.fields field fc (OrdMap.get?_eq_some_iff.2 hmem)) field

/-! ### All entities -/

/-- Every field of every entity is of a kind. -/
def EntitiesAre (P : FieldDef → Prop) (entities : OrdMap String PluginEntity) : Prop :=
  ∀ n d, entities.get? n = some d → FieldsAre P d.fields

theorem Work.entitiesAre_change {w : Work} (h : EntitiesAre P w.entities) {c : EntityChange}
    (hc : c.Respects P) : EntitiesAre P (w.change plugin entity c).entities := by
  rcases w.change_cases plugin entity c with ⟨-, heq, -⟩ | ⟨d, hd, ⟨-, heq, -⟩ | ⟨-, heq, -⟩⟩
  · rwa [heq]
  · intro n d' hn
    rw [heq, OrdMap.get?_erase] at hn
    split at hn
    · cases hn
    · exact h n d' hn
  · intro n d' hn
    rw [heq, OrdMap.replace, OrdMap.get?_mapEntries, OrdMap.get?_rename hd] at hn
    obtain ⟨d'', hd'', rfl⟩ := Option.map_eq_some_iff.1 hn
    split
    · exact fieldsAre_changeFields (h entity d hd) hc
    · next hne =>
      rw [if_neg hne] at hd''
      split at hd''
      · cases hd''
      · exact h n d'' hd''

variable {p : Plugin} {x : Extension}

theorem entitiesAre_finalEntities (hdeclared : EntitiesAre P p.entities) (hadded : EntitiesAre P x.addEntities)
    (hchanges : ∀ n c, x.entities.get? n = some c → c.Respects P) : EntitiesAre P (finalEntities p x) := by
  have hchanged : EntitiesAre P (applyChanges p.id p.entities x).entities := by
    unfold applyChanges
    refine List.foldlRecOn (motive := fun w : Work => EntitiesAre P w.entities) _ _ hdeclared ?_
    rintro w hw ⟨entity, c⟩ hmem
    exact Work.entitiesAre_change hw (hchanges entity c (OrdMap.get?_eq_some_iff.2 hmem))
  intro n d hn
  rw [finalEntities, withAdded_eq] at hn
  rcases OrdMap.mem_of_get?_insertMany hn with hmem | hn
  · obtain ⟨⟨n', d'⟩, hd', heq⟩ := List.mem_map.1 hmem
    cases heq
    exact hadded n' d' (OrdMap.get?_eq_some_iff.2 hd')
  · exact hchanged n d hn

end Resolve

/-- What holds of the fields that are declared or brought along, and is kept by the patches, holds of every
field of a resolved entity. -/
theorem forall_fields_resolveWith {p : Plugin} {x : Extension} {P : FieldDef → Prop}
    (hsource : ∀ f, SourceField p x f → P f)
    (hpatch : ∀ patch, x.HasPatch patch → ∀ f, P f → P (patch.apply f)) {e : Entity}
    (he : e ∈ (p.resolveWith x).1.entities) : FieldsAre P e.fields := by
  have hfinal : Resolve.EntitiesAre P (Resolve.finalEntities p x) := by
    refine Resolve.entitiesAre_finalEntities (fun n d hd name f hf => hsource f (.declared hd hf))
      (fun n d hd name f hf => hsource f (.withEntity hd hf)) fun n c hc => ?_
    exact
      { addFields := fun name f hf => hsource f (.putIn hc hf)
        fields := fun name fc hfc =>
          { add := fun f hf => hsource f (.added hc hfc hf)
            patch := fun patch hp => hpatch patch ⟨n, name, c, fc, hc, hfc, hp⟩ } }
  rw [Resolve.entities_resolveWith] at he
  obtain ⟨⟨n, d⟩, hd, rfl⟩ := List.mem_map.1 he
  exact hfinal n d (OrdMap.get?_eq_some_iff.2 hd)

end EntityRest
