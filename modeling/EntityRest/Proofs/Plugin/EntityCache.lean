import EntityRest.Plugin.Reference
import EntityRest.Proofs.Data.OrdMap
import EntityRest.Proofs.Text.Items

/-! # What references led to before

The registry keeps what a reference led to, under the id of the plugin, a dot and the name of the entity.
What is kept under such a key is what the first lookup with it found, whatever was looked up since
(`get?_after`). Where ids or names have dots themselves, that lookup may have been for another entity, and
then its placeholder is the answer; this is the only way in which what was looked up before can be seen
(`answer_after_iff`). -/

namespace EntityRest

namespace Registry

/-- The key under which the registry keeps an entity of a plugin. -/
def refKey (plugin entity : String) : String := plugin ++ "." ++ entity

theorem toList_refKey (plugin entity : String) :
    (refKey plugin entity).toList = plugin.toList ++ '.' :: entity.toList := by
  rw [refKey, String.toList_append, String.toList_append, List.append_assoc]
  rfl

/-- A key that belongs to two entities has a dot in the id of one of them and in the name of the other. -/
theorem eq_or_dots_of_refKey_eq {a b m n : String} (h : refKey a m = refKey b n) :
    a = b ∧ m = n ∨ '.' ∈ b.toList ∧ '.' ∈ m.toList ∨ '.' ∈ a.toList ∧ '.' ∈ n.toList := by
  rw [← String.toList_inj, toList_refKey, toList_refKey, Text.append_cons_eq_iff] at h
  rcases h with ⟨ha, hm⟩ | ⟨s, hb, hm⟩ | ⟨s, ha, hn⟩
  · exact .inl ⟨String.toList_inj.1 ha, String.toList_inj.1 hm⟩
  · exact .inr (.inl ⟨by simp [hb], by simp [hm]⟩)
  · exact .inr (.inr ⟨by simp [ha], by simp [hn]⟩)

/-! ### One lookup -/

/-- A plugin of this id is registered and declares the entity. -/
def declares (r : Registry) (plugin entity : String) : Bool :=
  (r.plugin? plugin).any (·.entities.contains entity)

/-- Why a lookup fails. -/
def failure (r : Registry) (plugin entity : String) : PluginError :=
  if (r.plugin? plugin).isSome then .entityNotFound plugin entity else .pluginNotFound plugin

/-- What a lookup gives. -/
def answer (r : Registry) (plugin entity : String) : Except PluginError Entity :=
  ((pluginEntity plugin entity).run r).1

section

variable (r : Registry) (plugin entity key : String) (e : Entity)

theorem run_pluginEntity : (pluginEntity plugin entity).run r =
    if r.declares plugin entity then
      (.ok (r.cachedEntity (refKey plugin entity) (.placeholder entity)).1,
        (r.cachedEntity (refKey plugin entity) (.placeholder entity)).2)
    else (.error (r.failure plugin entity), r) := by
  unfold pluginEntity declares failure
  rw [StateT.run_bind, StateT.run_get, pure_bind]
  cases r.plugin? plugin with
  | none => rfl
  | some p =>
    dsimp only
    rw [Option.any_some]
    split <;> rfl

theorem get?_cachedEntity (k : String) : (r.cachedEntity key e).2.entityRefs.get? k =
    (r.entityRefs.get? k).or (if k = key then some e else none) := by
  unfold cachedEntity
  cases hkey : r.entityRefs.get? key with
  | some kept =>
    by_cases hk : k = key
    · rw [hk, hkey]; rfl
    · rw [if_neg hk, Option.or_none]
  | none =>
    show (r.entityRefs.insert key e).get? k = _
    rw [OrdMap.get?_insert]
    by_cases hk : k = key
    · rw [if_pos hk, if_pos hk, hk, hkey]; rfl
    · rw [if_neg hk, if_neg hk, Option.or_none]

theorem fst_cachedEntity : (r.cachedEntity key e).1 = (r.entityRefs.get? key).getD e := by
  unfold cachedEntity
  cases r.entityRefs.get? key <;> rfl

theorem instances_cachedEntity : (r.cachedEntity key e).2.instances = r.instances := by
  unfold cachedEntity
  cases r.entityRefs.get? key <;> rfl

theorem answer_eq : r.answer plugin entity =
    if r.declares plugin entity then
      .ok ((r.entityRefs.get? (refKey plugin entity)).getD (.placeholder entity))
    else .error (r.failure plugin entity) := by
  rw [answer, run_pluginEntity, ← fst_cachedEntity]
  split <;> rfl

theorem answer_clearEntityRefs : r.clearEntityRefs.answer plugin entity =
    if r.declares plugin entity then .ok (.placeholder entity) else .error (r.failure plugin entity) :=
  answer_eq r.clearEntityRefs plugin entity

end

/-! ### Lookups one after the other -/

/-- A call that can be made between lookups, or a lookup. -/
inductive Call where
  | register (p : Plugin)
  | lookup (plugin entity : String)

/-- The registry after a call, which stays as it is if the call fails. -/
def Call.run (r : Registry) : Call → Registry
  | register p => (r.registerInstance p).toOption.getD r
  | lookup plugin entity => ((pluginEntity plugin entity).run r).2

/-- What a call finds under a key: the plugin and the entity, if it is a lookup that succeeds. -/
def Call.found? (r : Registry) (key : String) : Call → Option (String × String)
  | register _ => none
  | lookup plugin entity =>
    if r.declares plugin entity ∧ refKey plugin entity = key then some (plugin, entity) else none

def after (r : Registry) (calls : List Call) : Registry := calls.foldl Call.run r

/-- What the first lookup finds that succeeds under a key. -/
def firstFound? (key : String) : Registry → List Call → Option (String × String)
  | _, [] => none
  | r, call :: calls => (call.found? r key).or (firstFound? key (call.run r) calls)

variable {r : Registry} {plugin entity key : String}

theorem run_register (r : Registry) (p : Plugin) : Call.run r (.register p) =
    if r.instances.contains p.id then r
    else { r with instances := r.instances.insert p.id ⟨p, false, none⟩ } := by
  rw [Call.run, registerInstance]
  split <;> rfl

theorem instances_run_lookup : (Call.run r (.lookup plugin entity)).instances = r.instances := by
  rw [Call.run, run_pluginEntity]
  split
  · exact instances_cachedEntity ..
  · rfl

theorem get?_run (r : Registry) (call : Call) (key : String) : (call.run r).entityRefs.get? key =
    (r.entityRefs.get? key).or ((call.found? r key).map fun found => .placeholder found.2) := by
  cases call with
  | register p =>
    rw [run_register, Call.found?, Option.map_none, Option.or_none]
    split <;> rfl
  | lookup plugin entity =>
    rw [Call.run, Call.found?, run_pluginEntity]
    by_cases hdeclares : r.declares plugin entity = true
    · rw [if_pos hdeclares]
      dsimp only
      rw [get?_cachedEntity]
      by_cases hkey : refKey plugin entity = key
      · rw [if_pos hkey.symm, if_pos ⟨hdeclares, hkey⟩]; rfl
      · rw [if_neg (Ne.symm hkey), if_neg fun h => hkey h.2]; rfl
    · rw [if_neg hdeclares, if_neg fun h => hdeclares h.1, Option.map_none, Option.or_none]

/-- A plugin that is registered stays so. -/
theorem plugin?_run {p : Plugin} (h : r.plugin? plugin = some p) (call : Call) :
    (call.run r).plugin? plugin = some p := by
  cases call with
  | lookup => rw [plugin?, instances_run_lookup, ← plugin?, h]
  | register q =>
    rw [run_register]
    split
    · exact h
    · next hfree =>
      have hne : plugin ≠ q.id := by
        rintro rfl
        obtain ⟨i, hi, -⟩ := Option.map_eq_some_iff.1 h
        exact hfree (by rw [OrdMap.contains, hi]; rfl)
      show ((r.instances.insert q.id _).get? plugin).map _ = _
      rw [OrdMap.get?_insert, if_neg hne]
      exact h

theorem declares_after (h : r.declares plugin entity = true) (calls : List Call) :
    (after r calls).declares plugin entity = true := by
  obtain ⟨p, hp, hentity⟩ := (Option.any_eq_true _ _).1 h
  have hkept : (after r calls).plugin? plugin = some p :=
    List.foldlRecOn (motive := fun r : Registry => r.plugin? plugin = some p) _ _ hp
      fun _ hp call _ => plugin?_run hp call
  exact (Option.any_eq_true _ _).2 ⟨p, hkept, hentity⟩

/-- What is kept under a key is what was there at the beginning, or else what the first lookup found. -/
theorem get?_after (r : Registry) (calls : List Call) (key : String) : (after r calls).entityRefs.get? key =
    (r.entityRefs.get? key).or ((firstFound? key r calls).map fun found => .placeholder found.2) := by
  induction calls generalizing r with
  | nil => exact Option.or_none.symm
  | cons call calls ih =>
    show (after (call.run r) calls).entityRefs.get? key = _
    rw [ih, get?_run, firstFound?, Option.or_assoc, Option.map_or]

theorem firstFound?_eq_some {calls : List Call} {found : String × String}
    (h : firstFound? key r calls = some found) :
    refKey found.1 found.2 = key ∧ (after r calls).declares found.1 found.2 = true := by
  induction calls generalizing r with
  | nil => cases h
  | cons call calls ih =>
    rw [firstFound?] at h
    rcases Option.or_eq_some_iff.1 h with h | ⟨-, h⟩
    · cases call with
      | register => cases h
      | lookup plugin entity =>
        rw [Call.found?, Option.ite_none_right_eq_some] at h
        obtain ⟨⟨hdeclares, hkey⟩, heq⟩ := h
        cases heq
        -- what the lookup found is declared from then on
        exact ⟨hkey, declares_after hdeclares (.lookup plugin entity :: calls)⟩
    · exact ih h

/-- There are no dots in the id and the name that are looked up, or in any id, or in any name that is
declared. -/
inductive Dotless (r : Registry) (plugin entity : String) : Prop
  | pair (hplugin : '.' ∉ plugin.toList) (hentity : '.' ∉ entity.toList) : Dotless r plugin entity
  | ids (h : ∀ plugin entity, r.declares plugin entity = true → '.' ∉ plugin.toList) : Dotless r plugin entity
  | names (h : ∀ plugin entity, r.declares plugin entity = true → '.' ∉ entity.toList) :
    Dotless r plugin entity

theorem Dotless.eq_of_refKey_eq (h : Dotless r plugin entity) (hdeclares : r.declares plugin entity = true)
    {found : String × String} (hkey : refKey found.1 found.2 = refKey plugin entity)
    (hfound : r.declares found.1 found.2 = true) : found = (plugin, entity) := by
  rcases eq_or_dots_of_refKey_eq hkey with ⟨hplugin, hentity⟩ | ⟨hplugin, hname⟩ | ⟨hid, hentity⟩
  · exact Prod.ext hplugin hentity
  · cases h with
    | pair h => exact absurd hplugin h
    | ids h => exact absurd hplugin (h _ _ hdeclares)
    | names h => exact absurd hname (h _ _ hfound)
  · cases h with
    | pair _ h => exact absurd hentity h
    | ids h => exact absurd hid (h _ _ hfound)
    | names h => exact absurd hentity (h _ _ hdeclares)

/-- What a lookup after the calls finds in the registry: what was there before all calls, or else what the
first of them found that succeeded under the same key. -/
def kept? (r : Registry) (calls : List Call) (plugin entity : String) : Option Entity :=
  (r.entityRefs.get? (refKey plugin entity)).or
    ((firstFound? (refKey plugin entity) r calls).map fun found => .placeholder found.2)

/-- After any calls a lookup answers as if nothing was looked up before, just if it fails or what is kept
under its key is the placeholder of its entity; otherwise its answer is what is kept. If nothing was kept at
first, ids or names without dots are enough for the former. -/
theorem answer_after_iff (r : Registry) (calls : List Call) (plugin entity : String) :
    let now := after r calls
    (now.answer plugin entity = now.clearEntityRefs.answer plugin entity ↔
        (now.declares plugin entity = true →
          ∀ e, kept? r calls plugin entity = some e → e = .placeholder entity)) ∧
      (now.declares plugin entity = true →
        ∀ e, kept? r calls plugin entity = some e → now.answer plugin entity = .ok e) ∧
      (r.entityRefs = ∅ → Dotless now plugin entity →
        now.answer plugin entity = now.clearEntityRefs.answer plugin entity) := by
  intro now
  have hkept : now.entityRefs.get? (refKey plugin entity) = kept? r calls plugin entity :=
    get?_after r calls _
  have hanswer (hdeclares : now.declares plugin entity = true) :
      now.answer plugin entity = .ok ((kept? r calls plugin entity).getD (.placeholder entity)) := by
    rw [answer_eq, if_pos hdeclares, hkept]
  have hclear (hdeclares : now.declares plugin entity = true) :
      now.clearEntityRefs.answer plugin entity = .ok (.placeholder entity) := by
    rw [answer_clearEntityRefs, if_pos hdeclares]
  have hsame (h : now.declares plugin entity = true →
      ∀ e, kept? r calls plugin entity = some e → e = .placeholder entity) :
      now.answer plugin entity = now.clearEntityRefs.answer plugin entity := by
    by_cases hdeclares : now.declares plugin entity = true
    · rw [hanswer hdeclares, hclear hdeclares]
      cases hfirst : kept? r calls plugin entity with
      | none => rfl
      | some e => rw [h hdeclares e hfirst]; rfl
    · rw [answer_eq, answer_clearEntityRefs, if_neg hdeclares, if_neg hdeclares]
  refine ⟨⟨fun heq hdeclares e he => ?_, hsame⟩, fun hdeclares e he => ?_, fun hempty hdotless => ?_⟩
  · rw [hanswer hdeclares, hclear hdeclares, he] at heq
    exact Except.ok.inj heq
  · rw [hanswer hdeclares, he]
    rfl
  · refine hsame fun hdeclares e he => ?_
    rw [kept?, hempty] at he
    obtain ⟨found, hfound, rfl⟩ := Option.map_eq_some_iff.1 he
    obtain ⟨hkey, hdeclared⟩ := firstFound?_eq_some hfound
    rw [hdotless.eq_of_refKey_eq hdeclares hkey hdeclared]

/-- A plugin that declares one entity. -/
def declaring (id entity : String) : Plugin := (Plugin.ofId id id "1.0.0").addEntity entity {}

/-- The entity of another plugin is found, for the two have one key. -/
theorem answer_after_iff_dots :
    let calls := [Call.register (declaring "a.b" "c"), .register (declaring "a" "b.c"), .lookup "a.b" "c"]
    let now := after empty calls
    now.answer "a" "b.c" = .ok (.placeholder "c") ∧
      now.clearEntityRefs.answer "a" "b.c" = .ok (.placeholder "b.c") ∧
        now.answer "a" "b.c" ≠ now.clearEntityRefs.answer "a" "b.c" ∧
          now.answer "a.b" "c" = now.clearEntityRefs.answer "a.b" "c" := by
  intro calls now
  have hdeclares : now.declares "a" "b.c" = true := by decide
  have hkept : kept? empty calls "a" "b.c" = some (.placeholder "c") := rfl
  have hsame : kept? empty calls "a.b" "c" = some (.placeholder "c") := rfl
  have hclear : now.clearEntityRefs.answer "a" "b.c" = .ok (.placeholder "b.c") := by
    rw [answer_clearEntityRefs, if_pos hdeclares]
  refine ⟨(answer_after_iff empty calls "a" "b.c").2.1 hdeclares _ hkept, hclear, fun h => ?_,
    (answer_after_iff empty calls "a.b" "c").1.2 fun _ e he => ?_⟩
  · have heq := (answer_after_iff empty calls "a" "b.c").1.1 h hdeclares _ hkept
    exact absurd (congrArg Entity.name heq) (by decide)
  · exact Option.some.inj (he.symm.trans hsame)

end Registry

end EntityRest
