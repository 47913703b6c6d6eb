import EntityRest.Driver.InMemory
import EntityRest.Proofs.Effect.Action
import EntityRest.Proofs.Plugin.Counterpart
import EntityRest.Proofs.Plugin.Tags
import EntityRest.Proofs.Routing.Paths
import EntityRest.Proofs.Routing.Router
import EntityRest.Service.Assembly

/-! # What an assembled application holds

The entities of plugins come together with their metadata (`tagged_mergePlugins`). From there on only the
entities change: those of the application are put below them, and plugins add fields. Neither takes an
entity with metadata away or changes its tag, so the two agree in the application (`tagged_assemble`).

The router has the same metadata, and it knows no other names than those of the metadata and those of the
entities. This is why whatever it leads to is there (`build_coherent`). -/

namespace EntityRest.Assembly

/-! ### Entities under assembly -/

section

variable {entities : OrdMap String Entity} {entityMeta : OrdMap String EntityMeta}

theorem addPluginEntities_fst (entities added : OrdMap String Entity) :
    (addPluginEntities entities added).1 = entities.union added := by
  have hfold : ∀ (l : List (String × Entity)) (w : Entities),
      (l.foldl (fun w e =>
        let warning : List Warning := if w.1.contains e.1 then
          [⟨"plugin entity replaces application entity", [("entity", e.1)]⟩] else []
        (w.1.insert e.1 e.2, w.2 ++ warning)) w).1 = w.1.insertMany l := by
    intro l
    induction l with
    | nil => exact fun _ => rfl
    | cons e l ih => exact fun w => ih (w.1.insert e.1 e.2, _)
  exact hfold added.toList (entities, [])

theorem tagged_extendEntities (h : Tagged entities entityMeta) (p : ResolvedPlugin) :
    Tagged (extendEntities entities p).1 entityMeta := by
  refine List.foldlRecOn (motive := fun w : Entities => Tagged w.1 entityMeta) _ _ h ?_
  rintro ⟨m, warnings⟩ hm ⟨target, fields⟩ -
  dsimp only
  split
  · exact hm.modify target fun _ => rfl
  · exact hm

theorem tagged_allEntities {merged : MergedPlugins} (h : Tagged merged.entities merged.entityMeta)
    (own : List Entity) : Tagged (allEntities own merged).1 merged.entityMeta := by
  have hreplaced : Tagged (addPluginEntities (OrdMap.ofList (own.map fun e => (e.name, e)))
      merged.entities).1 merged.entityMeta := by
    rw [addPluginEntities_fst]
    exact h.union _
  refine List.foldlRecOn (motive := fun w : Entities => Tagged w.1 merged.entityMeta) _ _ hreplaced ?_
  rintro ⟨m, warnings⟩ hm p -
  exact tagged_extendEntities hm p

end

/-! ### The application -/

theorem tagged_assemble (spec : AppSpec) (plugins : List Plugin) :
    Tagged (assemble spec plugins).1.entities (assemble spec plugins).1.entityMeta := by
  refine tagged_allEntities (tagged_mergePlugins ?_) spec.entities
  intro p hp
  obtain ⟨r, hr, rfl⟩ := List.mem_map.1 hp
  obtain ⟨p, -, rfl⟩ := List.mem_map.1 hr
  exact p.coherent_resolveWith p.extension

theorem router_assemble (spec : AppSpec) (plugins : List Plugin) :
    ∃ routes, (assemble spec plugins).1.router =
      (Router.build (assemble spec plugins).1.entities.keys (assemble spec plugins).1.entityMeta routes).1 :=
  ⟨_, rfl⟩

/-- Default middleware comes before that of plugins, and that of the application comes last. -/
theorem middleware_assemble (spec : AppSpec) (plugins : List Plugin) :
    (assemble spec plugins).1.middleware = Middleware.defaults spec.config ++
      (plugins.flatMap (·.middleware.materialize (assemble spec plugins).1.toShell) ++ spec.middleware) := by
  have hresolved (shell : Shell) : (resolveAll plugins).1.flatMap (·.middleware.materialize shell) =
      plugins.flatMap (·.middleware.materialize shell) := by
    show ((plugins.map Plugin.resolve).map Prod.fst).flatMap _ = _
    rw [List.map_map, List.flatMap_map]
    rfl
  rw [← List.append_assoc, ← hresolved]
  rfl

section

variable {r r' : Registry} {spec : AppSpec} {plugins : List Plugin} {env : Env} {app : App}

theorem build_of_enrollAll (h : enrollAll r [] spec.plugins = (.ok plugins, r')) :
    let app := (assemble spec plugins).1
    ((build r spec).run env).1.1 =
      (((r'.initializePlugins app.toAppView app.pluginIds).run
        { env with warnings := env.warnings ++ (assemble spec plugins).2 }).1.1.mapError .initialization).map
          fun _ => app := by
  intro app
  unfold build
  rw [h]
  dsimp only
  rw [StateT.run_bind, StateT.run_modify, pure_bind, StateT.run_bind]
  rcases StateT.run (r'.initializePlugins app.toAppView app.pluginIds) _ with ⟨⟨_ | _, r''⟩, env'⟩ <;> rfl

/-- Initialization changes nothing in the application. -/
theorem exists_assemble_of_build (h : ((build r spec).run env).1.1 = .ok app) :
    ∃ plugins, app = (assemble spec plugins).1 := by
  rcases henroll : enrollAll r [] spec.plugins with ⟨_ | plugins, r'⟩
  · unfold build at h
    rw [henroll] at h
    cases h
  · rw [build_of_enrollAll henroll] at h
    obtain ⟨-, -, happ⟩ := exists_of_map_eq_ok h
    exact ⟨plugins, happ.symm⟩

end

/-- Every entity with metadata is held by the application and has the tag that they say. So what a request
leads to is always there, and so are the metadata of every name that the router finds under a path. -/
theorem build_coherent {r : Registry} {spec : AppSpec} {env : Env} {app : App}
    (h : ((build r spec).run env).1.1 = .ok app) :
    (∀ name m, app.entityMeta.get? name = some m → ∃ e, app.entities.get? name = some e ∧
      e.plugin = some ⟨m.pluginId, m.basePath, m.routePath, m.isInternal⟩) ∧
    (∀ req em, app.router.matchRequest req.method req.path = .entity em →
      ∃ e, app.entities.get? em.entity = some e ∧ (em.customHandler = none →
        app.dispatch req = (app.pipelineOf e).execute em.operation em.id req)) ∧
    app.router.entityMeta = app.entityMeta ∧
    ∀ key name, app.router.index.get? key = some name → ∃ m, app.router.entityMeta.get? name = some m := by
  obtain ⟨plugins, rfl⟩ := exists_assemble_of_build h
  have htagged := tagged_assemble spec plugins
  obtain ⟨routes, hrouter⟩ := router_assemble spec plugins
  refine ⟨htagged, ?_, rfl, ?_⟩
  · intro req em hmatch
    have hheld : ∃ e, (assemble spec plugins).1.entities.get? em.entity = some e := by
      rcases Router.matchRequest_eq_entity hmatch with ⟨m, hplugin⟩ | happ
      · obtain ⟨e, he, -⟩ := htagged em.entity m hplugin.entityMeta
        exact ⟨e, he⟩
      · have hname := happ.entity
        rw [hrouter] at hname
        exact Option.isSome_iff_exists.1 (OrdMap.contains_iff_mem_keys.2 (List.mem_of_mem_filter hname))
    obtain ⟨e, he⟩ := hheld
    refine ⟨e, he, fun hhandler => ?_⟩
    unfold App.dispatch
    rw [hmatch]
    dsimp only
    rw [App.serveEntity, hhandler]
    dsimp only
    rw [he]
  · intro key name hindex
    rw [hrouter] at hindex
    obtain ⟨m, hm, -⟩ := Router.of_get?_index_eq hindex
    exact ⟨m, hm⟩

/-- Billing has sessions of its own and gives users a plan. -/
def billingPlugin : Plugin :=
  (((Plugin.ofId "billing" "Billing" "1.0.0").addEntity "session" { isInternal := true }).extendEntity "user"
    "plan" (FieldDef.ofType .string)).extendEntity "invoice" "total" (FieldDef.ofType .string)

def billingFactory : Registry :=
  { Registry.empty with factories := OrdMap.ofList [("billing", fun _ => .ok billingPlugin)] }

/-- The application declares users as well. -/
def shop : AppSpec where
  config := {}
  driver := InMemory.driver false
  entities := [Entity.placeholder "user", Entity.placeholder "note"]
  plugins := [.plugin Plugin.accounts, .factory "billing" .null]
  middleware := []
  hooks := []

/-- The registry once the plugins of the shop are in it. -/
def shopRegistry : Registry :=
  { billingFactory with
    instances := OrdMap.ofList [("auth", ⟨Plugin.accounts, false, none⟩), ("billing", ⟨billingPlugin, false, none⟩)] }

theorem enrollAll_shop : enrollAll billingFactory [] shop.plugins =
    (.ok [Plugin.accounts, billingPlugin], shopRegistry) := rfl

theorem orderFor_shop : shopRegistry.orderFor
    (assemble shop [Plugin.accounts, billingPlugin]).1.pluginIds = .ok ["auth", "billing"] := by
  have hids : (assemble shop [Plugin.accounts, billingPlugin]).1.pluginIds = ["auth", "billing"] := rfl
  have hkeys : shopRegistry.dependencyGraph.keys = ["auth", "billing"] := rfl
  have hauth : shopRegistry.dependencyGraph.getD "auth" [] = [] := rfl
  have hbilling : shopRegistry.dependencyGraph.getD "billing" [] = [] := rfl
  simp [Registry.orderFor, DependencyGraph.orderFor, DependencyGraph.visitIds, DependencyGraph.visit,
    DependencyGraph.visitAll, hids, hkeys, hauth, hbilling, Except.map]

/-- The users are those of the first plugin with the field that the second one adds, and the sessions are
those of the second one. -/
theorem build_coherent_shop :
    ∃ app, ((build billingFactory shop).run Env.empty).1.1 = .ok app ∧
      app.entities.keys = ["user", "note", "session"] ∧
      (∃ e, app.entities.get? "session" = some e ∧ e.plugin = some ⟨"billing", some "/billing", none, true⟩) ∧
      ∃ e, app.entities.get? "user" = some e ∧ e.fields.keys = ["email", "plan"] ∧
        ∀ req, req.method = "GET" → req.path = "/auth/users/7" →
          app.dispatch req = (app.pipelineOf e).execute .read (some "7") req := by
  have hbuild : ((build billingFactory shop).run Env.empty).1.1 =
      .ok (assemble shop [Plugin.accounts, billingPlugin]).1 := by
    rw [build_of_enrollAll enrollAll_shop]
    unfold Registry.initializePlugins
    rw [orderFor_shop]
    rfl
  obtain ⟨htags, hheld, -⟩ := build_coherent hbuild
  refine ⟨_, hbuild, rfl, htags "session" _ rfl, _, rfl, rfl, fun req hmethod hpath => ?_⟩
  have hmatch : (assemble shop [Plugin.accounts, billingPlugin]).1.router.matchRequest req.method req.path =
      .entity ⟨"user", .read, some "7", some "auth", none⟩ := by
    rw [hmethod, hpath]; rfl
  obtain ⟨e, he, hserve⟩ := hheld req _ hmatch
  obtain rfl := Option.some.inj he
  exact hserve rfl

end EntityRest.Assembly
