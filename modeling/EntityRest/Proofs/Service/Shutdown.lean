import EntityRest.Proofs.Service.Answer
import EntityRest.Proofs.Service.Startup

/-! # Shutting an application down

At a shutdown the callbacks of all plugins run, whether others have failed or not, and the first error is the
result (`shutDown_shutdownAll`, where `ShutDown` is such a run). They run in the order of initialization turned
round. That order is found anew in the registry, which finds it again as long as it holds the plugins that it held
when the application was built (`orderFor_of_held`); so each plugin comes before those that its registered
namesake depends on (`build_shutdown`). Where another plugin had been registered under the id before, that is not
the plugin's own word (`shutdown_of_namesake`). -/

open Relation (ReflTransGen TransGen)

namespace EntityRest

theorem ReachedFrom.reflTransGen {dependsOn : String → String → Prop} {ids : List String} {x y : String}
    (h : ReachedFrom dependsOn ids x) (hxy : ReflTransGen dependsOn x y) : ReachedFrom dependsOn ids y := by
  obtain ⟨id, hid, hx⟩ := h
  exact ⟨id, hid, hx.trans hxy⟩

namespace Registry

variable {r later : Registry} {ids order : List String} {x y : String}

/-- The order holds for what a plugin depends on through others as well. -/
theorem before_of_orderFor (h : r.orderFor ids = .ok order) (hx : x ∈ ids) (hy : y ∈ ids)
    (hxy : TransGen r.DependsOn x y) : [y, x].Sublist order := by
  unfold orderFor at h
  obtain ⟨order', heq, horder, -⟩ | ⟨e, heq, -⟩ := DependencyGraph.orderFor_cases r.dependencyGraph ids
  · rw [heq] at h
    cases h
    rw [← dependsOn_dependencyGraph] at hxy
    exact horder.before x hx y hy hxy
  · rw [heq] at h; cases h

/-! ### A registry at a later time -/

theorem Ordered.mem_instanceIds (h : r.Ordered ids order) (hx : ReachedFrom r.DependsOn ids x) :
    x ∈ r.instanceIds := by
  obtain ⟨id, hid, hpath⟩ := hx
  cases hpath with
  | refl => exact h.registered x hid
  | tail hpath hstep => exact h.complete _ x ⟨id, hid, hpath⟩ hstep

section Held

variable (hheld : ∀ id p, r.plugin? id = some p → later.plugin? id = some p)

include hheld

theorem dependsOn_of_held (h : r.DependsOn x y) : later.DependsOn x y := by
  obtain ⟨p, hp, hy⟩ := h
  exact ⟨p, hheld x p hp, hy⟩

theorem mem_instanceIds_of_held (h : x ∈ r.instanceIds) : x ∈ later.instanceIds := by
  obtain ⟨p, hp⟩ := mem_instanceIds_iff.1 h
  exact mem_instanceIds_iff.2 ⟨p, hheld x p hp⟩

/-- Of a registered plugin the later registry says the same. -/
theorem dependsOn_iff_of_held (hx : x ∈ r.instanceIds) : later.DependsOn x y ↔ r.DependsOn x y := by
  obtain ⟨p, hp⟩ := mem_instanceIds_iff.1 hx
  rw [dependsOn_iff hp, dependsOn_iff (hheld x p hp)]

theorem Ordered.reflTransGen_of_held (h : r.Ordered ids order) (hx : ReachedFrom r.DependsOn ids x)
    (hxy : ReflTransGen later.DependsOn x y) : ReflTransGen r.DependsOn x y := by
  induction hxy with
  | refl => exact .refl
  | tail _ hstep ih =>
    have hregistered := h.mem_instanceIds (hx.reflTransGen ih)
    exact ih.tail ((dependsOn_iff_of_held hheld hregistered).1 hstep)

theorem orderFor_of_held (h : r.orderFor ids = .ok order) : ∃ order', later.orderFor ids = .ok order' := by
  have hordered := ordered_of_orderFor h
  obtain ⟨order', heq, -⟩ | ⟨e, -, hfault⟩ := DependencyGraph.orderFor_cases later.dependencyGraph ids
  · exact ⟨order', heq⟩
  · have hreached : ∀ x, ReachedFrom later.DependsOn ids x → ReachedFrom r.DependsOn ids x :=
      fun x ⟨id, hid, hpath⟩ => ⟨id, hid, hordered.reflTransGen_of_held hheld (.of_mem hid) hpath⟩
    refine absurd ⟨?_, ?_, ?_⟩ hfault.not_orderable <;>
      simp only [keys_dependencyGraph, dependsOn_dependencyGraph]
    · exact fun id hid => mem_instanceIds_of_held hheld (hordered.registered id hid)
    · intro x y hx hxy
      have hx := hreached x hx
      rw [dependsOn_iff_of_held hheld (hordered.mem_instanceIds hx)] at hxy
      exact mem_instanceIds_of_held hheld (hordered.complete x y hx hxy)
    · intro x hx hxx
      have hx := hreached x hx
      obtain ⟨y, hxy, hyx⟩ := TransGen.head'_iff.1 hxx
      rw [dependsOn_iff_of_held hheld (hordered.mem_instanceIds hx)] at hxy
      exact hordered.acyclic x hx (.head' hxy (hordered.reflTransGen_of_held hheld (hx.tail hxy) hyx))

end Held

end Registry

/-! ### Callbacks -/

/-- The error that a callback came to, if it failed. -/
def errorOf? : Except Failure Unit → Option Failure
  | .ok () => none
  | .error e => some e

/-- The warning of a shutdown callback that failed. -/
def shutdownWarning (id : String) : Except Failure Unit → List Warning
  | .ok () => []
  | .error e => [⟨"plugin shutdown failed", [("plugin", id), ("error", e.message)]⟩]

/-- The shutdown callbacks of the plugins run one after the other, and each of them comes to its result. -/
inductive ShutDown (app : AppView) : List Plugin → Env → List (Except Failure Unit) → Env → Prop
  | nil {env : Env} : ShutDown app [] env [] env
  | silent {p : Plugin} {plugins : List Plugin} {env env' : Env} {results : List (Except Failure Unit)}
      (hnone : p.lifecycle.onShutdown = none) (hrest : ShutDown app plugins env results env') :
      ShutDown app (p :: plugins) env results env'
  | called {p : Plugin} {plugins : List Plugin} {env env₁ env' : Env} {result : Except Failure Unit}
      {results : List (Except Failure Unit)} {f : AppView → Action Failure Unit}
      (hsome : p.lifecycle.onShutdown = some f) (hrun : (f app).runOn env = (result, env₁))
      (hrest : ShutDown app plugins { env₁ with warnings := env₁.warnings ++ shutdownWarning p.id result }
        results env') : ShutDown app (p :: plugins) env (result :: results) env'

theorem ShutDown.env_eq {app : AppView} {env env' : Env} {results : List (Except Failure Unit)}
    (h : ShutDown app [] env results env') : env' = env := by
  cases h
  rfl

theorem findSome?_errorOf?_eq_none {results : List (Except Failure Unit)} :
    results.findSome? errorOf? = none ↔ ∀ result ∈ results, result = .ok () := by
  rw [List.findSome?_eq_none_iff]
  refine forall₂_congr fun result _ => ?_
  rcases result with e | u
  · exact iff_of_false nofun nofun
  · exact iff_of_true rfl rfl

namespace App

variable {app : App} {env : Env} {p : Plugin}

theorem run_shutdownOne_of_none (hp : Plugin.named app.plugins p.id = some p)
    (hnone : p.lifecycle.onShutdown = none) : (app.shutdownOne p.id).run env = (none, env) := by
  have hcallback : (app.plugins.find? (·.id = p.id)).bind (·.lifecycle.onShutdown) = none := by
    show (Plugin.named app.plugins p.id).bind _ = none
    rw [hp, Option.bind_some, hnone]
  rw [shutdownOne, hcallback]
  rfl

theorem run_shutdownOne_of_some {f : AppView → Action Failure Unit} {result : Except Failure Unit} {env₁ : Env}
    (hp : Plugin.named app.plugins p.id = some p) (hsome : p.lifecycle.onShutdown = some f)
    (hrun : (f app.toAppView).runOn env = (result, env₁)) :
    (app.shutdownOne p.id).run env =
      (errorOf? result, { env₁ with warnings := env₁.warnings ++ shutdownWarning p.id result }) := by
  have hcallback : (app.plugins.find? (·.id = p.id)).bind (·.lifecycle.onShutdown) = some f := by
    show (Plugin.named app.plugins p.id).bind _ = some f
    rw [hp, Option.bind_some, hsome]
  have hrun : StateT.run (f app.toAppView).run env = (result, env₁) := hrun
  rw [shutdownOne, hcallback]
  dsimp only
  rw [run_bind, hrun]
  rcases result with e | u
  · rfl
  · rw [errorOf?, shutdownWarning, List.append_nil]
    rfl

theorem shutDown_shutdownAll {plugins : List Plugin} (h : ∀ p ∈ plugins, Plugin.named app.plugins p.id = some p)
    (env : Env) :
    let out := (app.shutdownAll (plugins.map (·.id))).run env
    ∃ results, ShutDown app.toAppView plugins env results out.2 ∧ out.1 = results.findSome? errorOf? := by
  induction plugins generalizing env with
  | nil => exact ⟨[], .nil, rfl⟩
  | cons p plugins ih =>
    obtain ⟨hp, hrest⟩ := List.forall_mem_cons.1 h
    rw [List.map_cons, shutdownAll, run_bind, run_bind]
    cases hcallback : p.lifecycle.onShutdown with
    | none =>
      rw [run_shutdownOne_of_none hp hcallback]
      obtain ⟨results, hshut, hfirst⟩ := ih hrest env
      exact ⟨results, .silent hcallback hshut, hfirst⟩
    | some f =>
      rcases hrun : (f app.toAppView).runOn env with ⟨result, env₁⟩
      rw [run_shutdownOne_of_some hp hcallback hrun]
      obtain ⟨results, hshut, hfirst⟩ := ih hrest _
      refine ⟨result :: results, .called hcallback hrun hshut, ?_⟩
      rw [List.findSome?_cons, ← hfirst]
      rcases result with e | u <;> rfl

end App

namespace Assembly

variable {r later : Registry} {spec : AppSpec} {env : Env} {app : App}

/-- The registry of an application has the plugins that it had before, and those of the application under the ids
that were free. -/
theorem plugin?_of_build (hbuild : ((build r spec).run env).1.1 = .ok app)
    (hids : (app.plugins.map (·.id)).Nodup) {p : Plugin} (hp : p ∈ app.plugins) :
    ((build r spec).run env).1.2.plugin? p.id = some ((r.plugin? p.id).getD p) := by
  obtain ⟨-, enrolled, order, henroll, -, hstart⟩ := of_build hbuild
  obtain ⟨made, hmade, -, hplugin, -⟩ := enrollAll_eq_ok henroll
  rw [List.nil_append] at hmade
  rw [(Initialization.startAll_eq_ok hstart).plugin?, hplugin, ← hmade, Plugin.named_of_mem hids hp]
  cases r.plugin? p.id <;> rfl

theorem orderFor_of_build (hbuild : ((build r spec).run env).1.1 = .ok app) :
    ∃ order, ((build r spec).run env).1.2.orderFor app.pluginIds = .ok order := by
  obtain ⟨-, enrolled, order, -, horder, hstart⟩ := of_build hbuild
  refine Registry.orderFor_of_held (fun id p hp => ?_) horder
  rw [(Initialization.startAll_eq_ok hstart).plugin?, hp]

/-- Callbacks run in the order that the registry finds, turned round, or else in that of the plugins. -/
theorem shutdown_eq (hids : app.pluginIds.Nodup) (later : Registry) : ∃ order : List String,
    app.shutdown later = app.shutdownAll order.reverse ∧ order.Nodup ∧ (∀ x, x ∈ order ↔ x ∈ app.pluginIds) ∧
      (later.orderFor app.pluginIds = .ok order ∨
        (∃ e, later.orderFor app.pluginIds = .error e) ∧ order = app.pluginIds) := by
  unfold App.shutdown
  cases horder : later.orderFor app.pluginIds with
  | ok order =>
    have hordered := Registry.ordered_of_orderFor horder
    exact ⟨order, rfl, hordered.nodup, hordered.mem_iff, .inl rfl⟩
  | error e => exact ⟨app.pluginIds, rfl, hids, fun _ => Iff.rfl, .inr ⟨⟨e, rfl⟩, rfl⟩⟩

/-- The callbacks of all plugins run, each once, and the first error is the result. As long as the registry has the
plugins that it had after the build, each comes before those that it depends on, as the plugin that is registered
under its id tells it; that is the plugin itself unless there was one before. -/
theorem build_shutdown {r : Registry} {spec : AppSpec} {env : Env} {app : App}
    (hbuild : ((build r spec).run env).1.1 = .ok app) (hids : (app.plugins.map (·.id)).Nodup) :
    let built := ((build r spec).run env).1.2
    (∀ p ∈ app.plugins, built.plugin? p.id = some ((r.plugin? p.id).getD p)) ∧
    ∀ (later : Registry) (env' : Env),
      let out := (app.shutdown later).run env'
      ∃ (calls : List Plugin) (results : List (Except Failure Unit)),
        calls.Perm app.plugins ∧ ShutDown app.toAppView calls env' results out.2 ∧
        out.1 = results.findSome? errorOf? ∧ (out.1 = none ↔ ∀ result ∈ results, result = .ok ()) ∧
        ((∀ id p, built.plugin? id = some p → later.plugin? id = some p) →
          ∀ p ∈ app.plugins, ∀ q ∈ app.plugins, TransGen built.DependsOn p.id q.id → [p, q].Sublist calls) ∧
        ∀ e, later.orderFor app.pluginIds = .error e → calls = app.plugins.reverse := by
  intro built
  refine ⟨fun p hp => plugin?_of_build hbuild hids hp, ?_⟩
  intro later env' out
  have hpluginIds := pluginIds_of_build hbuild
  have hnamed : ∀ p ∈ app.plugins, Plugin.named app.plugins p.id = some p := fun p => Plugin.named_of_mem hids
  obtain ⟨order, heq, hnodup, hmem, horder⟩ := shutdown_eq (hpluginIds ▸ hids) later
  rw [hpluginIds] at hmem
  have hcalls : (Plugin.inOrder app.plugins order.reverse).map (·.id) = order.reverse :=
    Plugin.map_id_inOrder fun x hx => (hmem x).1 (List.mem_reverse.1 hx)
  have hfound : ∀ p ∈ Plugin.inOrder app.plugins order.reverse, Plugin.named app.plugins p.id = some p :=
    fun p hp => (Plugin.mem_inOrder.1 hp).2
  obtain ⟨results, hshut, hfirst⟩ := App.shutDown_shutdownAll hfound env'
  rw [hcalls, ← heq] at hshut hfirst
  refine ⟨Plugin.inOrder app.plugins order.reverse, results, ?_, hshut, hfirst, ?_, ?_, ?_⟩
  · refine Plugin.inOrder_perm hids (List.nodup_reverse.2 hnodup) fun x => ?_
    rw [List.mem_reverse, hmem]
  · rw [hfirst]
    exact findSome?_errorOf?_eq_none
  · intro hheld p hp q hq hpq
    obtain ⟨_, hbuilt⟩ := orderFor_of_build hbuild
    obtain ⟨_, hlater⟩ := Registry.orderFor_of_held hheld hbuilt
    obtain horder | ⟨⟨e, herror⟩, -⟩ := horder
    · have hpq := TransGen.mono (fun _ _ => Registry.dependsOn_of_held hheld) _ _ hpq
      have hbefore := Registry.before_of_orderFor horder (hpluginIds ▸ List.mem_map_of_mem hp)
        (hpluginIds ▸ List.mem_map_of_mem hq) hpq
      exact Plugin.sublist_inOrder (hnamed p hp) (hnamed q hq) hbefore.reverse
    · rw [herror] at hlater; cases hlater
  · intro e herror
    obtain horder | ⟨-, rfl⟩ := horder
    · rw [herror] at horder; cases horder
    · rw [hpluginIds, Plugin.inOrder, List.filterMap_reverse]
      exact congrArg _ (Plugin.inOrder_map_id hids)

/-- A plugin that has a callback for the shutdown and nothing else. -/
def leaving (id : String) (dependencies : List String) (onShutdown : AppView → Action Failure Unit) : Plugin :=
  { Plugin.ofId id id "1.0.0" with dependencies, lifecycle := { onShutdown := some onShutdown } }

def server : Plugin := leaving "mail" [] (noting "mail")

/-- Fails at the shutdown. -/
def letters : Plugin := leaving "letters" ["mail"] fun _ => throw (.text "unsent letters")

def digest : Plugin := leaving "digest" ["letters"] (noting "digest")

/-- The digest depends on the server through the letters. -/
def posting : List Plugin := [server, digest, letters]

theorem orderFor_posting {r : Registry}
    (h : r.dependencyGraph = OrdMap.ofList [("mail", []), ("digest", ["letters"]), ("letters", ["mail"])]) :
    r.orderFor ["mail", "digest", "letters"] = .ok ["mail", "letters", "digest"] := by
  have hkeys : r.dependencyGraph.keys = ["mail", "digest", "letters"] := by rw [h]; rfl
  have hmail : r.dependencyGraph.getD "mail" [] = [] := by rw [h]; rfl
  have hdigest : r.dependencyGraph.getD "digest" [] = ["letters"] := by rw [h]; rfl
  have hletters : r.dependencyGraph.getD "letters" [] = ["mail"] := by rw [h]; rfl
  simp [Registry.orderFor, DependencyGraph.orderFor, DependencyGraph.visitIds, DependencyGraph.visit,
    DependencyGraph.visitAll, hkeys, hmail, hdigest, hletters, Except.map]

def postingApp : App := (assemble (ofPlugins posting) posting).1

theorem run_build_posting :
    (build Registry.empty (ofPlugins posting)).run Env.empty =
      ((.ok postingApp, registryOf posting true), Env.empty) := by
  have henroll : enrollAll Registry.empty [] (ofPlugins posting).plugins =
    (.ok posting, registryOf posting false) := rfl
  rw [run_build henroll (orderFor_posting rfl)]
  rfl

theorem run_shutdown_posting : (postingApp.shutdown (registryOf posting true)).run Env.empty =
    (postingApp.shutdownAll ["digest", "letters", "mail"]).run Env.empty := by
  have hids : postingApp.pluginIds = ["mail", "digest", "letters"] := rfl
  rw [App.shutdown, hids, orderFor_posting rfl]
  rfl

/-- The callback of the server runs last, though that of the letters has failed. -/
theorem build_shutdown_posting :
    let out := (build Registry.empty (ofPlugins posting)).run Env.empty
    out.1.1 = .ok postingApp ∧ (postingApp.plugins.map (·.id)).Nodup ∧
      let out' := (postingApp.shutdown out.1.2).run Env.empty
      (∃ calls results, calls.Perm posting ∧ [digest, server].Sublist calls ∧
        ShutDown postingApp.toAppView calls Env.empty results out'.2 ∧ out'.1 = results.findSome? errorOf?) ∧
      out'.1 = some (.text "unsent letters") ∧ out'.2.journal = [.str "digest", .str "mail"] := by
  intro out
  have hout : out = ((.ok postingApp, registryOf posting true), Env.empty) := run_build_posting
  have hbuild : out.1.1 = .ok postingApp := by rw [hout]
  have hids : (postingApp.plugins.map (·.id)).Nodup := by decide
  obtain ⟨-, hshutdown⟩ := build_shutdown hbuild hids
  obtain ⟨calls, results, hperm, hshut, hfirst, -, hbefore, -⟩ := hshutdown out.1.2 Env.empty
  have hdepends : TransGen out.1.2.DependsOn digest.id server.id := by
    rw [hout]
    exact .head (b := "letters") ⟨digest, rfl, by decide⟩ (.single ⟨letters, rfl, by decide⟩)
  have hsublist := hbefore (fun _ _ => id) digest (.tail _ (.head _)) server (.head _) hdepends
  refine ⟨hbuild, hids, ⟨calls, results, hperm, hsublist, hshut, hfirst⟩, ?_⟩
  rw [hout, run_shutdown_posting]
  exact ⟨rfl, rfl⟩

def signIn : Plugin := leaving "auth" [] (noting "auth")

/-- Depends on the plugin that signs users in. -/
def invoices : Plugin := leaving "billing" ["auth"] (noting "billing")

/-- Another plugin with the id of the invoices, which depends on nothing. -/
def oldInvoices : Plugin := Plugin.ofId "billing" "Billing" "0.1.0"

/-- The registry that the application shares. -/
def invoicing : Registry := registryOf [oldInvoices] false

theorem orderFor_invoicing {r : Registry}
    (h : r.dependencyGraph = OrdMap.ofList [("billing", []), ("auth", [])]) :
    r.orderFor ["billing", "auth"] = .ok ["billing", "auth"] := by
  have hkeys : r.dependencyGraph.keys = ["billing", "auth"] := by rw [h]; rfl
  have hbilling : r.dependencyGraph.getD "billing" [] = [] := by rw [h]; rfl
  have hauth : r.dependencyGraph.getD "auth" [] = [] := by rw [h]; rfl
  simp [Registry.orderFor, DependencyGraph.orderFor, DependencyGraph.visitIds, DependencyGraph.visit,
    DependencyGraph.visitAll, hkeys, hbilling, hauth, Except.map]

def invoicingApp : App := (assemble (ofPlugins [invoices, signIn]) [invoices, signIn]).1

theorem run_build_invoicing :
    (build invoicing (ofPlugins [invoices, signIn])).run Env.empty =
      ((.ok invoicingApp, registryOf [oldInvoices, signIn] true), Env.empty) := by
  have henroll : enrollAll invoicing [] (ofPlugins [invoices, signIn]).plugins =
    (.ok [invoices, signIn], registryOf [oldInvoices, signIn] false) := rfl
  rw [run_build henroll (orderFor_invoicing rfl)]
  rfl

theorem run_shutdown_invoicing : (invoicingApp.shutdown (registryOf [oldInvoices, signIn] true)).run Env.empty =
    (invoicingApp.shutdownAll ["auth", "billing"]).run Env.empty := by
  have hids : invoicingApp.pluginIds = ["billing", "auth"] := rfl
  rw [App.shutdown, hids, orderFor_invoicing rfl]
  rfl

/-- The invoices depend on the signing in, and their callback runs after that one: the order is that of the plugin
that was registered before. -/
theorem shutdown_of_namesake :
    let out := (build invoicing (ofPlugins [invoices, signIn])).run Env.empty
    out.1.1 = .ok invoicingApp ∧ invoicingApp.plugins = [invoices, signIn] ∧
      (invoicingApp.plugins.map (·.id)).Nodup ∧ signIn.id ∈ invoices.dependencies ∧
      let out' := (invoicingApp.shutdown out.1.2).run Env.empty
      out'.2.journal = [.str "auth", .str "billing"] ∧
      ¬∃ calls results, calls.Perm invoicingApp.plugins ∧ [invoices, signIn].Sublist calls ∧
        ShutDown invoicingApp.toAppView calls Env.empty results out'.2 := by
  intro out
  have hout : out = ((.ok invoicingApp, registryOf [oldInvoices, signIn] true), Env.empty) := run_build_invoicing
  refine ⟨by rw [hout], rfl, by decide, by decide, ?_⟩
  rw [hout, run_shutdown_invoicing]
  refine ⟨rfl, ?_⟩
  rintro ⟨calls, results, hperm, hbefore, hshut⟩
  obtain rfl : [invoices, signIn] = calls := hbefore.eq_of_length hperm.length_eq.symm
  cases hshut with
  | silent hnone => cases hnone
  | called hsome hrun hrest =>
    cases hsome
    cases hrun
    cases hrest with
    | silent hnone => cases hnone
    | called hsome hrun hrest =>
      cases hsome
      cases hrun
      have hjournal : [Json.str "auth", .str "billing"] = [.str "billing", .str "auth"] :=
        congrArg Env.journal hrest.env_eq
      simp at hjournal

end Assembly

end EntityRest
