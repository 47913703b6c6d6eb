import EntityRest.Proofs.Service.Answer
import EntityRest.Proofs.Service.Assembly

/-! # Which responses have the security headers

What middleware stages stays staged behind middleware that takes no header away (`contains_runMiddleware`), and
what is staged in the end is in the response. So the security headers are in every response to a request that
gets as far as the middleware that stages them. The one default middleware in front of it answers the requests
that only ask which cross-site requests are allowed, and these responses are without security headers
(`handle_securityHeaders_iff`). -/

namespace EntityRest

namespace Middleware

/-- Takes no staged header away, however it ends. -/
def KeepsStaged (m : Middleware) : Prop :=
  ∀ x env name, x.staged.headers.contains name = true →
    ((m.run x).run env).1.2.staged.headers.contains name = true

variable {x x' : Exchange} {env env' : Env} {name key value : String}

theorem run_pureStep (name : String) (f : Exchange → Flow × Exchange) (x : Exchange) (env : Env) :
    ((pureStep name f).run x).run env = ((.ok (f x).1, (f x).2), env) := rfl

theorem contains_stageHeader :
    (stageHeader x key value).staged.headers.contains name =
      (decide (name = Headers.nameKey key) || x.staged.headers.contains name) := by
  show ((OrdMap.insert _ _ _).get? _).isSome = _
  rw [OrdMap.get?_insert]
  by_cases h : name = Headers.nameKey key
  · rw [if_pos h, decide_eq_true h, Bool.true_or]; rfl
  · rw [if_neg h, decide_eq_false h, Bool.false_or]; rfl

theorem contains_stageHeader_of_ne (h : name ≠ Headers.nameKey key) :
    (stageHeader x key value).staged.headers.contains name = x.staged.headers.contains name := by
  rw [contains_stageHeader, decide_eq_false h, Bool.false_or]

theorem contains_stageValidHeader_of_ne (h : name ≠ Headers.nameKey key) :
    (stageValidHeader x key value).staged.headers.contains name = x.staged.headers.contains name := by
  unfold stageValidHeader
  split
  · exact contains_stageHeader_of_ne h
  · rfl

/-- The headers under which cross-site rules are told. -/
def corsHeaders : List String :=
  ["access-control-allow-origin", "access-control-allow-methods", "access-control-allow-headers",
    "access-control-max-age"]

theorem contains_stageCors {c : CorsConfig} (h : ∀ key ∈ corsHeaders, name ≠ Headers.nameKey key) :
    (stageCors c x).staged.headers.contains name = x.staged.headers.contains name := by
  simp only [corsHeaders, List.forall_mem_cons, List.not_mem_nil, false_implies, implies_true, and_true] at h
  obtain ⟨horigin, hmethods, hheaders, hage⟩ := h
  unfold stageCors
  split
  · rfl
  · next origin _ =>
    have hthree : (stageValidHeader (stageValidHeader (stageHeader x "access-control-allow-origin" origin)
        "access-control-allow-methods" (", ".intercalate c.allowedMethods)) "access-control-allow-headers"
        (", ".intercalate c.allowedHeaders)).staged.headers.contains name = x.staged.headers.contains name := by
      rw [contains_stageValidHeader_of_ne hheaders, contains_stageValidHeader_of_ne hmethods,
        contains_stageHeader_of_ne horigin]
    cases c.maxAge with
    | none => exact hthree
    | some n => exact (contains_stageHeader_of_ne hage).trans hthree

theorem request_stageCors (c : CorsConfig) (x : Exchange) : (stageCors c x).request = x.request := by
  have hvalid (x : Exchange) (key value : String) : (stageValidHeader x key value).request = x.request := by
    unfold stageValidHeader
    split <;> rfl
  unfold stageCors
  split
  · rfl
  · cases c.maxAge <;> exact (hvalid _ _ _).trans (hvalid _ _ _)

theorem run_cors (c : CorsConfig) (x : Exchange) (env : Env) :
    ((cors c).run x).run env =
      if x.request.method = "OPTIONS" then
        ((.ok .stop, { stageCors c x with
          staged := { (stageCors c x).staged with status := 204, body := .null } }), env)
      else ((.ok .next, stageCors c x), env) := by
  rw [cors, run_pureStep, ← request_stageCors c x]
  dsimp only
  split <;> rfl

theorem contains_foldl_stageHeader {l : List (String × String)} :
    (l.foldl (fun x e => stageHeader x e.1 e.2) x).staged.headers.contains name = true ↔
      (∃ e ∈ l, name = Headers.nameKey e.1) ∨ x.staged.headers.contains name = true := by
  induction l generalizing x with
  | nil => simp
  | cons e l ih => simp [ih, contains_stageHeader, or_assoc, or_left_comm]

end Middleware

namespace App

variable {app : App} {req : Request} {env env' : Env} {x x' : Exchange} {name : String}

theorem contains_runMiddleware {ms : List Middleware} (hms : ∀ m ∈ ms, m.KeepsStaged)
    (h : x.staged.headers.contains name = true) :
    ((runMiddleware ms x).run env).1.2.staged.headers.contains name = true := by
  induction ms generalizing x env with
  | nil => exact h
  | cons m ms ih =>
    obtain ⟨hm, hms⟩ := List.forall_mem_cons.1 hms
    have hkept := hm x env name h
    rw [run_runMiddleware_cons]
    rcases hrun : (m.run x).run env with ⟨⟨e | flow, x'⟩, env'⟩ <;> rw [hrun] at hkept
    · exact hkept
    · cases flow with
      | next => exact ih hms hkept
      | stop => exact hkept

open Middleware in
/-- The security headers are missing where cross-site middleware answers in front of the middleware that stages
them, and nowhere else. -/
theorem contains_answer_iff {c : Config} {rest : List Middleware} (happ : app.middleware = defaults c ++ rest)
    (hon : c.securityHeaders = true) (hrest : ∀ m ∈ rest, m.KeepsStaged)
    (hname : name ∈ securityHeaderList.map Prod.fst) :
    (app.answer req env).headers.contains name = true ↔ ¬(c.cors.enabled = true ∧ req.method = "OPTIONS") := by
  have hkey : name = Headers.nameKey name ∧ ∀ key ∈ corsHeaders, name ≠ Headers.nameKey key := by
    revert name
    decide +kernel
  have hsecure (env : Env) (x : Exchange) :
      ((runMiddleware (securityHeaders :: rest) x).run env).1.2.staged.headers.contains name = true := by
    obtain ⟨e, he, hfst⟩ := List.mem_map.1 hname
    rw [run_runMiddleware_cons, securityHeaders, run_pureStep]
    exact contains_runMiddleware hrest (contains_foldl_stageHeader.2 (.inl ⟨e, he, hfst ▸ hkey.1⟩))
  have hdefaults : app.middleware =
      (if c.cors.enabled then [cors c.cors] else []) ++ securityHeaders :: rest := by
    rw [happ, defaults, if_pos hon, List.append_assoc]
    rfl
  cases henabled : c.cors.enabled with
  | false =>
    refine iff_of_true (app.contains_answer req env ?_) (by simp)
    rw [received, hdefaults, henabled]
    exact hsecure _ _
  | true =>
    have hreceived : app.received req env = (runMiddleware (cors c.cors :: securityHeaders :: rest)
        ⟨req, .ok .null⟩).run ((observeRequest req app.plugins).run env).2 := by
      rw [received, hdefaults, henabled]
      rfl
    rw [run_runMiddleware_cons, run_cors] at hreceived
    by_cases hmethod : req.method = "OPTIONS"
    · refine iff_of_false ?_ (by simp [hmethod])
      rw [if_pos hmethod] at hreceived
      rw [answer, handle, run_handleWith, hreceived]
      show ¬(stageCors c.cors ⟨req, .ok .null⟩).staged.headers.contains name = true
      rw [contains_stageCors hkey.2]
      exact Bool.false_ne_true
    · refine iff_of_true (app.contains_answer req env ?_) (by simp [hmethod])
      rw [if_neg hmethod] at hreceived
      rw [hreceived]
      exact hsecure _ _

end App

namespace Assembly

/-- Whatever middleware the plugins and the application add, as long as it takes no staged header away, and
however a request ends, its response has the security headers if they are configured, unless cross-site requests
are configured as well and the method is OPTIONS. -/
theorem handle_securityHeaders_iff {r : Registry} {spec : AppSpec} {env₀ : Env} {app : App}
    (hbuild : ((build r spec).run env₀).1.1 = .ok app) (hon : spec.config.securityHeaders = true)
    (hplugins : ∀ p ∈ app.plugins, ∀ m ∈ p.middleware.materialize app.toShell, m.KeepsStaged)
    (hown : ∀ m ∈ spec.middleware, m.KeepsStaged) (req : Request) (env : Env) :
    ∀ name ∈ ["x-content-type-options", "x-frame-options", "referrer-policy", "x-xss-protection"],
      ((app.handle req).run env).1.headers.contains name = true ↔
        ¬(spec.config.cors.enabled = true ∧ req.method = "OPTIONS") := by
  intro name hname
  obtain ⟨plugins, rfl⟩ := exists_assemble_of_build hbuild
  refine App.contains_answer_iff (middleware_assemble spec plugins) hon ?_ hname
  exact List.forall_mem_append.2 ⟨List.forall_mem_flatMap.2 hplugins, hown⟩

/-- Says in a header of each response that it has counted the request. -/
def counting : Middleware :=
  Middleware.pureStep "counting" fun x => (.next, Middleware.stageHeader x "counted-by" "stats")

def statsPlugin : Plugin := (Plugin.ofId "stats" "Statistics" "1.0.0").addMiddleware counting

/-- Lets no one in. -/
def closing : Middleware := ⟨"closing", fun x => pure (.error (.unauthorized "Closed"), x)⟩

def closedSite : AppSpec where
  config := {}
  driver := InMemory.driver false
  entities := []
  plugins := [.plugin statsPlugin]
  middleware := [closing]
  hooks := []

def closedSiteRegistry : Registry :=
  { Registry.empty with instances := OrdMap.ofList [("stats", ⟨statsPlugin, false, none⟩)] }

theorem build_closedSite : ((build Registry.empty closedSite).run Env.empty).1.1 =
    .ok (assemble closedSite [statsPlugin]).1 := by
  have henroll : enrollAll Registry.empty [] closedSite.plugins = (.ok [statsPlugin], closedSiteRegistry) := rfl
  have horder : closedSiteRegistry.orderFor (assemble closedSite [statsPlugin]).1.pluginIds = .ok ["stats"] := by
    have hids : (assemble closedSite [statsPlugin]).1.pluginIds = ["stats"] := rfl
    have hkeys : closedSiteRegistry.dependencyGraph.keys = ["stats"] := rfl
    have hstats : closedSiteRegistry.dependencyGraph.getD "stats" [] = [] := rfl
    simp [Registry.orderFor, DependencyGraph.orderFor, DependencyGraph.visitIds, DependencyGraph.visit,
      DependencyGraph.visitAll, hids, hkeys, hstats, Except.map]
  rw [build_of_enrollAll henroll]
  unfold Registry.initializePlugins
  rw [horder]
  rfl

/-- The site keeps everyone out with a response that has the security headers, and it tells without them what is
allowed across sites. -/
theorem handle_securityHeaders_closedSite :
    ∃ app, ((build Registry.empty closedSite).run Env.empty).1.1 = .ok app ∧
      let answer (method : String) := ((app.handle (Request.ofPath method "/health")).run Env.empty).1
      ((answer "GET").status = 401 ∧ (answer "GET").headers.contains "x-frame-options" = true) ∧
        (answer "OPTIONS").status = 204 ∧ (answer "OPTIONS").headers.contains "x-frame-options" = false := by
  have hcounting : counting.KeepsStaged := fun x env name h => by
    rw [counting, Middleware.run_pureStep, Middleware.contains_stageHeader, h, Bool.or_true]
  have hclosing : closing.KeepsStaged := fun _ _ _ h => h
  have hplugins : ∀ p ∈ [statsPlugin], ∀ m ∈ p.middleware.materialize
      (assemble closedSite [statsPlugin]).1.toShell, m.KeepsStaged := by
    rintro p hp m hm
    obtain rfl := List.mem_singleton.1 hp
    obtain rfl := List.mem_singleton.1 hm
    exact hcounting
  have hown : ∀ m ∈ closedSite.middleware, m.KeepsStaged := List.forall_mem_singleton.2 hclosing
  have hiff (method : String) := handle_securityHeaders_iff build_closedSite rfl hplugins hown
    (Request.ofPath method "/health") Env.empty "x-frame-options" (by decide)
  refine ⟨_, build_closedSite, ⟨rfl, (hiff "GET").2 ?_⟩, rfl, Bool.eq_false_iff.2 fun h => ?_⟩
  · exact fun h => absurd h.2 (by decide)
  · exact (hiff "OPTIONS").1 h ⟨rfl, rfl⟩

end Assembly

end EntityRest
