import EntityRest.Driver.InMemory
import EntityRest.Proofs.Effect.Action
import EntityRest.Proofs.Plugin.Readiness

/-! # Initialization, step by step

A call that initializes plugins is taken apart into moments: the plugins that are left, or the callback
that runs. `Next` is what happens between two of them. It leaves no choice, and `startAll_path` says that
it leads to the outcome of the call. `Step` adds what happens between calls: registrations, and new
calls.

One invariant carries everything (`Sound`): the dependencies of an initialized plugin are initialized,
the plugins that are left are ready, and it is the turn of the one whose callback runs. No step takes
an initialization back, since only a plugin that is not initialized can fail.

The main result is `Reached.initialization`, of every moment that can be reached from an empty registry. -/

open Relation (ReflTransGen TransGen)

namespace EntityRest

/-! ### Moments -/

namespace Initialization

open Registry (callback)

/-- The callbacks that initialize a plugin, in this order. -/
inductive Phase where
  | register
  | init

/-- What a plugin does in a phase. -/
def Phase.act (app : AppView) (p : Plugin) : Phase → Action Failure Unit
  | register => callback p.lifecycle.onRegister app
  | init => callback p.lifecycle.onInit app

inductive Stage where
  /-- The plugins `left` are to be initialized. -/
  | taking (left : List String)
  /-- A callback of `p`, which is registered under `id`, runs. -/
  | running (phase : Phase) (id : String) (p : Plugin) (left : List String)
  /-- No call is under way; the last one came to `outcome`. -/
  | ended (outcome : Except PluginError Unit)

structure Moment where
  registry : Registry
  env : Env
  stage : Stage

/-- The environment after an initialization that failed. -/
def warned (env : Env) (id : String) (source : Failure) : Env :=
  { env with
    warnings := env.warnings ++
      [⟨"plugin initialization failed", [("plugin", id), ("error", source.message)]⟩] }

/-- What comes next in a call. -/
inductive Next (app : AppView) : Moment → Moment → Prop
  | finish {r : Registry} {env : Env} : Next app ⟨r, env, .taking []⟩ ⟨r, env, .ended (.ok ())⟩
  | pass {r : Registry} {env : Env} {id : String} {left : List String}
      (h : r.plugin? id = none ∨ r.isInitialized id = true) :
      Next app ⟨r, env, .taking (id :: left)⟩ ⟨r, env, .taking left⟩
  | take {r : Registry} {env : Env} {id : String} {p : Plugin} {left : List String}
      (hp : r.plugin? id = some p) (hnew : r.isInitialized id = false) :
      Next app ⟨r, env, .taking (id :: left)⟩ ⟨r, env, .running .register id p left⟩
  | registered {r : Registry} {env env' : Env} {id : String} {p : Plugin} {left : List String}
      (h : (Phase.register.act app p).runOn env = (.ok (), env')) :
      Next app ⟨r, env, .running .register id p left⟩ ⟨r, env', .running .init id p left⟩
  | initialized {r : Registry} {env env' : Env} {id : String} {p : Plugin} {left : List String}
      (h : (Phase.init.act app p).runOn env = (.ok (), env')) :
      Next app ⟨r, env, .running .init id p left⟩ ⟨r.setState id true none, env', .taking left⟩
  | failed {r : Registry} {env env' : Env} {phase : Phase} {id : String} {p : Plugin}
      {left : List String} {source : Failure}
      (h : (phase.act app p).runOn env = (.error source, env')) :
      Next app ⟨r, env, .running phase id p left⟩
        ⟨r.setState id false (some source.message), warned env' id source,
          .ended (.error (.initFailed id source))⟩

theorem Next.deterministic {app : AppView} {m m₁ m₂ : Moment} (h₁ : Next app m m₁)
    (h₂ : Next app m m₂) : m₁ = m₂ := by
  cases h₁ with
  | finish => cases h₂; rfl
  | pass h =>
    cases h₂ with
    | pass => rfl
    | take hp hnew => simp [hp, hnew] at h
  | take hp hnew =>
    cases h₂ with
    | pass h => simp [hp, hnew] at h
    | take hp' => rw [hp] at hp'; cases hp'; rfl
  | registered h =>
    cases h₂ with
    | registered h' => rw [h] at h'; cases h'; rfl
    | failed h' => rw [h] at h'; cases h'
  | initialized h =>
    cases h₂ with
    | initialized h' => rw [h] at h'; cases h'; rfl
    | failed h' => rw [h] at h'; cases h'
  | failed h =>
    cases h₂ with
    | registered h' => rw [h] at h'; cases h'
    | initialized h' => rw [h] at h'; cases h'
    | failed h' => rw [h] at h'; cases h'; rfl

/-- What comes next at all: between calls a registration or a new call, during a call what comes next in
it. The environment may have changed before a call, and the application before each callback. -/
inductive Step : Moment → Moment → Prop
  | register {r r' : Registry} {env env' : Env} {outcome : Except PluginError Unit} {p : Plugin}
      (hp : r.registerInstance p = .ok r') :
      Step ⟨r, env, .ended outcome⟩ ⟨r', env', .ended outcome⟩
  | call {r : Registry} {env env' : Env} {outcome : Except PluginError Unit} {ids order : List String}
      (hids : r.Closed ids) (horder : r.orderFor ids = .ok order) :
      Step ⟨r, env, .ended outcome⟩ ⟨r, env', .taking order⟩
  | reject {r : Registry} {env env' : Env} {outcome : Except PluginError Unit} {ids : List String}
      {e : PluginError} (horder : r.orderFor ids = .error e) :
      Step ⟨r, env, .ended outcome⟩ ⟨r, env', .ended (.error e)⟩
  | next {app : AppView} {m m' : Moment} (h : Next app m m') : Step m m'

/-- The moments after any number of steps from an empty registry. -/
def Reached (m : Moment) : Prop :=
  ∃ r env, r.instances = ∅ ∧ ReflTransGen Step ⟨r, env, .ended (.ok ())⟩ m

variable {app : AppView} {r r' : Registry} {env env' : Env} {id x : String} {p : Plugin}
  {left ids : List String} {m m' : Moment}

/-! ### The invariant -/

/-- The plugins that are left can be started, and it is the turn of the one that runs. -/
def Stage.Sound (r : Registry) : Stage → Prop
  | taking left => r.Ready left
  | running _ id p left => r.Startable id p ∧ r.Ready (id :: left)
  | ended _ => True

structure Sound (m : Moment) : Prop where
  grounded : m.registry.Grounded
  stage : m.stage.Sound m.registry

theorem Next.sound (h : Next app m m') (hm : Sound m) : Sound m' := by
  obtain ⟨hground, hstage⟩ := hm
  cases h with
  | finish => exact ⟨hground, trivial⟩
  | pass h =>
    obtain ⟨p, hp⟩ := Registry.Ready.registered hstage _ List.mem_cons_self
    exact ⟨hground, Registry.Ready.tail hstage (h.resolve_left (by simp [hp]))⟩
  | take hp hnew => exact ⟨hground, Registry.Ready.startable hstage hp hnew, hstage⟩
  | registered h => exact ⟨hground, hstage⟩
  | initialized h =>
    obtain ⟨hstart, hready⟩ := hstage
    exact ⟨hstart.grounded hground none, hstart.ready hready none⟩
  | failed h => exact ⟨hstage.1.grounded_of_failure hground _, trivial⟩

theorem Step.sound (h : Step m m') (hm : Sound m) : Sound m' := by
  cases h with
  | register hp => exact ⟨hm.grounded.registerInstance hp, trivial⟩
  | call hids horder => exact ⟨hm.grounded, (Registry.ordered_of_orderFor horder).ready hids⟩
  | reject horder => exact ⟨hm.grounded, trivial⟩
  | next h => exact h.sound hm

/-- No step takes an initialization back. -/
theorem Step.isInitialized (h : Step m m') (hm : Sound m) (hx : m.registry.isInitialized x = true) :
    m'.registry.isInitialized x = true := by
  cases h with
  | register hp => rw [Registry.isInitialized_registerInstance hp]; exact hx
  | call => exact hx
  | reject => exact hx
  | next h =>
    obtain ⟨-, hstage⟩ := hm
    cases h with
    | initialized h => exact hstage.1.isInitialized_setState none hx
    | failed h => exact (hstage.1.isInitialized_setState_false _ x).trans hx
    | _ => exact hx

theorem Sound.run (hm : Sound m) (h : ReflTransGen Step m m') :
    Sound m' ∧ ∀ x, m.registry.isInitialized x = true → m'.registry.isInitialized x = true := by
  induction h with
  | refl => exact ⟨hm, fun _ hx => hx⟩
  | tail _ hstep ih => exact ⟨hstep.sound ih.1, fun x hx => hstep.isInitialized ih.1 (ih.2 x hx)⟩

theorem Sound.startable (hm : Sound m) {phase : Phase} (hstage : m.stage = .running phase id p left) :
    m.registry.Startable id p := by
  have hrunning := hm.stage
  rw [hstage] at hrunning
  exact hrunning.1

theorem Reached.sound (h : Reached m) : Sound m := by
  obtain ⟨r, env, hempty, hsteps⟩ := h
  have hstart : Sound ⟨r, env, .ended (.ok ())⟩ := by
    refine ⟨fun x y hx => ?_, trivial⟩
    have hnone : r.isInitialized x = false := by
      unfold Registry.isInitialized
      rw [hempty]; rfl
    rw [hnone] at hx; cases hx
  exact (hstart.run hsteps).1

/-! ### Calls -/

/-- What starting one plugin comes to. -/
theorem startOne_cases (app : AppView) (r : Registry) (id : String) (env : Env) :
    (r.plugin? id = none ∨ r.isInitialized id = true) ∧
        (Registry.startOne app r id).run env = ((.ok (), r), env) ∨
      ∃ p, r.plugin? id = some p ∧ r.isInitialized id = false ∧
        ((∃ env', (Registry.startPlugin p app).runOn env = (.ok (), env') ∧
            (Registry.startOne app r id).run env = ((.ok (), r.setState id true none), env')) ∨
          ∃ source env', (Registry.startPlugin p app).runOn env = (.error source, env') ∧
            (Registry.startOne app r id).run env =
              ((.error (.initFailed id source), r.setState id false (some source.message)),
                warned env' id source)) := by
  unfold Registry.startOne
  cases hp : r.plugin? id with
  | none => exact .inl ⟨.inl rfl, rfl⟩
  | some p =>
    cases hinit : r.isInitialized id with
    | true => exact .inl ⟨.inr rfl, rfl⟩
    | false =>
      refine .inr ⟨p, rfl, rfl, ?_⟩
      dsimp only
      rw [if_neg Bool.false_ne_true, StateT.run_bind]
      rcases hstart : StateT.run (Registry.startPlugin p app).run env with ⟨source | u, env'⟩
      · exact .inr ⟨source, env', hstart, rfl⟩
      · exact .inl ⟨env', hstart, rfl⟩

theorem run_startAll_cons (app : AppView) (r : Registry) (id : String) (ids : List String) (env : Env) :
    (Registry.startAll app r (id :: ids)).run env =
      match (Registry.startOne app r id).run env with
      | ((.ok (), r'), env') => (Registry.startAll app r' ids).run env'
      | ((.error e, r'), env') => ((.error e, r'), env') := by
  rw [Registry.startAll, StateT.run_bind]
  rcases hone : StateT.run (Registry.startOne app r id) env with ⟨⟨_ | _, r'⟩, env'⟩ <;> rfl

/-- Starting a plugin means running one callback and then the other, until one fails. -/
theorem startPlugin_path {u : Unit} (h : (Registry.startPlugin p app).runOn env = (.ok u, env')) :
    ReflTransGen (Next app) ⟨r, env, .running .register id p left⟩
      ⟨r.setState id true none, env', .taking left⟩ := by
  obtain ⟨u, env₁, hregister, hinit⟩ := Action.runOn_bind_eq_ok h
  exact .tail (.single (.registered hregister)) (.initialized hinit)

theorem startPlugin_path_of_failure {source : Failure}
    (h : (Registry.startPlugin p app).runOn env = (.error source, env')) :
    ReflTransGen (Next app) ⟨r, env, .running .register id p left⟩
      ⟨r.setState id false (some source.message), warned env' id source,
        .ended (.error (.initFailed id source))⟩ := by
  obtain hregister | ⟨u, env₁, hregister, hinit⟩ := Action.runOn_bind_eq_error h
  · exact .single (.failed hregister)
  · exact .tail (.single (.registered hregister)) (.failed hinit)

/-- A call is a path of steps. -/
theorem startAll_path (app : AppView) (ids : List String) (r : Registry) (env : Env) :
    let out := (Registry.startAll app r ids).run env
    ReflTransGen (Next app) ⟨r, env, .taking ids⟩ ⟨out.1.2, out.2, .ended out.1.1⟩ := by
  induction ids generalizing r env with
  | nil => exact .single .finish
  | cons id ids ih =>
    rw [run_startAll_cons]
    obtain ⟨hpass, hone⟩ | ⟨p, hp, hnew, ⟨env', hstart, hone⟩ | ⟨source, env', hstart, hone⟩⟩ :=
      startOne_cases app r id env
    · rw [hone]
      exact .head (.pass hpass) (ih r env)
    · rw [hone]
      exact .head (.take hp hnew) ((startPlugin_path hstart).trans (ih _ env'))
    · rw [hone]
      exact .head (.take hp hnew) (startPlugin_path_of_failure hstart)

/-- A registered plugin once it has been started: one that is initialized already stays as it is. -/
def started (i : PluginInstance) : PluginInstance :=
  if i.initialized then i else { i with initialized := true, error := none }

/-- `r'` is `r` after the plugins `ids` have been started. -/
def Started (r r' : Registry) (ids : List String) : Prop :=
  ∀ x, r'.instances.get? x = (r.instances.get? x).map fun i => if x ∈ ids then started i else i

theorem started_started (i : PluginInstance) : started (started i) = started i := by
  unfold started
  by_cases h : i.initialized <;> simp [h]

theorem Started.nil (r : Registry) : Started r r [] := fun x => by simp

theorem Started.cons {r₁ : Registry} (h : Started r r₁ [id]) (h' : Started r₁ r' ids) :
    Started r r' (id :: ids) := by
  intro x
  rw [h', h, Option.map_map]
  congr 1
  funext i
  by_cases hid : x = id <;> by_cases hx : x ∈ ids <;> simp [hid, hx, started_started]

theorem Started.plugin? (h : Started r r' ids) (x : String) : r'.plugin? x = r.plugin? x := by
  unfold Registry.plugin?
  rw [h, Option.map_map]
  congr 1
  funext i
  by_cases hx : x ∈ ids <;> cases hinit : i.initialized <;> simp [hx, started, hinit]

theorem Started.isInitialized_of_not_mem (h : Started r r' ids) (hx : x ∉ ids) :
    r'.isInitialized x = r.isInitialized x := by
  unfold Registry.isInitialized
  rw [h x]
  simp [hx]

theorem Started.isInitialized (h : Started r r' ids) (hx : x ∈ ids)
    (hp : ∃ p, r.plugin? x = some p) : r'.isInitialized x = true := by
  obtain ⟨p, hp⟩ := hp
  obtain ⟨i, hi, -⟩ := Option.map_eq_some_iff.1 hp
  unfold Registry.isInitialized
  rw [h x, hi]
  cases hinit : i.initialized <;> simp [hx, started, hinit]

/-- A plugin that is passed over counts as started. -/
theorem Started.of_pass (h : r.plugin? id = none ∨ r.isInitialized id = true) : Started r r [id] := by
  intro x
  cases hx : r.instances.get? x with
  | none => rfl
  | some i =>
    by_cases hid : x = id
    · subst hid
      have hinit : i.initialized = true := by
        simpa [Registry.plugin?, Registry.isInitialized, hx] using h
      simp [started, hinit]
    · simp [hid]

theorem Started.setState (hnew : r.isInitialized id = false) :
    Started r (r.setState id true none) [id] := by
  intro x
  rw [Registry.get?_setState]
  cases hx : r.instances.get? x with
  | none => rfl
  | some i =>
    by_cases hid : x = id
    · subst hid
      have hinit : i.initialized = false := by simpa [Registry.isInitialized, hx] using hnew
      simp [started, hinit]
    · simp [hid]

theorem startOne_eq_ok (h : (Registry.startOne app r id).run env = ((.ok (), r'), env')) :
    Started r r' [id] := by
  obtain ⟨hpass, hone⟩ | ⟨p, -, hnew, ⟨env₁, -, hone⟩ | ⟨source, env₁, -, hone⟩⟩ :=
    startOne_cases app r id env
  · rw [hone] at h; cases h; exact .of_pass hpass
  · rw [hone] at h; cases h; exact .setState hnew
  · rw [hone] at h; cases h

theorem startOne_eq_error {e : PluginError}
    (h : (Registry.startOne app r id).run env = ((.error e, r'), env')) :
    ∃ p source env₁, r.plugin? id = some p ∧ r.isInitialized id = false ∧
      (Registry.startPlugin p app).runOn env = (.error source, env₁) ∧
      e = .initFailed id source ∧ r' = r.setState id false (some source.message) ∧
      env' = warned env₁ id source := by
  obtain ⟨-, hone⟩ | ⟨p, hp, hnew, ⟨env₁, -, hone⟩ | ⟨source, env₁, hstart, hone⟩⟩ :=
    startOne_cases app r id env
  · rw [hone] at h; cases h
  · rw [hone] at h; cases h
  · rw [hone] at h; cases h; exact ⟨p, source, env₁, hp, hnew, hstart, rfl, rfl, rfl⟩

theorem startAll_eq_ok (h : (Registry.startAll app r ids).run env = ((.ok (), r'), env')) :
    Started r r' ids := by
  induction ids generalizing r env with
  | nil => cases h; exact .nil _
  | cons id ids ih =>
    rw [run_startAll_cons] at h
    rcases hone : (Registry.startOne app r id).run env with ⟨⟨e | u, r₁⟩, env₁⟩ <;> rw [hone] at h
    · cases h
    · exact (startOne_eq_ok hone).cons (ih h)

/-- A call that fails has started all plugins before the one that fails. -/
theorem startAll_eq_error {e : PluginError}
    (h : (Registry.startAll app r ids).run env = ((.error e, r'), env')) :
    ∃ before id after r₁ env₁, ids = before ++ id :: after ∧
      (Registry.startAll app r before).run env = ((.ok (), r₁), env₁) ∧
      (Registry.startOne app r₁ id).run env₁ = ((.error e, r'), env') := by
  induction ids generalizing r env with
  | nil => cases h
  | cons id ids ih =>
    rw [run_startAll_cons] at h
    rcases hone : (Registry.startOne app r id).run env with ⟨⟨e' | u, r₁⟩, env₁⟩ <;> rw [hone] at h
    · cases h; exact ⟨[], id, ids, _, _, rfl, rfl, hone⟩
    · obtain ⟨before, failing, after, r₂, env₂, rfl, hbefore, hfailing⟩ := ih h
      refine ⟨id :: before, failing, after, r₂, env₂, rfl, ?_, hfailing⟩
      rw [run_startAll_cons, hone]; exact hbefore

/-- A call stops at the plugin `id`: those before it have been started, its callbacks fail, its state tells
so, and all others keep theirs. -/
structure StopsAt (app : AppView) (r : Registry) (env : Env) (before : List String) (id : String)
    (source : Failure) (out : (Except PluginError Unit × Registry) × Env) : Prop where
  outcome : out.1.1 = .error (.initFailed id source)
  callbacks : ∃ p r₁ env₁ env₂, r.plugin? id = some p ∧ r.isInitialized id = false ∧
    (Registry.startAll app r before).run env = ((.ok (), r₁), env₁) ∧
    (Registry.startPlugin p app).runOn env₁ = (.error source, env₂) ∧ out.2 = warned env₂ id source
  states : ∀ x, out.1.2.instances.get? x = (r.instances.get? x).map fun i =>
    if x = id then { i with initialized := false, error := some source.message }
    else if x ∈ before then started i else i

theorem stopsAt_of_startAll {e : PluginError}
    (h : (Registry.startAll app r ids).run env = ((.error e, r'), env')) :
    ∃ before id after source, ids = before ++ id :: after ∧
      StopsAt app r env before id source ((.error e, r'), env') := by
  obtain ⟨before, id, after, r₁, env₁, rfl, hbefore, hone⟩ := startAll_eq_error h
  obtain ⟨p, source, env₂, hp, hnew, hstart, rfl, rfl, rfl⟩ := startOne_eq_error hone
  have hstarted := startAll_eq_ok hbefore
  have hreg : r.plugin? id = some p := (hstarted.plugin? id).symm.trans hp
  have hid : id ∉ before := fun hid => by
    rw [hstarted.isInitialized hid ⟨p, hreg⟩] at hnew; cases hnew
  refine ⟨before, id, after, source, rfl, rfl, ⟨p, r₁, env₁, env₂, hreg, ?_, hbefore, hstart, rfl⟩, ?_⟩
  · rw [← hstarted.isInitialized_of_not_mem hid]; exact hnew
  · intro x
    rw [Registry.get?_setState, hstarted x, Option.map_map]
    congr 1
    funext i
    by_cases hx : x = id
    · subst hx; simp [hid]
    · simp [hx]

/-- There is only one way from a moment to the end of a call. -/
theorem path_to_end {outcome : Except PluginError Unit} {start : Moment}
    (h : ReflTransGen (Next app) start ⟨r, env, .ended outcome⟩)
    (hm : ReflTransGen (Next app) start m) : ReflTransGen (Next app) m ⟨r, env, .ended outcome⟩ := by
  have hunique : Relator.RightUnique (Next app) := fun _ _ _ => Next.deterministic
  obtain hpath | hpath := ReflTransGen.total_of_right_unique hunique hm h
  · exact hpath
  · -- nothing comes next in a call that has ended
    obtain heq | ⟨m', hnext, -⟩ := hpath.cases_head
    · rw [heq]
    · cases hnext

theorem run_initializePlugins {order : List String} (h : r.orderFor ids = .ok order) (app : AppView)
    (env : Env) : (Registry.initializePlugins app r ids).run env =
      (Registry.startAll app r order).run env := by
  unfold Registry.initializePlugins
  rw [h]

/-- A call leads from a moment between calls to another one. -/
theorem Reached.call {outcome : Except PluginError Unit} (h : Reached ⟨r, env, .ended outcome⟩)
    (hids : r.Closed ids) (app : AppView) (env' : Env) :
    let out := (Registry.initializePlugins app r ids).run env'
    Reached ⟨out.1.2, out.2, .ended out.1.1⟩ := by
  obtain ⟨r₀, env₀, hempty, hsteps⟩ := h
  refine ⟨r₀, env₀, hempty, hsteps.trans ?_⟩
  cases horder : r.orderFor ids with
  | error e =>
    unfold Registry.initializePlugins
    rw [horder]
    exact .single (.reject horder)
  | ok order =>
    rw [run_initializePlugins horder]
    exact .head (.call hids horder) ((startAll_path app order r env').lift (fun m => m) fun _ _ => .next)

/-- What a call for the plugins `ids` does. -/
structure CallOutcome (app : AppView) (r : Registry) (env : Env) (ids : List String)
    (out : (Except PluginError Unit × Registry) × Env) : Prop where
  /-- From an unknown plugin, a cycle or a missing dependency nothing is started. -/
  rejected : (∃ x ∈ ids, x ∉ r.instanceIds) ∨
    (∃ x, ReachedFrom r.DependsOn ids x ∧
      (TransGen r.DependsOn x x ∨ ∃ y, r.DependsOn x y ∧ y ∉ r.instanceIds)) →
    ∃ e, r.orderFor ids = .error e ∧ out = ((.error e, r), env)
  /-- The call passes all moments that follow from its start. -/
  path : ∀ order, r.orderFor ids = .ok order →
    ∀ m, ReflTransGen (Next app) ⟨r, env, .taking order⟩ m →
      ReflTransGen (Next app) m ⟨out.1.2, out.2, .ended out.1.1⟩
  succeeds : out.1.1 = .ok () → Started r out.1.2 ids ∧ ∀ x ∈ ids, out.1.2.isInitialized x = true
  stops : ∀ order, r.orderFor ids = .ok order → out.1.1 ≠ .ok () →
    ∃ before id after source, order = before ++ id :: after ∧ StopsAt app r env before id source out

theorem callOutcome (app : AppView) (r : Registry) (env : Env) (ids : List String) :
    CallOutcome app r env ids ((Registry.initializePlugins app r ids).run env) := by
  cases horder : r.orderFor ids with
  | error e =>
    have hout : (Registry.initializePlugins app r ids).run env = ((.error e, r), env) := by
      unfold Registry.initializePlugins
      rw [horder]; rfl
    rw [hout]
    exact {
      rejected := fun _ => ⟨e, horder, rfl⟩
      path := by simp [horder]
      succeeds := by simp
      stops := by simp [horder] }
  | ok order =>
    have hordered := Registry.ordered_of_orderFor horder
    rw [run_initializePlugins horder]
    refine ⟨fun hfault => ?_, fun order' h => ?_, fun hok => ?_, fun order' h hfail => ?_⟩
    · exfalso
      obtain ⟨x, hx, hnew⟩ | ⟨x, hx, hcycle | ⟨y, hxy, hy⟩⟩ := hfault
      · exact hnew (hordered.registered x hx)
      · exact hordered.acyclic x hx hcycle
      · exact hy (hordered.complete x y hx hxy)
    · rw [horder] at h; cases h
      exact fun m => path_to_end (startAll_path app order r env)
    · rcases hrun : (Registry.startAll app r order).run env with ⟨⟨e | u, r'⟩, env'⟩
      · rw [hrun] at hok; cases hok
      · have hstarted := startAll_eq_ok hrun
        refine ⟨fun x => ?_, fun x hx => ?_⟩
        · rw [hstarted x]; simp only [hordered.mem_iff]
        · exact hstarted.isInitialized ((hordered.mem_iff x).2 hx)
            (Registry.mem_instanceIds_iff.1 (hordered.registered x hx))
    · rw [horder] at h; cases h
      rcases hrun : (Registry.startAll app r order).run env with ⟨⟨e | u, r'⟩, env'⟩
      · exact stopsAt_of_startAll hrun
      · rw [hrun] at hfail; exact absurd rfl hfail

/-- At every moment the dependencies of an initialized plugin are initialized. A callback runs only for a
plugin that is not initialized yet while all its dependencies are, and never again once it is
initialized. A call starts nothing if the graph has a fault, and otherwise the plugins in their order
until one of them fails. -/
theorem Reached.initialization (h : Reached m) :
    (∀ x y, m.registry.isInitialized x = true → m.registry.DependsOn x y →
        m.registry.isInitialized y = true) ∧
      (∀ phase id p left, m.stage = .running phase id p left →
        m.registry.plugin? id = some p ∧ m.registry.isInitialized id = false ∧
          ∀ y ∈ p.dependencies, m.registry.isInitialized y = true) ∧
      (∀ m', ReflTransGen Step m m' → ∀ x, m.registry.isInitialized x = true →
        m'.registry.isInitialized x = true ∧ ∀ phase p left, m'.stage ≠ .running phase x p left) ∧
      ∀ outcome, m.stage = .ended outcome → ∀ app env ids,
        let out := (Registry.initializePlugins app m.registry ids).run env
        CallOutcome app m.registry env ids out ∧
          (m.registry.Closed ids → Reached ⟨out.1.2, out.2, .ended out.1.1⟩) := by
  have hsound := h.sound
  refine ⟨hsound.grounded, fun phase id p left hstage => ?_, fun m' hsteps x hx => ?_,
    fun outcome hstage app env ids => ⟨callOutcome app m.registry env ids, fun hids => ?_⟩⟩
  · have hstart := hsound.startable hstage
    exact ⟨hstart.registered, hstart.isNew, hstart.dependencies⟩
  · obtain ⟨hsound', hkept⟩ := hsound.run hsteps
    refine ⟨hkept x hx, fun phase p left hstage => ?_⟩
    have hnew := (hsound'.startable hstage).isNew
    rw [hkept x hx] at hnew; cases hnew
  · obtain ⟨r, env₀, stage⟩ := m
    obtain rfl : stage = .ended outcome := hstage
    exact h.call hids app env

/-- An application without entities. -/
def emptyApp : AppView where
  entities := ∅
  places := ∅
  connection := ⟨InMemory.driver false, 0⟩
  config := default
  pluginIds := []

def auth : Plugin := Plugin.ofId "auth" "Auth" "1.0.0"

/-- A plugin that cannot be initialized, whatever it depends on. -/
def billing : Plugin :=
  { (Plugin.ofId "billing" "Billing" "1.0.0").dependsOn "auth" with
    lifecycle := { onInit := some fun _ => throw (.text "no key") } }

def billingAlone : Registry :=
  { Registry.empty with instances := OrdMap.ofList [("billing", ⟨billing, false, none⟩)] }

/-- Billing is registered before the plugin that it depends on. -/
def authAndBilling : Registry :=
  { Registry.empty with
    instances := OrdMap.ofList [("billing", ⟨billing, false, none⟩), ("auth", ⟨auth, false, none⟩)] }

theorem orderFor_authAndBilling :
    authAndBilling.orderFor authAndBilling.instanceIds = .ok ["auth", "billing"] := by
  have hids : authAndBilling.instanceIds = ["billing", "auth"] := rfl
  have hkeys : authAndBilling.dependencyGraph.keys = ["billing", "auth"] := rfl
  have hbilling : authAndBilling.dependencyGraph.getD "billing" [] = ["auth"] := rfl
  have hauth : authAndBilling.dependencyGraph.getD "auth" [] = [] := rfl
  simp [Registry.orderFor, DependencyGraph.orderFor, DependencyGraph.visitIds, DependencyGraph.visit,
    DependencyGraph.visitAll, hids, hkeys, hbilling, hauth, Except.map]

theorem reached_authAndBilling : Reached ⟨authAndBilling, Env.empty, .ended (.ok ())⟩ := by
  have hbilling : Step ⟨Registry.empty, Env.empty, .ended (.ok ())⟩
      ⟨billingAlone, Env.empty, .ended (.ok ())⟩ := .register (p := billing) rfl
  have hauth : Step ⟨billingAlone, Env.empty, .ended (.ok ())⟩
      ⟨authAndBilling, Env.empty, .ended (.ok ())⟩ := .register (p := auth) rfl
  exact ⟨Registry.empty, Env.empty, rfl, .head hbilling (.single hauth)⟩

/-- The call initializes `auth`, fails at `billing`, and leaves a moment behind that is sound as well. -/
theorem initialization_authAndBilling :
    let out := (Registry.initializeAll emptyApp authAndBilling).run Env.empty
    out.1.1 = .error (.initFailed "billing" (.text "no key")) ∧
      out.1.2.isInitialized "auth" = true ∧ out.1.2.isInitialized "billing" = false ∧
      (∀ x y, out.1.2.isInitialized x = true → out.1.2.DependsOn x y →
        out.1.2.isInitialized y = true) ∧
      ∃ before id after source, ["auth", "billing"] = before ++ id :: after ∧
        StopsAt emptyApp authAndBilling Env.empty before id source out := by
  intro out
  have hout : out = (Registry.startAll emptyApp authAndBilling ["auth", "billing"]).run Env.empty :=
    run_initializePlugins orderFor_authAndBilling emptyApp Env.empty
  have hfail : out.1.1 = .error (.initFailed "billing" (.text "no key")) := by rw [hout]; rfl
  obtain ⟨-, -, -, hcalls⟩ := reached_authAndBilling.initialization
  obtain ⟨hcall, hafter⟩ := hcalls _ rfl emptyApp Env.empty authAndBilling.instanceIds
  refine ⟨hfail, by rw [hout]; rfl, by rw [hout]; rfl, (hafter (.inl rfl)).initialization.1, ?_⟩
  exact hcall.stops _ orderFor_authAndBilling fun hok => by
    have hok : out.1.1 = .ok () := hok
    rw [hfail] at hok; cases hok

end Initialization

end EntityRest
