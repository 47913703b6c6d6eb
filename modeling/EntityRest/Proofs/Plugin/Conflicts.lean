import EntityRest.Plugin.Conflicts
import EntityRest.Proofs.Data.OrdMap
import Mathlib.Data.List.Basic
import Mathlib.Data.List.Induction

/-! # Which conflicts are reported

The items of all plugins are looked at one after the other, and what is known after some of them is a matter of
these alone (`Reported`): the owner of a name is the plugin of the first item that has it, and each item that
comes behind another of its kind and name has given a message. One more item keeps this (`Reported.add`), so it
holds after all of them. -/

namespace EntityRest

/-- The plugin without what it makes for an application. -/
def Plugin.declaredOnly (p : Plugin) : Plugin :=
  { p with routes := .fixed p.routes.declared, middleware := .fixed p.middleware.declared }

namespace Conflicts

variable {items : List Item} {r : Report} {i : Item}

/-- The first of some items that has a name of a kind. -/
def first? (items : List Item) (kind : Kind) (name : String) : Option Item :=
  items.find? fun i => i.kind = kind ∧ i.name = name

/-- The messages for items that come behind others of their kind and name. -/
def repeated (items : List Item) : List String :=
  items.zipIdx.filterMap fun (i, n) => (first? (items.take n) i.kind i.name).map (message i ·.plugin)

/-- What is known after some items. -/
structure Reported (items : List Item) (r : Report) : Prop where
  owners : ∀ kind name, (r.owners kind).get? name = (first? items kind name).map (·.plugin)
  messages : r.messages = repeated items

theorem first?_append_singleton (items : List Item) (i : Item) (kind : Kind) (name : String) :
    first? (items ++ [i]) kind name =
      (first? items kind name).or (if i.kind = kind ∧ i.name = name then some i else none) := by
  rw [first?, List.find?_append, List.find?_singleton]
  simp only [decide_eq_true_eq]
  rfl

theorem repeated_append_singleton (items : List Item) (i : Item) :
    repeated (items ++ [i]) =
      repeated items ++ ((first? items i.kind i.name).map (message i ·.plugin)).toList := by
  have hfront : items.zipIdx.filterMap (fun e => (first? ((items ++ [i]).take e.2) e.1.kind e.1.name).map
      (message e.1 ·.plugin)) = repeated items := by
    refine List.filterMap_congr fun e he => ?_
    have hlt : e.2 < items.length := List.snd_lt_of_mem_zipIdx he
    rw [List.take_append_of_le_length (Nat.le_of_lt hlt)]
  rw [repeated, List.zipIdx_append, List.filterMap_append, hfront, List.zipIdx_singleton, Nat.zero_add]
  cases hfirst : first? items i.kind i.name <;> simp [List.filterMap, hfirst]

theorem Reported.add (h : Reported items r) (i : Item) : Reported (items ++ [i]) (r.add i) := by
  have howner := h.owners i.kind i.name
  cases hfirst : first? items i.kind i.name with
  | some j =>
    rw [hfirst, Option.map_some] at howner
    have hadd : r.add i = { r with messages := r.messages ++ [message i j.plugin] } := by
      rw [Report.add, howner]
    rw [hadd]
    refine ⟨fun kind name => ?_, by rw [repeated_append_singleton, h.messages, hfirst]; rfl⟩
    rw [h.owners, first?_append_singleton]
    split
    · next hi => obtain ⟨rfl, rfl⟩ := hi; rw [hfirst]; rfl
    · rw [Option.or_none]
  | none =>
    rw [hfirst, Option.map_none] at howner
    have hadd : r.add i = { r with
        owners := fun kind =>
          if kind = i.kind then (r.owners kind).insert i.name i.plugin else r.owners kind } := by
      rw [Report.add, howner]
    rw [hadd]
    refine ⟨fun kind name => ?_, by rw [repeated_append_singleton, h.messages, hfirst]; simp⟩
    rw [first?_append_singleton]
    dsimp only
    by_cases hkind : kind = i.kind
    · subst hkind
      rw [if_pos rfl, OrdMap.get?_insert]
      by_cases hname : name = i.name
      · subst hname
        rw [if_pos rfl, if_pos ⟨rfl, rfl⟩, hfirst]
        rfl
      · rw [if_neg hname, if_neg (fun hi => hname hi.2.symm), Option.or_none, h.owners]
    · rw [if_neg hkind, if_neg (fun hi => hkind hi.1.symm), Option.or_none, h.owners]

theorem Reported.foldl (h : Reported items r) (more : List Item) :
    Reported (items ++ more) (more.foldl Report.add r) := by
  induction more generalizing items r with
  | nil => rwa [List.append_nil]
  | cons i more ih =>
    rw [List.foldl_cons, List.append_cons]
    exact ih (h.add i)

theorem check_eq_repeated (plugins : List Plugin) : check plugins = repeated (plugins.flatMap itemsOf) := by
  have hempty : Reported [] Report.empty := ⟨fun _ _ => rfl, rfl⟩
  rw [check, ← List.foldl_flatMap]
  exact (hempty.foldl (plugins.flatMap itemsOf)).messages

/-! ### No conflicts -/

theorem first?_eq_none_iff {kind : Kind} {name : String} :
    first? items kind name = none ↔ (kind, name) ∉ items.map fun i => (i.kind, i.name) := by
  rw [first?, List.find?_eq_none]
  simp

theorem repeated_eq_nil_iff : repeated items = [] ↔ (items.map fun i => (i.kind, i.name)).Nodup := by
  induction items using List.reverseRecOn with
  | nil => simp [repeated]
  | append_singleton items i ih =>
    rw [repeated_append_singleton, List.append_eq_nil_iff, ih, Option.toList_eq_nil_iff, Option.map_eq_none_iff,
      first?_eq_none_iff, List.map_append, List.map_singleton, List.nodup_append]
    simp

/-- The names of a kind, in their order. -/
def names (kind : Kind) (items : List Item) : List String := (items.filter (·.kind = kind)).map (·.name)

/-- Items differ in kind and name if the items of each kind differ in their names. -/
theorem nodup_iff_names :
    (items.map fun i => (i.kind, i.name)).Nodup ↔
      (names .route items).Nodup ∧ (names .middleware items).Nodup ∧ (names .entity items).Nodup := by
  have hnames (kind : Kind) : (names kind items).Nodup ↔
      items.Pairwise fun i j => i.kind = kind → j.kind = kind → i.name ≠ j.name := by
    simp only [names, List.Nodup, List.pairwise_map, List.pairwise_filter, decide_eq_true_eq]
  rw [hnames, hnames, hnames, ← List.pairwise_and_iff, ← List.pairwise_and_iff, List.Nodup, List.pairwise_map]
  refine List.Pairwise.iff fun i j => ?_
  rcases i with ⟨kind, name, plugin⟩
  rcases j with ⟨kind', name', plugin'⟩
  cases kind <;> cases kind' <;> simp

theorem names_flatMap (kind : Kind) (plugins : List Plugin) :
    names kind (plugins.flatMap itemsOf) = plugins.flatMap fun p => names kind (itemsOf p) := by
  rw [names, List.filter_flatMap, List.map_flatMap]
  rfl

theorem names_itemsOf (p : Plugin) :
    names .route (itemsOf p) = p.routes.declared.map Route.key ∧
      names .middleware (itemsOf p) = p.middleware.declared.map (·.name) ∧
      names .entity (itemsOf p) = p.entities.keys := by
  simp [names, itemsOf, List.filter_append, List.filter_map, Function.comp_def]

/-- The items of all plugins are the keys of their declared routes, the names of their declared middleware and the
names of their entities, plugin by plugin. There is one message for each item that comes behind another of its
kind and name, in the order of the items, which names the plugins of the first such item and of this one. So there
is none if and only if the items of each kind have different names, and what plugins make for an application
plays no part. -/
theorem check_eq (plugins : List Plugin) :
    let items := plugins.flatMap fun p =>
      p.routes.declared.map (⟨.route, ·.key, p.id⟩ : Route → Item) ++
        p.middleware.declared.map (⟨.middleware, ·.name, p.id⟩) ++ p.entities.keys.map (⟨.entity, ·, p.id⟩)
    check plugins = items.zipIdx.filterMap (fun (i, n) =>
        ((items.take n).find? fun j => j.kind = i.kind ∧ j.name = i.name).map fun j => message i j.plugin) ∧
      (check plugins = [] ↔
        (plugins.flatMap fun p => p.routes.declared.map Route.key).Nodup ∧
          (plugins.flatMap fun p => p.middleware.declared.map (·.name)).Nodup ∧
          (plugins.flatMap fun p => p.entities.keys).Nodup) ∧
      check (plugins.map Plugin.declaredOnly) = check plugins := by
  intro items
  refine ⟨check_eq_repeated plugins, ?_, ?_⟩
  · rw [check_eq_repeated, repeated_eq_nil_iff, nodup_iff_names]
    simp only [names_flatMap, names_itemsOf]
  · rw [check_eq_repeated, check_eq_repeated, List.flatMap_map]
    rfl

example (login : Handler) (run : Exchange → StateM Env (Except ApiError Flow × Exchange))
    (make : Shell → List Route) :
    let user (p : Plugin) : Plugin := p.addEntity "user" {}
    let login (p : Plugin) : Plugin := p.addRoute ⟨"POST", "/login", login⟩
    let session (p : Plugin) : Plugin := p.addMiddleware ⟨"session", run⟩
    check [user (login (session (.ofId "auth" "Auth" "1.0.0"))), user (login (session (.ofId "sso" "SSO" "1.0.0"))),
        user ((login (.ofId "ldap" "LDAP" "1.0.0")).addRoutesFrom make)] =
      ["Route \"POST /login\" is declared by both \"auth\" and \"sso\"",
        "Middleware \"session\" is declared by both \"auth\" and \"sso\"",
        "Entity \"user\" is declared by both \"auth\" and \"sso\"",
        "Entity \"user\" is declared by both \"auth\" and \"ldap\""] := by
  rfl

end Conflicts

end EntityRest
