import EntityRest.Plugin.Registry
import EntityRest.Proofs.Data.OrdMap
import Mathlib.Logic.Relation

/-! # The initialization order

`Registry.orderFor` finds an order exactly for those ids from which only registered plugins and no
cycle can be reached (`orderFor_spec`). What it finds lists each id once, every plugin after all
that it depends on, also through plugins that are left out of the list; an error names a fault that
can be reached from the ids.

The search keeps two things. The plugins that are done are `Settled`: each stands after its
dependencies. And all plugins on the path lead to the one at hand, so that meeting one of them again
closes a cycle. What is added to the order lies off the path, hence no plugin is added twice. -/

open Relation (ReflTransGen TransGen reflTransGen_iff_eq_or_transGen)

namespace EntityRest

/-- `x` is one of `ids`, or one of them depends on it, directly or through others. -/
def ReachedFrom (dependsOn : String → String → Prop) (ids : List String) (x : String) : Prop :=
  ∃ id ∈ ids, ReflTransGen dependsOn id x

namespace ReachedFrom

variable {dependsOn : String → String → Prop} {ids ids' : List String} {x y : String}

theorem of_mem (h : x ∈ ids) : ReachedFrom dependsOn ids x := ⟨x, h, .refl⟩

theorem tail (h : ReachedFrom dependsOn ids x) (hxy : dependsOn x y) : ReachedFrom dependsOn ids y := by
  obtain ⟨id, hid, hx⟩ := h
  exact ⟨id, hid, hx.tail hxy⟩

theorem trans (h : ReachedFrom dependsOn ids x) (hids : ∀ id ∈ ids, ReachedFrom dependsOn ids' id) :
    ReachedFrom dependsOn ids' x := by
  obtain ⟨id, hid, hx⟩ := h
  obtain ⟨id', hid', hx'⟩ := hids id hid
  exact ⟨id', hid', hx'.trans hx⟩

theorem mono (h : ReachedFrom dependsOn ids x) (hids : ids ⊆ ids') : ReachedFrom dependsOn ids' x :=
  h.trans fun _ hid => of_mem (hids hid)

end ReachedFrom

namespace DependencyGraph

/-- `x` declares `y` as a dependency. -/
def DependsOn (g : DependencyGraph) (x y : String) : Prop := y ∈ g.getD x []

variable {g : DependencyGraph}

/-- The fault of the graph that an error tells, seen from `ids`. -/
inductive Fault (g : DependencyGraph) (ids : List String) : PluginError → Prop
  | circular {x : String} (hx : ReachedFrom g.DependsOn ids x) (hc : TransGen g.DependsOn x x) :
      Fault g ids (.circularDependency x)
  | missing {x y : String} (hx : ReachedFrom g.DependsOn ids x) (hxy : g.DependsOn x y) (hy : y ∉ g.keys) :
      Fault g ids (.missingDependency x y)
  | unknown {x : String} (hx : x ∈ ids) (hk : x ∉ g.keys) : Fault g ids (.pluginNotFound x)

theorem Fault.mono {ids ids' : List String} {e : PluginError} (h : g.Fault ids e) (hids : ids ⊆ ids') :
    g.Fault ids' e := by
  cases h with
  | circular hx hc => exact .circular (hx.mono hids) hc
  | missing hx hxy hy => exact .missing (hx.mono hids) hxy hy
  | unknown hx hk => exact .unknown (hids hx) hk

/-- Registered plugins pass their faults on to whatever reaches them. -/
theorem Fault.trans {ids ids' : List String} {e : PluginError} (h : g.Fault ids e)
    (hreg : ∀ id ∈ ids, id ∈ g.keys) (hids : ∀ id ∈ ids, ReachedFrom g.DependsOn ids' id) :
    g.Fault ids' e := by
  cases h with
  | circular hx hc => exact .circular (hx.trans hids) hc
  | missing hx hxy hy => exact .missing (hx.trans hids) hxy hy
  | unknown hx hk => exact absurd (hreg _ hx) hk

/-- Each plugin of `order` stands there once, and after all its dependencies. -/
structure Settled (g : DependencyGraph) (order : List String) : Prop where
  nodup : order.Nodup
  registered : ∀ x ∈ order, x ∈ g.keys
  closed : ∀ l₁ x l₂, order = l₁ ++ x :: l₂ → ∀ y, g.DependsOn x y → y ∈ l₁

namespace Settled

variable {order : List String}

theorem nil : g.Settled [] where
  nodup := List.nodup_nil
  registered := by simp
  closed l₁ x l₂ h := by simp at h

theorem snoc {x : String} (h : g.Settled order) (hx : x ∈ g.keys) (hnew : x ∉ order)
    (hdeps : ∀ y, g.DependsOn x y → y ∈ order) : g.Settled (order ++ [x]) where
  nodup := by
    rw [List.nodup_append]
    refine ⟨h.nodup, by simp, ?_⟩
    rintro a ha b hb rfl
    exact hnew (List.mem_singleton.1 hb ▸ ha)
  registered y hy := by
    rcases List.mem_append.1 hy with hy | hy
    · exact h.registered y hy
    · rw [List.mem_singleton.1 hy]; exact hx
  closed l₁ z l₂ heq y hzy := by
    rcases List.eq_nil_or_concat l₂ with rfl | ⟨l₂, w, rfl⟩
    · obtain ⟨rfl, hz⟩ := List.append_inj' heq rfl
      obtain rfl : x = z := by simpa using hz
      exact hdeps y hzy
    · rw [List.concat_eq_append, ← List.cons_append, ← List.append_assoc] at heq
      exact h.closed l₁ z l₂ (List.append_inj' heq rfl).1 y hzy

/-- Whatever a plugin depends on through any number of steps stands before it. -/
theorem mem_of_transGen (h : g.Settled order) {x y : String} (hxy : TransGen g.DependsOn x y) :
    ∀ l₁ l₂, order = l₁ ++ x :: l₂ → y ∈ l₁ := by
  induction hxy using TransGen.head_induction_on with
  | single hxy => intro l₁ l₂ heq; exact h.closed l₁ _ l₂ heq _ hxy
  | @head x z hxz _ ih =>
    intro l₁ l₂ heq
    obtain ⟨a, b, rfl⟩ := List.append_of_mem (h.closed l₁ x l₂ heq z hxz)
    have hy : y ∈ a := ih a (b ++ x :: l₂) (by simp [heq])
    exact List.mem_append_left _ hy

theorem before_of_transGen (h : g.Settled order) {x y : String} (hx : x ∈ order)
    (hxy : TransGen g.DependsOn x y) : [y, x].Sublist order := by
  obtain ⟨l₁, l₂, rfl⟩ := List.append_of_mem hx
  have hy : y ∈ l₁ := h.mem_of_transGen hxy l₁ l₂ rfl
  exact (List.singleton_sublist.2 hy).append ((List.nil_sublist l₂).cons_cons x)

theorem acyclic (h : g.Settled order) {x : String} (hx : x ∈ order) :
    ¬ TransGen g.DependsOn x x := by
  intro hxx
  obtain ⟨l₁, l₂, rfl⟩ := List.append_of_mem hx
  have hx' : x ∈ l₁ := h.mem_of_transGen hxx l₁ l₂ rfl
  exact (List.nodup_append.1 h.nodup).2.2 x hx' x (by simp) rfl

theorem mem_of_reflTransGen (h : g.Settled order) {x y : String} (hx : x ∈ order)
    (hxy : ReflTransGen g.DependsOn x y) : y ∈ order := by
  rcases reflTransGen_iff_eq_or_transGen.1 hxy with rfl | hxy
  · exact hx
  · exact (h.before_of_transGen hx hxy).subset (by simp)

end Settled

/-- A part of the search took `order` to `order'`: it only added, and nothing that is on the path. -/
structure Extends (g : DependencyGraph) (path order order' : List String) : Prop where
  settled : g.Settled order'
  grows : order ⊆ order'
  offPath : ∀ x ∈ order', x ∈ order ∨ x ∉ path

namespace Extends

variable {path order order' order'' : List String}

theorem refl (h : g.Settled order) : g.Extends path order order :=
  ⟨h, List.Subset.refl _, fun _ => .inl⟩

theorem trans (h : g.Extends path order order') (h' : g.Extends path order' order'') :
    g.Extends path order order'' :=
  ⟨h'.settled, List.Subset.trans h.grows h'.grows, fun x hx => (h'.offPath x hx).elim (h.offPath x) .inr⟩

end Extends

/-- What visiting the plugins `ids` comes to, for a start with `path` and `order`. -/
def Visited (g : DependencyGraph) (path order ids : List String) (id : String) :
    Except PluginError (List String) → Prop
  | .ok order' => g.Extends path order order' ∧ ∀ x ∈ ids, x ∈ order'
  | .error e => g.Fault [id] e

theorem visited_visit_aux (g : DependencyGraph) :
    (∀ (path order : List String) (id : String) (h : id ∈ g.keys), g.Settled order →
      (∀ p ∈ path, TransGen g.DependsOn p id) →
      g.Visited path order [id] id (g.visit path order id h)) ∧
    (∀ (path order : List String) (id : String) (deps : List String), g.Settled order →
      (∀ p ∈ path, ReflTransGen g.DependsOn p id) → (∀ y ∈ deps, g.DependsOn id y) →
      g.Visited path order deps id (g.visitAll path order id deps)) := by
  refine visit.mutual_induct_unfolding g
    (fun path order id _ r => g.Settled order → (∀ p ∈ path, TransGen g.DependsOn p id) →
      g.Visited path order [id] id r)
    (fun path order id deps r => g.Settled order → (∀ p ∈ path, ReflTransGen g.DependsOn p id) →
      (∀ y ∈ deps, g.DependsOn id y) → g.Visited path order deps id r) ?_ ?_ ?_ ?_ ?_ ?_ ?_ ?_
  · -- `id` is done already
    intro path order id h hdone hs _
    exact ⟨.refl hs, by simpa using hdone⟩
  · -- the path leads from `id` back to itself
    intro path order id h _ hp _ hpath
    exact .circular (.of_mem (by simp)) (hpath id hp)
  · -- a dependency fails; below `id`, the path has `id` on it too
    intro path order id h _ _ _ e heq ih hs hpath
    have hv := ih hs (List.forall_mem_cons.2 ⟨.refl, fun p hp => (hpath p hp).to_reflTransGen⟩)
      fun _ hy => hy
    rwa [heq] at hv
  · -- all dependencies are done; `id` is on their path, so none of them has added it
    intro path order id h hnew hp _ order' heq ih hs hpath
    have hv := ih hs (List.forall_mem_cons.2 ⟨.refl, fun p hp => (hpath p hp).to_reflTransGen⟩)
      fun _ hy => hy
    rw [heq] at hv
    obtain ⟨hext, hdeps⟩ := hv
    have hid : id ∉ order' := fun hid => (hext.offPath id hid).elim hnew fun hoff => hoff (by simp)
    refine ⟨⟨hext.settled.snoc h hid hdeps, fun x hx => by simp [hext.grows hx], fun x hx => ?_⟩,
      by simp⟩
    rcases List.mem_append.1 hx with hx | hx
    · exact (hext.offPath x hx).imp_right fun hoff hx => hoff (by simp [hx])
    · rw [List.mem_singleton.1 hx]; exact .inr hp
  · -- no dependency is left
    intro path order id hs _ _
    exact ⟨.refl hs, by simp⟩
  · -- the next dependency `y` fails, and its fault is reached from `id`
    intro path order id y deps hy e heq ih hs hpath hdeps
    obtain ⟨hidy, -⟩ := List.forall_mem_cons.1 hdeps
    have hv := ih hs fun p hp => TransGen.tail' (hpath p hp) hidy
    rw [heq] at hv
    exact hv.trans (by simpa using hy) (by simpa using (ReachedFrom.of_mem (by simp)).tail hidy)
  · -- `y` is done, and the rest goes on from there
    intro path order id y deps hy order' heq ih ih' hs hpath hdeps
    obtain ⟨hidy, hdeps⟩ := List.forall_mem_cons.1 hdeps
    have hv := ih hs fun p hp => TransGen.tail' (hpath p hp) hidy
    rw [heq] at hv
    obtain ⟨hext, hmem⟩ := hv
    have hv' := ih' hext.settled hpath hdeps
    generalize g.visitAll path order' id deps = r at hv'
    cases r with
    | error e => exact hv'
    | ok order'' =>
      obtain ⟨hext', hmem'⟩ := hv'
      exact ⟨hext.trans hext', List.forall_mem_cons.2 ⟨hext'.grows (hmem y (by simp)), hmem'⟩⟩
  · -- `y` is not registered
    intro path order id y deps hy _ _ hdeps
    exact .missing (.of_mem (by simp)) (hdeps y (by simp)) hy

theorem visited_visitIds (order : List String) (ids : List String) (hs : g.Settled order) :
    match g.visitIds order ids with
    | .ok order' => g.Extends [] order order' ∧ ∀ x ∈ ids, x ∈ order'
    | .error e => g.Fault ids e := by
  induction ids generalizing order with
  | nil => exact ⟨.refl hs, by simp⟩
  | cons id ids ih =>
    by_cases hk : id ∈ g.keys
    · have hv := (visited_visit_aux g).1 [] order id hk hs (by simp)
      rw [visitIds, dif_pos hk]
      generalize g.visit [] order id hk = r at hv
      cases r with
      | error e => exact hv.trans (by simpa using hk) (by simpa using ReachedFrom.of_mem (by simp))
      | ok order' =>
        obtain ⟨hext, hmem⟩ := hv
        have hv' := ih order' hext.settled
        dsimp only
        generalize g.visitIds order' ids = r' at hv'
        cases r' with
        | error e => exact hv'.mono (List.subset_cons_self id ids)
        | ok order'' =>
          obtain ⟨hext', hmem'⟩ := hv'
          exact ⟨hext.trans hext', List.forall_mem_cons.2 ⟨hext'.grows (hmem id (by simp)), hmem'⟩⟩
    · rw [visitIds, dif_neg hk]
      exact .unknown (by simp) hk

/-- From `ids` only registered plugins are reached, and none of them depends on itself. -/
structure Orderable (g : DependencyGraph) (ids : List String) : Prop where
  registered : ∀ id ∈ ids, id ∈ g.keys
  complete : ∀ x y, ReachedFrom g.DependsOn ids x → g.DependsOn x y → y ∈ g.keys
  acyclic : ∀ x, ReachedFrom g.DependsOn ids x → ¬ TransGen g.DependsOn x x

theorem Settled.orderable {order ids : List String} (h : g.Settled order) (hids : ids ⊆ order) :
    g.Orderable ids := by
  have hreach : ∀ x, ReachedFrom g.DependsOn ids x → x ∈ order :=
    fun x ⟨id, hid, hx⟩ => h.mem_of_reflTransGen (hids hid) hx
  exact ⟨fun id hid => h.registered id (hids hid),
    fun x y hx hxy => h.registered y (hreach y (hx.tail hxy)),
    fun x hx => h.acyclic (hreach x hx)⟩

theorem Fault.not_orderable {ids : List String} {e : PluginError} (h : g.Fault ids e) :
    ¬ g.Orderable ids := by
  intro ho
  cases h with
  | circular hx hc => exact ho.acyclic _ hx hc
  | missing hx hxy hy => exact hy (ho.complete _ _ hx hxy)
  | unknown hx hk => exact hk (ho.registered _ hx)

/-- `order` lists each of `ids` once and nothing else, dependencies first. -/
structure IsOrderOf (g : DependencyGraph) (ids order : List String) : Prop where
  nodup : order.Nodup
  mem_iff : ∀ x, x ∈ order ↔ x ∈ ids
  before : ∀ x ∈ ids, ∀ y ∈ ids, TransGen g.DependsOn x y → [y, x].Sublist order

/-- Leaving plugins out of a settled order keeps the rest in order. -/
theorem Settled.isOrderOf {order ids : List String} (h : g.Settled order) (hids : ids ⊆ order) :
    g.IsOrderOf ids (order.filter (· ∈ ids)) where
  nodup := h.nodup.filter _
  mem_iff x := by
    rw [List.mem_filter, decide_eq_true_iff]
    exact ⟨And.right, fun hx => ⟨hids hx, hx⟩⟩
  before x hx y hy hxy := by
    have hsub := (h.before_of_transGen (hids hx) hxy).filter (· ∈ ids)
    rwa [List.filter_eq_self.2 (by simp [hx, hy])] at hsub

theorem orderFor_cases (g : DependencyGraph) (ids : List String) :
    (∃ order, g.orderFor ids = .ok order ∧ g.IsOrderOf ids order ∧ g.Orderable ids) ∨
      ∃ e, g.orderFor ids = .error e ∧ g.Fault ids e := by
  have hv := visited_visitIds [] ids (g := g) .nil
  unfold orderFor
  generalize g.visitIds [] ids = r at hv
  cases r with
  | error e => exact .inr ⟨e, rfl, hv⟩
  | ok order => exact .inl ⟨_, rfl, hv.1.settled.isOrderOf hv.2, hv.1.settled.orderable hv.2⟩

end DependencyGraph

namespace Registry

/-- The registered plugin `x` declares `y` as a dependency. -/
def DependsOn (r : Registry) (x y : String) : Prop :=
  ∃ p, r.plugin? x = some p ∧ y ∈ p.dependencies

theorem keys_dependencyGraph (r : Registry) : r.dependencyGraph.keys = r.instanceIds :=
  OrdMap.keys_mapEntries _ _

theorem dependsOn_dependencyGraph (r : Registry) : r.dependencyGraph.DependsOn = r.DependsOn := by
  funext x y
  simp only [DependencyGraph.DependsOn, DependsOn, dependencyGraph, plugin?, OrdMap.getD,
    OrdMap.get?_mapEntries]
  cases r.instances.get? x <;> simp

/-- An order is found if and only if `ids` and all that they depend on are registered, without a
cycle. It lists each of `ids` once, dependencies first; an error names a fault reached from `ids`. -/
theorem orderFor_spec (r : Registry) (ids : List String) :
    ((∃ order, r.orderFor ids = .ok order) ↔
      (∀ id ∈ ids, id ∈ r.instanceIds) ∧
      (∀ x y, ReachedFrom r.DependsOn ids x → r.DependsOn x y → y ∈ r.instanceIds) ∧
      ∀ x, ReachedFrom r.DependsOn ids x → ¬ TransGen r.DependsOn x x) ∧
    (∀ order, r.orderFor ids = .ok order →
      order.Nodup ∧ (∀ x, x ∈ order ↔ x ∈ ids) ∧
      ∀ x ∈ ids, ∀ y ∈ ids, TransGen r.DependsOn x y → [y, x].Sublist order) ∧
    (∀ e, r.orderFor ids = .error e →
      (∃ x, e = .circularDependency x ∧ ReachedFrom r.DependsOn ids x ∧ TransGen r.DependsOn x x) ∨
      (∃ x y, e = .missingDependency x y ∧ ReachedFrom r.DependsOn ids x ∧ r.DependsOn x y ∧
        y ∉ r.instanceIds) ∨
      ∃ x, e = .pluginNotFound x ∧ x ∈ ids ∧ x ∉ r.instanceIds) := by
  rw [← keys_dependencyGraph, ← dependsOn_dependencyGraph]
  unfold orderFor
  rcases r.dependencyGraph.orderFor_cases ids with ⟨order, heq, hord, hok⟩ | ⟨e, heq, hf⟩
  · rw [heq]
    refine ⟨⟨fun _ => ⟨hok.registered, hok.complete, hok.acyclic⟩, fun _ => ⟨order, rfl⟩⟩, ?_, ?_⟩
    · rintro _ ⟨⟩
      exact ⟨hord.nodup, hord.mem_iff, hord.before⟩
    · rintro e ⟨⟩
  · rw [heq]
    refine ⟨⟨?_, fun ⟨h₁, h₂, h₃⟩ => absurd ⟨h₁, h₂, h₃⟩ hf.not_orderable⟩, ?_, ?_⟩
    · rintro ⟨order, ⟨⟩⟩
    · rintro order ⟨⟩
    · rintro _ ⟨⟩
      cases hf with
      | circular hx hc => exact .inl ⟨_, rfl, hx, hc⟩
      | missing hx hxy hy => exact .inr (.inl ⟨_, _, rfl, hx, hxy, hy⟩)
      | unknown hx hk => exact .inr (.inr ⟨_, rfl, hx, hk⟩)

end Registry

end EntityRest
