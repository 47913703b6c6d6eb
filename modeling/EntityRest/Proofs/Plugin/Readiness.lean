import EntityRest.Proofs.Plugin.InitOrder

/-! # Plugins in their turn

When a plugin may be initialized, and what that leaves of the others. In a `Ready` list each plugin stands
after those of its dependencies that are not initialized, so the first one has them all (`Ready.startable`),
and once it is initialized the rest is ready (`Startable.ready`). The order that a call finds is
ready (`Ordered.ready`). -/

open Relation (TransGen)

namespace EntityRest

namespace Registry

variable {r r' : Registry} {id x y : String} {p : Plugin}

/-! ### The state of plugins -/

theorem get?_setState (r : Registry) (id : String) (initialized : Bool) (error : Option String)
    (x : String) : (r.setState id initialized error).instances.get? x =
      (r.instances.get? x).map fun i => if x = id then { i with initialized, error } else i :=
  OrdMap.get?_mapEntries _ _ _

theorem plugin?_setState (r : Registry) (id : String) (initialized : Bool) (error : Option String)
    (x : String) : (r.setState id initialized error).plugin? x = r.plugin? x := by
  unfold plugin?
  rw [get?_setState, Option.map_map]
  congr 1
  funext i
  by_cases hx : x = id <;> simp [hx]

theorem isInitialized_setState_self (hp : r.plugin? id = some p) (initialized : Bool)
    (error : Option String) : (r.setState id initialized error).isInitialized id = initialized := by
  obtain ⟨i, hi, -⟩ := Option.map_eq_some_iff.1 hp
  rw [isInitialized, get?_setState, hi]
  simp

theorem isInitialized_setState_of_ne (hx : x ≠ id) (initialized : Bool) (error : Option String) :
    (r.setState id initialized error).isInitialized x = r.isInitialized x := by
  rw [isInitialized, get?_setState]
  simp [hx, isInitialized]

theorem registerInstance_ok (h : r.registerInstance p = .ok r') :
    r.instances.get? p.id = none ∧ r' = { r with instances := r.instances.insert p.id ⟨p, false, none⟩ } := by
  unfold registerInstance at h
  split at h
  · cases h
  · next hnew =>
    cases h
    exact ⟨by simpa [OrdMap.contains] using hnew, rfl⟩

theorem dependsOn_iff (hp : r.plugin? x = some p) : r.DependsOn x y ↔ y ∈ p.dependencies := by
  simp [DependsOn, hp]

theorem dependsOn_congr (h : r'.plugin? x = r.plugin? x) : r'.DependsOn x y ↔ r.DependsOn x y := by
  rw [DependsOn, DependsOn, h]

/-! ### Plugins in their turn -/

/-- Whatever an initialized plugin depends on is initialized. -/
def Grounded (r : Registry) : Prop :=
  ∀ x y, r.isInitialized x = true → r.DependsOn x y → r.isInitialized y = true

/-- The plugins `left` can be initialized one after the other. -/
structure Ready (r : Registry) (left : List String) : Prop where
  registered : ∀ x ∈ left, ∃ p, r.plugin? x = some p
  dependencies : ∀ l₁ x l₂, left = l₁ ++ x :: l₂ →
    ∀ y, r.DependsOn x y → y ∈ l₁ ∨ r.isInitialized y = true

/-- The plugin `p`, registered under `id`, is the next to be initialized. -/
structure Startable (r : Registry) (id : String) (p : Plugin) : Prop where
  registered : r.plugin? id = some p
  isNew : r.isInitialized id = false
  dependencies : ∀ y ∈ p.dependencies, r.isInitialized y = true

variable {left : List String}

theorem Ready.mono (h : r.Ready left) (hplugin : ∀ x, r'.plugin? x = r.plugin? x)
    (hinit : ∀ x, r.isInitialized x = true → r'.isInitialized x = true) : r'.Ready left where
  registered x hx := by rw [hplugin]; exact h.registered x hx
  dependencies l₁ x l₂ heq y hxy :=
    (h.dependencies l₁ x l₂ heq y ((dependsOn_congr (hplugin x)).1 hxy)).imp_right (hinit y)

theorem Ready.tail (h : r.Ready (id :: left)) (hid : r.isInitialized id = true) : r.Ready left where
  registered x hx := h.registered x (List.mem_cons_of_mem _ hx)
  dependencies l₁ x l₂ heq y hxy := by
    rcases h.dependencies (id :: l₁) x l₂ (by rw [heq]; rfl) y hxy with hy | hy
    · rcases List.mem_cons.1 hy with rfl | hy
      · exact .inr hid
      · exact .inl hy
    · exact .inr hy

theorem Ready.startable (h : r.Ready (id :: left)) (hp : r.plugin? id = some p)
    (hnew : r.isInitialized id = false) : r.Startable id p where
  registered := hp
  isNew := hnew
  dependencies y hy :=
    (h.dependencies [] id left rfl y ((dependsOn_iff hp).2 hy)).resolve_left List.not_mem_nil

/-- Initializing a plugin takes no other initialization back. -/
theorem Startable.isInitialized_setState (h : r.Startable id p) (error : Option String)
    (hx : r.isInitialized x = true) : (r.setState id true error).isInitialized x = true := by
  by_cases hxid : x = id
  · rw [hxid]; exact isInitialized_setState_self h.registered true error
  · rw [isInitialized_setState_of_ne hxid]; exact hx

theorem Startable.grounded (h : r.Startable id p) (hr : r.Grounded) (error : Option String) :
    (r.setState id true error).Grounded := by
  intro x y hx hxy
  rw [dependsOn_congr (plugin?_setState ..)] at hxy
  refine h.isInitialized_setState error ?_
  by_cases hxid : x = id
  · subst hxid
    exact h.dependencies y ((dependsOn_iff h.registered).1 hxy)
  · rw [isInitialized_setState_of_ne hxid] at hx
    exact hr x y hx hxy

theorem Startable.ready (h : r.Startable id p) (hleft : r.Ready (id :: left)) (error : Option String) :
    (r.setState id true error).Ready left :=
  (hleft.mono (plugin?_setState r id true error) fun _ => h.isInitialized_setState error).tail
    (isInitialized_setState_self h.registered true error)

/-- Neither does a failure, since the plugin that fails was not initialized. -/
theorem Startable.isInitialized_setState_false (h : r.Startable id p) (error : Option String)
    (x : String) : (r.setState id false error).isInitialized x = r.isInitialized x := by
  by_cases hxid : x = id
  · rw [hxid, isInitialized_setState_self h.registered, h.isNew]
  · exact isInitialized_setState_of_ne hxid false error

theorem Startable.grounded_of_failure (h : r.Startable id p) (hr : r.Grounded)
    (error : Option String) : (r.setState id false error).Grounded := by
  intro x y hx hxy
  rw [h.isInitialized_setState_false] at hx ⊢
  exact hr x y hx ((dependsOn_congr (plugin?_setState ..)).1 hxy)

theorem isInitialized_registerInstance (h : r.registerInstance p = .ok r') (x : String) :
    r'.isInitialized x = r.isInitialized x := by
  obtain ⟨hnew, rfl⟩ := registerInstance_ok h
  unfold isInitialized
  rw [OrdMap.get?_insert]
  by_cases hx : x = p.id
  · simp [hx, hnew]
  · simp [hx]

theorem Grounded.registerInstance (hr : r.Grounded) (h : r.registerInstance p = .ok r') :
    r'.Grounded := by
  intro x y hx hxy
  rw [isInitialized_registerInstance h] at hx ⊢
  obtain ⟨hnew, rfl⟩ := registerInstance_ok h
  have hne : x ≠ p.id := by
    rintro rfl
    simp [isInitialized, hnew] at hx
  refine hr x y hx ((dependsOn_congr ?_).1 hxy)
  unfold plugin?
  rw [OrdMap.get?_insert, if_neg hne]

/-! ### The order of a call -/

/-- A call for `ids` is one for all plugins, or leaves none of their dependencies out. -/
def Closed (r : Registry) (ids : List String) : Prop :=
  ids = r.instanceIds ∨ ∀ x ∈ ids, ∀ y, r.DependsOn x y → y ∈ ids

theorem mem_instanceIds_iff : x ∈ r.instanceIds ↔ ∃ p, r.plugin? x = some p := by
  unfold instanceIds plugin?
  rw [← OrdMap.contains_iff_mem_keys, OrdMap.contains]
  cases r.instances.get? x <;> simp

theorem mem_of_pair_sublist {l₁ l₂ : List String} (h : [y, x].Sublist (l₁ ++ x :: l₂))
    (hnodup : (l₁ ++ x :: l₂).Nodup) : y ∈ l₁ := by
  have hx : x ∉ l₂ := (List.nodup_cons.1 (List.nodup_append.1 hnodup).2.1).1
  obtain ⟨a, b, hab, ha, hb⟩ := List.sublist_append_iff.1 h
  cases a with
  | nil =>
    obtain rfl : [y, x] = b := hab
    exact absurd (hb.tail.subset List.mem_cons_self) hx
  | cons z a =>
    obtain ⟨rfl, -⟩ := List.cons.inj hab
    exact ha.subset List.mem_cons_self

/-- What is known of an order that has been found. -/
structure Ordered (r : Registry) (ids order : List String) : Prop where
  nodup : order.Nodup
  mem_iff : ∀ x, x ∈ order ↔ x ∈ ids
  before : ∀ x ∈ ids, ∀ y ∈ ids, r.DependsOn x y → [y, x].Sublist order
  registered : ∀ x ∈ ids, x ∈ r.instanceIds
  complete : ∀ x y, ReachedFrom r.DependsOn ids x → r.DependsOn x y → y ∈ r.instanceIds
  acyclic : ∀ x, ReachedFrom r.DependsOn ids x → ¬TransGen r.DependsOn x x

theorem ordered_of_orderFor {ids order : List String} (h : r.orderFor ids = .ok order) :
    r.Ordered ids order := by
  unfold orderFor at h
  obtain ⟨order', heq, horder, hgood⟩ | ⟨e, heq, -⟩ :=
    DependencyGraph.orderFor_cases r.dependencyGraph ids
  · rw [heq] at h; cases h
    have hbefore := horder.before
    obtain ⟨hreg, hcomplete, hacyclic⟩ := hgood
    rw [dependsOn_dependencyGraph] at hbefore hcomplete hacyclic
    rw [keys_dependencyGraph] at hreg hcomplete
    exact ⟨horder.nodup, horder.mem_iff, fun x hx y hy hxy => hbefore x hx y hy (.single hxy), hreg,
      hcomplete, hacyclic⟩
  · rw [heq] at h; cases h

theorem Ordered.ready {ids order : List String} (h : r.Ordered ids order) (hids : r.Closed ids) :
    r.Ready order where
  registered x hx := mem_instanceIds_iff.1 (h.registered x ((h.mem_iff x).1 hx))
  dependencies l₁ x l₂ hsplit y hxy := by
    have hx : x ∈ ids := (h.mem_iff x).1 (by simp [hsplit])
    have hy : y ∈ ids := by
      rcases hids with rfl | hids
      · exact h.complete x y (.of_mem hx) hxy
      · exact hids x hx y hxy
    have hbefore := h.before x hx y hy hxy
    have hnodup := h.nodup
    rw [hsplit] at hbefore hnodup
    exact .inl (mem_of_pair_sublist hbefore hnodup)

end Registry

end EntityRest
