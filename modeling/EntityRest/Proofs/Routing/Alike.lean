import Mathlib.Data.List.Forall2
import EntityRest.Proofs.Effect.Alike
import EntityRest.Routing.Router

/-! # Routers that differ in handlers only

Two routers whose handlers do alike lead every request to the same place, with handlers that do alike
(`Router.Alike.matchRequest`): which route or entity a request leads to is decided without looking at a handler. -/

namespace EntityRest

variable {C : Connection → Connection → Prop}

/-- Views of an application that are the same but for their connections. -/
def AppView.Alike (C : Connection → Connection → Prop) (v v' : AppView) : Prop :=
  ∃ c, C v.connection c ∧ v' = { v with connection := c }

/-- Handlers that do alike for applications with related connections. -/
def Handler.Alike (C : Connection → Connection → Prop) (h h' : Handler) : Prop :=
  ∀ req v v', v.Alike C v' → (h.run req v).Alike ApiError.Alike Eq (h'.run req v')

structure Route.Alike (C : Connection → Connection → Prop) (r r' : Route) : Prop where
  method : r'.method = r.method
  path : r'.path = r.path
  handler : r.handler.Alike C r'.handler

inductive RouteDecision.Alike (C : Connection → Connection → Prop) : RouteDecision → RouteDecision → Prop
  | standard : Alike C .standard .standard
  | disable : Alike C .disable .disable
  | custom {h h' : Handler} (hh : h.Alike C h') : Alike C (.custom h) (.custom h')

structure EntityMeta.Alike (C : Connection → Connection → Prop) (m m' : EntityMeta) : Prop where
  place : m'.toEntityPlace = m.toEntityPlace
  decision : ∀ op, (m.decision op).Alike C (m'.decision op)

structure Router.Alike (C : Connection → Connection → Prop) (r r' : Router) : Prop where
  appEntities : r'.appEntities = r.appEntities
  index : r'.index = r.index
  routes : List.Forall₂ (Route.Alike C) r.routes r'.routes
  entityMeta : ∀ name, Option.Rel (EntityMeta.Alike C) (r.entityMeta.get? name) (r'.entityMeta.get? name)

/-- Requests that lead to the same place, with handlers that do alike. -/
inductive RouteMatch.Alike (C : Connection → Connection → Prop) : RouteMatch → RouteMatch → Prop
  | health : Alike C .health .health
  | route {r r' : Route} (hr : r.Alike C r') (i : Nat) (params : OrdMap String String) :
      Alike C (.route r i params) (.route r' i params)
  | entity (m : EntityMatch) {h h' : Option Handler} (hh : Option.Rel (Handler.Alike C) h h') :
      Alike C (.entity { m with customHandler := h }) (.entity { m with customHandler := h' })
  | disabled : Alike C .disabled .disabled
  | notFound : Alike C .notFound .notFound

/-! ### With equal connections -/

theorem AppView.alike_eq_iff {v v' : AppView} : v.Alike Eq v' ↔ v = v' := by
  constructor
  · rintro ⟨c, rfl, rfl⟩; rfl
  · rintro rfl; exact ⟨_, rfl, rfl⟩

theorem Handler.alike_eq_iff {h h' : Handler} :
    h.Alike Eq h' ↔ ∀ req v, (h.run req v).Alike ApiError.Alike Eq (h'.run req v) := by
  constructor
  · exact fun hh req v => hh req v v (AppView.alike_eq_iff.2 rfl)
  · rintro hh req v v' hv
    obtain rfl := AppView.alike_eq_iff.1 hv
    exact hh req v

theorem Handler.Alike.refl (h : Handler) : h.Alike Eq h :=
  Handler.alike_eq_iff.2 fun _ _ => Action.alike_self _

/-! ### One router -/

theorem RouteDecision.alike_self {d : RouteDecision}
    (h : ∀ handler, d = .custom handler → handler.Alike C handler) : d.Alike C d := by
  cases d with
  | standard => exact .standard
  | disable => exact .disable
  | custom handler => exact .custom (h handler rfl)

theorem EntityMeta.rel_self {m : Option EntityMeta}
    (h : ∀ m', m = some m' → ∀ op handler, m'.decision op = .custom handler → handler.Alike C handler) :
    Option.Rel (EntityMeta.Alike C) m m := by
  cases m with
  | none => exact .none
  | some m => exact .some ⟨rfl, fun op => RouteDecision.alike_self (h m rfl op)⟩

/-- A router is like itself if its handlers are. -/
theorem Router.alike_self {r : Router} (hroutes : ∀ route ∈ r.routes, route.handler.Alike C route.handler)
    (hoperations : ∀ name m, r.entityMeta.get? name = some m → ∀ op handler, m.decision op = .custom handler →
      handler.Alike C handler) : r.Alike C r where
  appEntities := rfl
  index := rfl
  routes := List.forall₂_same.2 fun route hroute => ⟨rfl, rfl, hroutes route hroute⟩
  entityMeta name := EntityMeta.rel_self (hoperations name)

theorem Router.Alike.refl (r : Router) : r.Alike Eq r :=
  Router.alike_self (fun _ _ => .refl _) fun _ _ _ _ _ _ => .refl _

/-! ### What a request leads to -/

section

variable {method : String} {segments : List String}

theorem Router.matchRoutes_alike (method path : String) {routes routes' : List Route}
    (h : List.Forall₂ (Route.Alike C) routes routes') (i : Nat) :
    Option.Rel (RouteMatch.Alike C) (matchRoutes method path i routes) (matchRoutes method path i routes') := by
  induction h generalizing i with
  | nil => exact .none
  | cons hroute _ ih =>
    rw [matchRoutes, matchRoutes, hroute.method, hroute.path]
    split
    · split
      · exact .some (.route hroute _ _)
      · exact ih _
    · exact ih _

theorem Router.matchOperation_alike {m m' : EntityMeta} (h : m.Alike C m') (name : String) (id : Option String) :
    (matchOperation method name m id).Alike C (matchOperation method name m' id) := by
  have hinternal : m'.isInternal = m.isInternal := congrArg EntityPlace.isInternal h.place
  have hplugin : m'.pluginId = m.pluginId := congrArg EntityPlace.pluginId h.place
  unfold matchOperation
  rw [hinternal, hplugin]
  split
  · exact .notFound
  · next op _ =>
    split
    · exact .disabled
    · have hdecision := h.decision op
      generalize m.decision op = d, m'.decision op = d' at hdecision ⊢
      cases hdecision with
      | standard => exact .entity ⟨name, op, id, some m.pluginId, none⟩ .none
      | disable => exact .disabled
      | custom hh => exact .entity ⟨name, op, id, some m.pluginId, none⟩ (.some hh)

theorem Router.Alike.matchDepth {r r' : Router} (h : r.Alike C r') (depth : Nat) :
    Option.Rel (RouteMatch.Alike C) (r.matchDepth method segments depth)
      (r'.matchDepth method segments depth) := by
  unfold Router.matchDepth
  rw [h.index]
  cases r.index.get? (pathKey (segments.take depth)) with
  | none => exact .none
  | some name =>
    show Option.Rel _ (if 1 < (segments.drop depth).length then none else _)
      (if 1 < (segments.drop depth).length then none else _)
    split
    · exact .none
    · have hmeta := h.entityMeta name
      generalize r.entityMeta.get? name = m, r'.entityMeta.get? name = m' at hmeta ⊢
      cases hmeta with
      | none => exact .none
      | some hmeta => exact .some (matchOperation_alike hmeta _ _)

theorem rel_findSome? {α β γ : Type} {R : β → γ → Prop} {f : α → Option β} {g : α → Option γ}
    (h : ∀ a, Option.Rel R (f a) (g a)) (l : List α) : Option.Rel R (l.findSome? f) (l.findSome? g) := by
  induction l with
  | nil => exact .none
  | cons a l ih =>
    rw [List.findSome?_cons, List.findSome?_cons]
    have ha := h a
    generalize f a = b, g a = c at ha ⊢
    cases ha with
    | none => exact ih
    | some hbc => exact .some hbc

theorem Router.Alike.matchAppEntity {r r' : Router} (h : r.Alike C r') :
    (r.matchAppEntity method segments).Alike C (r'.matchAppEntity method segments) := by
  unfold Router.matchAppEntity
  rw [h.appEntities]
  split
  · exact .notFound
  · split
    · exact .notFound
    · split
      · exact .notFound
      · next rest _ name _ =>
        split
        · next op _ => exact .entity ⟨name, op, _, none, none⟩ .none
        · exact .notFound

/-- Routers that differ in handlers only lead every request to the same place, with handlers that do alike. -/
theorem Router.Alike.matchRequest {r r' : Router} (h : r.Alike C r') (method path : String) :
    (r.matchRequest method path).Alike C (r'.matchRequest method path) := by
  unfold Router.matchRequest
  dsimp only
  split
  · exact .health
  · split
    · exact .notFound
    · have hroutes := matchRoutes_alike method path h.routes 0
      have hplugin : Option.Rel (RouteMatch.Alike C) (r.matchPluginEntity method (pathSegments path))
          (r'.matchPluginEntity method (pathSegments path)) := rel_findSome? h.matchDepth _
      generalize matchRoutes method path 0 r.routes = x, matchRoutes method path 0 r'.routes = x' at hroutes ⊢
      generalize r.matchPluginEntity method (pathSegments path) = y,
        r'.matchPluginEntity method (pathSegments path) = y' at hplugin ⊢
      cases hroutes with
      | some hmatch => exact hmatch
      | none =>
        cases hplugin with
        | some hmatch => exact hmatch
        | none => exact h.matchAppEntity

end

end EntityRest
