import EntityRest.Plugin.Basic

/-! # Routes and middleware in the order of the steps

A plugin gets its routes and its middleware step by step, as items or as what is made for an application. From
the first step of the second kind on, its source is a function around the one that was there before. What it
gives is nevertheless one list: that of all the steps, one after the other (`Source.concatenates_foldl_add`).
Steps that add nothing to a source leave it alone, so this holds whatever else is set in between
(`Plugin.ofSteps_concatenates`). -/

namespace EntityRest

namespace Source

/-- What one step adds to a source. -/
inductive Part (α : Type) where
  | item (a : α)
  | made (make : Shell → List α)

variable {α : Type}

/-- What a part comes to in an application. -/
def Part.items (shell : Shell) : Part α → List α
  | item a => [a]
  | made make => make shell

def Part.isMade : Part α → Bool
  | item _ => false
  | made _ => true

def add (s : Source α) : Part α → Source α
  | .item a => s.push a
  | .made make => s.pushMade make

def isMade : Source α → Bool
  | fixed _ => false
  | made _ => true

/-- A source gives what its parts come to, in their order; without an application it tells all of it, or
nothing if one of the parts is made for an application. -/
structure Concatenates (s : Source α) (parts : List (Part α)) : Prop where
  materialize : ∀ shell, s.materialize shell = parts.flatMap (·.items shell)
  declared : ∀ shell, s.declared = if parts.any (·.isMade) then [] else parts.flatMap (·.items shell)

section

variable (s : Source α) (part : Part α) (parts : List (Part α)) (shell : Shell)

theorem materialize_add : (s.add part).materialize shell = s.materialize shell ++ part.items shell := by
  cases s <;> cases part <;> rfl

theorem isMade_add : (s.add part).isMade = (s.isMade || part.isMade) := by
  cases s <;> cases part <;> rfl

theorem declared_eq : s.declared = if s.isMade then [] else s.materialize shell := by
  cases s <;> rfl

theorem materialize_foldl_add :
    (parts.foldl add s).materialize shell = s.materialize shell ++ parts.flatMap (·.items shell) := by
  induction parts generalizing s with
  | nil => exact (List.append_nil _).symm
  | cons part parts ih => rw [List.foldl_cons, ih, materialize_add, List.flatMap_cons, List.append_assoc]

theorem isMade_foldl_add : (parts.foldl add s).isMade = (s.isMade || parts.any (·.isMade)) := by
  induction parts generalizing s with
  | nil => exact (Bool.or_false _).symm
  | cons part parts ih => rw [List.foldl_cons, ih, isMade_add, List.any_cons, Bool.or_assoc]

theorem concatenates_foldl_add : Concatenates (parts.foldl add (fixed [])) parts where
  materialize shell := materialize_foldl_add (fixed []) parts shell
  declared shell := by
    rw [declared_eq _ shell, isMade_foldl_add, materialize_foldl_add]
    rfl

end

end Source

namespace Plugin

variable {α : Type}

/-- What a step adds to the routes. -/
def Step.route? : Step → Option (Source.Part Route)
  | .route r => some (.item r)
  | .routesFrom make => some (.made make)
  | _ => none

/-- What a step adds to the middleware. -/
def Step.middleware? : Step → Option (Source.Part Middleware)
  | .middleware m => some (.item m)
  | .middlewareFrom make => some (.made make)
  | _ => none

/-- A source of a plugin to which each step adds what it says holds what all of them say. -/
theorem foldl_apply_eq (source : Plugin → Source α) {part? : Step → Option (Source.Part α)}
    (h : ∀ p step, source (p.apply step) = (part? step).elim (source p) (source p).add) (p : Plugin)
    (steps : List Step) :
    source (steps.foldl apply p) = (steps.filterMap part?).foldl Source.add (source p) := by
  induction steps generalizing p with
  | nil => rfl
  | cons step steps ih =>
    rw [List.foldl_cons, ih, h]
    cases hpart : part? step with
    | none => rw [List.filterMap_cons_none hpart]; rfl
    | some part => rw [List.filterMap_cons_some hpart]; rfl

theorem routes_apply (p : Plugin) (step : Step) :
    (p.apply step).routes = step.route?.elim p.routes p.routes.add := by
  cases step <;> rfl

theorem middleware_apply (p : Plugin) (step : Step) :
    (p.apply step).middleware = step.middleware?.elim p.middleware p.middleware.add := by
  cases step <;> rfl

/-- Whatever steps a plugin is built up in, its routes and its middleware are those of the steps, in their
order. -/
theorem ofSteps_concatenates (id name version : String) (steps : List Step) :
    (ofSteps id name version steps).routes.Concatenates (steps.filterMap Step.route?) ∧
      (ofSteps id name version steps).middleware.Concatenates (steps.filterMap Step.middleware?) := by
  constructor
  · rw [ofSteps, foldl_apply_eq Plugin.routes routes_apply]
    exact Source.concatenates_foldl_add _
  · rw [ofSteps, foldl_apply_eq Plugin.middleware middleware_apply]
    exact Source.concatenates_foldl_add _

example (login me : Route) (make : Shell → List Route) (shell : Shell) :
    (ofSteps "auth" "Auth" "1.0.0" [.route login, .routesFrom make, .dependsOn "users", .route me]).routes.materialize
      shell = [login] ++ make shell ++ [me] := rfl

end Plugin

end EntityRest
