import EntityRest.Data.OrdMap
import EntityRest.Error

/-!
The order in which plugins are initialized: every plugin after the plugins that it depends on.

The order is found by a depth-first search. `path` holds the plugins whose dependencies are being
visited, `order` the plugins that are done; a plugin met on the path closes a cycle. Each step down
puts one more plugin of the graph on the path, so the search ends.
-/

namespace EntityRest

/-- The dependencies of each plugin. -/
abbrev DependencyGraph := OrdMap String (List String)

namespace DependencyGraph

/-- The plugins that are not on the path. -/
def offPath (g : DependencyGraph) (path : List String) : List String :=
  g.keys.filter (· ∉ path)

theorem length_offPath_cons_lt {g : DependencyGraph} {path : List String} {id : String}
    (hid : id ∈ g.keys) (hp : id ∉ path) :
    (g.offPath (id :: path)).length < (g.offPath path).length := by
  have hsub : g.offPath (id :: path) = (g.offPath path).filter (· ≠ id) := by
    simp only [offPath, List.filter_filter]
    refine List.filter_congr fun x _ => ?_
    by_cases hx : x = id <;> by_cases hy : x ∈ path <;> simp [hx, hy]
  have hmem : id ∈ g.offPath path := by simp [offPath, hid, hp]
  rw [hsub]
  refine Nat.lt_of_le_of_ne (List.length_filter_le _ _) fun h => ?_
  have := (List.length_filter_eq_length_iff.1 h) id hmem
  simp at this

mutual

/-- Visits a plugin and, before it, all that it depends on. -/
def visit (g : DependencyGraph) (path order : List String) (id : String) (h : id ∈ g.keys) :
    Except PluginError (List String) :=
  if id ∈ order then .ok order
  else if hp : id ∈ path then .error (.circularDependency id)
  else
    have := length_offPath_cons_lt h hp
    match visitAll g (id :: path) order id (g.getD id []) with
    | .error e => .error e
    | .ok order => .ok (order ++ [id])
termination_by ((g.offPath path).length, 0)

/-- Visits the dependencies of a plugin, one after the other. -/
def visitAll (g : DependencyGraph) (path order : List String) (id : String) :
    List String → Except PluginError (List String)
  | [] => .ok order
  | dependency :: dependencies =>
    if h : dependency ∈ g.keys then
      match visit g path order dependency h with
      | .error e => .error e
      | .ok order => visitAll g path order id dependencies
    else .error (.missingDependency id dependency)
termination_by dependencies => ((g.offPath path).length, dependencies.length + 1)

end

/-- Visits plugins by their ids, one after the other. -/
def visitIds (g : DependencyGraph) (order : List String) :
    List String → Except PluginError (List String)
  | [] => .ok order
  | id :: ids =>
    if h : id ∈ g.keys then
      match visit g [] order id h with
      | .error e => .error e
      | .ok order => visitIds g order ids
    else .error (.pluginNotFound id)

/-- The given plugins, each after those that it depends on, directly or through others. -/
def orderFor (g : DependencyGraph) (ids : List String) : Except PluginError (List String) :=
  (visitIds g [] ids).map fun order => order.filter (· ∈ ids)

end DependencyGraph

end EntityRest
