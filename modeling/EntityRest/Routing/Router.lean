import EntityRest.Naming.Plural
import EntityRest.Plugin.Resolve
import EntityRest.Routing.Pattern
import EntityRest.Text.LowerCase

/-!
The router: which operation or handler a method and a path lead to.

The health check comes first, then the routes of plugins in their order, then the entities of
plugins under their own paths, and last the entities of the application under their plural or their
name. Entity paths are compared without regard to case.
-/

namespace EntityRest

/-- An operation on an entity. -/
structure EntityMatch where
  entity : String
  operation : Operation
  id : Option String
  pluginId : Option String
  /-- Serves the operation in place of the usual steps. -/
  customHandler : Option Handler

inductive RouteMatch where
  | health
  /-- A route of a plugin, with its position among all of them. -/
  | route (r : Route) (index : Nat) (params : OrdMap String String)
  | entity (m : EntityMatch)
  /-- The path belongs to an internal entity or to a disabled operation. -/
  | disabled
  | notFound

/-- An operation that clients can reach. -/
structure RouteInfo where
  method : String
  path : String
  entity : String
  operation : Operation
  pluginId : Option String
deriving DecidableEq

namespace Operation

/-- The operation of a method, on a collection or on one record. -/
def ofMethod? (method : String) (hasId : Bool) : Option Operation :=
  match method, hasId with
  | "GET", false => some list
  | "GET", true => some read
  | "POST", false => some create
  | "PUT", true => some update
  | "PATCH", true => some update
  | "DELETE", true => some delete
  | _, _ => none

/-- The method under which an operation is listed. -/
def method : Operation → String
  | list => "GET"
  | create => "POST"
  | read => "GET"
  | update => "PATCH"
  | delete => "DELETE"

/-- Whether an operation concerns one record, named by its id. -/
def onRecord : Operation → Bool
  | read => true
  | update => true
  | delete => true
  | _ => false

end Operation

structure Router where
  /-- The entities of the application, without those of plugins. -/
  appEntities : List String
  routes : List Route
  entityMeta : OrdMap String EntityMeta
  /-- The plugin entity of each path, in lower case. -/
  index : OrdMap String String

namespace Router

def trimSlashes (path : String) : String :=
  String.ofList <| Text.dropEndWhile (· = '/') (path.toList.dropWhile (· = '/'))

def trimEndSlashes (path : String) : String :=
  String.ofList (Text.dropEndWhile (· = '/') path.toList)

/-- The path of the collection of an entity. -/
def entityPath (name : String) (place : Option EntityPlace) : String :=
  match place with
  | none => "/" ++ Naming.plural name
  | some m =>
    let route := m.routePath.elim (Naming.plural name) trimSlashes
    m.basePath.elim "" trimEndSlashes ++ "/" ++ route

/-- The form in which paths are compared. -/
def pathKey (segments : List String) : String := Text.lower ("/".intercalate segments)

/-- Adds the path of a plugin entity; of two equal paths the later one counts. -/
def addToIndex (index : OrdMap String String × List Warning) (name : String) (m : EntityMeta) :
    OrdMap String String × List Warning :=
  let key := pathKey (pathSegments (entityPath name m.toEntityPlace))
  let warnings := match index.1.get? key with
    | some previous =>
      [⟨"duplicate plugin entity path", [("path", key), ("entity", name), ("shadowed", previous)]⟩]
    | none => []
  (index.1.insert key name, index.2 ++ warnings)

/-- The router of an application, with a warning for each path that two plugin entities share. -/
def build (entities : List String) (entityMeta : OrdMap String EntityMeta) (routes : List Route) :
    Router × List Warning :=
  let (index, warnings) := entityMeta.toList.foldl (fun i (name, m) => addToIndex i name m) (∅, [])
  ({ appEntities := entities.filter fun name => !entityMeta.contains name
     routes, entityMeta, index }, warnings)

/-- The first route of a plugin that matches, with its position. -/
def matchRoutes (method path : String) : Nat → List Route → Option RouteMatch
  | _, [] => none
  | i, r :: routes =>
    if r.method = method then
      match Pattern.matchPath? r.path path with
      | some params => some (.route r i params)
      | none => matchRoutes method path (i + 1) routes
    else matchRoutes method path (i + 1) routes

/-- The operation on a plugin entity, unless it is hidden. -/
def matchOperation (method name : String) (m : EntityMeta) (id : Option String) : RouteMatch :=
  match Operation.ofMethod? method id.isSome with
  | none => .notFound
  | some op =>
    if m.isInternal then .disabled
    else
      let found (handler : Option Handler) : RouteMatch :=
        .entity ⟨name, op, id, some m.pluginId, handler⟩
      match m.decision op with
      | .standard => found none
      | .disable => .disabled
      | .custom handler => found (some handler)

/-- How many segments the path of a plugin entity may have. -/
def maxDepth : Nat := 3

/-- The plugin entity whose path is the given number of segments, with at most an id behind it. -/
def matchDepth (r : Router) (method : String) (segments : List String) (depth : Nat) :
    Option RouteMatch := do
  let name ← r.index.get? (pathKey (segments.take depth))
  let rest := segments.drop depth
  if 1 < rest.length then none
  else
    let m ← r.entityMeta.get? name
    some (matchOperation method name m rest.head?)

/-- The plugin entity with the shortest path that matches. -/
def matchPluginEntity (r : Router) (method : String) (segments : List String) :
    Option RouteMatch :=
  ((List.range (min segments.length maxDepth)).map (· + 1)).findSome? (r.matchDepth method segments)

/-- Whether the first segment of a path leads to an entity of the application. -/
def answersTo (head name : String) : Bool :=
  Text.lower (Naming.plural name) == head || Text.lower name == head

def matchAppEntity (r : Router) (method : String) : List String → RouteMatch
  | [] => .notFound
  | head :: rest =>
    if 1 < rest.length then .notFound
    else match r.appEntities.find? (answersTo (Text.lower head)) with
      | none => .notFound
      | some name =>
        match Operation.ofMethod? method rest.head?.isSome with
        | some op => .entity ⟨name, op, rest.head?, none, none⟩
        | none => .notFound

/-- What a method and a path lead to. -/
def matchRequest (r : Router) (method path : String) : RouteMatch :=
  let trimmed := trimEndSlashes path
  let segments := pathSegments path
  if trimmed = "/health" || trimmed = "/_health" then .health
  else if segments.isEmpty then .notFound
  else
    ((matchRoutes method path 0 r.routes <|> r.matchPluginEntity method segments)).getD
      (r.matchAppEntity method segments)

/-- The listed operations of one entity. -/
def infosOf (name : String) (m : Option EntityMeta) : List RouteInfo :=
  let collection := entityPath name (m.map (·.toEntityPlace))
  let isOpen (op : Operation) : Bool :=
    match m.elim RouteDecision.standard (·.decision op) with
    | .disable => false
    | _ => true
  (Operation.all.filter isOpen).map fun op =>
    { method := op.method
      path := if op.onRecord then collection ++ "/:id" else collection
      entity := name
      operation := op
      pluginId := m.map (·.pluginId) }

/-- Every operation that clients can reach, those of the application's entities first. -/
def infos (r : Router) : List RouteInfo :=
  r.appEntities.flatMap (infosOf · none) ++
    (r.entityMeta.toList.filter fun (_, m) => !m.isInternal).flatMap fun (name, m) =>
      infosOf name (some m)

end Router

end EntityRest
