import EntityRest.Plugin.Basic

/-!
Resolving a plugin: its extension is applied to a copy of what it declares.

The entity changes are applied in their order, each to what the ones before it left. Changes that
target nothing, and changes that would take a required entity or a locked field away, are skipped
with a warning. Then the added entities follow under names that start with the id of the plugin.
-/

namespace EntityRest

/-- Where the routes of a resolved entity lie, and how its operations are served. -/
structure EntityMeta extends EntityPlace where
  routeConfig : Option RouteConfig

/-- How an operation of the entity is served. -/
def EntityMeta.decision (m : EntityMeta) (op : Operation) : RouteDecision :=
  (m.routeConfig.getD RouteConfig.standard) op

/-- A plugin with its extension applied. -/
structure ResolvedPlugin where
  id : String
  basePath : Option String
  entities : List Entity
  entityMeta : OrdMap String EntityMeta
  routes : Source Route
  routeOverrides : OrdMap String RouteOverride
  middleware : Source Middleware
  hooks : List Hook
  /-- Fields for entities that the plugin does not declare. -/
  fieldExtensions : OrdMap String (OrdMap String FieldDef)

namespace Resolve

/-- The path with one slash in front and none at its end; blanks around it are dropped. -/
def normalizePath (path : String) : String :=
  let cs := Text.dropEndWhile (· = '/') (Text.trimChars path.toList)
  match cs with
  | [] => ""
  | '/' :: _ => String.ofList cs
  | _ => String.ofList ('/' :: cs)

/-- The base path of the routes: that of the extension, else that of the plugin, else its id. -/
def basePathOf (p : Plugin) (x : Extension) : Option String :=
  let normalized (path : String) : Option String :=
    let path := normalizePath path
    if path.isEmpty then none else some path
  match x.basePath with
  | some .root => none
  | some (.path path) => normalized path
  | none => normalized (p.basePath.getD ("/" ++ p.id))

/-- The warning of a rename to a key that is taken. -/
def overwriteWarnings {ν : Type} (m : OrdMap String ν) (key newKey : String) : List Warning :=
  if key ≠ newKey && m.contains key && m.contains newKey then
    [⟨"rename overwrites an existing entry", [("from", key), ("to", newKey)]⟩]
  else []

/-- Fields under change, with the warnings so far. -/
structure FieldWork where
  fields : OrdMap String FieldDef
  warnings : List Warning

namespace FieldWork

def warn (w : FieldWork) (plugin entity field message : String) : FieldWork :=
  { w with
    warnings := w.warnings ++
      [⟨message, [("plugin", plugin), ("entity", entity), ("field", field)]⟩] }

/-- Renames a field that is not locked; the result tells its name from then on. -/
def rename (w : FieldWork) (plugin entity field : String) (name : Option String) :
    FieldWork × String :=
  match name with
  | none => (w, field)
  | some name =>
    if (w.fields.get? field).elim false (·.locked) then
      (w.warn plugin entity field "cannot rename locked field", field)
    else
      ({ fields := w.fields.rename field name
         warnings := w.warnings ++ overwriteWarnings w.fields field name }, name)

def patch (w : FieldWork) (field : String) (p : Option FieldPatch) : FieldWork :=
  match p with
  | none => w
  | some p => { w with fields := w.fields.modify field p.apply }

/-- Applies the changes of one field. -/
def change (plugin entity : String) (w : FieldWork) (field : String) (c : FieldChange) :
    FieldWork :=
  match c.add with
  | some d => { w with fields := w.fields.insert field d }
  | none =>
    match w.fields.get? field with
    | none => w.warn plugin entity field "extension targets unknown field, skipping"
    | some d =>
      if c.remove && !d.locked then { w with fields := w.fields.erase field }
      else
        let w := if c.remove then w.warn plugin entity field "cannot remove locked field" else w
        let (w, name) := w.rename plugin entity field c.rename
        w.patch name c.patch

end FieldWork

/-- Puts fields in first, and then applies the changes field by field. -/
def changeFields (plugin entity : String) (fields : OrdMap String FieldDef) (c : EntityChange) :
    FieldWork :=
  c.fields.toList.foldl (fun w (field, c) => w.change plugin entity field c)
    ⟨fields.union c.addFields, []⟩

/-- Entities under change, with the renames (new name to old) and the warnings so far. -/
structure Work where
  entities : OrdMap String PluginEntity
  renames : OrdMap String String
  warnings : List Warning

namespace Work

def warn (w : Work) (plugin entity message : String) : Work :=
  { w with warnings := w.warnings ++ [⟨message, [("plugin", plugin), ("entity", entity)]⟩] }

/-- Renames an entity; the result tells its name from then on. -/
def rename (w : Work) (entity : String) (name : Option String) : Work × String :=
  match name with
  | none => (w, entity)
  | some name =>
    if name = entity then (w, entity)
    else
      ({ entities := w.entities.rename entity name
         renames := w.renames.insert name entity
         warnings := w.warnings ++ overwriteWarnings w.entities entity name }, name)

/-- Applies the changes of the fields of an entity. -/
def changeFields (plugin : String) (w : Work) (entity : String) (c : EntityChange) : Work :=
  match w.entities.get? entity with
  | none => w
  | some d =>
    let done := Resolve.changeFields plugin entity d.fields c
    { w with
      entities := w.entities.replace entity { d with fields := done.fields }
      warnings := w.warnings ++ done.warnings }

/-- Applies the changes of one entity. -/
def change (plugin : String) (w : Work) (entity : String) (c : EntityChange) : Work :=
  match w.entities.get? entity with
  | none => w.warn plugin entity "extension targets unknown entity, skipping"
  | some d =>
    if c.remove && !d.required then { w with entities := w.entities.erase entity }
    else
      let w := if c.remove then w.warn plugin entity "cannot remove required entity" else w
      let (w, name) := w.rename entity c.rename
      w.changeFields plugin name c

end Work

/-- Applies the entity changes of an extension to declared entities. -/
def applyChanges (plugin : String) (entities : OrdMap String PluginEntity) (x : Extension) : Work :=
  x.entities.toList.foldl (fun w (entity, c) => w.change plugin entity c) ⟨entities, ∅, []⟩

/-- The name under which an extension adds an entity to a plugin. -/
def addedName (plugin entity : String) : String := plugin ++ "_" ++ entity

/-- The entities with those that the extension adds. -/
def withAdded (plugin : String) (entities : OrdMap String PluginEntity) (x : Extension) :
    OrdMap String PluginEntity :=
  x.addEntities.toList.foldl (fun m (name, d) => m.insert (addedName plugin name) d) entities

/-- The resolved names of the names that hooks are declared for, where the two differ. -/
def hookTargets (p : Plugin) (x : Extension) (renames : OrdMap String String) :
    OrdMap String String :=
  let renamed := OrdMap.ofList (renames.toList.map fun (name, declared) => (declared, name))
  x.addEntities.toList.foldl
    (fun m (name, _) =>
      if p.entities.contains name then m else m.insert name (addedName p.id name))
    renamed

/-- Points a hook at the resolved name of its entity. -/
def retarget (targets : OrdMap String String) (h : Hook) : Hook :=
  { h with entity := targets.getD h.entity h.entity }

/-- An entity as it is resolved, with the facts about its routes. -/
structure ResolvedEntity where
  entity : Entity
  info : EntityMeta
  warnings : List Warning

/-- Resolves one entity; changes are looked up by its declared name first. -/
def resolveEntity (p : Plugin) (x : Extension) (basePath : Option String)
    (renames : OrdMap String String) (name : String) (d : PluginEntity) : ResolvedEntity :=
  let declared := renames.getD name name
  let change := x.entities.get? declared <|> x.entities.get? name
  let routePath := change.bind (·.routePath) <|> d.routePath
  let wanted := change.bind (·.isInternal)
  let isInternal := d.isInternal || wanted == some true
  { entity := d.toEntity name (some ⟨p.id, basePath, routePath, isInternal⟩)
    info :=
      { declaredName := declared, pluginId := p.id, basePath, routePath, isInternal
        routeConfig := x.entityRoutes.get? declared <|> x.entityRoutes.get? name }
    warnings :=
      if d.isInternal && wanted == some false then
        [⟨"extension cannot make an internal entity public, keeping it internal",
          [("plugin", p.id), ("entity", name)]⟩]
      else [] }

end Resolve

namespace Plugin

/-- Resolves a plugin with an extension, with the warnings in the order in which they arise. -/
def resolveWith (p : Plugin) (x : Extension) : ResolvedPlugin × List Warning :=
  let work := Resolve.applyChanges p.id p.entities x
  let basePath := Resolve.basePathOf p x
  let resolved := (Resolve.withAdded p.id work.entities x).mapEntries
    (Resolve.resolveEntity p x basePath work.renames)
  let targets := Resolve.hookTargets p x work.renames
  ({ id := p.id
     basePath
     entities := resolved.values.map (·.entity)
     entityMeta := resolved.mapEntries fun _ r => r.info
     routes := p.routes
     routeOverrides := x.routes
     middleware := p.middleware
     hooks := p.hooks.map (Resolve.retarget targets)
     fieldExtensions := p.fieldExtensions },
    work.warnings ++ resolved.values.flatMap (·.warnings))

/-- Resolves a plugin with its own extension. -/
def resolve (p : Plugin) : ResolvedPlugin × List Warning := p.resolveWith p.extension

end Plugin

/-- Resolved plugins put together; what comes later wins over what has the same name. -/
structure MergedPlugins where
  entities : OrdMap String Entity
  entityMeta : OrdMap String EntityMeta
  plugins : List ResolvedPlugin

def mergePlugins (plugins : List ResolvedPlugin) : MergedPlugins :=
  { entities := plugins.foldl (fun m p => m.insertMany (p.entities.map fun e => (e.name, e))) ∅
    entityMeta := plugins.foldl (fun m p => m.union p.entityMeta) ∅
    plugins }

/-- What an override does to a route; its key wins over its path alone. -/
def overrideRoute? (overrides : OrdMap String RouteOverride) (r : Route) : Option Route :=
  match overrides.get? r.key <|> overrides.get? r.path with
  | none => some r
  | some .disable => none
  | some (.replace handler) => some { r with handler }

/-- Applies overrides to routes, of which disabled ones are left out. -/
def overrideRoutes (overrides : OrdMap String RouteOverride) (routes : List Route) : List Route :=
  routes.filterMap (overrideRoute? overrides)

end EntityRest
