import EntityRest.Plugin.Registry

/-!
References to entities, by a text `plugin.entity` or `entity`.

A reference to an entity of a plugin leads to the name that the plugin declares, whatever an
extension makes of it. What a reference led to is kept in the registry.
-/

namespace EntityRest

inductive EntityReference where
  | declared (plugin entity : String)
  | locally (entity : String)
deriving DecidableEq

namespace EntityReference

/-- A text with one dot inside names a plugin and an entity, one without a dot an entity alone. -/
def ofText? (text : String) : Except PluginError EntityReference :=
  match Text.splitOn '.' text.toList with
  | [name] =>
    if (Text.trimChars name).isEmpty then .error (.invalidReference text) else .ok (.locally text)
  | [plugin, entity] =>
    if plugin.isEmpty || entity.isEmpty then .error (.invalidReference text)
    else .ok (.declared (String.ofList plugin) (String.ofList entity))
  | _ => .error (.invalidReference text)

end EntityReference

namespace Registry

/-- The entity of a registered plugin, as a placeholder. -/
def pluginEntity (plugin entity : String) : StateM Registry (Except PluginError Entity) := do
  let r ← get
  match r.plugin? plugin with
  | none => pure (.error (.pluginNotFound plugin))
  | some p =>
    if p.entities.contains entity then
      let (e, r) := r.cachedEntity (plugin ++ "." ++ entity) (Entity.placeholder entity)
      set r
      pure (.ok e)
    else pure (.error (.entityNotFound plugin entity))

/-- The entity that a text refers to, among the plugins or among given entities. -/
def referredEntity (text : String) (entities : OrdMap String Entity) :
    StateM Registry (Except PluginError Entity) :=
  match EntityReference.ofText? text with
  | .error e => pure (.error e)
  | .ok (.declared plugin entity) => pluginEntity plugin entity
  | .ok (.locally name) =>
    pure <| match entities.get? name with
      | some e => .ok e
      | none => .error (.localEntityNotFound name)

/-- The name of the entity that a relation targets. -/
def lookupTarget : TargetLookup (StateM Registry)
  | .named entity => pure (.ok entity)
  | .declared plugin entity => do
    let r ← pluginEntity plugin entity
    pure (r.map (·.name))
  | .reference text =>
    match EntityReference.ofText? text with
    | .error e => pure (.error e)
    | .ok (.declared plugin entity) => do
      let r ← pluginEntity plugin entity
      pure (r.map (·.name))
    | .ok (.locally name) => pure (.ok name)

end Registry

end EntityRest
