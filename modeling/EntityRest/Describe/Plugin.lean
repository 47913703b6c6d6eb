import EntityRest.Describe.Schema
import EntityRest.Plugin.Basic
import EntityRest.Plugin.Resolve

/-!
Plugins and their extensions as JSON. Code, such as a handler, is shown by what it is there for.
-/

namespace EntityRest

instance : ToJson PluginEntity where
  toJson d := Json.object
    [("fields", toJson d.fields), ("rules", toJson d.rules), ("ownerField", toJson d.ownerField),
      ("timestamps", .bool d.timestamps), ("required", .bool d.required),
      ("internal", .bool d.isInternal), ("routePath", toJson d.routePath)]

instance : ToJson RouteDecision where
  toJson
    | .standard => .str "default"
    | .disable => .str "disable"
    | .custom _ => .str "custom"

instance : ToJson RouteConfig where
  toJson c := Json.object (Operation.all.map fun op => (op.name, toJson (c op)))

instance : ToJson EntityMeta where
  toJson m := Json.object
    [("originalName", .str m.declaredName), ("pluginId", .str m.pluginId),
      ("basePath", toJson m.basePath), ("routePath", toJson m.routePath),
      ("internal", .bool m.isInternal), ("routeConfig", toJson m.routeConfig)]

instance : ToJson FieldPatch where
  toJson p := Json.object
    [("type", toJson p.type), ("optional", toJson p.optional), ("unique", toJson p.unique),
      ("default", toJson p.default), ("min", toJson p.min), ("max", toJson p.max),
      ("isEmail", toJson p.isEmail)]

instance : ToJson FieldChange where
  toJson c := Json.object
    [("add", toJson c.add), ("remove", .bool c.remove), ("rename", toJson c.rename),
      ("override", toJson c.patch)]

instance : ToJson EntityChange where
  toJson c := Json.object
    [("fields", toJson c.fields), ("addFields", toJson c.addFields), ("remove", .bool c.remove),
      ("rename", toJson c.rename), ("routePath", toJson c.routePath),
      ("internal", toJson c.isInternal)]

instance : ToJson RouteOverride where
  toJson
    | .disable => .str "disable"
    | .replace _ => .str "replace"

/-- No prefix at all is shown as false. -/
instance : ToJson BasePathChange where
  toJson
    | .root => .bool false
    | .path p => .str p

instance : ToJson Extension where
  toJson x := Json.object
    [("entities", toJson x.entities), ("addEntities", toJson x.addEntities),
      ("routes", toJson x.routes), ("basePath", toJson x.basePath),
      ("entityRoutes", toJson x.entityRoutes), ("empty", .bool x.isEmpty)]

/-- What can be known of a plugin without its entities and its code. -/
def Plugin.summary (p : Plugin) : Json :=
  Json.object
    [("id", .str p.id), ("name", .str p.name), ("version", .str p.version),
      ("description", toJson p.description), ("dependencies", toJson p.dependencies),
      ("basePath", toJson p.basePath)]

end EntityRest
