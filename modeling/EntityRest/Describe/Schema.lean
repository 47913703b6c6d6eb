import EntityRest.Hook.Event
import EntityRest.Json.Encode
import EntityRest.Query.Filter
import EntityRest.Schema.Entity

/-!
Entities, their fields and rules, and the conditions of queries as JSON.
-/

namespace EntityRest

instance : ToJson Operation := ⟨fun op => .str op.name⟩

instance : ToJson HookEvent := ⟨fun e => .str e.name⟩

instance : ToJson Rule := ⟨fun r => .str r.name⟩

instance : ToJson FieldType := ⟨fun t => .str t.name⟩

/-- A bound that is no finite number has no JSON number and is shown as null. -/
instance : ToJson Bound where
  toJson
    | .finite x => .num (.float x)
    | _ => .null

instance : ToJson Relation where
  toJson r := Json.object
    [("kind", .str r.kind.name), ("target", .str r.target), ("foreignKey", .str r.foreignKey),
      ("references", .str r.references), ("onDelete", toJson (r.onDelete.map (·.name)))]

instance : ToJson FieldDef where
  toJson d := Json.object <|
    [("type", toJson d.type), ("optional", .bool d.optional), ("unique", .bool d.unique),
      ("isEmail", .bool d.isEmail), ("locked", .bool d.locked)] ++
    Json.fieldIfAny "default" d.default ++ Json.fieldIfAny "min" d.min ++
    Json.fieldIfAny "max" d.max ++ Json.fieldIfAny "relation" d.relation ++
    Json.fieldIfAny "key" d.key?

instance : ToJson PluginTag where
  toJson t := Json.object
    [("id", .str t.id), ("basePath", toJson t.basePath), ("routePath", toJson t.routePath),
      ("internal", .bool t.isInternal)]

instance : ToJson Entity where
  toJson e := Json.object
    [("name", .str e.name), ("fields", toJson e.fields), ("rules", toJson e.rules),
      ("ownerField", toJson e.ownerField), ("timestamps", .bool e.timestamps),
      ("plugin", toJson e.plugin), ("internal", .bool e.isInternal),
      ("inputFields", toJson (e.inputFields.map Prod.fst)), ("uniqueFields", toJson e.uniqueFields)]

instance : ToJson FilterOp := ⟨fun op => .str op.name⟩

instance : ToJson SortOrder := ⟨fun o => .str o.name⟩

instance : ToJson Condition where
  toJson
    | .literal v => Json.object [("literal", v)]
    | .ops m => Json.object [("ops", toJson m)]

end EntityRest
