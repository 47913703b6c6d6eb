import EntityRest.Blueprint.Reader
import EntityRest.Plugin.Declaration

/-!
Blueprints of rules, fields and entities.

The target of a relation may itself be an entity declared in place, so fields and entities are read
together. `maxDepth` bounds how often they may be nested; it is more than any document that
`Json.ofText?` reads can need.
-/

namespace EntityRest

namespace Blueprint

/-- Whether a document has a field of the given value. -/
def documentHas (document : Option Json) (k : String) (v : Json) : Bool :=
  (document.bind (·.field? k)).any (·.same v)

/-- The test of a custom rule: one comparison with the context. -/
def test (j : Json) : Read (RuleContext → Except String Bool) := do
  match j with
  | .obj [("allow", .bool b)] => pure fun _ => .ok b
  | .obj [("fail", .str m)] => pure fun _ => .error m
  | .obj [("roleIs", .str s)] => pure fun ctx => .ok (ctx.user.any (·.role == some s))
  | .obj [("inputIs", p)] =>
    let (k, v) ← keyed p
    pure fun ctx => .ok (documentHas ctx.input k v)
  | .obj [("resourceIs", p)] =>
    let (k, v) ← keyed p
    pure fun ctx => .ok (documentHas ctx.resource k v)
  | .obj [("entityIs", .str s)] => pure fun ctx => .ok (ctx.entity == s)
  | .obj [("operationIs", .str s)] => pure fun ctx => .ok (ctx.operation.name == s)
  | _ => throw .malformed

def rule : Json → Read Rule
  | .str s => need (Rule.ofName? s)
  | j => do pure (.custom (← test (← field j "custom")))

def ruleLists (j : Json) (k : String) : Read (List (Operation × List Rule)) := do
  let lists ← keyedItems j k fun _ v => do (← need v.items?).mapM rule
  lists.mapM fun (op, rules) => do pure (← operation op, rules)

def bound? (j : Json) (k : String) : Option Bound :=
  match given? j k with
  | some (.num n) => some (.finite n.toDouble)
  | _ => none

/-- A field that holds values of its own. -/
def column (j : Json) : Read FieldDef := do
  let type ← need (FieldType.ofName? (← text j "type"))
  pure
    { FieldDef.ofType type with
      optional := flag j "optional"
      unique := flag j "unique"
      default := j.field? "default"
      min := bound? j "min"
      max := bound? j "max"
      isEmail := flag j "email"
      locked := flag j "locked" }

/-- A relation to a target that has been read. -/
def relation (kind : String) (target : RelationTarget) (j : Json) : Read RelationSpec := do
  pure
    { kind := ← need (RelationKind.ofName? kind)
      target
      foreignKey := text? j "foreignKey"
      references := text? j "references"
      onDelete := ← (text? j "onDelete").mapM fun s => need (OnDelete.ofName? s)
      optional := flag j "optional" }

/-- The declaration of an entity with the given fields. -/
def declaration (fields : List (String × FieldSpec)) (j : Json) : Read EntityDecl := do
  let d ← ofEntity (EntityDecl.start (← text j "name") fields)
  let d ← match given? j "rules" with
    | some _ => do pure (d.withRules (OrdMap.ofList (← ruleLists j "rules")))
    | none => pure d
  let d ← match text? j "ownedBy" with
    | some f => ofEntity (d.ownedBy f)
    | none => pure d
  let d := (← ruleLists j "rule").foldl (fun d (op, rules) => d.withRule op rules) d
  pure ((bool? j "timestamps").elim d d.withTimestamps)

def buildField (name owner : String) (spec : FieldSpec) : Read FieldDef :=
  onRegistry .entity (spec.build Registry.lookupTarget name owner)

mutual

def targetWithin : Nat → Json → Read RelationTarget
  | 0, _ => throw .malformed
  | depth + 1, j => do
    match j with
    | .str name => pure (.named name)
    | .obj [("entity", spec)] => pure (.named (← entityWithin depth spec).name)
    | .obj [("builder", .str name)] => pure (.named name)
    | .obj [("builder", spec)] => pure (.named (← declWithin depth spec).name)
    | .obj [("plugin", p)] =>
      let (plugin, entity) ← textPair p
      pure (.declared plugin entity)
    | .obj [("ref", .str text)] => pure (.reference text)
    | _ => throw .malformed

def fieldWithin : Nat → Json → Read FieldSpec
  | 0, _ => throw .malformed
  | depth + 1, j => do
    match j.field? "prebuilt", text? j "relation" with
    | some spec, _ =>
      let spec ← fieldWithin depth spec
      let name := (text? j "name").getD "field"
      let owner := (text? j "owner").getD "owner"
      pure (.defined (← buildField name owner spec))
    | none, none =>
      let d ← column j
      pure (if flag j "asDef" then .defined d else .column d)
    | none, some kind =>
      let target ← targetWithin depth (← field j "target")
      pure (.relation (← relation kind target j))

def declWithin : Nat → Json → Read EntityDecl
  | 0, _ => throw .malformed
  | depth + 1, j => do declaration (← keyedItems j "fields" fun _ => fieldWithin depth) j

def entityWithin : Nat → Json → Read Entity
  | 0, _ => throw .malformed
  | depth + 1, j => do
    match j with
    | .str name => pure (Entity.placeholder name)
    | j => onRegistry .entity ((← declWithin depth j).build Registry.lookupTarget)

end

/-- How often fields and entities may be nested in one another. -/
def maxDepth : Nat := 512

def fieldSpec (j : Json) : Read FieldSpec := fieldWithin maxDepth j

/-- An entity, or the name of one of which nothing else is known. -/
def entity (j : Json) : Read Entity := entityWithin maxDepth j

/-- A field as it is defined on an entity. -/
def fieldDef (name owner : String) (j : Json) : Read FieldDef := do
  buildField name owner (← fieldSpec j)

/-- An entity of a plugin: what an entity is turned into, if one is given, with additions. -/
def pluginEntity (name : String) (j : Json) : Read PluginEntity := do
  let start := (← optional j "fromEntity" entity).elim {} PluginEntity.ofEntity
  let fields ← keyedItems j "fields" fun field => fieldDef field name
  let rules ← ruleLists j "rules"
  pure
    { start with
      fields := start.fields.insertMany fields
      rules := start.rules.union (OrdMap.ofList rules)
      ownerField := (text? j "ownerField") <|> start.ownerField
      timestamps := (bool? j "timestamps").getD start.timestamps
      required := flag j "required" || start.required
      isInternal := flag j "internal" || start.isInternal
      routePath := (text? j "routePath") <|> start.routePath }

end Blueprint

end EntityRest
