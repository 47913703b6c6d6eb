import EntityRest.Plugin.Declaration
import EntityRest.Plugin.Handler

/-!
Extensions: what the user of a plugin changes in its entities and routes.

The changes are collected by entity, by field and by route; the functions that collect them start an
entry where there is none.
-/

namespace EntityRest

/-- The parts of a field definition to replace. -/
structure FieldPatch where
  type : Option FieldType := none
  optional : Option Bool := none
  unique : Option Bool := none
  default : Option Json := none
  min : Option Bound := none
  max : Option Bound := none
  isEmail : Option Bool := none

def FieldPatch.apply (p : FieldPatch) (d : FieldDef) : FieldDef :=
  { d with
    type := p.type.getD d.type
    optional := p.optional.getD d.optional
    unique := p.unique.getD d.unique
    default := p.default <|> d.default
    min := p.min <|> d.min
    max := p.max <|> d.max
    isEmail := p.isEmail.getD d.isEmail }

/-- What happens to one field; where a field is added, the rest does not count. -/
structure FieldChange where
  add : Option FieldDef := none
  remove : Bool := false
  rename : Option String := none
  patch : Option FieldPatch := none

/-- What happens to one entity. -/
structure EntityChange where
  fields : OrdMap String FieldChange := ∅
  /-- Fields to put in, over fields of the same names. -/
  addFields : OrdMap String FieldDef := ∅
  remove : Bool := false
  rename : Option String := none
  routePath : Option String := none
  isInternal : Option Bool := none

inductive RouteOverride where
  | disable
  | replace (handler : Handler)

/-- How an operation of an entity is served. -/
inductive RouteDecision where
  | standard
  | disable
  | custom (handler : Handler)

/-- How each operation of an entity is served. -/
abbrev RouteConfig := Operation → RouteDecision

namespace RouteConfig

/-- Every operation as usual. -/
def standard : RouteConfig := fun _ => .standard

def disabled : RouteConfig := fun _ => .disable

def set (c : RouteConfig) (op : Operation) (d : RouteDecision) : RouteConfig :=
  fun o => if o = op then d else c o

end RouteConfig

/-- A new base path for the routes of a plugin, or none at all. -/
inductive BasePathChange where
  | path (path : String)
  | root
deriving DecidableEq

structure Extension where
  entities : OrdMap String EntityChange := ∅
  /-- New entities; each gets the id of the plugin before its name. -/
  addEntities : OrdMap String PluginEntity := ∅
  /-- Changes by `METHOD /path`, or by `/path` for every method. -/
  routes : OrdMap String RouteOverride := ∅
  basePath : Option BasePathChange := none
  entityRoutes : OrdMap String RouteConfig := ∅

namespace Extension

instance : Inhabited Extension := ⟨{}⟩

def isEmpty (x : Extension) : Bool :=
  x.entities.isEmpty && x.addEntities.isEmpty && x.routes.isEmpty && x.basePath.isNone &&
    x.entityRoutes.isEmpty

def changeEntity (x : Extension) (entity : String) (f : EntityChange → EntityChange) : Extension :=
  { x with entities := x.entities.upsert entity {} f }

def changeField (x : Extension) (entity field : String) (f : FieldChange → FieldChange) :
    Extension :=
  x.changeEntity entity fun c => { c with fields := c.fields.upsert field {} f }

def removeEntity (x : Extension) (entity : String) : Extension :=
  x.changeEntity entity ({ · with remove := true })

def renameEntity (x : Extension) (entity name : String) : Extension :=
  x.changeEntity entity ({ · with rename := some name })

def withRoutePath (x : Extension) (entity path : String) : Extension :=
  x.changeEntity entity ({ · with routePath := some path })

def withInternal (x : Extension) (entity : String) (isInternal : Bool) : Extension :=
  x.changeEntity entity ({ · with isInternal := some isInternal })

/-- Puts a field in, over a field of the same name. -/
def insertField (x : Extension) (entity field : String) (d : FieldDef) : Extension :=
  x.changeEntity entity fun c => { c with addFields := c.addFields.insert field d }

def addField (x : Extension) (entity field : String) (d : FieldDef) : Extension :=
  x.changeField entity field ({ · with add := some d })

def removeField (x : Extension) (entity field : String) : Extension :=
  x.changeField entity field ({ · with remove := true })

def renameField (x : Extension) (entity field name : String) : Extension :=
  x.changeField entity field ({ · with rename := some name })

def patchField (x : Extension) (entity field : String) (p : FieldPatch) : Extension :=
  x.changeField entity field ({ · with patch := some p })

def addEntity (x : Extension) (name : String) (d : PluginEntity) : Extension :=
  { x with addEntities := x.addEntities.insert name d }

def overrideRoute (x : Extension) (key : String) (o : RouteOverride) : Extension :=
  { x with routes := x.routes.insert key o }

def withBasePath (x : Extension) (c : BasePathChange) : Extension := { x with basePath := some c }

def decide (x : Extension) (entity : String) (op : Operation) (d : RouteDecision) : Extension :=
  { x with entityRoutes := x.entityRoutes.upsert entity RouteConfig.standard (·.set op d) }

end Extension

end EntityRest
