import EntityRest.Error
import EntityRest.Json.Basic

/-!
Fields of an entity: scalar columns, and relations to other entities.

A declared field (`FieldSpec`) becomes a definition (`FieldDef`) when its entity is built; the
target of a relation is looked up at that time.
-/

namespace EntityRest

inductive FieldType where
  | string
  | text
  | int
  | float
  | boolean
  | datetime
  | json
deriving DecidableEq

namespace FieldType

def all : List FieldType := [string, text, int, float, boolean, datetime, json]

def name : FieldType → String
  | string => "string"
  | text => "text"
  | int => "int"
  | float => "float"
  | boolean => "boolean"
  | datetime => "datetime"
  | json => "json"

def ofName? (s : String) : Option FieldType := all.find? (·.name == s)

end FieldType

inductive RelationKind where
  | belongsTo
  | hasMany
  | hasOne
deriving DecidableEq

namespace RelationKind

def name : RelationKind → String
  | belongsTo => "belongsTo"
  | hasMany => "hasMany"
  | hasOne => "hasOne"

def ofName? (s : String) : Option RelationKind := [belongsTo, hasMany, hasOne].find? (·.name == s)

end RelationKind

/-- What happens to a record when the record that it refers to is deleted. -/
inductive OnDelete where
  | cascade
  | setNull
  | restrict
  | noAction
deriving DecidableEq

namespace OnDelete

def name : OnDelete → String
  | cascade => "cascade"
  | setNull => "setNull"
  | restrict => "restrict"
  | noAction => "noAction"

def ofName? (s : String) : Option OnDelete :=
  [cascade, setNull, restrict, noAction].find? (·.name == s)

end OnDelete

/-- A relation of a built entity. -/
structure Relation where
  kind : RelationKind
  target : String
  /-- The key column: on the record itself for belongsTo, on the related records otherwise. -/
  foreignKey : String
  /-- The column whose values the key holds. -/
  references : String
  onDelete : Option OnDelete
deriving DecidableEq

/-- The definition of one field. -/
structure FieldDef where
  type : FieldType
  optional : Bool
  unique : Bool
  default : Option Json
  min : Option Bound
  max : Option Bound
  isEmail : Bool
  /-- A locked field stays, whatever an extension of its plugin asks for. -/
  locked : Bool
  relation : Option Relation

namespace FieldDef

def ofType (type : FieldType) : FieldDef :=
  ⟨type, false, false, none, none, none, false, false, none⟩

instance : Inhabited FieldDef := ⟨ofType .string⟩

def isRelation (d : FieldDef) : Bool := d.relation.isSome

/-- The belongsTo relation of a field, the only kind that stores a key on the record. -/
def belongsTo? (d : FieldDef) : Option Relation := d.relation.filter (·.kind = .belongsTo)

/-- The key column that a field adds to the records of its entity. -/
def key? (d : FieldDef) : Option String := d.belongsTo?.map (·.foreignKey)

/--
The key under which clients give the value of a field: its name for a column, the foreign key for a
belongsTo relation, and none for the other relations, which store nothing on the record.
-/
def inputKey? (name : String) (d : FieldDef) : Option String :=
  match d.relation with
  | none => some name
  | some _ => d.key?

end FieldDef

/-- How the target of a relation is named. -/
inductive RelationTarget where
  | named (entity : String)
  /-- An entity that a plugin declares. -/
  | declared (plugin entity : String)
  /-- A text of the form `plugin.entity` or `entity`. -/
  | reference (text : String)
deriving DecidableEq

/-- A relation as it is declared. -/
structure RelationSpec where
  kind : RelationKind
  target : RelationTarget
  foreignKey : Option String
  references : Option String
  onDelete : Option OnDelete
  optional : Bool
deriving DecidableEq

namespace RelationSpec

/-- The given key, or else one made from the field for belongsTo and from the owner otherwise. -/
def keyFor (r : RelationSpec) (field owner : String) : String :=
  match r.foreignKey with
  | some key => key
  | none => (if r.kind = .belongsTo then field else owner) ++ "Id"

/-- The definition of the relation, once the name of its target is known. -/
def define (r : RelationSpec) (field owner target : String) : FieldDef :=
  { FieldDef.ofType .string with
    optional := r.optional
    relation := some
      { kind := r.kind
        target := target
        foreignKey := r.keyFor field owner
        references := r.references.getD "id"
        onDelete := r.onDelete } }

end RelationSpec

/-- A field as it is declared. -/
inductive FieldSpec where
  | column (d : FieldDef)
  | relation (r : RelationSpec)
  /-- A definition that is finished already. -/
  | defined (d : FieldDef)

/-- How relation targets are looked up. -/
abbrev TargetLookup (m : Type → Type) := RelationTarget → m (Except PluginError String)

/-- The definition of a declared field. -/
def FieldSpec.build {m : Type → Type} [Monad m] (lookup : TargetLookup m) (field owner : String) :
    FieldSpec → m (Except EntityError FieldDef)
  | column d => pure (.ok d)
  | defined d => pure (.ok d)
  | relation r => do
    match ← lookup r.target with
    | .ok target => pure (.ok (r.define field owner target))
    | .error e => pure (.error (.unresolvedRelation owner field e))

end EntityRest
