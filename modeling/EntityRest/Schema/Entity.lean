import EntityRest.Access.Rule
import EntityRest.Data.OrdMap
import EntityRest.Schema.Field

/-!
Entities, and how they are declared.

A declaration collects fields, rules and an owner (`EntityDecl`). Building it looks up the targets
of its relations and merges the rules: for each operation an explicit rule list wins over the
default that comes with an owner.
-/

namespace EntityRest

/-- The rules of each operation, all of which must pass; an operation without a list is open. -/
abbrev RuleSet := OrdMap Operation (List Rule)

/-- Which plugin an entity comes from, and where its routes lie. -/
structure PluginTag where
  id : String
  basePath : Option String
  routePath : Option String
  isInternal : Bool
deriving DecidableEq

structure Entity where
  name : String
  fields : OrdMap String FieldDef
  rules : RuleSet
  /-- The key column that holds the id of the user who owns a record. -/
  ownerField : Option String
  timestamps : Bool
  plugin : Option PluginTag

namespace Entity

/-- An entity of which only the name is known. -/
def placeholder (name : String) : Entity := ⟨name, ∅, ∅, none, true, none⟩

instance : Inhabited Entity := ⟨placeholder ""⟩

def field? (e : Entity) (name : String) : Option FieldDef := e.fields.get? name

def rulesFor (e : Entity) (op : Operation) : Option (List Rule) := e.rules.get? op

def isInternal (e : Entity) : Bool := e.plugin.elim false (·.isInternal)

/-- The fields that clients give values for, under the keys that they use. -/
def inputFields (e : Entity) : List (String × FieldDef) :=
  e.fields.toList.filterMap fun (name, d) => (d.inputKey? name).map (·, d)

/-- The columns whose values must differ from record to record. -/
def uniqueFields (e : Entity) : List String :=
  (e.fields.toList.filter fun (_, d) => d.unique && !d.isRelation).map Prod.fst

end Entity

/-- A lower-case letter first, then ASCII letters and digits. -/
def isEntityName (s : String) : Bool :=
  match s.toList with
  | c :: cs => c.isLower && cs.all Char.isAlphanum
  | [] => false

/-- An entity that is being declared. -/
structure EntityDecl where
  name : String
  fields : OrdMap String FieldSpec
  rules : RuleSet
  /-- What the owner brings with it where no rule is given. -/
  defaultRules : RuleSet
  ownerField : Option String
  timestamps : Bool

namespace EntityDecl

/-- The first name in a list that occurred before it. -/
def firstRepeated? : List String → List String → Option String
  | _, [] => none
  | seen, name :: names =>
    if name ∈ seen then some name else firstRepeated? (name :: seen) names

/-- Starts a declaration; the name must be an identifier and the fields pairwise different. -/
def start (name : String) (fields : List (String × FieldSpec)) : Except EntityError EntityDecl :=
  if !isEntityName name then .error (.invalidName name)
  else match firstRepeated? [] (fields.map Prod.fst) with
    | some field => .error (.duplicateField name field)
    | none => .ok ⟨name, OrdMap.ofList fields, ∅, ∅, none, true⟩

/-- Sets the rules of several operations; what is set for other operations stays. -/
def withRules (d : EntityDecl) (rules : RuleSet) : EntityDecl :=
  { d with rules := d.rules.union rules }

def withRule (d : EntityDecl) (op : Operation) (rules : List Rule) : EntityDecl :=
  { d with rules := d.rules.insert op rules }

/--
The rules that come with an owner: only users may create, everyone may read and list, and only the
owner of a record may update or delete it.
-/
def ownerRules (key : String) : RuleSet :=
  OrdMap.ofList
    [(.create, [.authenticated]), (.read, [.everyone]), (.update, [.owner (some key)]),
      (.delete, [.owner (some key)]), (.list, [.everyone])]

/-- Makes a declared belongsTo relation the owner of the records. -/
def ownedBy (d : EntityDecl) (field : String) : Except EntityError EntityDecl :=
  match d.fields.get? field with
  | some (.relation r) =>
    if r.kind = .belongsTo then
      let key := r.keyFor field d.name
      .ok { d with defaultRules := ownerRules key, ownerField := some key }
    else .error (.notBelongsTo d.name field)
  | _ => .error (.notBelongsTo d.name field)

def withTimestamps (d : EntityDecl) (enabled : Bool) : EntityDecl :=
  { d with timestamps := enabled }

/-- The entity with given definitions of its fields. -/
def freeze (d : EntityDecl) (fields : OrdMap String FieldDef) : Entity :=
  { name := d.name
    fields := fields
    rules := d.defaultRules.union d.rules
    ownerField := d.ownerField
    timestamps := d.timestamps
    plugin := none }

/-- Builds the fields in their order; the first one that fails ends the work. -/
def buildFields {m : Type → Type} [Monad m] (lookup : TargetLookup m) (owner : String) :
    List (String × FieldSpec) → OrdMap String FieldDef →
      m (Except EntityError (OrdMap String FieldDef))
  | [], built => pure (.ok built)
  | (name, spec) :: specs, built => do
    match ← spec.build lookup name owner with
    | .ok d => buildFields lookup owner specs (built.insert name d)
    | .error e => pure (.error e)

def build {m : Type → Type} [Monad m] (lookup : TargetLookup m) (d : EntityDecl) :
    m (Except EntityError Entity) := do
  match ← buildFields lookup d.name d.fields.toList ∅ with
  | .ok fields => pure (.ok (d.freeze fields))
  | .error e => pure (.error e)

end EntityDecl

end EntityRest
