import EntityRest.Schema.Entity

/-!
Entities as plugins declare them.
-/

namespace EntityRest

structure PluginEntity where
  fields : OrdMap String FieldDef := ∅
  rules : RuleSet := ∅
  ownerField : Option String := none
  timestamps : Bool := true
  /-- A required entity stays, whatever an extension asks for. -/
  required : Bool := false
  /-- An internal entity has no public routes. -/
  isInternal : Bool := false
  routePath : Option String := none

namespace PluginEntity

instance : Inhabited PluginEntity := ⟨{}⟩

/-- The declaration of an entity that is built already. -/
def ofEntity (e : Entity) : PluginEntity :=
  { fields := e.fields, rules := e.rules, ownerField := e.ownerField, timestamps := e.timestamps }

/-- The entity of a declaration. -/
def toEntity (d : PluginEntity) (name : String) (plugin : Option PluginTag) : Entity :=
  { name, fields := d.fields, rules := d.rules, ownerField := d.ownerField
    timestamps := d.timestamps, plugin }

end PluginEntity

end EntityRest
