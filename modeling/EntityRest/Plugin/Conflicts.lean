import EntityRest.Plugin.Basic

/-!
Conflicts between plugins: routes, middleware and entities that are declared more than once.

Only declarations count, not what is made for an application. The owner of a name is the plugin that
declared it first.
-/

namespace EntityRest.Conflicts

inductive Kind where
  | route
  | middleware
  | entity
deriving DecidableEq

def Kind.label : Kind → String
  | route => "Route"
  | middleware => "Middleware"
  | entity => "Entity"

/-- Something that a plugin declares under a name. -/
structure Item where
  kind : Kind
  name : String
  plugin : String
deriving DecidableEq

/-- What a plugin declares, in the order in which it is checked. -/
def itemsOf (p : Plugin) : List Item :=
  p.routes.declared.map (⟨.route, ·.key, p.id⟩) ++
    p.middleware.declared.map (⟨.middleware, ·.name, p.id⟩) ++
    p.entities.keys.map (⟨.entity, ·, p.id⟩)

def message (i : Item) (owner : String) : String :=
  i.kind.label ++ " \"" ++ i.name ++ "\" is declared by both \"" ++ owner ++ "\" and \"" ++
    i.plugin ++ "\""

/-- What is known of the items so far: the owner of each name, kind by kind, and the messages. -/
structure Report where
  owners : Kind → OrdMap String String
  messages : List String

namespace Report

def empty : Report := ⟨fun _ => ∅, []⟩

/-- Looks at one more item: a name that has an owner gives a message, and one that has none gets it. -/
def add (r : Report) (i : Item) : Report :=
  match (r.owners i.kind).get? i.name with
  | some owner => { r with messages := r.messages ++ [message i owner] }
  | none =>
    { r with
      owners := fun kind =>
        if kind = i.kind then (r.owners kind).insert i.name i.plugin else r.owners kind }

end Report

/-- A message for each thing that was declared before. -/
def check (plugins : List Plugin) : List String :=
  (plugins.foldl (fun r p => (itemsOf p).foldl Report.add r) Report.empty).messages

end EntityRest.Conflicts
