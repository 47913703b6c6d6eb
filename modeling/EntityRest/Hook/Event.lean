import EntityRest.Schema.Operation

/-!
The moments at which hooks run: before and after each operation.
-/

namespace EntityRest

inductive HookEvent where
  | before (op : Operation)
  | after (op : Operation)
deriving DecidableEq

namespace HookEvent

def capitalized (op : Operation) : String :=
  match op with
  | .create => "Create"
  | .read => "Read"
  | .update => "Update"
  | .delete => "Delete"
  | .list => "List"

def name : HookEvent → String
  | before op => "before" ++ capitalized op
  | after op => "after" ++ capitalized op

def all : List HookEvent := Operation.all.flatMap fun op => [before op, after op]

def ofName? (s : String) : Option HookEvent := all.find? (·.name == s)

end HookEvent

end EntityRest
