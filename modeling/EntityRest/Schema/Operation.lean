/-!
The five operations that every entity offers.
-/

namespace EntityRest

inductive Operation where
  | create
  | read
  | update
  | delete
  | list
deriving DecidableEq

namespace Operation

def all : List Operation := [create, read, update, delete, list]

theorem mem_all (op : Operation) : op ∈ all := by cases op <;> decide

def name : Operation → String
  | create => "create"
  | read => "read"
  | update => "update"
  | delete => "delete"
  | list => "list"

def ofName? (s : String) : Option Operation := all.find? (·.name == s)

theorem ofName?_name (op : Operation) : ofName? op.name = some op := by cases op <;> decide

end Operation

end EntityRest
