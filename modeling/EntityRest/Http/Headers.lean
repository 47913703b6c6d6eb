import EntityRest.Data.OrdMap

/-!
Header fields: values by name, in any case, where a name may have several values.
-/

namespace EntityRest

/-- The values of one header, of which there is at least one. -/
structure HeaderValues where
  first : String
  more : List String
deriving DecidableEq

namespace HeaderValues

def single (value : String) : HeaderValues := ⟨value, []⟩

def toList (vs : HeaderValues) : List String := vs.first :: vs.more

/-- Adds one more value at the end. -/
def add (vs : HeaderValues) (value : String) : HeaderValues := { vs with more := vs.more ++ [value] }

end HeaderValues

/-- The values of each header; names are kept in lower case. -/
abbrev Headers := OrdMap String HeaderValues

namespace Headers

/-- The form under which a header name is kept. -/
def nameKey (name : String) : String := String.ofList (name.toList.map Char.toLower)

/-- Whether a text can be sent as a header value: no control characters but the tab. -/
def isValidValue (value : String) : Bool :=
  value.toList.all fun c => (32 ≤ c.toNat && c.toNat ≠ 127) || c = '\t'

/-- Whether a header value can be read as text: visible ASCII, spaces and tabs. -/
def isReadable (value : String) : Bool :=
  value.toList.all fun c => (32 ≤ c.toNat && c.toNat < 127) || c = '\t'

/-- Sets the only value of a name. -/
def set (h : Headers) (name value : String) : Headers :=
  OrdMap.insert h (nameKey name) (.single value)

/-- Adds one more value under the form in which a name is kept. -/
def addUnder (h : Headers) (key value : String) : Headers :=
  OrdMap.insert h key ((h.get? key).elim (.single value) (·.add value))

/-- Adds one more value to a name. -/
def append (h : Headers) (name value : String) : Headers := h.addUnder (nameKey name) value

def valuesOf (h : Headers) (name : String) : List String :=
  (h.get? (nameKey name)).elim [] HeaderValues.toList

/-- The first value of a name, if it can be read as text. -/
def text? (h : Headers) (name : String) : Option String :=
  (h.valuesOf name).head?.filter isReadable

/-- Name and value of each header, a repeated name once for each value. -/
def pairs (h : Headers) : List (String × String) :=
  h.toList.flatMap fun (name, values) => values.toList.map (name, ·)

/-- The values of one name, of which the first comes with the name and the others without it. -/
def group (name : String) (vs : HeaderValues) : List (Option String × String) :=
  (some name, vs.first) :: vs.more.map (none, ·)

/-- All values in their order, a name with the first of its values only. -/
def items (h : Headers) : List (Option String × String) :=
  h.toList.flatMap fun (name, values) => group name values

/-- Headers that staged values are added to, and the name that has them added at the moment. -/
structure Merge where
  headers : Headers
  copying : Option String

/--
Takes the next staged value in. If it comes with a name, then the values of this name are added from
now on unless there are some of it already; the values of other names are not.
-/
def Merge.take (m : Merge) (item : Option String × String) : Merge :=
  let copying := match item.1 with
    | some name => if m.headers.contains name then none else some name
    | none => m.copying
  { headers := copying.elim m.headers (m.headers.addUnder · item.2), copying }

/-- Adds the staged headers whose names the target does not have, with all their values. -/
def merge (target staged : Headers) : Headers := (staged.items.foldl Merge.take ⟨target, none⟩).headers

end Headers

end EntityRest
