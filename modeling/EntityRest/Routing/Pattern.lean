import EntityRest.Http.Message

/-!
Path patterns: a segment after a colon stands for any one segment of a path and names it.
-/

namespace EntityRest.Pattern

/-- One segment of a pattern. -/
inductive Segment where
  | fixed (text : String)
  | param (name : String)
deriving DecidableEq

def Segment.ofText (s : String) : Segment :=
  match s.toList with
  | ':' :: name => .param (String.ofList name)
  | _ => .fixed s

def segmentsOf (pattern : String) : List Segment := (pathSegments pattern).map Segment.ofText

/-- Matches segments one by one; `params` holds what was captured so far. -/
def matchSegments (params : OrdMap String String) :
    List Segment → List String → Option (OrdMap String String)
  | [], [] => some params
  | .param name :: pattern, s :: path => matchSegments (params.insert name s) pattern path
  | .fixed text :: pattern, s :: path =>
    if text = s then matchSegments params pattern path else none
  | _, _ => none

/-- The parameters that make a pattern equal to a path, if there are any. -/
def matchPath? (pattern path : String) : Option (OrdMap String String) :=
  matchSegments ∅ (segmentsOf pattern) (pathSegments path)

/-- The segments of a pattern with its parameters filled in; a missing one is left empty. -/
def fill (params : OrdMap String String) (pattern : List Segment) : List String :=
  pattern.map fun
    | .fixed text => text
    | .param name => params.getD name ""

end EntityRest.Pattern
