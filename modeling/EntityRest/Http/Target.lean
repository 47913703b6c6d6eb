/-!
What a request is for: the path and the query that its URI names.

A URI starts with a slash, or is a single star, or has a scheme and a host in front of its path; any
other one is a host alone, which names no path.
-/

namespace EntityRest.Http

structure Target where
  /-- The path as it is sent. -/
  path : String
  /-- The query without its question mark. -/
  query : String

namespace Target

/-- The target of what follows the host; a fragment does not count, and the path may be left out. -/
def ofPathAndQuery (cs : List Char) : Target :=
  let cs := cs.takeWhile (· ≠ '#')
  let path := cs.takeWhile (· ≠ '?')
  ⟨if path.isEmpty then "/" else String.ofList path,
    String.ofList ((cs.dropWhile (· ≠ '?')).drop 1)⟩

def isSchemeChar (c : Char) : Bool := c.isAlphanum || c = '+' || c = '-' || c = '.' || c = '~'

/-- What follows the scheme, if there is one. -/
def afterScheme? (cs : List Char) : Option (List Char) :=
  let rest := cs.dropWhile isSchemeChar
  if "://".toList.isPrefixOf rest then some (rest.drop 3) else none

def ofUri (uri : String) : Target :=
  match uri.toList with
  | '/' :: cs => ofPathAndQuery ('/' :: cs)
  | ['*'] => ⟨"*", ""⟩
  | cs =>
    match afterScheme? cs with
    | some rest => ofPathAndQuery (rest.dropWhile fun c => c ≠ '/' && c ≠ '?' && c ≠ '#')
    | none => ⟨"", ""⟩

end Target

end EntityRest.Http
