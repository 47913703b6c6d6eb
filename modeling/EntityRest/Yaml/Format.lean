import EntityRest.Document.Format
import EntityRest.Yaml.Document
import EntityRest.Yaml.Scalar

/-!
Reading values from YAML documents.

A tag counts in three ways: one of the core tags tells what kind of value a scalar of any style is,
a tag of the document's own names a word, and every other tag says nothing. References are followed
where a value is asked for; how often, and how deep collections may lie, is limited.
-/

namespace EntityRest.Yaml

namespace Tag

/-- The tag of a kind that every document knows. -/
def core (kind : String) : TagBytes := Text.Utf8.encode ("tag:yaml.org,2002:" ++ kind)

/-- Whether a tag is the document's own. -/
def isOwn (t : TagBytes) : Bool := t.head? = some 0x21

/-- The name of a tag of the document's own, if it is a text. -/
def ownName? (t : TagBytes) : Option String :=
  let name := if t.length = 1 then t else t.drop 1
  let text := String.ofList (Text.Utf8.decode name)
  if isOwn t && Text.Utf8.encode text = name then some text else none

end Tag

namespace Properties

def ownName? (p : Properties) : Option String := p.tag.bind Tag.ownName?

def hasCore (p : Properties) (kind : String) : Bool := p.tag == some (Tag.core kind)

end Properties

/-- The value of a scalar, told by its tag or by its text. -/
def jsonOfScalar? (p : Properties) (style : ScalarStyle) (text : String) : Option Json :=
  let own := if style = .plain then jsonOfText? text else some (.str text)
  match p.tag with
  | none => own
  | some tag =>
    if p.ownName?.isSome then none
    else if tag = Tag.core "bool" then (boolOfText? text).map .bool
    else if tag = Tag.core "int" then (jsonOfInt? text).join
    else if tag = Tag.core "float" then (boundOfText? text).map jsonOfBound
    else if tag = Tag.core "null" then if isNullWord text then some .null else none
    else if Tag.isOwn tag then own
    else some (.str text)

/-- A node of a document, and how many collections may still lie in one another from there on. -/
structure Place where
  node : Node
  depth : Nat

/-- Reading that counts the references that it follows. -/
abbrev Reading := StateT Nat Option

namespace Document

variable (d : Document)

/-- How deep collections may lie in one another. -/
def maxDepth : Nat := 128

def start : Place := ⟨d.root, maxDepth⟩

/-- The node that is meant: a reference is followed, unless that was done too often. -/
def follow (n : Node) : Reading Node :=
  match n with
  | .reference number => do
    let followed ← get
    if d.limit ≤ followed then failure
    else
      set (followed + 1)
      d.anchored.lookup number
  | n => pure n

/-- A plain scalar without text stands for a collection without members. -/
def isEmpty : Node → Bool
  | .scalar _ .plain "" => true
  | _ => false

def inside (depth : Nat) (members : List Node) : Reading (List Place) :=
  match depth with
  | 0 => failure
  | depth + 1 => pure (members.map (⟨·, depth⟩))

def items (p : Place) : Reading (List Place) := do
  match ← d.follow p.node with
  | .seq _ ns => inside p.depth ns
  | n => if isEmpty n then pure [] else failure

/-- The text of a scalar, whatever its style and tag. -/
def text (n : Node) : Reading String := do
  match ← d.follow n with
  | .scalar _ _ s => pure s
  | _ => failure

def entries (p : Place) : Reading (List (String × Place)) := do
  match ← d.follow p.node with
  | .map _ es =>
    let keys ← es.mapM fun (k, _) => d.text k
    pure (keys.zip (← inside p.depth (es.map Prod.snd)))
  | n => if isEmpty n then pure [] else failure

/-- A scalar of a kind: a plain one, or one in a literal block with the core tag of the kind. -/
def ofKind {α : Type} (kind : String) (read : String → Option α) (n : Node) : Reading α := do
  match ← d.follow n with
  | .scalar p style s =>
    if style = .plain || (style = .literal && p.hasCore kind) then read s else failure
  | _ => failure

/-- A word is the text of a scalar, or the name of its tag if nothing else is written. -/
def word (n : Node) : Reading String := do
  match ← d.follow n with
  | .scalar p style s =>
    match p.ownName? with
    | none => pure s
    | some name => if style = .plain && isNullText s then pure name else failure
  | _ => failure

/-- The place of a value that is not null. -/
def present (p : Place) : Reading (Option Place) := do
  let n ← d.follow p.node
  let present := some { p with node := n }
  match n with
  | .scalar q .plain s =>
    if q.hasCore "null" then if isNullWord s then pure none else failure
    else pure (if q.tag.isNone && isNullText s then none else present)
  | _ => pure present

/-- The value of a node; of a repeated key the last entry counts. -/
def json (depth : Nat) (n : Node) : Reading Json := do
  match depth, ← d.follow n with
  | _, .scalar p style s => jsonOfScalar? p style s
  | depth + 1, .seq p ns =>
    if p.ownName?.isSome then failure else .arr <$> ns.mapM (json depth)
  | depth + 1, .map p es =>
    if p.ownName?.isSome then failure
    else
      let fields ← es.mapM fun (k, v) => do pure (← d.text k, ← json depth v)
      pure (.obj (fields.foldl (fun fs (k, j) => Fields.insert fs k j) []))
  | _, _ => failure

/-- How kinds of values are written in a document. -/
def format : Format Reading Place where
  present := d.present
  string p := d.text p.node
  word p := d.word p.node
  bool p := d.ofKind "bool" boolOfText? p.node
  nat p := d.ofKind "int" nat64OfText? p.node
  bound p := d.ofKind "float" boundOfText? p.node
  list := d.items
  entries := d.entries
  members _ := d.entries
  value p := d.json p.depth p.node

/-- Reads the whole document. -/
def read? {α : Type} (read : Format Reading Place → Place → Reading α) : Option α :=
  (read d.format d.start).run' 0

end Document

end EntityRest.Yaml
