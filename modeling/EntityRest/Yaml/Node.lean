import EntityRest.Yaml.Token

/-!
Nodes: the scalars and collections that a YAML text describes, with tags and references still in
place.

An anchor is numbered by how many different names there were before it, and a reference carries the
number that its name stands for at that point; of two anchors with one number the later one counts.
-/

namespace EntityRest.Yaml

/-- The number of an anchor, and the tag, of a node. -/
structure Properties where
  anchor : Option Nat := none
  tag : Option TagBytes := none

inductive Node where
  | reference (anchor : Nat)
  | scalar (properties : Properties) (style : ScalarStyle) (text : String)
  | seq (properties : Properties) (items : List Node)
  | map (properties : Properties) (entries : List (Node × Node))

namespace Node

/-- A node that is left out. -/
def absent (properties : Properties := {}) : Node := .scalar properties .plain ""

instance : Inhabited Node := ⟨absent⟩

mutual

/-- How many scalars and references, and starts and ends of collections, a node consists of. -/
def size : Node → Nat
  | reference _ => 1
  | scalar _ _ _ => 1
  | seq _ items => itemsSize items + 2
  | map _ entries => entriesSize entries + 2

def itemsSize : List Node → Nat
  | [] => 0
  | n :: ns => size n + itemsSize ns

def entriesSize : List (Node × Node) → Nat
  | [] => 0
  | (k, v) :: entries => size k + size v + entriesSize entries

end

def properties : Node → Properties
  | reference _ => {}
  | scalar p _ _ => p
  | seq p _ => p
  | map p _ => p

mutual

/-- The nodes with anchors, each before those inside it. -/
def anchored (n : Node) : List (Nat × Node) :=
  let own := n.properties.anchor.toList.map (·, n)
  match n with
  | seq _ items => own ++ itemsAnchored items
  | map _ entries => own ++ entriesAnchored entries
  | _ => own

def itemsAnchored : List Node → List (Nat × Node)
  | [] => []
  | n :: ns => anchored n ++ itemsAnchored ns

def entriesAnchored : List (Node × Node) → List (Nat × Node)
  | [] => []
  | (k, v) :: entries => anchored k ++ anchored v ++ entriesAnchored entries

end

end Node

end EntityRest.Yaml
