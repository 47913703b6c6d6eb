import EntityRest.Text.Utf8
import EntityRest.Yaml.Cursor

/-!
The tokens of a YAML text. Where a collection in block style starts and ends is told by the layout
of the text; it has tokens of its own here, so that no column is needed behind this point.
-/

namespace EntityRest.Yaml

/-- How a scalar is written. -/
inductive ScalarStyle where
  | plain
  | singleQuoted
  | doubleQuoted
  | literal
  | folded
deriving DecidableEq

/-- A tag or a part of one; escapes can spell any bytes. -/
abbrev TagBytes := List Nat

inductive Token where
  /-- The version that a text says it follows. -/
  | version (major minor : Nat)
  /-- A directive that lets a handle stand for the start of a tag. -/
  | tagHandle (handle : String) (start : TagBytes)
  | documentStart
  | documentEnd
  | blockSeqStart
  | blockMapStart
  | blockEnd
  | flowSeqStart
  | flowSeqEnd
  | flowMapStart
  | flowMapEnd
  | dash
  | comma
  | key
  | value
  /-- Names the node that follows. -/
  | anchor (name : String)
  /-- Stands for the node of a name. -/
  | reference (name : String)
  /-- A tag in two parts; an empty handle stands for nothing. -/
  | tag (handle : String) (suffix : TagBytes)
  | scalar (style : ScalarStyle) (text : String)
deriving DecidableEq

/-- Whether a character can be part of a name of an anchor, a handle or a directive. -/
def isNameChar (c : Char) : Bool := c.isAlphanum || c = '_' || c = '-'

/-- Whether a character has a meaning of its own in flow style. -/
def isFlowMark (c : Char) : Bool := c = ',' || c = '[' || c = ']' || c = '\x7b' || c = '\x7d'

end EntityRest.Yaml
