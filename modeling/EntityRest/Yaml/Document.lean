import EntityRest.Data.OrdMap
import EntityRest.Yaml.Node
import EntityRest.Yaml.Token.Layout

/-!
The document of a YAML text: its tokens put together to one node.

A text holds one document at most. Directives stand before it only if a mark of its start follows.
-/

namespace EntityRest.Yaml

/-- The handles of tags, with the start that each of them stands for. -/
abbrev Handles := List (String × TagBytes)

namespace Handles

/-- The handles that need no directive. -/
def standard : Handles := [("!", [0x21]), ("!!", Text.Utf8.encode "tag:yaml.org,2002:")]

/-- The handles that directives leave; no handle and no version may be given twice. -/
def ofDirectives? (ts : List Token) : Option Handles := do
  let versions := ts.filterMap fun t =>
    match t with
    | .version major minor => some (major, minor)
    | _ => none
  let own := ts.filterMap fun t =>
    match t with
    | .tagHandle handle start => some (handle, start)
    | _ => none
  let isKnown := versions.all fun v => v = (1, 1) || v = (1, 2)
  if versions.length ≤ 1 && isKnown && decide (own.map Prod.fst).Nodup then some (own ++ standard)
  else none

end Handles

/-- What is known at a point of a text: the tokens to come, and the anchors so far. -/
structure Outlook where
  tokens : List Token
  anchors : OrdMap String Nat := ∅

/-- Reading from tokens. -/
abbrev TokenReader := StateT Outlook Option

namespace TokenReader

def peek? : TokenReader (Option Token) := do pure (← get).tokens.head?

def drop : TokenReader Unit := modify fun s => { s with tokens := s.tokens.tail }

/-- Passes over a token if it comes next. -/
def accept (t : Token) : TokenReader Bool := do
  if (← peek?) = some t then
    drop
    pure true
  else pure false

def expect (t : Token) : TokenReader Unit := do if !(← accept t) then failure

/-- Whether one of some tokens comes next. -/
def sees (ts : List Token) : TokenReader Bool := do pure ((← peek?).any (· ∈ ts))

/-- The number of the anchor, if one comes next. -/
def anchor? : TokenReader (Option Nat) := do
  match ← peek? with
  | some (.anchor name) =>
    drop
    let number := (← get).anchors.size
    modify fun s => { s with anchors := s.anchors.insert name number }
    pure (some number)
  | _ => pure none

/-- The tag, if one comes next; its handle has to be known. -/
def tag? (handles : Handles) : TokenReader (Option TagBytes) := do
  match ← peek? with
  | some (.tag handle suffix) =>
    drop
    if handle = "" then pure (some suffix)
    else match handles.lookup handle with
      | some start => pure (some (start ++ suffix))
      | none => failure
  | _ => pure none

/-- An anchor and a tag, in either order. -/
def properties (handles : Handles) : TokenReader Properties := do
  let first ← anchor?
  let tag ← tag? handles
  let anchor ← if first.isSome then pure first else anchor?
  pure { anchor, tag }

def reference (name : String) : TokenReader Node := do
  match (← get).anchors.get? name with
  | some number => pure (.reference number)
  | none => failure

/-- A scalar that is written out; a tag that is a mark alone does not count. -/
def scalar (p : Properties) (style : ScalarStyle) (text : String) : Node :=
  .scalar { p with tag := p.tag.filter (· ≠ [0x21]) } style text

/-- A node that is left out, though it has an anchor or a tag. -/
def absent (p : Properties) : TokenReader Node :=
  if p.anchor.isSome || p.tag.isSome then pure (.absent p) else failure

/-- A node that is left out if one of some tokens comes next. -/
def orAbsent (gap : List Token) (node : TokenReader Node) : TokenReader Node := do
  if ← sees gap then pure .absent else node

/-- The tokens before which a key or a value of a mapping in block style is left out. -/
def entryGap : List Token := [.key, .value, .blockEnd]

mutual

/--
A node. Only outside of brackets can it be a collection in block style; as a key or a value it can
be a sequence that does not stand further right than the mapping, so that nothing but its dashes
tells where it starts and ends.
-/
def node (handles : Handles) (inBlock dashes : Bool) : Nat → TokenReader Node
  | 0 => failure
  | fuel + 1 => do
    if let some (.reference name) ← peek? then
      drop
      reference name
    else
      let p ← properties handles
      match ← peek? with
      | some (.scalar style text) =>
        drop
        pure (scalar p style text)
      | some .flowSeqStart =>
        drop
        .seq p <$> flowItems handles true fuel
      | some .flowMapStart =>
        drop
        .map p <$> flowEntries handles true fuel
      | some .blockSeqStart =>
        if inBlock then
          drop
          .seq p <$> blockItems handles fuel
        else absent p
      | some .blockMapStart =>
        if inBlock then
          drop
          .map p <$> blockEntries handles fuel
        else absent p
      | some .dash => if dashes then .seq p <$> dashItems handles fuel else absent p
      | _ => absent p

/-- The items of a sequence in block style up to its end. -/
def blockItems (handles : Handles) : Nat → TokenReader (List Node)
  | 0 => failure
  | fuel + 1 => do
    if ← accept .dash then
      let n ← orAbsent [.dash, .blockEnd] (node handles true false fuel)
      (n :: ·) <$> blockItems handles fuel
    else
      expect .blockEnd
      pure []

/-- The items of a sequence that has only its dashes. -/
def dashItems (handles : Handles) : Nat → TokenReader (List Node)
  | 0 => failure
  | fuel + 1 => do
    if ← accept .dash then
      let n ← orAbsent (.dash :: entryGap) (node handles true false fuel)
      (n :: ·) <$> dashItems handles fuel
    else pure []

/-- The entries of a mapping in block style up to its end. -/
def blockEntries (handles : Handles) : Nat → TokenReader (List (Node × Node))
  | 0 => failure
  | fuel + 1 => do
    if ← accept .key then
      let k ← orAbsent entryGap (node handles true true fuel)
      let v ← if ← accept .value then orAbsent entryGap (node handles true true fuel)
        else pure .absent
      ((k, v) :: ·) <$> blockEntries handles fuel
    else
      expect .blockEnd
      pure []

/-- The items of a sequence in brackets up to the closing one. -/
def flowItems (handles : Handles) (first : Bool) : Nat → TokenReader (List Node)
  | 0 => failure
  | fuel + 1 => do
    if ← accept .flowSeqEnd then pure []
    else
      if !first then expect .comma
      if ← accept .flowSeqEnd then pure []
      else
        let n ← if ← accept .key then flowPair handles fuel else node handles false false fuel
        (n :: ·) <$> flowItems handles false fuel

/--
A mapping of one entry, which needs no braces in a sequence. A key that is left out takes the next
token with it.
-/
def flowPair (handles : Handles) : Nat → TokenReader Node
  | 0 => failure
  | fuel + 1 => do
    let k ← if ← sees [.value, .comma, .flowSeqEnd] then
        drop
        pure .absent
      else node handles false false fuel
    let v ← if ← accept .value then
        orAbsent [.comma, .flowSeqEnd] (node handles false false fuel)
      else pure .absent
    pure (.map {} [(k, v)])

/-- The entries of a mapping in braces up to the closing one. -/
def flowEntries (handles : Handles) (first : Bool) : Nat → TokenReader (List (Node × Node))
  | 0 => failure
  | fuel + 1 => do
    if ← accept .flowMapEnd then pure []
    else
      if !first then expect .comma
      if ← accept .flowMapEnd then pure []
      else
        let marked ← accept .key
        let k ← if marked then
            orAbsent [.value, .comma, .flowMapEnd] (node handles false false fuel)
          else node handles false false fuel
        let hasValue ← if marked then accept .value else pure false
        let v ← if hasValue then orAbsent [.comma, .flowMapEnd] (node handles false false fuel)
          else pure .absent
        ((k, v) :: ·) <$> flowEntries handles false fuel

end

def isDirective : Token → Bool
  | .version _ _ => true
  | .tagHandle _ _ => true
  | _ => false

/-- The directives that come next. -/
def directives : TokenReader (List Token) := do
  let s ← get
  let ts := s.tokens.takeWhile isDirective
  set { s with tokens := s.tokens.drop ts.length }
  pure ts

/-- The node of the document; behind a mark of its start it can be left out. -/
def root : TokenReader Node := do
  let fuel := 4 * (← get).tokens.length + 8
  let ts ← directives
  if ts.isEmpty && !(← sees [.documentStart]) then node .standard true false fuel
  else
    let handles ← (Handles.ofDirectives? ts : Option Handles)
    expect .documentStart
    match ← peek? with
    | none => pure .absent
    | some t =>
      if isDirective t || t = .documentStart || t = .documentEnd then pure .absent
      else node handles true false fuel

end TokenReader

/-- A document, with what its references stand for. -/
structure Document where
  root : Node
  /-- The nodes with anchors, the last one first. -/
  anchored : List (Nat × Node)
  /-- How many references may be followed while it is read. -/
  limit : Nat

namespace Document

def ofNode (root : Node) : Document := ⟨root, root.anchored.reverse, 100 * root.size⟩

/-- The document of tokens, if there are any; marks of its end may follow it, and nothing else. -/
def ofTokens? (ts : List Token) : Option (Option Document) := do
  if ts.isEmpty then some none
  else
    let (root, rest) ← TokenReader.root.run { tokens := ts }
    if rest.tokens.all (· = .documentEnd) then some (some (ofNode root)) else none

/-- The document of a text: nothing for a text without contents. -/
def ofText? (s : String) : Option (Option Document) := do ofTokens? (← Token.ofText? s)

end Document

end EntityRest.Yaml
