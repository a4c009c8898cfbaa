import SourceDoc.Table
import SourceDoc.Yaml.Token

/-!
# YAML nodes

The tree that the tokens of a text write: scalars, lists and mappings with their tags.  An alias is replaced by the node
that it names.
-/

namespace SourceDoc.Yaml

/-- The tag of a node: none, the one that asks for the usual meaning, or a named one. -/
inductive Tag where
  | none
  | plain
  | named (name : Text)
  deriving DecidableEq, Repr

/-- A node. -/
inductive Node where
  | scalar (tag : Tag) (text : Text) (isPlain : Bool)
  | list (tag : Tag) (items : List Node)
  | mapping (tag : Tag) (members : List (Node × Node))
  deriving Repr

/-- The node that stands where nothing is written. -/
def Node.blank : Node := .scalar .none [] true

/-- What is left of the tokens, the nodes with names, and the short forms of tags. -/
structure Reader where
  tokens : List Token
  anchors : List (Text × Node) := []
  handles : List (Text × Text) := []
  deriving Repr

namespace Reader

/-- The reader after one token. -/
def next (r : Reader) : Reader := { r with tokens := r.tokens.drop 1 }

def here? (r : Reader) : Option Token := r.tokens.head?

/-- One of some tokens comes next. -/
def isAt (r : Reader) (ts : List Token) : Bool := r.here?.any fun t => ts.contains t

/-! ## Properties -/

/-- The front of the tags that every document knows. -/
def defaultHandles : List (Text × Text) := [(['!'], ['!']), (['!', '!'], "tag:yaml.org,2002:".toList)]

/-- The tag that a token writes. -/
def tagOf (r : Reader) (handle? : Option Text) (suffix : Text) : Except Fault Tag :=
  match handle? with
  | some handle =>
    match Table.get? handle (r.handles ++ defaultHandles) with
    | some front => .ok (.named (front ++ suffix))
    | none => .error .unknownTag
  | none => .ok (if suffix = ['!'] then .plain else .named suffix)

/-- The anchor and the tag in front of a node, in either order. -/
def properties (r : Reader) : Except Fault (Option Text × Tag × Reader) :=
  match r.tokens with
  | .anchor a :: .tag h s :: rest => (r.tagOf h s).map fun t => (some a, t, { r with tokens := rest })
  | .tag h s :: .anchor a :: rest => (r.tagOf h s).map fun t => (some a, t, { r with tokens := rest })
  | .anchor a :: rest => .ok (some a, .none, { r with tokens := rest })
  | .tag h s :: rest => (r.tagOf h s).map fun t => (none, t, { r with tokens := rest })
  | _ => .ok (none, .none, r)

/-- Names a node. -/
def name (anchor? : Option Text) (x : Node × Reader) : Except Fault (Node × Reader) :=
  match anchor? with
  | none => .ok x
  | some a =>
    if (Table.get? a x.2.anchors).isSome then .error .repeatedAnchor
    else .ok (x.1, { x.2 with anchors := (a, x.1) :: x.2.anchors })

/-! ## Nodes -/

mutual

/-- The node at the reader.  `isBlock` admits lists and mappings by indentation, `isValue` also lists that are not
indented deeper than the mapping they stand in. -/
def node (isBlock isValue : Bool) : Nat → Reader → Except Fault (Node × Reader)
  | 0, _ => .error .noValue
  | fuel + 1, r =>
    match r.here? with
    | some (.reference a) =>
      match Table.get? a r.anchors with
      | some n => .ok (n, r.next)
      | none => .error .unknownAlias
    | _ => do
      let (anchor?, tag, r) ← r.properties
      match r.here? with
      | some .entry =>
        if isValue then
          let (items, r) ← looseItems fuel r
          name anchor? (.list tag items, r)
        else if anchor?.isSome || tag ≠ .none then name anchor? (.scalar tag [] true, r)
        else .error .noValue
      | some (.scalar text isPlain) => name anchor? (.scalar tag text isPlain, r.next)
      | some .listOpen => do
        let (items, r) ← flowItems true fuel r.next
        name anchor? (.list tag items, r)
      | some .mappingOpen => do
        let (members, r) ← flowMembers true fuel r.next
        name anchor? (.mapping tag members, r)
      | t =>
        if isBlock && t = some .blockList then do
          let (items, r) ← blockItems fuel r.next
          name anchor? (.list tag items, r)
        else if isBlock && t = some .blockMapping then do
          let (members, r) ← blockMembers fuel r.next
          name anchor? (.mapping tag members, r)
        else if anchor?.isSome || tag ≠ .none then name anchor? (.scalar tag [] true, r)
        else .error .noValue

/-- The items of a block list. -/
def blockItems : Nat → Reader → Except Fault (List Node × Reader)
  | 0, _ => .error .noValue
  | fuel + 1, r =>
    match r.here? with
    | some .entry => do
      let (item, r) ← nodeUnless [.entry, .blockEnd] true false fuel r.next
      let (more, r) ← blockItems fuel r
      return (item :: more, r)
    | some .blockEnd => .ok ([], r.next)
    | _ => .error .noValue

/-- The items of a list that is not indented deeper than its mapping. -/
def looseItems : Nat → Reader → Except Fault (List Node × Reader)
  | 0, _ => .error .noValue
  | fuel + 1, r =>
    match r.here? with
    | some .entry => do
      let (item, r) ← nodeUnless [.entry, .key, .value, .blockEnd] true false fuel r.next
      let (more, r) ← looseItems fuel r
      return (item :: more, r)
    | _ => .ok ([], r)

/-- The members of a block mapping. -/
def blockMembers : Nat → Reader → Except Fault (List (Node × Node) × Reader)
  | 0, _ => .error .noValue
  | fuel + 1, r =>
    match r.here? with
    | some .key => do
      let (key, r) ← nodeUnless [.key, .value, .blockEnd] true true fuel r.next
      let (value, r) ←
        if r.isAt [.value] then nodeUnless [.key, .value, .blockEnd] true true fuel r.next else pure (Node.blank, r)
      let (more, r) ← blockMembers fuel r
      return ((key, value) :: more, r)
    | some .blockEnd => .ok ([], r.next)
    | _ => .error .noValue

/-- The items of a list between brackets. -/
def flowItems (isFirst : Bool) : Nat → Reader → Except Fault (List Node × Reader)
  | 0, _ => .error .noValue
  | fuel + 1, r =>
    if r.isAt [.listClose] then .ok ([], r.next)
    else if !isFirst && !r.isAt [.comma] then .error .unterminated
    else
      let r := if isFirst then r else r.next
      if r.isAt [.listClose] then .ok ([], r.next)
      else do
        let (item, r) ←
          if r.isAt [.key] then do
            let (key, r) ← nodeUnless [.value, .comma, .listClose] false false fuel r.next
            let (value, r) ←
              if r.isAt [.value] then nodeUnless [.comma, .listClose] false false fuel r.next else pure (Node.blank, r)
            pure (Node.mapping .none [(key, value)], r)
          else node false false fuel r
        let (more, r) ← flowItems false fuel r
        return (item :: more, r)

/-- The members of a mapping between braces. -/
def flowMembers (isFirst : Bool) : Nat → Reader → Except Fault (List (Node × Node) × Reader)
  | 0, _ => .error .noValue
  | fuel + 1, r =>
    if r.isAt [.mappingClose] then .ok ([], r.next)
    else if !isFirst && !r.isAt [.comma] then .error .unterminated
    else
      let r := if isFirst then r else r.next
      if r.isAt [.mappingClose] then .ok ([], r.next)
      else do
        let (member, r) ←
          if r.isAt [.key] then do
            let (key, r) ← nodeUnless [.value, .comma, .mappingClose] false false fuel r.next
            let (value, r) ←
              if r.isAt [.value] then nodeUnless [.comma, .mappingClose] false false fuel r.next
              else pure (Node.blank, r)
            pure ((key, value), r)
          else (node false false fuel r).map fun (key, r) => ((key, Node.blank), r)
        let (more, r) ← flowMembers false fuel r
        return (member :: more, r)

/-- The node at the reader, or the blank one where one of some tokens comes next. -/
def nodeUnless (ts : List Token) (isBlock isValue : Bool) : Nat → Reader → Except Fault (Node × Reader)
  | 0, _ => .error .noValue
  | fuel + 1, r => if r.isAt ts then .ok (Node.blank, r) else node isBlock isValue fuel r

end

/-! ## Documents -/

/-- The directives in front of a document. -/
def directives (seen : Bool) : List Token → Reader → Except Fault Reader
  | .version major :: rest, r =>
    if seen || major ≠ 1 then .error .badDirective else directives true rest { r with tokens := rest }
  | .tagHandle handle front :: rest, r =>
    if (Table.get? handle r.handles).isSome then .error .badDirective
    else directives seen rest { r with handles := (handle, front) :: r.handles, tokens := rest }
  | .directive :: rest, r => directives seen rest { r with tokens := rest }
  | _, r => .ok r

/-- A token that stands in front of a document. -/
def isHead : Token → Bool
  | .version _ => true
  | .tagHandle _ _ => true
  | .directive => true
  | .documentStart => true
  | _ => false

/-- The one document that some tokens write; none where there are no tokens. -/
def document? (ts : List Token) : Except Fault (Option Node) := do
  match ts with
  | [] => return none
  | t :: _ =>
    let r : Reader ← if isHead t then directives false ts { tokens := ts } else pure { tokens := ts }
    let r ←
      if isHead t then (if r.isAt [.documentStart] then pure r.next else .error .noValue) else pure r
    let isBare := r.tokens = [] || r.here?.any fun t => isHead t || t = .documentEnd
    let (n, r) ← if isHead t && isBare then pure (Node.blank, r) else r.node true false (4 * ts.length + 4)
    if (r.tokens.dropWhile (· = .documentEnd)) = [] then return some n else .error .manyDocuments

end Reader

end SourceDoc.Yaml
