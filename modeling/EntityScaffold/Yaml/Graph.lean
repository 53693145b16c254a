import EntityScaffold.Yaml.Meaning
import EntityScaffold.Yaml.Token

/-
The nodes of a settings text: scalars, sequences and mappings with what they say they are. The parts of a collection are given by the
numbers of their nodes, so that an alias is the very node that its anchor names, also within that node.
-/

namespace EntityScaffold.Yaml

/-- What a node says it is: nothing, so that its form decides; the sign that leaves it to its form even within quotes; or a name. -/
inductive Mark where
  | none
  | bare
  | named (name : Text)
  deriving DecidableEq, Repr

/-- A node. A scalar's text may have been written plainly or within quotes or as a block. -/
inductive Node where
  | scalar (mark : Mark) (isPlain : Bool) (t : Text)
  | sequence (mark : Mark) (items : List Nat)
  | mapping (mark : Mark) (entries : List (Nat × Nat))
  deriving DecidableEq, Repr

namespace Node

def nothing : Node := .scalar .none true []

def tag : Node → Tag
  | .scalar mark isPlain t =>
    match mark with
    | .named name => Tag.ofName name
    | .bare => plainTag t
    | .none => if isPlain then plainTag t else .text
  | .sequence mark _ =>
    match mark with
    | .named name => Tag.ofName name
    | _ => .sequence
  | .mapping mark _ =>
    match mark with
    | .named name => Tag.ofName name
    | _ => .mapping

def withMark (mark : Mark) : Node → Node
  | .scalar _ isPlain t => .scalar mark isPlain t
  | .sequence _ items => .sequence mark items
  | .mapping _ entries => .mapping mark entries

def entries : Node → List (Nat × Nat)
  | .mapping _ es => es
  | _ => []

end Node

/-- The state of reading: the tokens that are left, the nodes so far, the numbers of the nodes with anchors, and the handles that
tags start with. -/
structure Reading where
  tokens : List Token
  nodes : Array Node := #[]
  anchors : List (Text × Nat) := []
  handles : List (Text × Text) := []

abbrev Read (α : Type) := Reading → Except Fault (α × Reading)

namespace Reading

/-- Whether one of the given tokens comes next; the end of the tokens counts as none. -/
def nextIs (ts : List Token) (r : Reading) : Bool :=
  match r.tokens with
  | [] => false
  | t :: _ => ts.contains t

def drop (r : Reading) : Reading := { r with tokens := r.tokens.drop 1 }

def unexpected (r : Reading) : Fault :=
  match r.tokens with
  | .unreadable f :: _ => .flawed f
  | _ => .malformed

def expect (t : Token) (r : Reading) : Except Fault Reading :=
  if nextIs [t] r then .ok r.drop else .error r.unexpected

/-- The name of a tag: its handle must be known. -/
def markOf (r : Reading) (handle : Option Text) (ending : Text) : Except Fault Mark :=
  match handle with
  | none => .ok (if ending = ['!'] then .bare else .named ending)
  | some h =>
    match r.handles.lookup h with
    | none => .error .malformed
    | some leading =>
      let name := leading ++ ending
      .ok (if name = ['!'] then .bare else .named name)

/-- The anchor and the tag before a node, in either order. After one of them the next token has to be readable. -/
def properties (r : Reading) : Except Fault (Option Text × Mark × Reading) :=
  match r.tokens with
  | .anchor a :: .tag h e :: _ => do return (some a, ← markOf r h e, r.drop.drop)
  | .tag h e :: .anchor a :: _ => do return (some a, ← markOf r h e, r.drop.drop)
  | .anchor a :: _ => .ok (some a, .none, r.drop)
  | .tag _ _ :: .unreadable f :: _ => .error (.flawed f)
  | .tag h e :: _ => do return (none, ← markOf r h e, r.drop)
  | _ => .ok (none, .none, r)

def add (anchor : Option Text) (n : Node) (r : Reading) : Nat × Reading :=
  let number := r.nodes.size
  (number, { r with
    nodes := r.nodes.push n
    anchors := (anchor.toList.map fun a => (a, number)) ++ r.anchors })

/-- Gives a collection that was added without its parts what it holds. -/
def fill (number : Nat) (n : Node) (r : Reading) : Nat × Reading :=
  (number, { r with nodes := r.nodes.setIfInBounds number n })

/-- A node without content, which only an anchor or a tag makes one. -/
def empty (anchor : Option Text) (mark : Mark) : Read Nat := fun r =>
  if anchor.isNone && mark = .none then .error .malformed else .ok (r.add anchor (.scalar mark true []))

mutual

/-- A node. Outside of brackets it may be a block collection; as a mapping's key or value also a sequence that is not indented. -/
def node : Nat → Bool → Bool → Read Nat
  | 0, _, _, _ => .error .malformed
  | n + 1, isBlock, isEntry, r =>
    match r.tokens with
    | .alias name :: _ =>
      match r.anchors.lookup name with
      | some number => .ok (number, r.drop)
      | none => .error .malformed
    | _ => do
      let (anchor, mark, r) ← properties r
      if let .unreadable f :: _ := r.tokens then throw (.flawed f)
      if anchor.any fun a => (r.anchors.lookup a).isSome then throw .malformed
      match r.tokens with
      | .scalar t isPlain :: _ => return r.drop.add anchor (.scalar mark isPlain t)
      | .blockEntry :: _ =>
        if isEntry then do
          let (number, r) := r.add anchor (.sequence mark [])
          let (items, r) ← looseItems n r
          return r.fill number (.sequence mark items)
        else empty anchor mark r
      | .flowSequenceStart :: _ => do
        let (number, r) := r.drop.add anchor (.sequence mark [])
        let (items, r) ← flowItems n true r
        return r.fill number (.sequence mark items)
      | .flowMappingStart :: _ => do
        let (number, r) := r.drop.add anchor (.mapping mark [])
        let (entries, r) ← flowEntries n true r
        return r.fill number (.mapping mark entries)
      | .sequenceStart :: _ =>
        if isBlock then do
          let (number, r) := r.drop.add anchor (.sequence mark [])
          let (items, r) ← blockItems n r
          return r.fill number (.sequence mark items)
        else empty anchor mark r
      | .mappingStart :: _ =>
        if isBlock then do
          let (number, r) := r.drop.add anchor (.mapping mark [])
          let (entries, r) ← blockEntries n r
          return r.fill number (.mapping mark entries)
        else empty anchor mark r
      | _ => empty anchor mark r

/-- A node, or nothing where one of the given tokens comes next. -/
def nodeOrNothing : Nat → Bool → Bool → List Token → Read Nat
  | 0, _, _, _, _ => .error .malformed
  | n + 1, isBlock, isEntry, stops, r =>
    if nextIs stops r then .ok (r.add none .nothing) else node n isBlock isEntry r

def blockItems : Nat → Read (List Nat)
  | 0, _ => .error .malformed
  | n + 1, r =>
    if nextIs [.blockEntry] r then do
      let (t, r) ← nodeOrNothing n true false [.blockEntry, .blockEnd] r.drop
      let (ts, r) ← blockItems n r
      return (t :: ts, r)
    else do return ([], ← expect .blockEnd r)

/-- The items of a sequence that stands at the indentation of its key. -/
def looseItems : Nat → Read (List Nat)
  | 0, _ => .error .malformed
  | n + 1, r =>
    if nextIs [.blockEntry] r then do
      let (t, r) ← nodeOrNothing n true false [.blockEntry, .key, .value, .blockEnd] r.drop
      let (ts, r) ← looseItems n r
      return (t :: ts, r)
    else .ok ([], r)

def blockEntries : Nat → Read (List (Nat × Nat))
  | 0, _ => .error .malformed
  | n + 1, r =>
    if nextIs [.key] r then do
      let (k, r) ← nodeOrNothing n true true [.key, .value, .blockEnd] r.drop
      let (v, r) ← blockEntryValue n r
      let (es, r) ← blockEntries n r
      return ((k, v) :: es, r)
    else do return ([], ← expect .blockEnd r)

/-- The value of an entry, if a colon stands before it. -/
def blockEntryValue : Nat → Read Nat
  | 0, _ => .error .malformed
  | n + 1, r =>
    if nextIs [.value] r then nodeOrNothing n true true [.key, .value, .blockEnd] r.drop
    else .ok (r.add none .nothing)

/-- The items of a sequence in brackets; a comma stands before each but the first. -/
def flowItems : Nat → Bool → Read (List Nat)
  | 0, _, _ => .error .malformed
  | n + 1, isFirst, r =>
    if nextIs [.flowSequenceEnd] r then .ok ([], r.drop)
    else do
      let r ← if isFirst then .ok r else expect .flowEntry r
      if nextIs [.key] r then
        let (number, r) := r.drop.add none (.mapping .none [])
        let (k, r) ← nodeOrNothing n false false [.value, .flowEntry, .flowSequenceEnd] r
        let (v, r) ← flowValue n .flowSequenceEnd r
        let (number, r) := r.fill number (.mapping .none [(k, v)])
        let (ts, r) ← flowItems n false r
        return (number :: ts, r)
      else if nextIs [.flowSequenceEnd] r then return ([], r.drop)
      else
        let (t, r) ← node n false false r
        let (ts, r) ← flowItems n false r
        return (t :: ts, r)

/-- The value of an entry in brackets, if a colon stands before it. -/
def flowValue : Nat → Token → Read Nat
  | 0, _, _ => .error .malformed
  | n + 1, closing, r =>
    if nextIs [.value] r then nodeOrNothing n false false [.flowEntry, closing] r.drop
    else .ok (r.add none .nothing)

/-- The entries of a mapping in braces; a comma stands before each but the first. -/
def flowEntries : Nat → Bool → Read (List (Nat × Nat))
  | 0, _, _ => .error .malformed
  | n + 1, isFirst, r =>
    if nextIs [.flowMappingEnd] r then .ok ([], r.drop)
    else do
      let r ← if isFirst then .ok r else expect .flowEntry r
      if nextIs [.key] r then
        let (k, r) ← nodeOrNothing n false false [.value, .flowEntry, .flowMappingEnd] r.drop
        let (v, r) ← flowValue n .flowMappingEnd r
        let (es, r) ← flowEntries n false r
        return ((k, v) :: es, r)
      else if nextIs [.flowMappingEnd] r then return ([], r.drop)
      else
        let (k, r) ← node n false false r
        let (v, r) := r.add none .nothing
        let (es, r) ← flowEntries n false r
        return ((k, v) :: es, r)

end

/-- The handles that are known without a directive. -/
def knownHandles : List (Text × Text) := [(['!'], ['!']), (['!', '!'], "tag:yaml.org,2002:".toList)]

/-- The handles that the directives before a document give, after those given before; a handle is given once, and so is the
version, which has to be a first one. -/
def directives (version : Bool) (given : List (Text × Text)) :
    List Token → Except Fault (List (Text × Text) × List Token)
  | .directive d :: ts =>
    match d with
    | .version major _ => if version || major ≠ 1 then .error .malformed else directives true given ts
    | .handle h leading =>
      if (given.lookup h).isSome then .error .malformed else directives version (given ++ [(h, leading)]) ts
    | .unknown => directives version given ts
  | ts => .ok (given, ts)

/-- The handles and the tokens of a document that directives or the sign for its start stand before. -/
def documentStart (ts : List Token) : Except Fault (List (Text × Text) × List Token) := do
  let (given, rest) ← directives false [] ts
  match rest with
  | .documentStart :: rest => return (given ++ knownHandles, rest)
  | .unreadable f :: _ => throw (.flawed f)
  | _ => throw .malformed

def endsAtOnce : List Token → Bool
  | [] => true
  | .directive _ :: _ => true
  | .documentStart :: _ => true
  | .documentEnd :: _ => true
  | _ => false

/-- The nodes of a document and the number of its root, if nothing but the ends of documents follows it. Only after the sign for its
start a document may be empty. -/
def document (started : Bool) (handles : List (Text × Text)) (ts : List Token) : Except Fault (Array Node × Nat) := do
  let r : Reading := { tokens := ts, handles := handles }
  let (root, r) ←
    if started && endsAtOnce ts then pure (r.add none .nothing) else node (4 * ts.length + 16) true false r
  match r.tokens.dropWhile (· = .documentEnd) with
  | [] => return (r.nodes, root)
  | rest => do
    let _ ← documentStart rest
    throw .malformed

end Reading

structure Graph where
  nodes : Array Node
  root : Nat
  deriving DecidableEq, Repr

/-- The nodes of the one document that tokens make, if they make any. -/
def Graph.ofTokens? (ts : List Token) : Except Fault (Option Graph) := do
  match ts with
  | [] => return none
  | .directive _ :: _ | .documentStart :: _ =>
    let (handles, rest) ← Reading.documentStart ts
    let (nodes, root) ← Reading.document true handles rest
    return some ⟨nodes, root⟩
  | _ =>
    let (nodes, root) ← Reading.document false Reading.knownHandles ts
    return some ⟨nodes, root⟩

end EntityScaffold.Yaml
