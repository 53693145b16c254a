import EntityScaffold.Entries
import EntityScaffold.Decimal.Binary
import EntityScaffold.Yaml.Base64
import EntityScaffold.Yaml.Graph

/-
The values of nodes. A collection is met before its parts are made: all collections of one depth are gone through before
those within them, so that of several faults the one that is nested least is told, and of those the first. Mappings take in the
entries of those that they are merged with; a later entry for a key takes the place of an earlier one.
-/

namespace EntityScaffold.Yaml

open Data (Datum)

/-- A key: its datum, and the node that it was made at unless there is only one such datum at all. -/
structure Key where
  datum : Datum
  origin : Option Nat

namespace Key

def integer? : Datum → Option Int
  | .bool b => some (if b then 1 else 0)
  | .int i => some i
  | .float x => (Decimal.Binary.ofFloat x).integer?
  | _ => none

/-- Whether two keys are the same: numbers by their values, of whichever kind; what is no number is only the same as itself. -/
def same (a b : Key) : Bool :=
  match integer? a.datum, integer? b.datum with
  | some i, some j => i = j
  | _, _ =>
    match a.datum, b.datum with
    | .null, .null => true
    | .text s, .text t => s = t
    | .float x, .float y => x == y || (x.isNaN && y.isNaN && a.origin = b.origin)
    | .day d, .day e => d = e
    | .moment m, .moment n => m.same n
    | .octets s, .octets t => s = t
    | _, _ => false

end Key

def scalarValue (tag : Tag) (t : Text) : Except Fault Datum :=
  match tag with
  | .null => .ok .null
  | .bool =>
    let low := Text.lower t
    if ["yes", "true", "on"].contains (String.ofList low) then .ok (.bool true)
    else if ["no", "false", "off"].contains (String.ofList low) then .ok (.bool false)
    else .error (.flawed (.notTruthValue low))
  | .int => (integer t).map .int
  | .float => (number t).map .float
  | .timestamp => timestamp t
  | .text => .ok (.text t)
  | .octets => (octets t).map .octets
  | _ => .error .malformed

/-- Whether a tag is that of a collection, which cannot be a key. -/
def Tag.isCollection (t : Tag) : Bool := [.sequence, .mapping, .set, .orderedPairs, .pairs].contains t

/-- What has been made of a node: a scalar with its origin as a key, or the numbers of the nodes that a collection holds. -/
inductive Made where
  | scalar (d : Datum) (origin : Option Nat)
  | list (items : List Nat)
  | map (entries : List (Nat × Nat))
  | set (entries : List (Nat × Nat))
  | pairs (entries : List (Nat × Nat))

/-- The state of making values: the nodes, in which merges are carried out on the way, what has been made of each, and the collections
whose parts are to be made yet. -/
structure Making where
  nodes : Array Node
  made : Array (Option Made)
  waiting : List Nat := []

namespace Making

def node (m : Making) (i : Nat) : Node := m.nodes[i]?.getD .nothing

def setNode (m : Making) (i : Nat) (n : Node) : Making := { m with nodes := m.nodes.setIfInBounds i n }

def setMade (m : Making) (i : Nat) (v : Made) : Making := { m with made := m.made.setIfInBounds i (some v) }

def madeAt (m : Making) (i : Nat) : Option Made := (m.made[i]?).join

def tag (m : Making) (i : Nat) : Tag := (m.node i).tag

def textMark : Mark := .named "tag:yaml.org,2002:str".toList

/-- Takes an entry of a mapping in a merge: a key that is the sign for a value becomes a text. -/
def settleKey (m : Making) (i : Nat) : Making :=
  if m.tag i = .value then m.setNode i ((m.node i).withMark textMark) else m

def withEntries (m : Making) (i : Nat) (es : List (Nat × Nat)) : Making :=
  match m.node i with
  | .mapping mark _ => m.setNode i (.mapping mark es)
  | _ => m

/-- Does a step for each of a list of nodes in turn, and joins what the steps give; the last goes in front. -/
def joinedLastFirst (f : Making → Nat → Except Fault (List (Nat × Nat) × Making)) :
    Making → List Nat → Except Fault (List (Nat × Nat) × Making)
  | m, [] => .ok ([], m)
  | m, i :: is => do
    let (es, m) ← f m i
    let (later, m) ← joinedLastFirst f m is
    return (later ++ es, m)

/-- Merges a mapping: the entries of those that it is merged with come in front of its own. Gives all its entries. The number bounds
how deep merges are nested. -/
def merge : Nat → Making → Nat → Except Fault (List (Nat × Nat) × Making)
  | 0, _, _ => .error .malformed
  | n + 1, m, i => do
    let all := (m.node i).entries
    let own := all.filter fun e => m.tag e.1 ≠ .merge
    let part (m : Making) (j : Nat) : Except Fault (List (Nat × Nat) × Making) :=
      match m.node j with
      | .mapping .. => merge n m j
      | _ => .error .malformed
    let step (s : List (Nat × Nat) × Making) (e : Nat × Nat) : Except Fault (List (Nat × Nat) × Making) :=
      if s.2.tag e.1 = .merge then do
        let (es, m) ← match s.2.node e.2 with
          | .sequence _ items => joinedLastFirst part s.2 items
          | _ => part s.2 e.2
        return (s.1 ++ es, m)
      else .ok (s.1, s.2.settleKey e.1)
    let (merged, m) ← all.foldlM step ([], m.withEntries i own)
    let entries := merged ++ (m.node i).entries
    return (entries, m.withEntries i entries)

/-- The text of a mapping that stands for a scalar: the value of its entry with the sign for a value. -/
def textAt : Nat → Making → Nat → Except Fault Text
  | 0, _, _ => .error .malformed
  | n + 1, m, i =>
    match m.node i with
    | .scalar _ _ t => .ok t
    | .mapping _ entries =>
      match entries.find? fun e => m.tag e.1 = .value with
      | some e => textAt n m e.2
      | none => .error .malformed
    | .sequence .. => .error .malformed

def bound (m : Making) : Nat := m.nodes.size + 1

/-- The value of a scalar, or of a mapping that stands for one. -/
def scalarAt (m : Making) (i : Nat) : Except Fault Made := do
  let t ← m.textAt m.bound i
  let tag := m.tag i
  match tag, m.node i with
  | .timestamp, .mapping .. => throw (.flawed .momentOfMapping)
  | _, _ => return .scalar (← scalarValue tag t) (if isSharedNan t then none else some i)

/-- Meets a node: a scalar is made, and a collection put on the list of those whose parts are to be made. -/
def meet (m : Making) (i : Nat) : Except Fault Making :=
  match m.madeAt i with
  | some _ => .ok m
  | none =>
    if (m.tag i).isCollection then .ok { m.setMade i (.list []) with waiting := m.waiting ++ [i] }
    else (m.scalarAt i).map (m.setMade i)

def meetPair (m : Making) (e : Nat × Nat) : Except Fault Making := do (← m.meet e.1).meet e.2

/-- Meets the two nodes of a mapping's entry, of which the first has to be able to be a key. -/
def meetEntry (m : Making) (e : Nat × Nat) : Except Fault Making :=
  if (m.tag e.1).isCollection then .error .malformed else m.meetPair e

/-- The one entry of a mapping, as an item of a sequence of pairs. -/
def pairAt (m : Making) (i : Nat) : Except Fault (Nat × Nat) :=
  match m.node i with
  | .mapping _ [e] => .ok e
  | _ => .error .malformed

/-- Meets the entries of a sequence of pairs one after the other. -/
def meetPairs : Making → List Nat → Except Fault (List (Nat × Nat) × Making)
  | m, [] => .ok ([], m)
  | m, i :: is => do
    let e ← m.pairAt i
    let (es, m) ← meetPairs (← m.meetPair e) is
    return (e :: es, m)

def makeParts (m : Making) (i : Nat) : Except Fault Making := do
  match m.tag i, m.node i with
  | .sequence, .sequence _ items => return (← items.foldlM meet m).setMade i (.list items)
  | .mapping, .mapping .. =>
    let (entries, m) ← merge m.bound m i
    return (← entries.foldlM meetEntry m).setMade i (.map entries)
  | .set, .mapping .. =>
    let (entries, m) ← merge m.bound m i
    return (← entries.foldlM meetEntry m).setMade i (.set entries)
  | .orderedPairs, .sequence _ items | .pairs, .sequence _ items =>
    let (entries, m) ← m.meetPairs items
    return m.setMade i (.pairs entries)
  | _, _ => throw .malformed

/-- Makes the parts of all collections on the list, and of those that are met on the way. -/
def finish : Nat → Making → Except Fault Making
  | 0, m => .ok m
  | n + 1, m =>
    match m.waiting with
    | [] => .ok m
    | i :: is => do finish n (← { m with waiting := is }.makeParts i)

/-- The entries of a map from all entries in their order. -/
def mapOf {α : Type} (entries : List (Key × α)) : List (Datum × α) :=
  (entries.foldl (fun es e => Entries.putBy Key.same e.1 e.2 es) []).map fun e => (e.1.datum, e.2)

def keyAt (m : Making) (i : Nat) : Key :=
  match m.madeAt i with
  | some (.scalar d origin) => ⟨d, origin⟩
  | _ => ⟨.null, some i⟩

/-- The datum of a node within the given nodes; a node within itself is empty. The number bounds how deep nodes are nested. -/
def datumAt (m : Making) : Nat → List Nat → Nat → Datum
  | 0, _, _ => .null
  | n + 1, around, i =>
    let part (j : Nat) : Datum := datumAt m n (i :: around) j
    let isOpen := around.contains i
    match m.madeAt i with
    | none => .null
    | some (.scalar d _) => d
    | some (.list items) => .list (if isOpen then [] else items.map part)
    | some (.pairs es) => .list (if isOpen then [] else es.map fun e => .list [part e.1, part e.2])
    | some (.map es) => .map (if isOpen then [] else mapOf (es.map fun e => (m.keyAt e.1, part e.2)))
    | some (.set es) => .set (if isOpen then [] else (mapOf (es.map fun e => (m.keyAt e.1, ()))).map (·.1))

end Making

def Graph.value (g : Graph) : Except Fault Datum := do
  let m : Making := { nodes := g.nodes, made := g.nodes.map fun _ => none }
  let m ← Making.finish (g.nodes.size + 1) (← m.meet g.root)
  return m.datumAt m.bound [] g.root

/-- Reads a settings text: the value of its one document, and null if it has none. -/
def read (t : Text) : Except Fault Datum := do
  match ← Graph.ofTokens? (← tokens t) with
  | none => return .null
  | some g => g.value

end EntityScaffold.Yaml
