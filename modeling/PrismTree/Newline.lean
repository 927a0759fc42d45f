import PrismTree.Node
import PrismTree.Source
import PrismTree.Trace

/-!
# Newline marks

A node is marked when it is the first statement of its scope that starts on its line. Statements
are the nodes that a list of statements holds directly, and all conditionals. The lines that are
taken are kept in a table with one entry for each line slot. A block or a lambda is a scope of its
own: inside it every line is free, and when it is left the lines that were taken outside are taken
again. A failed line lookup ends the marking, but every scope that was entered is still left.
-/
namespace PrismTree

/-- The line slots of a scope that are taken. -/
abbrev LineTable : Type := Array Bool

namespace LineTable

/-- A table in which all lines of a source are free. -/
def free (source : Source) : LineTable :=
  Array.replicate (1 + source.lineCount) false

/-- Is the line in a slot free? A slot outside the table never is. -/
def isFree (table : LineTable) (slot : Nat) : Bool :=
  table[slot]? == some false

/-- Take the line in a slot; a slot outside the table is passed over. -/
def take (table : LineTable) (slot : Nat) : LineTable :=
  table.setIfInBounds slot true

end LineTable

/-- Mark a node if the line on which it starts is free, and take that line. -/
def Node.claimLine (node : Node) (source : Source) (table : LineTable) :
    Except LineError (Node × LineTable) := do
  let slot ← source.lineSlot node.location.start
  return ({ node with newline := node.newline || table.isFree slot }, table.take slot)

namespace Kind

/-- Kinds whose nodes are statements wherever they stand. -/
def isConditional (kind : Kind) : Bool :=
  kind == .ifNode || kind == .unlessNode

/-- Kinds whose nodes are scopes of their own. -/
def isClosure (kind : Kind) : Bool :=
  kind == .blockNode || kind == .lambdaNode

end Kind

/-- The state of a marking: the lines taken in the current scope, the events so far, and the failed
lookup that ended it, if one did. -/
structure Marking where
  table : LineTable
  trace : Trace
  failure : Option LineError := none

namespace Marking

/-- Has a lookup failed? -/
def failed (marking : Marking) : Bool :=
  marking.failure.isSome

/-- Take the line on which a node starts, if the node is a statement. The answer is the newline mark
that the node has afterwards. -/
def claim (source : Source) (isStatement : Bool) (start : UInt32) (newline : Bool)
    (marking : Marking) : Bool × Marking :=
  if isStatement then
    match source.lineSlot start with
    | .ok slot =>
      (newline || marking.table.isFree slot, { marking with table := marking.table.take slot })
    | .error error => (newline, { marking with failure := some error })
  else
    (newline, marking)

/-- Enter the scope of a closure, in which all lines are free. -/
def enter (source : Source) (id : UInt32) (marking : Marking) : Marking :=
  { marking with table := LineTable.free source, trace := marking.trace.push (.scopeEntered id) }

/-- Leave the scope of a closure for one in which the given lines are taken. -/
def leave (outer : LineTable) (id : UInt32) (marking : Marking) : Marking :=
  { marking with table := outer, trace := marking.trace.push (.scopeLeft id) }

end Marking

mutual

/-- Mark the statements of a tree. Whether the root is listed as a statement is told from outside.
Once a lookup has failed, nothing changes any more. -/
def Node.mark (source : Source) (isListed : Bool) : Node → Marking → Node × Marking
  | ⟨kind, id, location, flags, newline, fields⟩, marking =>
    if marking.failed then (⟨kind, id, location, flags, newline, fields⟩, marking)
    else
      let isStatement := isListed || kind.isConditional
      let (newline, marking) := marking.claim source isStatement location.start newline
      let isList := kind == .statementsNode
      if kind.isClosure then
        if marking.failed then (⟨kind, id, location, flags, newline, fields⟩, marking)
        else
          let outer := marking.table
          let (fields, marking) := fields.mark source isList (marking.enter source id)
          (⟨kind, id, location, flags, newline, fields⟩, marking.leave outer id)
      else
        let (fields, marking) := fields.mark source isList marking
        (⟨kind, id, location, flags, newline, fields⟩, marking)

/-- Mark the statements in a list of fields. -/
def Fields.mark (source : Source) (isListed : Bool) :
    {layout : List Field} → Fields layout → Marking → Fields layout × Marking
  | _, .nil, marking => (.nil, marking)
  | _, .cons value rest, marking =>
    let (value, marking) := value.mark source isListed marking
    let (rest, marking) := rest.mark source isListed marking
    (.cons value rest, marking)

/-- Mark the statements in a field. -/
def Value.mark (source : Source) (isListed : Bool) :
    {kind : FieldKind} → Value kind → Marking → Value kind × Marking
  | _, .node child, marking =>
    let (child, marking) := child.mark source isListed marking
    (.node child, marking)
  | _, .optNode none, marking => (.optNode none, marking)
  | _, .optNode (some child), marking =>
    let (child, marking) := child.mark source isListed marking
    (.optNode (some child), marking)
  | _, .nodes children, marking =>
    let (children, marking) := Node.markAll source isListed children marking
    (.nodes children, marking)
  | _, .datum content, marking => (.datum content, marking)

/-- Mark the statements in a list of trees. -/
def Node.markAll (source : Source) (isListed : Bool) :
    List Node → Marking → List Node × Marking
  | [], marking => ([], marking)
  | node :: rest, marking =>
    let (node, marking) := node.mark source isListed marking
    let (rest, marking) := Node.markAll source isListed rest marking
    (node :: rest, marking)

end

/-- Mark the statements of a whole tree, from a table in which all lines are free. -/
def Node.markNewlines (source : Source) (root : Node) (trace : Trace) : Node × Marking :=
  root.mark source false ⟨LineTable.free source, trace, none⟩

end PrismTree
