/-!
# Traces

A load leaves a trace of what it did, in order, whether it succeeds or fails: the stages it passed,
each constant that it resolved, and each scope that it entered and left when it marked newlines.
-/
namespace PrismTree

/-- One entry of a trace. -/
inductive Event where
  | loadStarted (serializedSize sourceSize : Nat)
  | headingRead (encoding : String) (startLine : Int32) (lines : Nat)
  | remarksRead (comments magicComments errors warnings : Nat)
  | constantResolved (index : UInt32) (text : String)
  | scopeEntered (nodeId : UInt32)
  | scopeLeft (nodeId : UInt32)
  | treeDecoded (nodes constants resolved : Nat)
  | treeSkipped
  deriving DecidableEq

/-- The detail of an event: milestones of a load, or single steps. -/
inductive EventLevel where
  | milestone
  | step
  deriving DecidableEq

/-- A quantity that an event reports. -/
inductive EventValue where
  | number (value : Int)
  | text (value : String)
  deriving DecidableEq

namespace Event

/-- Constants and scopes are steps, all else is a milestone. -/
def level : Event → EventLevel
  | .constantResolved .. | .scopeEntered _ | .scopeLeft _ => .step
  | _ => .milestone

/-- Does the event cover all that follows? -/
def isSpan : Event → Bool
  | .loadStarted .. => true
  | _ => false

/-- What an event says. -/
def message : Event → String
  | .loadStarted .. => "load_with"
  | .headingRead .. => "read header"
  | .remarksRead .. => "read diagnostics"
  | .constantResolved .. => "resolved constant"
  | .scopeEntered _ => "entering closure scope"
  | .scopeLeft _ => "left closure scope"
  | .treeDecoded .. => "decoded tree"
  | .treeSkipped => "syntax errors present, skipping the tree"

/-- The quantities that an event reports, with their names. -/
def quantities : Event → List (String × EventValue)
  | .loadStarted serializedSize sourceSize =>
    [("serialized_len", .number serializedSize), ("source_len", .number sourceSize)]
  | .headingRead encoding startLine lines =>
    [("encoding", .text encoding), ("start_line", .number startLine.toInt),
      ("lines", .number lines)]
  | .remarksRead comments magicComments errors warnings =>
    [("comments", .number comments), ("magic_comments", .number magicComments),
      ("errors", .number errors), ("warnings", .number warnings)]
  | .constantResolved index text =>
    [("index", .number index.toNat), ("text", .text text)]
  | .scopeEntered nodeId | .scopeLeft nodeId => [("node_id", .number nodeId.toNat)]
  | .treeDecoded nodes constants resolved =>
    [("nodes", .number nodes), ("constants", .number constants), ("resolved", .number resolved)]
  | .treeSkipped => []

end Event

/-- The events of a load so far. -/
abbrev Trace : Type := Array Event

end PrismTree
