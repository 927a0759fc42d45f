import PrismTree.Node.Field

/-!
# Kinds of nodes

The 151 kinds of syntax tree nodes, in the order of their wire tags. A tag is the position of its
kind in this order, counted from one; zero is no tag, since a zero byte stands for an absent child.
Each kind has a name and a layout, the list of its fields in the order in which they are
serialized, and everything that depends on the kind of a node is read off this one table.
-/
namespace PrismTree

/-- The kind of a syntax tree node. -/
inductive Kind where
  | aliasGlobalVariableNode
  | aliasMethodNode
  | alternationPatternNode
  | andNode
  | argumentsNode
  | arrayNode
  | arrayPatternNode
  | assocNode
  | assocSplatNode
  | backReferenceReadNode
  | beginNode
  | blockArgumentNode
  | blockLocalVariableNode
  | blockNode
  | blockParameterNode
  | blockParametersNode
  | breakNode
  | callAndWriteNode
  | callNode
  | callOperatorWriteNode
  | callOrWriteNode
  | callTargetNode
  | capturePatternNode
  | caseMatchNode
  | caseNode
  | classNode
  | classVariableAndWriteNode
  | classVariableOperatorWriteNode
  | classVariableOrWriteNode
  | classVariableReadNode
  | classVariableTargetNode
  | classVariableWriteNode
  | constantAndWriteNode
  | constantOperatorWriteNode
  | constantOrWriteNode
  | constantPathAndWriteNode
  | constantPathNode
  | constantPathOperatorWriteNode
  | constantPathOrWriteNode
  | constantPathTargetNode
  | constantPathWriteNode
  | constantReadNode
  | constantTargetNode
  | constantWriteNode
  | defNode
  | definedNode
  | elseNode
  | embeddedStatementsNode
  | embeddedVariableNode
  | ensureNode
  | falseNode
  | findPatternNode
  | flipFlopNode
  | floatNode
  | forNode
  | forwardingArgumentsNode
  | forwardingParameterNode
  | forwardingSuperNode
  | globalVariableAndWriteNode
  | globalVariableOperatorWriteNode
  | globalVariableOrWriteNode
  | globalVariableReadNode
  | globalVariableTargetNode
  | globalVariableWriteNode
  | hashNode
  | hashPatternNode
  | ifNode
  | imaginaryNode
  | implicitNode
  | implicitRestNode
  | inNode
  | indexAndWriteNode
  | indexOperatorWriteNode
  | indexOrWriteNode
  | indexTargetNode
  | instanceVariableAndWriteNode
  | instanceVariableOperatorWriteNode
  | instanceVariableOrWriteNode
  | instanceVariableReadNode
  | instanceVariableTargetNode
  | instanceVariableWriteNode
  | integerNode
  | interpolatedMatchLastLineNode
  | interpolatedRegularExpressionNode
  | interpolatedStringNode
  | interpolatedSymbolNode
  | interpolatedXStringNode
  | itLocalVariableReadNode
  | itParametersNode
  | keywordHashNode
  | keywordRestParameterNode
  | lambdaNode
  | localVariableAndWriteNode
  | localVariableOperatorWriteNode
  | localVariableOrWriteNode
  | localVariableReadNode
  | localVariableTargetNode
  | localVariableWriteNode
  | matchLastLineNode
  | matchPredicateNode
  | matchRequiredNode
  | matchWriteNode
  | missingNode
  | moduleNode
  | multiTargetNode
  | multiWriteNode
  | nextNode
  | nilNode
  | noKeywordsParameterNode
  | numberedParametersNode
  | numberedReferenceReadNode
  | optionalKeywordParameterNode
  | optionalParameterNode
  | orNode
  | parametersNode
  | parenthesesNode
  | pinnedExpressionNode
  | pinnedVariableNode
  | postExecutionNode
  | preExecutionNode
  | programNode
  | rangeNode
  | rationalNode
  | redoNode
  | regularExpressionNode
  | requiredKeywordParameterNode
  | requiredParameterNode
  | rescueModifierNode
  | rescueNode
  | restParameterNode
  | retryNode
  | returnNode
  | selfNode
  | shareableConstantNode
  | singletonClassNode
  | sourceEncodingNode
  | sourceFileNode
  | sourceLineNode
  | splatNode
  | statementsNode
  | stringNode
  | superNode
  | symbolNode
  | trueNode
  | undefNode
  | unlessNode
  | untilNode
  | whenNode
  | whileNode
  | xStringNode
  | yieldNode
  deriving DecidableEq

namespace Kind

/-- What the table records of one kind: its name, and its fields in serialization order. -/
structure Entry where
  name : String
  layout : List Field

/-- The table of kinds. -/
def entry : Kind → Entry
  | .aliasGlobalVariableNode => ⟨"AliasGlobalVariableNode",
      [⟨"new_name", .node⟩, ⟨"old_name", .node⟩]⟩
  | .aliasMethodNode => ⟨"AliasMethodNode", [⟨"new_name", .node⟩, ⟨"old_name", .node⟩]⟩
  | .alternationPatternNode => ⟨"AlternationPatternNode", [⟨"left", .node⟩, ⟨"right", .node⟩]⟩
  | .andNode => ⟨"AndNode", [⟨"left", .node⟩, ⟨"right", .node⟩]⟩
  | .argumentsNode => ⟨"ArgumentsNode", [⟨"arguments", .nodes⟩]⟩
  | .arrayNode => ⟨"ArrayNode", [⟨"elements", .nodes⟩]⟩
  | .arrayPatternNode => ⟨"ArrayPatternNode",
      [⟨"constant", .optNode⟩, ⟨"requireds", .nodes⟩, ⟨"rest", .optNode⟩, ⟨"posts", .nodes⟩]⟩
  | .assocNode => ⟨"AssocNode", [⟨"key", .node⟩, ⟨"value", .node⟩]⟩
  | .assocSplatNode => ⟨"AssocSplatNode", [⟨"value", .optNode⟩]⟩
  | .backReferenceReadNode => ⟨"BackReferenceReadNode", [⟨"name", .constant⟩]⟩
  | .beginNode => ⟨"BeginNode",
      [⟨"statements", .optNode⟩, ⟨"rescue_clause", .optNode⟩, ⟨"else_clause", .optNode⟩,
       ⟨"ensure_clause", .optNode⟩]⟩
  | .blockArgumentNode => ⟨"BlockArgumentNode", [⟨"expression", .optNode⟩]⟩
  | .blockLocalVariableNode => ⟨"BlockLocalVariableNode", [⟨"name", .constant⟩]⟩
  | .blockNode => ⟨"BlockNode",
      [⟨"locals", .constants⟩, ⟨"parameters", .optNode⟩, ⟨"body", .optNode⟩]⟩
  | .blockParameterNode => ⟨"BlockParameterNode", [⟨"name", .optConstant⟩]⟩
  | .blockParametersNode => ⟨"BlockParametersNode", [⟨"parameters", .optNode⟩, ⟨"locals", .nodes⟩]⟩
  | .breakNode => ⟨"BreakNode", [⟨"arguments", .optNode⟩]⟩
  | .callAndWriteNode => ⟨"CallAndWriteNode",
      [⟨"receiver", .optNode⟩, ⟨"read_name", .constant⟩, ⟨"write_name", .constant⟩,
       ⟨"value", .node⟩]⟩
  | .callNode => ⟨"CallNode",
      [⟨"receiver", .optNode⟩, ⟨"name", .constant⟩, ⟨"arguments", .optNode⟩, ⟨"block", .optNode⟩]⟩
  | .callOperatorWriteNode => ⟨"CallOperatorWriteNode",
      [⟨"receiver", .optNode⟩, ⟨"read_name", .constant⟩, ⟨"write_name", .constant⟩,
       ⟨"binary_operator", .constant⟩, ⟨"value", .node⟩]⟩
  | .callOrWriteNode => ⟨"CallOrWriteNode",
      [⟨"receiver", .optNode⟩, ⟨"read_name", .constant⟩, ⟨"write_name", .constant⟩,
       ⟨"value", .node⟩]⟩
  | .callTargetNode => ⟨"CallTargetNode", [⟨"receiver", .node⟩, ⟨"name", .constant⟩]⟩
  | .capturePatternNode => ⟨"CapturePatternNode", [⟨"value", .node⟩, ⟨"target", .node⟩]⟩
  | .caseMatchNode => ⟨"CaseMatchNode",
      [⟨"predicate", .optNode⟩, ⟨"conditions", .nodes⟩, ⟨"else_clause", .optNode⟩]⟩
  | .caseNode => ⟨"CaseNode",
      [⟨"predicate", .optNode⟩, ⟨"conditions", .nodes⟩, ⟨"else_clause", .optNode⟩]⟩
  | .classNode => ⟨"ClassNode",
      [⟨"locals", .constants⟩, ⟨"constant_path", .node⟩, ⟨"superclass", .optNode⟩,
       ⟨"body", .optNode⟩, ⟨"name", .constant⟩]⟩
  | .classVariableAndWriteNode => ⟨"ClassVariableAndWriteNode",
      [⟨"name", .constant⟩, ⟨"value", .node⟩]⟩
  | .classVariableOperatorWriteNode => ⟨"ClassVariableOperatorWriteNode",
      [⟨"name", .constant⟩, ⟨"value", .node⟩, ⟨"binary_operator", .constant⟩]⟩
  | .classVariableOrWriteNode => ⟨"ClassVariableOrWriteNode",
      [⟨"name", .constant⟩, ⟨"value", .node⟩]⟩
  | .classVariableReadNode => ⟨"ClassVariableReadNode", [⟨"name", .constant⟩]⟩
  | .classVariableTargetNode => ⟨"ClassVariableTargetNode", [⟨"name", .constant⟩]⟩
  | .classVariableWriteNode => ⟨"ClassVariableWriteNode", [⟨"name", .constant⟩, ⟨"value", .node⟩]⟩
  | .constantAndWriteNode => ⟨"ConstantAndWriteNode", [⟨"name", .constant⟩, ⟨"value", .node⟩]⟩
  | .constantOperatorWriteNode => ⟨"ConstantOperatorWriteNode",
      [⟨"name", .constant⟩, ⟨"value", .node⟩, ⟨"binary_operator", .constant⟩]⟩
  | .constantOrWriteNode => ⟨"ConstantOrWriteNode", [⟨"name", .constant⟩, ⟨"value", .node⟩]⟩
  | .constantPathAndWriteNode => ⟨"ConstantPathAndWriteNode", [⟨"target", .node⟩, ⟨"value", .node⟩]⟩
  | .constantPathNode => ⟨"ConstantPathNode", [⟨"parent", .optNode⟩, ⟨"name", .optConstant⟩]⟩
  | .constantPathOperatorWriteNode => ⟨"ConstantPathOperatorWriteNode",
      [⟨"target", .node⟩, ⟨"value", .node⟩, ⟨"binary_operator", .constant⟩]⟩
  | .constantPathOrWriteNode => ⟨"ConstantPathOrWriteNode", [⟨"target", .node⟩, ⟨"value", .node⟩]⟩
  | .constantPathTargetNode => ⟨"ConstantPathTargetNode",
      [⟨"parent", .optNode⟩, ⟨"name", .optConstant⟩]⟩
  | .constantPathWriteNode => ⟨"ConstantPathWriteNode", [⟨"target", .node⟩, ⟨"value", .node⟩]⟩
  | .constantReadNode => ⟨"ConstantReadNode", [⟨"name", .constant⟩]⟩
  | .constantTargetNode => ⟨"ConstantTargetNode", [⟨"name", .constant⟩]⟩
  | .constantWriteNode => ⟨"ConstantWriteNode", [⟨"name", .constant⟩, ⟨"value", .node⟩]⟩
  | .defNode => ⟨"DefNode",
      [⟨"name", .constant⟩, ⟨"receiver", .optNode⟩, ⟨"parameters", .optNode⟩, ⟨"body", .optNode⟩,
       ⟨"locals", .constants⟩]⟩
  | .definedNode => ⟨"DefinedNode", [⟨"value", .node⟩]⟩
  | .elseNode => ⟨"ElseNode", [⟨"statements", .optNode⟩]⟩
  | .embeddedStatementsNode => ⟨"EmbeddedStatementsNode", [⟨"statements", .optNode⟩]⟩
  | .embeddedVariableNode => ⟨"EmbeddedVariableNode", [⟨"variable", .node⟩]⟩
  | .ensureNode => ⟨"EnsureNode", [⟨"statements", .optNode⟩]⟩
  | .falseNode => ⟨"FalseNode", []⟩
  | .findPatternNode => ⟨"FindPatternNode",
      [⟨"constant", .optNode⟩, ⟨"left", .node⟩, ⟨"requireds", .nodes⟩, ⟨"right", .node⟩]⟩
  | .flipFlopNode => ⟨"FlipFlopNode", [⟨"left", .optNode⟩, ⟨"right", .optNode⟩]⟩
  | .floatNode => ⟨"FloatNode", [⟨"value", .double⟩]⟩
  | .forNode => ⟨"ForNode", [⟨"index", .node⟩, ⟨"collection", .node⟩, ⟨"statements", .optNode⟩]⟩
  | .forwardingArgumentsNode => ⟨"ForwardingArgumentsNode", []⟩
  | .forwardingParameterNode => ⟨"ForwardingParameterNode", []⟩
  | .forwardingSuperNode => ⟨"ForwardingSuperNode", [⟨"block", .optNode⟩]⟩
  | .globalVariableAndWriteNode => ⟨"GlobalVariableAndWriteNode",
      [⟨"name", .constant⟩, ⟨"value", .node⟩]⟩
  | .globalVariableOperatorWriteNode => ⟨"GlobalVariableOperatorWriteNode",
      [⟨"name", .constant⟩, ⟨"value", .node⟩, ⟨"binary_operator", .constant⟩]⟩
  | .globalVariableOrWriteNode => ⟨"GlobalVariableOrWriteNode",
      [⟨"name", .constant⟩, ⟨"value", .node⟩]⟩
  | .globalVariableReadNode => ⟨"GlobalVariableReadNode", [⟨"name", .constant⟩]⟩
  | .globalVariableTargetNode => ⟨"GlobalVariableTargetNode", [⟨"name", .constant⟩]⟩
  | .globalVariableWriteNode => ⟨"GlobalVariableWriteNode", [⟨"name", .constant⟩, ⟨"value", .node⟩]⟩
  | .hashNode => ⟨"HashNode", [⟨"elements", .nodes⟩]⟩
  | .hashPatternNode => ⟨"HashPatternNode",
      [⟨"constant", .optNode⟩, ⟨"elements", .nodes⟩, ⟨"rest", .optNode⟩]⟩
  | .ifNode => ⟨"IfNode",
      [⟨"predicate", .node⟩, ⟨"statements", .optNode⟩, ⟨"subsequent", .optNode⟩]⟩
  | .imaginaryNode => ⟨"ImaginaryNode", [⟨"numeric", .node⟩]⟩
  | .implicitNode => ⟨"ImplicitNode", [⟨"value", .node⟩]⟩
  | .implicitRestNode => ⟨"ImplicitRestNode", []⟩
  | .inNode => ⟨"InNode", [⟨"pattern", .node⟩, ⟨"statements", .optNode⟩]⟩
  | .indexAndWriteNode => ⟨"IndexAndWriteNode",
      [⟨"receiver", .optNode⟩, ⟨"arguments", .optNode⟩, ⟨"block", .optNode⟩, ⟨"value", .node⟩]⟩
  | .indexOperatorWriteNode => ⟨"IndexOperatorWriteNode",
      [⟨"receiver", .optNode⟩, ⟨"arguments", .optNode⟩, ⟨"block", .optNode⟩,
       ⟨"binary_operator", .constant⟩, ⟨"value", .node⟩]⟩
  | .indexOrWriteNode => ⟨"IndexOrWriteNode",
      [⟨"receiver", .optNode⟩, ⟨"arguments", .optNode⟩, ⟨"block", .optNode⟩, ⟨"value", .node⟩]⟩
  | .indexTargetNode => ⟨"IndexTargetNode",
      [⟨"receiver", .node⟩, ⟨"arguments", .optNode⟩, ⟨"block", .optNode⟩]⟩
  | .instanceVariableAndWriteNode => ⟨"InstanceVariableAndWriteNode",
      [⟨"name", .constant⟩, ⟨"value", .node⟩]⟩
  | .instanceVariableOperatorWriteNode => ⟨"InstanceVariableOperatorWriteNode",
      [⟨"name", .constant⟩, ⟨"value", .node⟩, ⟨"binary_operator", .constant⟩]⟩
  | .instanceVariableOrWriteNode => ⟨"InstanceVariableOrWriteNode",
      [⟨"name", .constant⟩, ⟨"value", .node⟩]⟩
  | .instanceVariableReadNode => ⟨"InstanceVariableReadNode", [⟨"name", .constant⟩]⟩
  | .instanceVariableTargetNode => ⟨"InstanceVariableTargetNode", [⟨"name", .constant⟩]⟩
  | .instanceVariableWriteNode => ⟨"InstanceVariableWriteNode",
      [⟨"name", .constant⟩, ⟨"value", .node⟩]⟩
  | .integerNode => ⟨"IntegerNode", [⟨"value", .integer⟩]⟩
  | .interpolatedMatchLastLineNode => ⟨"InterpolatedMatchLastLineNode", [⟨"parts", .nodes⟩]⟩
  | .interpolatedRegularExpressionNode => ⟨"InterpolatedRegularExpressionNode", [⟨"parts", .nodes⟩]⟩
  | .interpolatedStringNode => ⟨"InterpolatedStringNode", [⟨"parts", .nodes⟩]⟩
  | .interpolatedSymbolNode => ⟨"InterpolatedSymbolNode", [⟨"parts", .nodes⟩]⟩
  | .interpolatedXStringNode => ⟨"InterpolatedXStringNode", [⟨"parts", .nodes⟩]⟩
  | .itLocalVariableReadNode => ⟨"ItLocalVariableReadNode", []⟩
  | .itParametersNode => ⟨"ItParametersNode", []⟩
  | .keywordHashNode => ⟨"KeywordHashNode", [⟨"elements", .nodes⟩]⟩
  | .keywordRestParameterNode => ⟨"KeywordRestParameterNode", [⟨"name", .optConstant⟩]⟩
  | .lambdaNode => ⟨"LambdaNode",
      [⟨"locals", .constants⟩, ⟨"parameters", .optNode⟩, ⟨"body", .optNode⟩]⟩
  | .localVariableAndWriteNode => ⟨"LocalVariableAndWriteNode",
      [⟨"value", .node⟩, ⟨"name", .constant⟩, ⟨"depth", .uint32⟩]⟩
  | .localVariableOperatorWriteNode => ⟨"LocalVariableOperatorWriteNode",
      [⟨"value", .node⟩, ⟨"name", .constant⟩, ⟨"binary_operator", .constant⟩, ⟨"depth", .uint32⟩]⟩
  | .localVariableOrWriteNode => ⟨"LocalVariableOrWriteNode",
      [⟨"value", .node⟩, ⟨"name", .constant⟩, ⟨"depth", .uint32⟩]⟩
  | .localVariableReadNode => ⟨"LocalVariableReadNode", [⟨"name", .constant⟩, ⟨"depth", .uint32⟩]⟩
  | .localVariableTargetNode => ⟨"LocalVariableTargetNode",
      [⟨"name", .constant⟩, ⟨"depth", .uint32⟩]⟩
  | .localVariableWriteNode => ⟨"LocalVariableWriteNode",
      [⟨"name", .constant⟩, ⟨"depth", .uint32⟩, ⟨"value", .node⟩]⟩
  | .matchLastLineNode => ⟨"MatchLastLineNode", [⟨"unescaped", .string⟩]⟩
  | .matchPredicateNode => ⟨"MatchPredicateNode", [⟨"value", .node⟩, ⟨"pattern", .node⟩]⟩
  | .matchRequiredNode => ⟨"MatchRequiredNode", [⟨"value", .node⟩, ⟨"pattern", .node⟩]⟩
  | .matchWriteNode => ⟨"MatchWriteNode", [⟨"call", .node⟩, ⟨"targets", .nodes⟩]⟩
  | .missingNode => ⟨"MissingNode", []⟩
  | .moduleNode => ⟨"ModuleNode",
      [⟨"locals", .constants⟩, ⟨"constant_path", .node⟩, ⟨"body", .optNode⟩, ⟨"name", .constant⟩]⟩
  | .multiTargetNode => ⟨"MultiTargetNode",
      [⟨"lefts", .nodes⟩, ⟨"rest", .optNode⟩, ⟨"rights", .nodes⟩]⟩
  | .multiWriteNode => ⟨"MultiWriteNode",
      [⟨"lefts", .nodes⟩, ⟨"rest", .optNode⟩, ⟨"rights", .nodes⟩, ⟨"value", .node⟩]⟩
  | .nextNode => ⟨"NextNode", [⟨"arguments", .optNode⟩]⟩
  | .nilNode => ⟨"NilNode", []⟩
  | .noKeywordsParameterNode => ⟨"NoKeywordsParameterNode", []⟩
  | .numberedParametersNode => ⟨"NumberedParametersNode", [⟨"maximum", .uint8⟩]⟩
  | .numberedReferenceReadNode => ⟨"NumberedReferenceReadNode", [⟨"number", .uint32⟩]⟩
  | .optionalKeywordParameterNode => ⟨"OptionalKeywordParameterNode",
      [⟨"name", .constant⟩, ⟨"value", .node⟩]⟩
  | .optionalParameterNode => ⟨"OptionalParameterNode", [⟨"name", .constant⟩, ⟨"value", .node⟩]⟩
  | .orNode => ⟨"OrNode", [⟨"left", .node⟩, ⟨"right", .node⟩]⟩
  | .parametersNode => ⟨"ParametersNode",
      [⟨"requireds", .nodes⟩, ⟨"optionals", .nodes⟩, ⟨"rest", .optNode⟩, ⟨"posts", .nodes⟩,
       ⟨"keywords", .nodes⟩, ⟨"keyword_rest", .optNode⟩, ⟨"block", .optNode⟩]⟩
  | .parenthesesNode => ⟨"ParenthesesNode", [⟨"body", .optNode⟩]⟩
  | .pinnedExpressionNode => ⟨"PinnedExpressionNode", [⟨"expression", .node⟩]⟩
  | .pinnedVariableNode => ⟨"PinnedVariableNode", [⟨"variable", .node⟩]⟩
  | .postExecutionNode => ⟨"PostExecutionNode", [⟨"statements", .optNode⟩]⟩
  | .preExecutionNode => ⟨"PreExecutionNode", [⟨"statements", .optNode⟩]⟩
  | .programNode => ⟨"ProgramNode", [⟨"locals", .constants⟩, ⟨"statements", .node⟩]⟩
  | .rangeNode => ⟨"RangeNode", [⟨"left", .optNode⟩, ⟨"right", .optNode⟩]⟩
  | .rationalNode => ⟨"RationalNode", [⟨"numerator", .integer⟩, ⟨"denominator", .integer⟩]⟩
  | .redoNode => ⟨"RedoNode", []⟩
  | .regularExpressionNode => ⟨"RegularExpressionNode", [⟨"unescaped", .string⟩]⟩
  | .requiredKeywordParameterNode => ⟨"RequiredKeywordParameterNode", [⟨"name", .constant⟩]⟩
  | .requiredParameterNode => ⟨"RequiredParameterNode", [⟨"name", .constant⟩]⟩
  | .rescueModifierNode => ⟨"RescueModifierNode",
      [⟨"expression", .node⟩, ⟨"rescue_expression", .node⟩]⟩
  | .rescueNode => ⟨"RescueNode",
      [⟨"exceptions", .nodes⟩, ⟨"reference", .optNode⟩, ⟨"statements", .optNode⟩,
       ⟨"subsequent", .optNode⟩]⟩
  | .restParameterNode => ⟨"RestParameterNode", [⟨"name", .optConstant⟩]⟩
  | .retryNode => ⟨"RetryNode", []⟩
  | .returnNode => ⟨"ReturnNode", [⟨"arguments", .optNode⟩]⟩
  | .selfNode => ⟨"SelfNode", []⟩
  | .shareableConstantNode => ⟨"ShareableConstantNode", [⟨"write", .node⟩]⟩
  | .singletonClassNode => ⟨"SingletonClassNode",
      [⟨"locals", .constants⟩, ⟨"expression", .node⟩, ⟨"body", .optNode⟩]⟩
  | .sourceEncodingNode => ⟨"SourceEncodingNode", []⟩
  | .sourceFileNode => ⟨"SourceFileNode", [⟨"filepath", .string⟩]⟩
  | .sourceLineNode => ⟨"SourceLineNode", []⟩
  | .splatNode => ⟨"SplatNode", [⟨"expression", .optNode⟩]⟩
  | .statementsNode => ⟨"StatementsNode", [⟨"body", .nodes⟩]⟩
  | .stringNode => ⟨"StringNode", [⟨"unescaped", .string⟩]⟩
  | .superNode => ⟨"SuperNode", [⟨"arguments", .optNode⟩, ⟨"block", .optNode⟩]⟩
  | .symbolNode => ⟨"SymbolNode", [⟨"unescaped", .string⟩]⟩
  | .trueNode => ⟨"TrueNode", []⟩
  | .undefNode => ⟨"UndefNode", [⟨"names", .nodes⟩]⟩
  | .unlessNode => ⟨"UnlessNode",
      [⟨"predicate", .node⟩, ⟨"statements", .optNode⟩, ⟨"else_clause", .optNode⟩]⟩
  | .untilNode => ⟨"UntilNode", [⟨"predicate", .node⟩, ⟨"statements", .optNode⟩]⟩
  | .whenNode => ⟨"WhenNode", [⟨"conditions", .nodes⟩, ⟨"statements", .optNode⟩]⟩
  | .whileNode => ⟨"WhileNode", [⟨"predicate", .node⟩, ⟨"statements", .optNode⟩]⟩
  | .xStringNode => ⟨"XStringNode", [⟨"unescaped", .string⟩]⟩
  | .yieldNode => ⟨"YieldNode", [⟨"arguments", .optNode⟩]⟩

/-- The name of a kind, such as `CallNode`. -/
def name (kind : Kind) : String := kind.entry.name

/-- The fields of a kind, in serialization order. -/
def layout (kind : Kind) : List Field := kind.entry.layout

/-- Number of kinds. -/
def count : Nat := 151

/-- The byte that introduces a node of this kind. -/
def tag (kind : Kind) : UInt8 := UInt8.ofNat (kind.ctorIdx + 1)

/-- The kind that a byte introduces. -/
def ofTag? (byte : UInt8) : Option Kind :=
  match byte.toNat with
  | 0 => none
  | index + 1 => if index < count then some (ofNat index) else none

@[simp] theorem ofTag?_tag (kind : Kind) : ofTag? kind.tag = some kind := by
  cases kind <;> rfl

theorem ctorIdx_ofNat : ∀ index : Fin count, (ofNat index).ctorIdx = index := by
  decide +kernel

theorem tag_of_ofTag? {byte : UInt8} {kind : Kind} (h : ofTag? byte = some kind) :
    kind.tag = byte := by
  simp only [ofTag?] at h
  split at h
  · cases h
  · next index eq =>
    split at h
    · next lt =>
      cases h
      have whole : index + 1 = byte.toNat := eq.symm
      rw [tag, ctorIdx_ofNat ⟨index, lt⟩, whole, UInt8.ofNat_toNat]
    · cases h

theorem ofTag?_eq_some_iff {byte : UInt8} {kind : Kind} :
    ofTag? byte = some kind ↔ kind.tag = byte :=
  ⟨tag_of_ofTag?, fun h => h ▸ ofTag?_tag kind⟩

theorem tag_ne_zero (kind : Kind) : kind.tag ≠ 0 := by
  cases kind <;> decide

end Kind

end PrismTree
