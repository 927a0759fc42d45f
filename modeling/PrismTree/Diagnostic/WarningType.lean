import PrismTree.Diagnostic.ErrorType

/-!
# Types of syntax warnings

Warning types share one numbering with error types and follow them: the code of a warning type is
its position in the table plus the number of error types.
-/
namespace PrismTree

/-- The names of the warning types, in the order of their codes. -/
def warningTypeNames : Array String := #[
  "AMBIGUOUS_BINARY_OPERATOR", "AMBIGUOUS_FIRST_ARGUMENT_MINUS", "AMBIGUOUS_FIRST_ARGUMENT_PLUS",
  "AMBIGUOUS_PREFIX_AMPERSAND", "AMBIGUOUS_PREFIX_STAR", "AMBIGUOUS_PREFIX_STAR_STAR",
  "AMBIGUOUS_SLASH", "COMPARISON_AFTER_COMPARISON", "DOT_DOT_DOT_EOL", "DUPLICATED_HASH_KEY",
  "DUPLICATED_WHEN_CLAUSE", "EQUAL_IN_CONDITIONAL", "EQUAL_IN_CONDITIONAL_3_3", "END_IN_METHOD",
  "FLOAT_OUT_OF_RANGE", "IGNORED_FROZEN_STRING_LITERAL", "INDENTATION_MISMATCH",
  "INTEGER_IN_FLIP_FLOP", "INVALID_CHARACTER", "INVALID_MAGIC_COMMENT_VALUE",
  "INVALID_NUMBERED_REFERENCE", "KEYWORD_EOL", "LITERAL_IN_CONDITION_DEFAULT",
  "LITERAL_IN_CONDITION_VERBOSE", "SHAREABLE_CONSTANT_VALUE_LINE", "SHEBANG_CARRIAGE_RETURN",
  "UNEXPECTED_CARRIAGE_RETURN", "UNREACHABLE_STATEMENT", "UNUSED_LOCAL_VARIABLE", "VOID_STATEMENT"]

/-- A type of syntax warnings, as the position of its name in the table. -/
structure WarningType where
  index : Fin 30
  deriving DecidableEq

namespace WarningType

/-- Number of warning types. -/
def count : Nat := 30

theorem size_names : warningTypeNames.size = count := rfl

/-- The code of the first warning type. -/
def firstCode : Nat := ErrorType.count

/-- The name of a type. -/
def name (type : WarningType) : String :=
  have inside : type.index.val < warningTypeNames.size := size_names ▸ type.index.isLt
  warningTypeNames[type.index.val]

/-- The code of a type on the wire. -/
def code (type : WarningType) : UInt32 :=
  UInt32.ofNat (firstCode + type.index)

theorem toNat_code (type : WarningType) : type.code.toNat = firstCode + type.index :=
  UInt32.toNat_ofNat_of_lt'
    (Nat.lt_trans (Nat.add_lt_add_left type.index.isLt firstCode) (by decide))

/-- The type with a code. -/
def ofCode? (code : UInt32) : Option WarningType :=
  if h : firstCode ≤ code.toNat ∧ code.toNat - firstCode < count then
    some ⟨code.toNat - firstCode, h.2⟩
  else none

@[simp] theorem ofCode?_code (type : WarningType) : ofCode? type.code = some type := by
  have offset : firstCode + type.index.val - firstCode = type.index := by omega
  have inside : type.index.val < count := type.index.isLt
  simp [ofCode?, toNat_code, offset, inside]

theorem ofCode?_isSome_iff (code : UInt32) :
    (ofCode? code).isSome ↔ firstCode ≤ code.toNat ∧ code.toNat < firstCode + count := by
  simp only [ofCode?]
  split <;> simp_all <;> omega

end WarningType

end PrismTree
