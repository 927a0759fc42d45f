/-!
# Types of syntax errors

An error type is a code below 289. The numbering belongs to one version of the format, and the
name of a type is the entry of the table at its code.
-/
namespace PrismTree

set_option maxRecDepth 4000 in
/-- The names of the error types, in the order of their codes. -/
def errorTypeNames : Array String := #[
  "ALIAS_ARGUMENT", "ALIAS_ARGUMENT_NUMBERED_REFERENCE", "AMPAMPEQ_MULTI_ASSIGN",
  "ARGUMENT_AFTER_BLOCK", "ARGUMENT_AFTER_FORWARDING_ELLIPSES", "ARGUMENT_BARE_HASH",
  "ARGUMENT_BLOCK_FORWARDING", "ARGUMENT_BLOCK_MULTI", "ARGUMENT_CONFLICT_AMPERSAND",
  "ARGUMENT_CONFLICT_STAR", "ARGUMENT_CONFLICT_STAR_STAR", "ARGUMENT_FORMAL_CLASS",
  "ARGUMENT_FORMAL_CONSTANT", "ARGUMENT_FORMAL_GLOBAL", "ARGUMENT_FORMAL_IVAR",
  "ARGUMENT_FORWARDING_UNBOUND", "ARGUMENT_NO_FORWARDING_AMPERSAND",
  "ARGUMENT_NO_FORWARDING_ELLIPSES", "ARGUMENT_NO_FORWARDING_STAR",
  "ARGUMENT_NO_FORWARDING_STAR_STAR", "ARGUMENT_SPLAT_AFTER_ASSOC_SPLAT",
  "ARGUMENT_SPLAT_AFTER_SPLAT", "ARGUMENT_TERM_PAREN", "ARGUMENT_UNEXPECTED_BLOCK", "ARRAY_ELEMENT",
  "ARRAY_EXPRESSION", "ARRAY_EXPRESSION_AFTER_STAR", "ARRAY_SEPARATOR", "ARRAY_TERM",
  "BEGIN_LONELY_ELSE", "BEGIN_TERM", "BEGIN_UPCASE_BRACE", "BEGIN_UPCASE_TERM",
  "BEGIN_UPCASE_TOPLEVEL", "BLOCK_PARAM_LOCAL_VARIABLE", "BLOCK_PARAM_PIPE_TERM",
  "BLOCK_TERM_BRACE", "BLOCK_TERM_END", "CANNOT_PARSE_EXPRESSION", "CANNOT_PARSE_STRING_PART",
  "CASE_EXPRESSION_AFTER_CASE", "CASE_EXPRESSION_AFTER_WHEN", "CASE_MATCH_MISSING_PREDICATE",
  "CASE_MISSING_CONDITIONS", "CASE_TERM", "CLASS_IN_METHOD", "CLASS_NAME", "CLASS_SUPERCLASS",
  "CLASS_TERM", "CLASS_UNEXPECTED_END", "CLASS_VARIABLE_BARE", "CONDITIONAL_ELSIF_PREDICATE",
  "CONDITIONAL_IF_PREDICATE", "CONDITIONAL_PREDICATE_TERM", "CONDITIONAL_TERM",
  "CONDITIONAL_TERM_ELSE", "CONDITIONAL_UNLESS_PREDICATE", "CONDITIONAL_UNTIL_PREDICATE",
  "CONDITIONAL_WHILE_PREDICATE", "CONSTANT_PATH_COLON_COLON_CONSTANT", "DEF_ENDLESS",
  "DEF_ENDLESS_SETTER", "DEF_NAME", "DEF_PARAMS_TERM", "DEF_PARAMS_TERM_PAREN", "DEF_RECEIVER",
  "DEF_RECEIVER_TERM", "DEF_TERM", "DEFINED_EXPRESSION", "EMBDOC_TERM", "EMBEXPR_END",
  "EMBVAR_INVALID", "END_UPCASE_BRACE", "END_UPCASE_TERM", "ESCAPE_INVALID_CONTROL",
  "ESCAPE_INVALID_CONTROL_REPEAT", "ESCAPE_INVALID_HEXADECIMAL", "ESCAPE_INVALID_META",
  "ESCAPE_INVALID_META_REPEAT", "ESCAPE_INVALID_UNICODE", "ESCAPE_INVALID_UNICODE_CM_FLAGS",
  "ESCAPE_INVALID_UNICODE_LIST", "ESCAPE_INVALID_UNICODE_LITERAL", "ESCAPE_INVALID_UNICODE_LONG",
  "ESCAPE_INVALID_UNICODE_SHORT", "ESCAPE_INVALID_UNICODE_TERM", "EXPECT_ARGUMENT",
  "EXPECT_EOL_AFTER_STATEMENT", "EXPECT_EXPRESSION_AFTER_AMPAMPEQ", "EXPECT_EXPRESSION_AFTER_COMMA",
  "EXPECT_EXPRESSION_AFTER_EQUAL", "EXPECT_EXPRESSION_AFTER_LESS_LESS",
  "EXPECT_EXPRESSION_AFTER_LPAREN", "EXPECT_EXPRESSION_AFTER_OPERATOR",
  "EXPECT_EXPRESSION_AFTER_PIPEPIPEEQ", "EXPECT_EXPRESSION_AFTER_QUESTION",
  "EXPECT_EXPRESSION_AFTER_SPLAT", "EXPECT_EXPRESSION_AFTER_SPLAT_HASH",
  "EXPECT_EXPRESSION_AFTER_STAR", "EXPECT_FOR_DELIMITER", "EXPECT_IDENT_REQ_PARAMETER",
  "EXPECT_IN_DELIMITER", "EXPECT_LPAREN_AFTER_NOT_LPAREN", "EXPECT_LPAREN_AFTER_NOT_OTHER",
  "EXPECT_LPAREN_REQ_PARAMETER", "EXPECT_MESSAGE", "EXPECT_RBRACKET", "EXPECT_RPAREN",
  "EXPECT_RPAREN_AFTER_MULTI", "EXPECT_RPAREN_REQ_PARAMETER", "EXPECT_SINGLETON_CLASS_DELIMITER",
  "EXPECT_STRING_CONTENT", "EXPECT_WHEN_DELIMITER", "EXPRESSION_BARE_HASH",
  "EXPRESSION_NOT_WRITABLE", "EXPRESSION_NOT_WRITABLE_ENCODING", "EXPRESSION_NOT_WRITABLE_FALSE",
  "EXPRESSION_NOT_WRITABLE_FILE", "EXPRESSION_NOT_WRITABLE_LINE", "EXPRESSION_NOT_WRITABLE_NIL",
  "EXPRESSION_NOT_WRITABLE_NUMBERED", "EXPRESSION_NOT_WRITABLE_SELF",
  "EXPRESSION_NOT_WRITABLE_TRUE", "FLOAT_PARSE", "FOR_COLLECTION", "FOR_IN", "FOR_INDEX",
  "FOR_TERM", "GLOBAL_VARIABLE_BARE", "HASH_EXPRESSION_AFTER_LABEL", "HASH_KEY", "HASH_ROCKET",
  "HASH_TERM", "HASH_VALUE", "HEREDOC_IDENTIFIER", "HEREDOC_TERM", "INCOMPLETE_QUESTION_MARK",
  "INCOMPLETE_VARIABLE_CLASS", "INCOMPLETE_VARIABLE_CLASS_3_3", "INCOMPLETE_VARIABLE_INSTANCE",
  "INCOMPLETE_VARIABLE_INSTANCE_3_3", "INSTANCE_VARIABLE_BARE", "INVALID_BLOCK_EXIT",
  "INVALID_CHARACTER", "INVALID_COMMA", "INVALID_ENCODING_MAGIC_COMMENT",
  "INVALID_ESCAPE_CHARACTER", "INVALID_FLOAT_EXPONENT", "INVALID_LOCAL_VARIABLE_READ",
  "INVALID_LOCAL_VARIABLE_WRITE", "INVALID_MULTIBYTE_CHAR", "INVALID_MULTIBYTE_CHARACTER",
  "INVALID_MULTIBYTE_ESCAPE", "INVALID_NUMBER_BINARY", "INVALID_NUMBER_DECIMAL",
  "INVALID_NUMBER_FRACTION", "INVALID_NUMBER_HEXADECIMAL", "INVALID_NUMBER_OCTAL",
  "INVALID_NUMBER_UNDERSCORE_INNER", "INVALID_NUMBER_UNDERSCORE_TRAILING", "INVALID_PERCENT",
  "INVALID_PERCENT_EOF", "INVALID_PRINTABLE_CHARACTER", "INVALID_RETRY_WITHOUT_RESCUE",
  "INVALID_SYMBOL", "INVALID_VARIABLE_GLOBAL", "INVALID_VARIABLE_GLOBAL_3_3", "INVALID_YIELD",
  "IT_NOT_ALLOWED_NUMBERED", "IT_NOT_ALLOWED_ORDINARY", "LAMBDA_OPEN", "LAMBDA_TERM_BRACE",
  "LAMBDA_TERM_END", "LIST_I_LOWER_ELEMENT", "LIST_I_LOWER_TERM", "LIST_I_UPPER_ELEMENT",
  "LIST_I_UPPER_TERM", "LIST_W_LOWER_ELEMENT", "LIST_W_LOWER_TERM", "LIST_W_UPPER_ELEMENT",
  "LIST_W_UPPER_TERM", "MALLOC_FAILED", "MIXED_ENCODING", "MODULE_IN_METHOD", "MODULE_NAME",
  "MODULE_TERM", "MULTI_ASSIGN_MULTI_SPLATS", "MULTI_ASSIGN_UNEXPECTED_REST", "NESTING_TOO_DEEP",
  "NO_LOCAL_VARIABLE", "NON_ASSOCIATIVE_OPERATOR", "NOT_EXPRESSION", "NUMBER_LITERAL_UNDERSCORE",
  "NUMBERED_PARAMETER_INNER_BLOCK", "NUMBERED_PARAMETER_IT", "NUMBERED_PARAMETER_ORDINARY",
  "NUMBERED_PARAMETER_OUTER_BLOCK", "OPERATOR_MULTI_ASSIGN", "OPERATOR_WRITE_ARGUMENTS",
  "OPERATOR_WRITE_BLOCK", "PARAMETER_ASSOC_SPLAT_MULTI", "PARAMETER_BLOCK_MULTI",
  "PARAMETER_CIRCULAR", "PARAMETER_FORWARDING_AFTER_REST", "PARAMETER_METHOD_NAME",
  "PARAMETER_NAME_DUPLICATED", "PARAMETER_NO_DEFAULT", "PARAMETER_NO_DEFAULT_KW",
  "PARAMETER_NUMBERED_RESERVED", "PARAMETER_ORDER", "PARAMETER_SPLAT_MULTI", "PARAMETER_STAR",
  "PARAMETER_UNEXPECTED_FWD", "PARAMETER_UNEXPECTED_NO_KW", "PARAMETER_WILD_LOOSE_COMMA",
  "PATTERN_ARRAY_MULTIPLE_RESTS", "PATTERN_CAPTURE_DUPLICATE", "PATTERN_EXPRESSION_AFTER_BRACKET",
  "PATTERN_EXPRESSION_AFTER_COMMA", "PATTERN_EXPRESSION_AFTER_HROCKET",
  "PATTERN_EXPRESSION_AFTER_IN", "PATTERN_EXPRESSION_AFTER_KEY", "PATTERN_EXPRESSION_AFTER_PAREN",
  "PATTERN_EXPRESSION_AFTER_PIN", "PATTERN_EXPRESSION_AFTER_PIPE", "PATTERN_EXPRESSION_AFTER_RANGE",
  "PATTERN_EXPRESSION_AFTER_REST", "PATTERN_FIND_MISSING_INNER", "PATTERN_HASH_IMPLICIT",
  "PATTERN_HASH_KEY", "PATTERN_HASH_KEY_DUPLICATE", "PATTERN_HASH_KEY_INTERPOLATED",
  "PATTERN_HASH_KEY_LABEL", "PATTERN_HASH_KEY_LOCALS", "PATTERN_IDENT_AFTER_HROCKET",
  "PATTERN_LABEL_AFTER_COMMA", "PATTERN_REST", "PATTERN_TERM_BRACE", "PATTERN_TERM_BRACKET",
  "PATTERN_TERM_PAREN", "PIPEPIPEEQ_MULTI_ASSIGN", "REGEXP_ENCODING_OPTION_MISMATCH",
  "REGEXP_INCOMPAT_CHAR_ENCODING", "REGEXP_INVALID_UNICODE_RANGE", "REGEXP_NON_ESCAPED_MBC",
  "REGEXP_PARSE_ERROR", "REGEXP_TERM", "REGEXP_UNKNOWN_OPTIONS", "REGEXP_UTF8_CHAR_NON_UTF8_REGEXP",
  "RESCUE_EXPRESSION", "RESCUE_MODIFIER_VALUE", "RESCUE_TERM", "RESCUE_VARIABLE", "RETURN_INVALID",
  "SCRIPT_NOT_FOUND", "SINGLETON_FOR_LITERALS", "STATEMENT_ALIAS", "STATEMENT_POSTEXE_END",
  "STATEMENT_PREEXE_BEGIN", "STATEMENT_UNDEF", "STRING_CONCATENATION", "STRING_INTERPOLATED_TERM",
  "STRING_LITERAL_EOF", "STRING_LITERAL_TERM", "SYMBOL_INVALID", "SYMBOL_TERM_DYNAMIC",
  "SYMBOL_TERM_INTERPOLATED", "TERNARY_COLON", "TERNARY_EXPRESSION_FALSE",
  "TERNARY_EXPRESSION_TRUE", "UNARY_DISALLOWED", "UNARY_RECEIVER", "UNDEF_ARGUMENT",
  "UNEXPECTED_BLOCK_ARGUMENT", "UNEXPECTED_INDEX_BLOCK", "UNEXPECTED_INDEX_KEYWORDS",
  "UNEXPECTED_LABEL", "UNEXPECTED_MULTI_WRITE", "UNEXPECTED_RANGE_OPERATOR",
  "UNEXPECTED_SAFE_NAVIGATION", "UNEXPECTED_TOKEN_CLOSE_CONTEXT", "UNEXPECTED_TOKEN_IGNORE",
  "UNTIL_TERM", "VOID_EXPRESSION", "WHILE_TERM", "WRITE_TARGET_IN_METHOD", "WRITE_TARGET_READONLY",
  "WRITE_TARGET_UNEXPECTED", "XSTRING_TERM"]

/-- A type of syntax errors, as the position of its name in the table. -/
structure ErrorType where
  index : Fin 289
  deriving DecidableEq

namespace ErrorType

/-- Number of error types. -/
def count : Nat := 289

set_option maxRecDepth 4000 in
theorem size_names : errorTypeNames.size = count := rfl

/-- The name of a type. -/
def name (type : ErrorType) : String :=
  have inside : type.index.val < errorTypeNames.size := size_names ▸ type.index.isLt
  errorTypeNames[type.index.val]

/-- The code of a type on the wire. -/
def code (type : ErrorType) : UInt32 :=
  UInt32.ofNat type.index

theorem toNat_code (type : ErrorType) : type.code.toNat = type.index :=
  UInt32.toNat_ofNat_of_lt' (Nat.lt_trans type.index.isLt (by decide))

/-- The type with a code. -/
def ofCode? (code : UInt32) : Option ErrorType :=
  if h : code.toNat < count then some ⟨code.toNat, h⟩ else none

@[simp] theorem ofCode?_code (type : ErrorType) : ofCode? type.code = some type := by
  have inside : type.index.val < count := type.index.isLt
  simp [ofCode?, toNat_code, inside]

theorem ofCode?_isSome_iff (code : UInt32) : (ofCode? code).isSome ↔ code.toNat < count := by
  simp only [ofCode?]
  split <;> simp_all

end ErrorType

end PrismTree
