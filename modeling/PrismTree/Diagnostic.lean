import PrismTree.Diagnostic.ErrorType
import PrismTree.Diagnostic.WarningType
import PrismTree.Location

/-!
# Diagnostics

The parser reports errors and warnings about the program beside the tree. They are data and not
failures: a result with syntax errors has been read in full, but it has no tree.
-/
namespace PrismTree

/-- How serious an error is: an ordinary one, one in the arguments of the parser, or one that kept
the file from being loaded. -/
inductive ErrorLevel where
  | ordinary
  | argument
  | load
  deriving DecidableEq

namespace ErrorLevel

/-- The level that a byte stands for. -/
def ofByte? (byte : UInt8) : Option ErrorLevel :=
  if byte = 0 then some .ordinary
  else if byte = 1 then some .argument
  else if byte = 2 then some .load
  else none

/-- The byte that stands for a level. -/
def toByte : ErrorLevel → UInt8
  | .ordinary => 0
  | .argument => 1
  | .load => 2

@[simp] theorem ofByte?_toByte (level : ErrorLevel) : ofByte? level.toByte = some level := by
  cases level <;> rfl

end ErrorLevel

/-- When a warning is shown: always, or only on request. -/
inductive WarningLevel where
  | always
  | verbose
  deriving DecidableEq

namespace WarningLevel

/-- The level that a byte stands for. -/
def ofByte? (byte : UInt8) : Option WarningLevel :=
  if byte = 0 then some .always else if byte = 1 then some .verbose else none

/-- The byte that stands for a level. -/
def toByte : WarningLevel → UInt8
  | .always => 0
  | .verbose => 1

@[simp] theorem ofByte?_toByte (level : WarningLevel) : ofByte? level.toByte = some level := by
  cases level <;> rfl

end WarningLevel

/-- A syntax error. -/
structure SyntaxError where
  type : ErrorType
  message : String
  location : Location
  level : ErrorLevel
  deriving DecidableEq

/-- A syntax warning. -/
structure SyntaxWarning where
  type : WarningType
  message : String
  location : Location
  level : WarningLevel
  deriving DecidableEq

/-- The line that shows a diagnostic: message, span and type. -/
def diagnosticText (message : String) (location : Location) (typeName : String) : String :=
  message ++ " at " ++ location.text ++ " [" ++ typeName ++ "]"

/-- The line that shows an error. -/
def SyntaxError.text (error : SyntaxError) : String :=
  diagnosticText error.message error.location error.type.name

namespace SyntaxWarning

/-- The line that shows a warning. -/
def text (warning : SyntaxWarning) : String :=
  diagnosticText warning.message warning.location warning.type.name

/-- Is the warning shown on request only? -/
def isVerbose (warning : SyntaxWarning) : Bool :=
  warning.level == .verbose

end SyntaxWarning

end PrismTree
