import Multipart.Files.Path
import Multipart.Files.SystemError
import Multipart.Text.Quoted

/-! # Errors -/

namespace Multipart

inductive JsonKind
  | null
  | bool
  | number
  | string
  | array
  | object
  deriving DecidableEq, Repr

def JsonKind.name : JsonKind → String
  | .null => "null"
  | .bool => "bool"
  | .number => "number"
  | .string => "string"
  | .array => "array"
  | .object => "object"

inductive InvalidInput
  | boundaryNotAscii (boundary : Bytes)
  | nameNotText (name : Bytes) (flaw : Utf8.Flaw)
  | textModeSource
  /-- A stream met by the blocking producer. -/
  | streamNotAwaited
  | notPrimitive (kind : JsonKind)
  | notObject (kind : JsonKind)
  deriving DecidableEq, Repr

def InvalidInput.message : InvalidInput → String
  | .boundaryNotAscii boundary =>
    "boundary must be ASCII, got " ++ Quoted.text (Utf8.decodeLossy boundary)
  | .nameNotText name flaw =>
    "field name must be text, got " ++ Quoted.text (Utf8.decodeLossy name)
      ++ " (" ++ flaw.message ++ ")"
  | .textModeSource => "Multipart file uploads must be opened in binary mode, not text mode."
  | .streamNotAwaited => "async stream sources cannot be rendered by the blocking producer"
  | .notPrimitive kind =>
    "expected a primitive value (text, bytes, integer, float, bool or null), got " ++ kind.name
  | .notObject kind => "form data must be a JSON object, got " ++ kind.name

inductive Panic
  | sumOverflow
  | capacityOverflow
  deriving DecidableEq, Repr

def Panic.message : Panic → String
  | .sumOverflow => "attempt to add with overflow"
  | .capacityOverflow => "capacity overflow"

inductive EncodingError
  | invalid (cause : InvalidInput)
  /-- Reading failed at a path, or at a source that has none. -/
  | io (path : Option Path) (cause : SystemError)
  | entropy (reason : String)
  /-- The call did not return. What it was made on is given up. -/
  | panic (cause : Panic)
  deriving DecidableEq, Repr

namespace EncodingError

def message : EncodingError → String
  | .invalid cause => "Invalid multipart input: " ++ cause.message
  | .io path cause =>
    "I/O error reading '" ++ (path.map Utf8.decodeLossy).getD "<stream>" ++ "': " ++ cause.message
  | .entropy reason => "Failed to gather randomness for boundary: " ++ reason
  | .panic cause => cause.message

end EncodingError

end Multipart
