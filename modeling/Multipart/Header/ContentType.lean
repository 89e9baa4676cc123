import Multipart.Text.Utf8

/-!
# The boundary in a content type

Semicolons separate parameters even inside quotes. The first parameter called `boundary` counts, and
loses the quotes around it, however many there are.
-/

namespace Multipart.ContentType

def formData : Bytes := Utf8.encode "multipart/form-data"

def boundaryParameter : Bytes := Utf8.encode "boundary="

def isBoundary (parameter : Bytes) : Bool :=
  Bytes.sameFold (parameter.take boundaryParameter.length) boundaryParameter

def stripQuotes (bs : Bytes) : Bytes :=
  Bytes.dropEndWhile (· == Octet.quote) (bs.dropWhile (· == Octet.quote))

def boundary? (contentType : Bytes) : Option Bytes :=
  if formData.isPrefixOf contentType && contentType.contains Octet.semicolon then
    (((Bytes.sections Octet.semicolon contentType).map Bytes.trim).find? isBoundary).map
      fun s => stripQuotes (s.drop boundaryParameter.length)
  else none

end Multipart.ContentType
