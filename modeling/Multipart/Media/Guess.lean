import Multipart.Files.Path
import Multipart.Media.Table
import Multipart.Text.Folding
import Multipart.Text.Utf8

/-! # Guessing a media type -/

namespace Multipart.MediaType

def fallback : String := "application/octet-stream"

def ofExtension? (extension : String) : Option String :=
  (table.find? fun row => row.2.contains (Text.fold extension)).map (·.1)

abbrev Lookup := String → Option String

namespace Lookup

/-- By extension, without regard to case. -/
def byExtension : Lookup := fun filename =>
  ((Path.extension? (Utf8.encode filename)).map Utf8.decodeLossy).bind ofExtension?

/-- By whole filenames; the first entry of a name counts. -/
def ofList (entries : List (String × String)) : Lookup := fun filename =>
  (entries.find? (·.1 == filename)).map (·.2)

end Lookup

def guess? (lookup : Lookup) : Option String → Option String
  | some filename => if filename = "" then none else some ((lookup filename).getD fallback)
  | none => none

end Multipart.MediaType
