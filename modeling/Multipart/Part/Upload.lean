import Multipart.Header.List
import Multipart.Media.Guess
import Multipart.Source.Basic

/-! # Uploads -/

namespace Multipart

inductive Upload
  | simple (filename : Option String) (source : Source)
  | typed (filename : Option String) (source : Source) (contentType : Option String)
  | full (filename : Option String) (source : Source) (contentType : Option String)
      (headers : HeaderList)
  /-- Named after the source, or `upload` if the source has no name. -/
  | bare (source : Source)
  deriving DecidableEq, Repr

namespace Upload

def filename? : Upload → Option String
  | .simple filename _ | .typed filename _ _ | .full filename _ _ _ => filename
  | .bare source => some (source.name?.getD "upload")

def source : Upload → Source
  | .simple _ source | .typed _ source _ | .full _ source _ _ | .bare source => source

def givenType? : Upload → Option String
  | .typed _ _ contentType | .full _ _ contentType _ => contentType
  | .simple .. | .bare _ => none

def givenHeaders : Upload → HeaderList
  | .full _ _ _ headers => headers
  | .simple .. | .typed .. | .bare _ => .empty

variable (lookup : MediaType.Lookup) (upload : Upload)

/-- The type that is given, or else guessed from the filename. -/
def contentType? : Option String :=
  upload.givenType? <|> MediaType.guess? lookup upload.filename?

/-- The given headers, and after them the content type unless they have one. -/
def headers : HeaderList :=
  match upload.contentType? lookup with
  | some type =>
    if upload.givenHeaders.contains "Content-Type" then upload.givenHeaders
    else upload.givenHeaders.insert "Content-Type" type
  | none => upload.givenHeaders

end Upload

end Multipart
