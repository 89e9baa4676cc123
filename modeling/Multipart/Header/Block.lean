import Multipart.Header.List
import Multipart.Header.Parameter

/-! # Header blocks -/

namespace Multipart.HeaderBlock

def crlf : Bytes := [0x0D, 0x0A]

/-- The disposition line. An empty filename is left out like a missing one. -/
def disposition (name : String) (filename : Option String) : Bytes :=
  Utf8.encode "Content-Disposition: form-data; " ++ Parameter.format "name" name ++
    match filename with
    | some f => if f = "" then [] else Utf8.encode "; " ++ Parameter.format "filename" f
    | none => []

def line (header : String × String) : Bytes :=
  Utf8.encode header.1 ++ Utf8.encode ": " ++ Utf8.encode header.2

def lines (name : String) (filename : Option String) (headers : HeaderList) : List Bytes :=
  disposition name filename :: headers.entries.map line

def render (name : String) (filename : Option String) (headers : HeaderList) : Bytes :=
  crlf.intercalate (lines name filename headers) ++ crlf ++ crlf

end Multipart.HeaderBlock
