import Multipart.Source.Reader
import Multipart.Source.Stream
import Multipart.Text.Quoted

/-! # Sources of file bodies -/

namespace Multipart

inductive Source
  | bytes (content : Bytes)
  | text (content : String)
  /-- Opened for each rendering. -/
  | path (path : Path)
  | reader (reader : Reader)
  | stream (stream : Stream)
  deriving DecidableEq, Repr

namespace Source

def name? : Source → Option String
  | .path p => p.fileName?.map Utf8.decodeLossy
  | _ => none

def isTextMode : Source → Bool
  | .reader r => r.isTextMode
  | _ => false

def held? : Source → Option Bytes
  | .bytes content => some content
  | .text content => some (Utf8.encode content)
  | _ => none

def isStream : Source → Bool
  | .stream _ => true
  | _ => false

def description : Source → String
  | .bytes content => s!"Bytes({content.length})"
  | .text content => s!"Text({(Utf8.encode content).length})"
  | .path p => "Path(" ++ Quoted.octets p ++ ")"
  | .reader _ => "Reader(..)"
  | .stream _ => "Stream(..)"

end Source

end Multipart
