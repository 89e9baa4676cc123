import Multipart.Text.Printable
import Multipart.Text.Utf8

/-! # Quoted text -/

namespace Multipart.Quoted

def codePoint (c : Char) : List Char :=
  ['\\', 'u', '\x7b'] ++ Nat.toDigits 16 c.toNat ++ ['\x7d']

def char (c : Char) : List Char :=
  if c = '"' then ['\\', '"']
  else if c = '\\' then ['\\', '\\']
  else if c = '\t' then ['\\', 't']
  else if c = '\r' then ['\\', 'r']
  else if c = '\n' then ['\\', 'n']
  else if c = '\x00' then ['\\', '0']
  else if Text.isPrintable c then [c]
  else codePoint c

def octet (b : UInt8) : List Char := ['\\', 'x'] ++ Hex.upperPair b.toNat

def piece : Utf8.Piece → List Char
  | .char c => char c
  | .broken octets | .truncated octets => octets.flatMap octet

def between (body : List Char) : String := String.ofList ('"' :: body ++ ['"'])

def text (s : String) : String := between (s.toList.flatMap char)

def octets (bs : Bytes) : String := between ((Utf8.scan bs).flatMap piece)

end Multipart.Quoted
