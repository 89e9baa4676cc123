import Multipart.Text.Utf8

/-! # Header parameters -/

namespace Multipart.Parameter

def escapeChar (c : Char) : List Char :=
  if c = '"' then ['%', '2', '2']
  else if c = '\\' then ['\\', '\\']
  else if c.toNat < 0x20 ∧ c.toNat ≠ 0x1B then '%' :: Hex.upperPair c.toNat
  else [c]

def escape (cs : List Char) : List Char := cs.flatMap escapeChar

@[simp] theorem escape_nil : escape [] = [] := rfl

@[simp] theorem escape_cons (c : Char) (cs : List Char) :
    escape (c :: cs) = escapeChar c ++ escape cs := by
  simp [escape]

def chars (name : String) (value : String) : List Char :=
  name.toList ++ ['=', '"'] ++ escape value.toList ++ ['"']

def format (name : String) (value : String) : Bytes := Utf8.encodeChars (chars name value)

end Multipart.Parameter
