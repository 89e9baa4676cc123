import Multipart.Octet

/-!
# UTF-8

`scan` cuts octets into characters and into ill-formed stretches, each as long as the beginning of
some character can be.
-/

namespace Multipart.Utf8

def encodeChars (cs : List Char) : Bytes := cs.flatMap String.utf8EncodeChar

def encode (s : String) : Bytes := encodeChars s.toList

@[simp] theorem encodeChars_nil : encodeChars [] = [] := rfl

@[simp] theorem encodeChars_cons (c : Char) (cs : List Char) :
    encodeChars (c :: cs) = String.utf8EncodeChar c ++ encodeChars cs := by
  simp [encodeChars]

@[simp] theorem encodeChars_append (cs ds : List Char) :
    encodeChars (cs ++ ds) = encodeChars cs ++ encodeChars ds := by
  simp [encodeChars]

@[simp] theorem encode_append (s t : String) : encode (s ++ t) = encode s ++ encode t := by
  simp [encode]

inductive Piece
  | char (c : Char)
  /-- Octets that begin a character but are followed by one that cannot go on with it. -/
  | broken (octets : Bytes)
  /-- Octets that begin a character at the end of the input. -/
  | truncated (octets : Bytes)
  deriving DecidableEq, Repr

/-- A character of which the first octets were read: the next octet lies in `low … high`, and
`owed` octets are still to come. -/
structure Partial where
  /-- Latest first. -/
  taken : Bytes
  owed : Nat
  low : UInt8
  high : UInt8
  bits : Nat

def Partial.ofLead? (b : UInt8) : Option Partial :=
  if 0xC2 ≤ b && b ≤ 0xDF then some ⟨[b], 1, 0x80, 0xBF, b.toNat - 0xC0⟩
  else if b == 0xE0 then some ⟨[b], 2, 0xA0, 0xBF, 0⟩
  else if b == 0xED then some ⟨[b], 2, 0x80, 0x9F, 0xD⟩
  else if 0xE1 ≤ b && b ≤ 0xEF then some ⟨[b], 2, 0x80, 0xBF, b.toNat - 0xE0⟩
  else if b == 0xF0 then some ⟨[b], 3, 0x90, 0xBF, 0⟩
  else if 0xF1 ≤ b && b ≤ 0xF3 then some ⟨[b], 3, 0x80, 0xBF, b.toNat - 0xF0⟩
  else if b == 0xF4 then some ⟨[b], 3, 0x80, 0x8F, 4⟩
  else none

structure Scan where
  /-- Latest first. -/
  pieces : List Piece
  unfinished : Option Partial

namespace Scan

def start : Scan := ⟨[], none⟩

def lead (pieces : List Piece) (b : UInt8) : Scan :=
  if b < 0x80 then ⟨.char (Char.ofNat b.toNat) :: pieces, none⟩
  else match Partial.ofLead? b with
    | some p => ⟨pieces, some p⟩
    | none => ⟨.broken [b] :: pieces, none⟩

def step (s : Scan) (b : UInt8) : Scan :=
  match s.unfinished with
  | none => lead s.pieces b
  | some p =>
    if p.low ≤ b && b ≤ p.high then
      let bits := p.bits * 64 + (b.toNat - 0x80)
      if p.owed ≤ 1 then ⟨.char (Char.ofNat bits) :: s.pieces, none⟩
      else ⟨s.pieces, some ⟨b :: p.taken, p.owed - 1, 0x80, 0xBF, bits⟩⟩
    else lead (.broken p.taken.reverse :: s.pieces) b

def finish (s : Scan) : List Piece :=
  match s.unfinished with
  | none => s.pieces.reverse
  | some p => (.truncated p.taken.reverse :: s.pieces).reverse

end Scan

def scan (bs : Bytes) : List Piece := (bs.foldl Scan.step Scan.start).finish

def replacement : Char := '\uFFFD'

def Piece.lossy : Piece → Char
  | .char c => c
  | .broken _ | .truncated _ => replacement

def decodeLossy (bs : Bytes) : String := String.ofList ((scan bs).map Piece.lossy)

/-- Where a text stops being UTF-8: after `validLength` octets, by an ill-formed stretch of
`length` octets, or by the end of the input inside a character. -/
structure Flaw where
  validLength : Nat
  length : Option Nat
  deriving DecidableEq, Repr

def flawAfter (validLength : Nat) : List Piece → Option Flaw
  | [] => none
  | .char c :: rest => flawAfter (validLength + c.utf8Size) rest
  | .broken octets :: _ => some ⟨validLength, some octets.length⟩
  | .truncated _ :: _ => some ⟨validLength, none⟩

def flaw? (bs : Bytes) : Option Flaw := flawAfter 0 (scan bs)

def decode (bs : Bytes) : Except Flaw String :=
  match flaw? bs with
  | none => .ok (decodeLossy bs)
  | some flaw => .error flaw

def Flaw.message (flaw : Flaw) : String :=
  match flaw.length with
  | some n => s!"invalid utf-8 sequence of {n} bytes from index {flaw.validLength}"
  | none => s!"incomplete utf-8 byte sequence from index {flaw.validLength}"

end Multipart.Utf8
