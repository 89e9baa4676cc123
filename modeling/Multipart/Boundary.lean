import Multipart.Error
import Multipart.Trace

/-! # Boundaries -/

namespace Multipart

inductive Entropy
  | octets (raw : Vector UInt8 16)
  | failure (reason : String)

namespace Entropy

/-- The given octets over and over; with none at all, zeros. -/
def cycle (seed : Bytes) : Entropy :=
  .octets (Vector.ofFn fun i => (seed[i.val % seed.length]?).getD 0)

end Entropy

structure Boundary where
  bytes : Bytes
  ascii : bytes.all Octet.isAscii = true
  deriving DecidableEq, Repr

namespace Boundary

def ofBytes (bytes : Bytes) : Except EncodingError Boundary :=
  if h : bytes.all Octet.isAscii = true then .ok ⟨bytes, h⟩
  else .error (.invalid (.boundaryNotAscii bytes))

def text (b : Boundary) : String := String.ofList (b.bytes.map fun o => Char.ofNat o.toNat)

theorem isAscii_digitChar : ∀ n < 16, Octet.isAscii (Nat.digitChar n).toUInt8 = true := by
  decide

/-- Each octet as two lower-case hexadecimal digits. -/
def ofRandom (raw : Bytes) : Boundary where
  bytes := (Hex.encode raw).map Char.toUInt8
  ascii := by
    simp only [List.all_map, List.all_eq_true, Hex.encode, List.mem_flatMap]
    rintro c ⟨b, -, h⟩
    have hb := b.toNat_lt
    simp only [List.mem_cons, List.not_mem_nil, or_false] at h
    rcases h with rfl | rfl
    · exact isAscii_digitChar _ (by omega)
    · exact isAscii_digitChar _ (by omega)

def draw : Entropy → Traced (Except EncodingError Boundary)
  | .octets raw => do
    Traced.report .boundaryGenerated
    return .ok (ofRandom raw.toList)
  | .failure reason => return .error (.entropy reason)

end Boundary

end Multipart
