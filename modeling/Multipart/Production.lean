import Multipart.Error
import Multipart.Trace

/-! # Producers -/

namespace Multipart

abbrev Item := Except EncodingError Bytes

/-- Some items, whether the end was seen after them, and the producer as it was left. -/
structure Collected (α σ : Type) where
  items : List α
  ended : Bool
  producer : σ

def collect {α σ : Type} (next : σ → Traced (Option α × σ)) :
    Nat → σ → Traced (Collected α σ)
  | 0, producer => return ⟨[], false, producer⟩
  | count + 1, producer => do
    match ← next producer with
    | (none, producer) => return ⟨[], true, producer⟩
    | (some item, producer) =>
      let rest ← collect next count producer
      return { rest with items := item :: rest.items }

end Multipart
