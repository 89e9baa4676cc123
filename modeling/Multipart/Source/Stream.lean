import Multipart.Octet

/-! # Asynchronous streams -/

namespace Multipart

inductive Emission
  | chunk (octets : Bytes)
  /-- Text for which no octets are defined. -/
  | text (content : String)
  | failure (reason : String)
  | notReady
  | ended
  deriving DecidableEq, Repr

abbrev Stream := List Emission

namespace Stream

def poll : Stream → Emission × Stream
  | [] => (.ended, [])
  | e :: rest => (e, rest)

end Stream

end Multipart
