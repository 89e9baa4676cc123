import Multipart.Files.SystemError
import Multipart.Octet

/-!
# Scripts

A reader may give its octets in reads of any size, be interrupted and fail. A script lists what its
reads give.
-/

namespace Multipart

inductive ScriptedRead
  /-- Octets that are ready. A shorter read leaves the others; none at all is an end of input. -/
  | data (octets : Bytes)
  | interrupted
  | failure (reason : String)
  deriving DecidableEq, Repr

inductive Rewinding
  | restores
  | ignores
  | refuses
  deriving DecidableEq, Repr

structure Script where
  whole : List ScriptedRead
  rest : List ScriptedRead := whole
  rewinding : Rewinding := .refuses
  /-- The length that it tells, which need not be that of what it gives. -/
  length : Option Nat := none
  textMode : Bool := false
  deriving DecidableEq, Repr

namespace Script

def readFrom (limit : Nat) : List ScriptedRead → Except SystemError Bytes × List ScriptedRead
  | [] => (.ok [], [])
  | .interrupted :: rest => (.error .interrupted, rest)
  | .failure reason :: rest => (.error (.other reason), rest)
  | .data octets :: rest =>
    if octets.length ≤ limit then (.ok octets, rest)
    else (.ok (octets.take limit), .data (octets.drop limit) :: rest)

/-- Reads until there are `limit` octets, an end of input or a failure. An interrupted read is
repeated; a failure loses the octets before it. -/
def gather (limit : Nat) : List ScriptedRead → Except SystemError Bytes × List ScriptedRead
  | [] => (.ok [], [])
  | .interrupted :: rest =>
    if limit = 0 then (.ok [], .interrupted :: rest) else gather limit rest
  | .failure reason :: rest =>
    if limit = 0 then (.ok [], .failure reason :: rest) else (.error (.other reason), rest)
  | .data octets :: rest =>
    if limit = 0 then (.ok [], .data octets :: rest)
    else if octets = [] then (.ok [], rest)
    else if octets.length ≤ limit then
      let (more, rest) := gather (limit - octets.length) rest
      (more.map (octets ++ ·), rest)
    else (.ok (octets.take limit), .data (octets.drop limit) :: rest)

def gatherAll : List ScriptedRead → Except SystemError Bytes
  | [] => .ok []
  | .interrupted :: rest => gatherAll rest
  | .failure reason :: _ => .error (.other reason)
  | .data octets :: rest => if octets = [] then .ok [] else (octets ++ ·) <$> gatherAll rest

end Script

end Multipart
