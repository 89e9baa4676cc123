import Multipart.Decimal.Basic
import Multipart.Octet

/-! # Writing TOML -/

namespace Multipart.Toml.Writer

def longestRun (c : Char) (cs : List Char) : Nat := (cs.foldl step (0, 0)).2
where
  step (runs : Nat × Nat) (d : Char) : Nat × Nat :=
    let run := if d = c then runs.1 + 1 else 0
    (run, max runs.2 run)

def isControl (c : Char) : Bool := (c.toNat < 0x20 && c != '\t' && c != '\n') || c == '\x7F'

inductive Style
  | basic
  | literal
  | basicLines
  | literalLines
  deriving DecidableEq, Repr

def hasLines (cs : List Char) : Bool := cs.contains '\n'

def style (cs : List Char) : Style :=
  let control := cs.any isControl
  let singles := longestRun '\'' cs
  let doubles := longestRun '"' cs
  let backslash := cs.contains '\\'
  if !control && !backslash && doubles = 0 && !hasLines cs then .basic
  else if !control && singles = 0 && !hasLines cs then .literal
  else if !control && !backslash && doubles ≤ 2 then .basicLines
  else if !control && singles ≤ 2 then .literalLines
  else if hasLines cs then .basicLines
  else .basic

def escapeChar (c : Char) : List Char :=
  if c = '\x08' then ['\\', 'b']
  else if c = '\t' then ['\\', 't']
  else if c = '\n' then ['\\', 'n']
  else if c = '\x0C' then ['\\', 'f']
  else if c = '\r' then ['\\', 'r']
  else if c = '\\' then ['\\', '\\']
  else if c.toNat < 0x20 || c = '\x7F' then ['\\', 'u', '0', '0'] ++ Hex.upperPair c.toNat
  else [c]

def basicChar (c : Char) : List Char := if c = '"' then ['\\', '"'] else escapeChar c

/-- The body of a basic string over several lines, after so many quotes in a row. Of three quotes in
a row the third is escaped. -/
def basicLinesBody (quotes : Nat) : List Char → List Char
  | [] => []
  | c :: cs =>
    if c = '"' then
      if quotes = 2 then ['\\', '"'] ++ basicLinesBody 0 cs
      else '"' :: basicLinesBody (quotes + 1) cs
    else if c = '\n' then '\n' :: basicLinesBody 0 cs
    else escapeChar c ++ basicLinesBody 0 cs

/-- A line end after the opening quotes, which keeps the string's own lines together. -/
def opening (cs : List Char) : List Char := if hasLines cs then ['\n'] else []

def string (s : String) : List Char :=
  let cs := s.toList
  match style cs with
  | .basic => ['"'] ++ cs.flatMap basicChar ++ ['"']
  | .literal => ['\''] ++ cs ++ ['\'']
  | .basicLines => ['"', '"', '"'] ++ opening cs ++ basicLinesBody 0 cs ++ ['"', '"', '"']
  | .literalLines => ['\'', '\'', '\''] ++ opening cs ++ cs ++ ['\'', '\'', '\'']

def entry (key : String) (value : List Char) : List Char :=
  key.toList ++ " = ".toList ++ value ++ ['\n']

end Multipart.Toml.Writer
