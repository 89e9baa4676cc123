/-!
# Blanks, comments and line ends

Readers of TOML take the characters that are left and give back what they have read and the rest.
-/

namespace Multipart.Toml

def isBlank (c : Char) : Bool := c == ' ' || c == '\t'

/-- Characters that may stand in a comment: all but control characters, and tabs. -/
def isCommentChar (c : Char) : Bool := c == '\t' || (' ' ≤ c && c != '\x7F')

def skipBlanks (cs : List Char) : List Char := cs.dropWhile isBlank

def newline? : List Char → Option (List Char)
  | '\n' :: cs => some cs
  | '\r' :: '\n' :: cs => some cs
  | _ => none

def lineEnd? : List Char → Option (List Char)
  | [] => some []
  | cs => newline? cs

def skipComment : List Char → List Char
  | '#' :: cs => cs.dropWhile isCommentChar
  | cs => cs

def restOfLine? (cs : List Char) : Option (List Char) := lineEnd? (skipComment (skipBlanks cs))

/-- Skips blanks, line ends and comments, as between the items of an array. A comment ends with its
line. -/
def skipLines? (inComment : Bool) : List Char → Option (List Char)
  | [] => if inComment then none else some []
  | '\r' :: '\n' :: cs => skipLines? false cs
  | c :: cs =>
    if c = '\n' then skipLines? false cs
    else if inComment then if isCommentChar c then skipLines? true cs else none
    else if c = '#' then skipLines? true cs
    else if isBlank c then skipLines? false cs
    else some (c :: cs)

end Multipart.Toml
