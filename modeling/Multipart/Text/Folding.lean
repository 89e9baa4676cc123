/-!
# Case folding into ASCII

The names in the tables are ASCII, so only foldings that end in ASCII matter: those of ASCII
letters, of the long s, of the Kelvin sign, of the sharp s and of the Latin ligatures.
-/

namespace Multipart.Text

/-- The folding of a character if it lies in ASCII, and the character itself otherwise. -/
def foldChar (c : Char) : List Char :=
  match c.toNat with
  | 0xDF | 0x1E9E => ['s', 's']
  | 0x17F => ['s']
  | 0x212A => ['k']
  | 0xFB00 => ['f', 'f']
  | 0xFB01 => ['f', 'i']
  | 0xFB02 => ['f', 'l']
  | 0xFB03 => ['f', 'f', 'i']
  | 0xFB04 => ['f', 'f', 'l']
  | 0xFB05 | 0xFB06 => ['s', 't']
  | _ => [c.toLower]

def fold (s : String) : String := String.ofList (s.toList.flatMap foldChar)

end Multipart.Text
