import Multipart.Octet

/-! # Lists of headers -/

namespace Multipart

structure HeaderList where
  entries : List (String × String)
  deriving DecidableEq, Repr

namespace HeaderList

def empty : HeaderList := ⟨[]⟩

def sameName (m n : String) : Bool := m.toList.map Char.toLower == n.toList.map Char.toLower

def insert (headers : HeaderList) (name value : String) : HeaderList :=
  ⟨headers.entries ++ [(name, value)]⟩

def get? (headers : HeaderList) (name : String) : Option String :=
  (headers.entries.find? fun header => sameName header.1 name).map (·.2)

def contains (headers : HeaderList) (name : String) : Bool := (headers.get? name).isSome

def size (headers : HeaderList) : Nat := headers.entries.length

def isEmpty (headers : HeaderList) : Bool := headers.entries.isEmpty

@[simp] theorem entries_insert (headers : HeaderList) (name value : String) :
    (headers.insert name value).entries = headers.entries ++ [(name, value)] := rfl

end HeaderList

end Multipart
