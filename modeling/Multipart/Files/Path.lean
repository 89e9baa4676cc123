import Multipart.Octet

/-!
# Paths

Empty components and single dots do not count, except a single dot at the beginning. Nothing else
is normalised: two dots are a component of their own, and a path that is cut keeps its spelling.
-/

namespace Multipart

abbrev Path := Bytes

namespace Path

inductive Component
  | root
  | here
  | up
  | name (name : Bytes)
  deriving DecidableEq, Repr

def hasRoot (p : Path) : Bool := p.head? == some Octet.slash

def anchor (p : Path) : Bytes :=
  if p.hasRoot then [Octet.slash]
  else if (Bytes.sections Octet.slash p).head? = some [Octet.dot] then [Octet.dot]
  else []

theorem length_anchor_le (p : Path) : p.anchor.length ≤ p.length := by
  cases p with
  | nil => simp [anchor, hasRoot, Bytes.sections]
  | cons b p =>
    simp only [anchor]
    split
    · simp
    · split <;> simp

/-- What lies between slashes after the anchor. -/
def body (p : Path) : List Bytes := Bytes.sections Octet.slash (p.drop p.anchor.length)

def isFiller (s : Bytes) : Bool := s.isEmpty || s == [Octet.dot]

def Component.ofSection? (s : Bytes) : Option Component :=
  if isFiller s then none
  else if s = [Octet.dot, Octet.dot] then some .up
  else some (.name s)

def components (p : Path) : List Component :=
  let body := p.body.filterMap Component.ofSection?
  if p.anchor = [Octet.slash] then .root :: body
  else if p.anchor = [Octet.dot] then .here :: body
  else body

def fileName? (p : Path) : Option Bytes :=
  match p.components.getLast? with
  | some (.name n) => some n
  | _ => none

/-- What follows the last dot of a name, if something precedes that dot. -/
def extensionOfName? (name : Bytes) : Option Bytes :=
  let after := (name.reverse.takeWhile (· != Octet.dot)).reverse
  let before := name.take (name.length - after.length - 1)
  if after.length < name.length && !before.isEmpty then some after else none

def extension? (p : Path) : Option Bytes := p.fileName?.bind extensionOfName?

/-- A path without its last component and the fillers on both sides of it, spelled as before. The
root and the empty path have no parent. -/
def parent? (p : Path) : Option Path :=
  match p.body.reverse.dropWhile isFiller with
  | _ :: before =>
    some (p.anchor ++ Bytes.join Octet.slash (before.dropWhile isFiller).reverse)
  | [] => if p.anchor = [Octet.dot] then some [] else none

theorem length_parent? {p q : Path} (h : p.parent? = some q) : q.length < p.length := by
  have hanchor := p.length_anchor_le
  have hbody : (Bytes.join Octet.slash p.body).length = p.length - p.anchor.length := by
    simp [body]
  simp only [parent?] at h
  split at h
  · next last before hlast =>
    have hname : isFiller last = false := by
      simpa [hlast] using List.head_dropWhile_not isFiller (l := p.body.reverse) (by simp [hlast])
    have hpos : 0 < last.length := by
      cases last with
      | nil => simp [isFiller] at hname
      | cons => simp
    obtain ⟨fillers, hfillers⟩ := List.dropWhile_suffix (l := before) isFiller
    obtain ⟨trailing, htrailing⟩ := List.dropWhile_suffix (l := p.body.reverse) isFiller
    simp only [Option.some.injEq] at h
    subst h
    generalize before.dropWhile isFiller = kept at hfillers ⊢
    have hparts : p.body = (kept.reverse ++ fillers.reverse) ++ last :: trailing.reverse := by
      rw [← List.reverse_reverse p.body, ← htrailing, hlast, ← hfillers]
      simp
    have hkept := Bytes.length_join_le_append Octet.slash kept.reverse fillers.reverse
    have hrest := Bytes.length_join_append_cons Octet.slash
      (kept.reverse ++ fillers.reverse) trailing.reverse last
    rw [← hparts, hbody] at hrest
    rw [List.length_append]
    omega
  · split at h
    · next hdot =>
      rw [hdot] at hanchor
      simp only [Option.some.injEq] at h
      subst h
      exact hanchor
    · simp at h

def join (p q : Path) : Path :=
  if p.isEmpty || p.getLast? == some Octet.slash then p ++ q else p ++ [Octet.slash] ++ q

end Path

end Multipart
