import Multipart.Files.Path
import Multipart.Proofs.Header.BoundaryGrammar

/-!
# The last name of a path

A path is named by the last of its sections that counts, unless that is two dots.
-/

namespace Multipart.Path

open Octet

/-- The last section that is neither empty nor a single dot, if it is not two dots. -/
def LastName (p : Path) (name : Bytes) : Prop :=
  name ≠ [dot, dot] ∧ isFiller name = false ∧
    ∃ before after, Bytes.sections slash p = before ++ name :: after ∧
      ∀ s ∈ after, isFiller s = true

/-- Where a path begins makes no difference to the sections that count. -/
theorem filterMap_body (p : Path) :
    p.body.filterMap Component.ofSection? =
      (Bytes.sections slash p).filterMap Component.ofSection? := by
  have rooted (rest : Bytes) : (Bytes.sections slash (slash :: rest)).filterMap
      Component.ofSection? = (Bytes.sections slash rest).filterMap Component.ofSection? := by
    rw [← List.nil_append (slash :: rest), Bytes.sections_append_cons List.not_mem_nil]
    rfl
  by_cases root : p.hasRoot = true
  · obtain ⟨rest, rfl⟩ : ∃ rest, p = slash :: rest := by
      cases p with
      | nil => cases root
      | cons o rest =>
        obtain rfl : o = slash := by simpa [hasRoot] using root
        exact ⟨rest, rfl⟩
    have anchor_eq : anchor (slash :: rest) = [slash] := if_pos root
    rw [body, anchor_eq, rooted]
    rfl
  · by_cases here : (Bytes.sections slash p).head? = some [dot]
    · have anchor_eq : p.anchor = [dot] := by rw [anchor, if_neg root, if_pos here]
      obtain ⟨after, parted⟩ := List.head?_eq_some_iff.mp here
      rw [body, anchor_eq]
      rcases (Bytes.of_sections_eq_cons parted).2 with ⟨rfl, -⟩ | ⟨more, rfl, following⟩
      · rfl
      · rw [Bytes.sections_append_cons (by decide)]
        exact rooted more
    · have anchor_eq : p.anchor = [] := by rw [anchor, if_neg root, if_neg here]
      rw [body, anchor_eq]
      rfl

theorem exists_components_eq (p : Path) :
    ∃ start, p.components = start ++ p.body.filterMap Component.ofSection? ∧
      ∀ name, start.getLast? ≠ some (.name name) := by
  unfold components
  split
  · exact ⟨[.root], rfl, nofun⟩
  · split
    · exact ⟨[.here], rfl, nofun⟩
    · exact ⟨[], rfl, nofun⟩

theorem fileName?_eq_some_iff_getLast? {p : Path} {name : Bytes} :
    p.fileName? = some name ↔ p.components.getLast? = some (.name name) := by
  unfold fileName?
  split <;> simp_all

theorem ofSection?_eq_none_iff {s : Bytes} :
    Component.ofSection? s = none ↔ isFiller s = true := by
  cases filler : isFiller s with
  | true => simp [Component.ofSection?, filler]
  | false =>
    simp only [Component.ofSection?, filler, Bool.false_eq_true, if_false, iff_false]
    split <;> exact nofun

theorem ofSection?_eq_name_iff {s name : Bytes} :
    Component.ofSection? s = some (.name name) ↔
      s = name ∧ name ≠ [dot, dot] ∧ isFiller name = false := by
  constructor
  · intro here
    unfold Component.ofSection? at here
    split at here
    case isTrue => cases here
    case isFalse counts =>
      split at here
      case isTrue => cases here
      case isFalse notUp =>
        cases here
        exact ⟨rfl, notUp, Bool.not_eq_true _ ▸ counts⟩
  · rintro ⟨rfl, notUp, counts⟩
    simp [Component.ofSection?, counts, notUp]

theorem fileName?_eq_some_iff {p : Path} {name : Bytes} :
    p.fileName? = some name ↔ p.LastName name := by
  obtain ⟨start, components_eq, unnamed⟩ := p.exists_components_eq
  rw [fileName?_eq_some_iff_getLast?, components_eq, List.getLast?_append, filterMap_body,
    List.getLast?_filterMap, Option.or_eq_some_iff, List.findSome?_eq_some_iff]
  constructor
  · rintro (⟨after, s, before, parted, here, fillers⟩ | ⟨-, first⟩)
    · obtain ⟨rfl, named⟩ := ofSection?_eq_name_iff.mp here
      refine ⟨named.1, named.2, before.reverse, after.reverse, ?_, ?_⟩
      · simpa using congrArg List.reverse parted
      · intro t member
        exact ofSection?_eq_none_iff.mp (fillers t (List.mem_reverse.mp member))
    · exact absurd first (unnamed name)
  · rintro ⟨notUp, counts, before, after, parted, fillers⟩
    refine .inl ⟨after.reverse, name, before.reverse, ?_, ?_, ?_⟩
    · simp [parted]
    · exact ofSection?_eq_name_iff.mpr ⟨rfl, notUp, counts⟩
    · intro t member
      exact ofSection?_eq_none_iff.mpr (fillers t (List.mem_reverse.mp member))

theorem LastName.slash_absent {p : Path} {name : Bytes} (last : p.LastName name) :
    slash ∉ name := by
  obtain ⟨-, -, before, after, parted, -⟩ := last
  have member : name ∈ Bytes.sections slash p := by
    rw [parted]
    exact List.mem_append_right _ List.mem_cons_self
  obtain ⟨-, -, -, -, absent, -⟩ := Bytes.mem_sections_iff.mp member
  exact absent

end Multipart.Path
