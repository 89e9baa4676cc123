import Multipart.Files.System
import Multipart.Proofs.Success

/-!
# Growing file systems

Making directories only adds names and nodes. Every path that led somewhere still leads there. A file
that has been written holds what was written to it, unless the path leads to a device.
-/

namespace Multipart

namespace Files

/-- A directory may have gained names at the end; anything else is the same. -/
inductive Node.Grown : Node → Node → Prop
  | refl (node : Node) : Grown node node
  | directory (parent : NodeId) (entries more : List (Bytes × NodeId)) :
      Grown (.directory parent entries) (.directory parent (entries ++ more))

theorem Node.Grown.trans {a b c : Node} (first : a.Grown b) (second : b.Grown c) : a.Grown c := by
  cases first with
  | refl => exact second
  | directory parent entries more =>
    cases second with
    | refl => exact .directory parent entries more
    | directory _ _ others =>
      rw [List.append_assoc]
      exact .directory parent entries (more ++ others)

end Files

namespace FileSystem

open Files

/-- Nothing is gone or changed but directories that have more names. -/
structure Grown (fs later : FileSystem) : Prop where
  root : later.root = fs.root
  working : later.working = fs.working
  node : ∀ (id : NodeId) (old : Node), fs.nodes[id]? = some old →
    ∃ new, later.nodes[id]? = some new ∧ old.Grown new

/-- A path leads to a regular file with this content. -/
def Holds (fs : FileSystem) (p : Path) (content : Bytes) : Prop :=
  ∃ id, fs.resolve p = .ok id ∧ fs.nodes[id]? = some (.regular content)

variable {fs later last : FileSystem} {id directory : NodeId} {p : Path} {name content : Bytes}

namespace Grown

theorem refl (fs : FileSystem) : fs.Grown fs :=
  ⟨rfl, rfl, fun _ node found => ⟨node, found, .refl node⟩⟩

theorem trans (first : fs.Grown later) (second : later.Grown last) : fs.Grown last := by
  refine ⟨second.root.trans first.root, second.working.trans first.working, ?_⟩
  intro id node found
  obtain ⟨between, found, grown⟩ := first.node id node found
  obtain ⟨final, found, more⟩ := second.node id between found
  exact ⟨final, found, grown.trans more⟩

end Grown

theorem nodes_of_directory {parent : NodeId} {entries : List (Bytes × NodeId)}
    (found : fs.node id = .directory parent entries) :
    fs.nodes[id]? = some (.directory parent entries) := by
  unfold node at found
  cases inside : fs.nodes[id]? with
  | none => rw [inside] at found; cases found
  | some node => rw [inside] at found; exact congrArg some found

theorem grown_addEntry (fs : FileSystem) (directory : NodeId) (name : Bytes) (added : Node) :
    fs.Grown (fs.addEntry directory name added) := by
  unfold addEntry
  split
  · next parent entries found =>
    refine ⟨rfl, rfl, ?_⟩
    intro id old inside
    have within : id < fs.nodes.length := (List.getElem?_eq_some_iff.mp inside).1
    simp only [setNode]
    rw [List.getElem?_append_left (by rwa [List.length_set]), List.getElem?_set]
    split
    · next same =>
      subst same
      rw [nodes_of_directory found] at inside
      cases inside
      exact ⟨_, by rw [if_pos within], .directory parent entries _⟩
    · exact ⟨old, inside, .refl old⟩
  · exact .refl fs

/-! ## Names in a directory -/

/-- A name that is looked up among the entries. -/
structure Listed (name : Bytes) : Prop where
  not_self : name ≠ [Octet.dot]
  not_parent : name ≠ [Octet.dot, Octet.dot]
  short : name.length ≤ longestName

/-- Where a name leads from the directory `id`. -/
inductive Leads (id parent : NodeId) (entries : List (Bytes × NodeId)) : Bytes → NodeId → Prop
  | self : Leads id parent entries [Octet.dot] id
  | parent : Leads id parent entries [Octet.dot, Octet.dot] parent
  | entry {name : Bytes} {found : NodeId} :
      Listed name → entry? entries name = some found → Leads id parent entries name found

theorem Leads.append {parent found : NodeId} {entries : List (Bytes × NodeId)}
    (leads : Leads id parent entries name found) (more : List (Bytes × NodeId)) :
    Leads id parent (entries ++ more) name found := by
  cases leads with
  | self => exact .self
  | parent => exact .parent
  | entry listed named =>
    refine .entry listed ?_
    obtain ⟨entry, first, rfl⟩ := Option.map_eq_some_iff.mp named
    unfold entry?
    rw [List.find?_append, first]
    rfl

theorem enter_of_listed {parent : NodeId} {entries : List (Bytes × NodeId)} {found? : Option NodeId}
    (here : fs.node id = .directory parent entries) (listed : Listed name)
    (named : entry? entries name = found?) :
    fs.enter id name = found?.elim (.error .notFound) .ok := by
  simp only [FileSystem.enter, here, if_neg listed.not_self, if_neg listed.not_parent,
    if_neg (Nat.not_lt.mpr listed.short), named]
  cases found? <;> rfl

theorem enter_eq_ok_iff {found : NodeId} :
    fs.enter id name = .ok found ↔
      ∃ parent entries, fs.node id = .directory parent entries ∧
        Leads id parent entries name found := by
  constructor
  · intro entered
    cases here : fs.node id with
    | regular | special => simp [FileSystem.enter, here] at entered
    | directory parent entries =>
      refine ⟨parent, entries, rfl, ?_⟩
      by_cases self : name = [Octet.dot]
      · simp only [FileSystem.enter, here, if_pos self] at entered
        cases entered
        exact self ▸ .self
      by_cases up : name = [Octet.dot, Octet.dot]
      · simp only [FileSystem.enter, here, if_neg self, if_pos up] at entered
        cases entered
        exact up ▸ .parent
      by_cases long : longestName < name.length
      · simp [FileSystem.enter, here, self, up, long] at entered
      have listed : Listed name := ⟨self, up, Nat.le_of_not_lt long⟩
      cases named : entry? entries name with
      | none => cases (enter_of_listed here listed named).symm.trans entered
      | some found =>
        cases (enter_of_listed here listed named).symm.trans entered
        exact .entry listed named
  · rintro ⟨parent, entries, here, leads⟩
    cases leads with
    | self => simp only [FileSystem.enter, here, if_true]
    | parent => simp [FileSystem.enter, here]
    | entry listed named => exact enter_of_listed here listed named

theorem missing_of_enter (missing : fs.enter id name = .error .notFound) :
    ∃ parent entries, fs.node id = .directory parent entries ∧ Listed name ∧
      entry? entries name = none := by
  cases here : fs.node id with
  | regular | special => simp [FileSystem.enter, here] at missing
  | directory parent entries =>
    refine ⟨parent, entries, rfl, ?_⟩
    simp only [FileSystem.enter, here] at missing
    grind [Listed]

namespace Grown

theorem enter (grown : fs.Grown later) {found : NodeId} (entered : fs.enter id name = .ok found) :
    later.enter id name = .ok found := by
  obtain ⟨parent, entries, here, leads⟩ := enter_eq_ok_iff.mp entered
  obtain ⟨new, inside, more⟩ := grown.node id _ (nodes_of_directory here)
  have there : ∃ others, later.node id = .directory parent (entries ++ others) := by
    rw [FileSystem.node, inside]
    cases more with
    | refl => exact ⟨[], by simp⟩
    | directory _ _ others => exact ⟨others, rfl⟩
  obtain ⟨others, there⟩ := there
  exact enter_eq_ok_iff.mpr ⟨parent, _, there, leads.append others⟩

theorem walk (grown : fs.Grown later) {names : List Bytes} {found : NodeId}
    (walked : fs.walk id names = .ok found) : later.walk id names = .ok found := by
  induction names generalizing id with
  | nil => exact walked
  | cons name names ih =>
    unfold FileSystem.walk at walked ⊢
    rw [List.foldlM_cons] at walked ⊢
    cases entered : fs.enter id name with
    | error e => rw [entered] at walked; cases walked
    | ok next =>
      rw [entered] at walked
      rw [grown.enter entered]
      exact ih walked

theorem route (grown : fs.Grown later) (p : Path) : later.route p = fs.route p := by
  unfold FileSystem.route
  rw [grown.root, grown.working]

theorem resolve (grown : fs.Grown later) (resolved : fs.resolve p = .ok id) :
    later.resolve p = .ok id := by
  unfold FileSystem.resolve at resolved ⊢
  obtain ⟨r, given, followed⟩ := bind_eq_ok_iff.mp resolved
  obtain ⟨last, walked, ends⟩ := bind_eq_ok_iff.mp followed
  refine bind_eq_ok_iff.mpr ⟨r, (grown.route p).trans given, ?_⟩
  refine bind_eq_ok_iff.mpr ⟨last, grown.walk walked, ?_⟩
  split at ends
  · next slash =>
    rw [if_pos slash]
    exact grown.enter ends
  · next plain =>
    rw [if_neg plain]
    exact ends

theorem contentAt (grown : fs.Grown later) (resolved : fs.resolve p = .ok id)
    (within : id < fs.nodes.length) : later.contentAt p = fs.contentAt p := by
  obtain ⟨old, found⟩ : ∃ old, fs.nodes[id]? = some old := ⟨_, List.getElem?_eq_getElem within⟩
  obtain ⟨new, inside, more⟩ := grown.node id old found
  rw [FileSystem.contentAt, FileSystem.contentAt, resolved, grown.resolve resolved]
  simp only [bind, Except.bind, content, FileSystem.node, inside, found, Option.getD_some]
  cases more <;> rfl

end Grown

/-! ## Making directories -/

theorem grown_makeDirectory (made : fs.makeDirectory p = .ok later) : fs.Grown later := by
  unfold makeDirectory at made
  obtain ⟨r, -, made⟩ := bind_eq_ok_iff.mp made
  obtain ⟨holder, -, made⟩ := bind_eq_ok_iff.mp made
  split at made
  · cases made
  · next directory name =>
    split at made
    · cases made
    · cases made
      exact grown_addEntry fs directory name _
    · cases made

theorem grown_ensureDirectory (fs : FileSystem) (p : Path) : fs.Grown (fs.ensureDirectory p).2 := by
  unfold ensureDirectory
  split
  · next made => exact grown_makeDirectory made
  · exact .refl fs

theorem grown_makeDirectoryPath (p : Path) (fs : FileSystem) :
    fs.Grown (makeDirectoryPath p fs).2 := by
  fun_induction makeDirectoryPath p fs with
  | case1 => exact .refl _
  | case2 => exact .refl _
  | case3 _ _ _ _ _ _ _ made ih =>
    rw [made] at ih
    exact ih.trans (grown_ensureDirectory _ _)
  | case4 _ _ _ _ _ _ _ _ made ih =>
    rw [made] at ih
    exact ih
  | case5 => exact grown_ensureDirectory _ _

theorem grown_makeParent (fs : FileSystem) (p : Path) : fs.Grown (fs.makeParent p).2 := by
  unfold makeParent
  split
  · exact grown_makeDirectoryPath _ fs
  · exact .refl fs

/-! ## Writing files -/

/-- The directory that a path leads to but for its last name, which is no step to a directory. -/
def Names (fs : FileSystem) (p : Path) (directory : NodeId) (name : Bytes) : Prop :=
  ∃ r, fs.route p = .ok r ∧ r.trailingSlash = false ∧ fs.holder r = .ok (some (directory, name))

theorem eq_of_mustBeDirectory {found : NodeId} (same : fs.mustBeDirectory id = .ok found) :
    found = id := by
  obtain ⟨parent, entries, -, leads⟩ := enter_eq_ok_iff.mp same
  cases leads with
  | self => rfl
  | entry listed => exact absurd rfl listed.not_self

theorem exists_of_holder {r : Route} (held : fs.holder r = .ok (some (directory, name))) :
    ∃ before, r.names = before ++ [name] ∧ fs.walk r.start before = .ok directory ∧
      name ≠ [Octet.dot] ∧ name ≠ [Octet.dot, Octet.dot] := by
  unfold holder at held
  split at held
  · cases held
  · next last ends =>
    obtain ⟨above, walked, held⟩ := bind_eq_ok_iff.mp held
    obtain ⟨found, same, named⟩ := bind_eq_ok_iff.mp held
    cases eq_of_mustBeDirectory same
    split at named
    · cases named
    · next step =>
      cases named
      obtain ⟨notDot, notUp⟩ := not_or.mp step
      have split := List.dropLast_append_getLast? name ends
      exact ⟨r.names.dropLast, split.symm, walked, notDot, notUp⟩

theorem Names.resolve (names : fs.Names p directory name) (grown : fs.Grown later)
    (entered : later.enter directory name = .ok id) : later.resolve p = .ok id := by
  obtain ⟨r, given, plain, held⟩ := names
  obtain ⟨before, split, walked, -⟩ := exists_of_holder held
  refine bind_eq_ok_iff.mpr ⟨r, (grown.route p).trans given, ?_⟩
  refine bind_eq_ok_iff.mpr ⟨id, ?_, by rw [plain]; rfl⟩
  rw [split, walk, List.foldlM_append]
  refine bind_eq_ok_iff.mpr ⟨directory, grown.walk walked, ?_⟩
  rw [List.foldlM_cons, entered]
  rfl

/-- What writing a file has done: it has replaced the content, left a device alone, or made the
file. -/
inductive Write (fs : FileSystem) (p : Path) (content : Bytes) : FileSystem → Prop
  | replace (directory : NodeId) (name : Bytes) (id : NodeId) (old : Bytes) :
      fs.Names p directory name → fs.enter directory name = .ok id →
      fs.node id = .regular old → Write fs p content (fs.setNode id (.regular content))
  | device (directory : NodeId) (name : Bytes) (id : NodeId) :
      fs.Names p directory name → fs.enter directory name = .ok id →
      (∀ old, fs.node id ≠ .regular old) → Write fs p content fs
  | create (directory : NodeId) (name : Bytes) :
      fs.Names p directory name → fs.enter directory name = .error .notFound →
      Write fs p content (fs.addEntry directory name (.regular content))

theorem write_of_writeFile (written : fs.writeFile p content = .ok later) :
    Write fs p content later := by
  unfold writeFile at written
  obtain ⟨r, given, written⟩ := bind_eq_ok_iff.mp written
  obtain ⟨holder, held, written⟩ := bind_eq_ok_iff.mp written
  cases holder with
  | none => cases written
  | some place =>
    obtain ⟨directory, name⟩ := place
    by_cases slash : r.trailingSlash = true
    · simp only [slash] at written
      cases written
    · have plain : r.trailingSlash = false := Bool.not_eq_true _ ▸ slash
      have names : fs.Names p directory name := ⟨r, given, plain, held⟩
      simp only [plain, Bool.false_eq_true, if_false] at written
      cases entered : fs.enter directory name with
      | ok id =>
        simp only [entered] at written
        cases found : fs.node id with
        | directory parent entries => rw [found] at written; cases written
        | regular old =>
          rw [found] at written
          cases written
          exact .replace directory name id old names entered found
        | special file =>
          rw [found] at written
          cases written
          exact .device directory name id names entered (by simp [found])
      | error e =>
        simp only [entered] at written
        split at written
        · next impossible => cases impossible
        · next same =>
          cases same
          cases written
          exact .create directory name names entered
        · cases written

theorem enter_addEntry (added : Node) (missing : fs.enter directory name = .error .notFound) :
    (fs.addEntry directory name added).enter directory name = .ok fs.nodes.length ∧
      (fs.addEntry directory name added).nodes[fs.nodes.length]? = some added := by
  obtain ⟨parent, entries, found, listed, absent⟩ := missing_of_enter missing
  have inside := nodes_of_directory found
  have within : directory < fs.nodes.length := (List.getElem?_eq_some_iff.mp inside).1
  have nodes : (fs.addEntry directory name added).nodes =
      fs.nodes.set directory (.directory parent (entries ++ [(name, fs.nodes.length)])) ++
        [added] := by
    simp only [addEntry, found, setNode]
  constructor
  · have there : (fs.addEntry directory name added).node directory =
        .directory parent (entries ++ [(name, fs.nodes.length)]) := by
      rw [node, nodes, List.getElem?_append_left (by rwa [List.length_set]),
        List.getElem?_set_self within]
      rfl
    have named : entry? (entries ++ [(name, fs.nodes.length)]) name = some fs.nodes.length := by
      simp only [Option.map_eq_none_iff, entry?] at absent ⊢
      rw [List.find?_append, absent]
      simp
    exact enter_eq_ok_iff.mpr ⟨parent, _, there, .entry listed named⟩
  · have past : (fs.nodes.set directory
        (.directory parent (entries ++ [(name, fs.nodes.length)]))).length = fs.nodes.length :=
      List.length_set
    rw [nodes, List.getElem?_append_right (Nat.le_of_eq past), past, Nat.sub_self]
    rfl

/-- Paths do not depend on what files hold. -/
theorem resolve_setNode {old : Bytes} (found : fs.node id = .regular old) (content : Bytes)
    (p : Path) :
    (fs.setNode id (.regular content)).resolve p = fs.resolve p := by
  have enter : (fs.setNode id (.regular content)).enter = fs.enter := by
    funext other name
    have node : (fs.setNode id (.regular content)).node other = fs.node other ∨
        other = id ∧ (fs.setNode id (.regular content)).node other = .regular content := by
      simp only [FileSystem.node, setNode, List.getElem?_set]
      split
      · next same =>
        subst same
        split
        · exact .inr ⟨rfl, rfl⟩
        · next outside => exact .inl (by rw [List.getElem?_eq_none (Nat.le_of_not_lt outside)])
      · exact .inl rfl
    unfold FileSystem.enter
    rcases node with same | ⟨rfl, replaced⟩
    · rw [same]
    · rw [replaced, found]
  simp only [FileSystem.resolve, FileSystem.walk, mustBeDirectory, enter]
  rfl

/-- A file that has been written holds what was written, if it is a file at all. -/
theorem holds_writeFile {old : Bytes} (written : fs.writeFile p content = .ok later)
    (regular : later.Holds p old) : later.Holds p content := by
  obtain ⟨last, resolved, inside⟩ := regular
  cases write_of_writeFile written with
  | replace directory name id _ names entered found =>
    have here := (resolve_setNode found content p).trans
      (names.resolve (.refl fs) entered)
    cases here.symm.trans resolved
    have within := (List.getElem?_eq_some_iff.mp inside).1
    rw [setNode, List.length_set] at within
    exact ⟨_, here, List.getElem?_set_self within⟩
  | device directory name id names entered special =>
    have here := names.resolve (.refl fs) entered
    cases here.symm.trans resolved
    exact absurd (by rw [node, inside]; rfl) (special old)
  | create directory name names missing =>
    obtain ⟨entered, found⟩ := enter_addEntry (.regular content) missing
    exact ⟨_, names.resolve (grown_addEntry ..) entered, found⟩

end FileSystem

end Multipart
