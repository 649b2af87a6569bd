import Mathlib.Data.List.Induction
import ReleaseGate.Fault

/-!
# What programs leave in a file tree

A program with files changes some of them. What it does not touch stays, and no directory is ever
taken away, so a location that leads somewhere goes on to lead there.

* `Location.path_below`, `Location.Fits`: locations below others, and those that are taken.
* `FileTree.resolve_concat`, `FileTree.eq_foldl_of_resolve`: where a location leads.
* `FileTree.Keeps`: a later tree that still has the directories, and the files at some paths.
* `FileTree.Holds`: a directory with exactly these files.
* `Leaves`: a program that keeps them, whether it succeeds or not.
* `leaves_createDirectories`, `leaves_writeFile`: directories are created without touching a file,
  and a file is written at one path.
-/

namespace ReleaseGate

/-! ## Where locations lead -/

/-- The path of a location from the root. -/
def Location.path (location : Location) : Path := location.parts.foldl Path.step []

/-- A name of a file or directory, which leads one step further. -/
def Path.IsName (name : String) : Prop := name ≠ "" ∧ name ≠ "." ∧ name ≠ ".."

instance (name : String) : Decidable (Path.IsName name) := inferInstanceAs (Decidable (_ ∧ _))

theorem Path.step_name {name : String} (h : IsName name) (path : Path) :
    path.step name = path ++ [name] := by
  obtain ⟨hempty, hdot, hdots⟩ := h
  simp [step, hempty, hdot, hdots]

namespace Location

variable {location : Location} {name : String}

/-- The system takes a location, and would also if it were longer by so many bytes. -/
structure Fits (location : Location) (spare : Nat) : Prop where
  noNul : '\x00' ∉ location.text.toList
  short : location.text.utf8ByteSize + spare < byteLimit

theorem Fits.check {spare : Nat} (h : location.Fits spare) : location.check = .ok () := by
  have hshort : ¬ byteLimit ≤ location.text.utf8ByteSize := by
    have := h.short
    omega
  rw [Location.check, String.contains_char_eq, decide_eq_false h.noNul, if_neg Bool.false_ne_true,
    if_neg hshort]

/-- A name below takes one byte more than it has, for the slash. -/
theorem Fits.below {spare : Nat} (h : location.Fits (name.utf8ByteSize + 1 + spare))
    (hname : '\x00' ∉ name.toList) : (location.below name).Fits spare := by
  have hshort := h.short
  have hslash : "/".utf8ByteSize = 1 := rfl
  have hempty : "".utf8ByteSize = 0 := rfl
  unfold Location.below
  split
  · exact ⟨hname, by dsimp only; omega⟩
  · refine ⟨?_, ?_⟩
    · split <;> simp [h.noNul, hname]
    · simp only [String.utf8ByteSize_append]
      split <;> omega

theorem text_below_ne_empty (hname : name ≠ "") (location : Location) :
    (location.below name).text ≠ "" := by
  unfold below
  split
  · exact hname
  · simp [hname]

theorem parts_below (h : location.text ≠ "") : (location.below name).parts =
    location.parts ++ [name] := by
  rw [below, if_neg h]

theorem path_below (hname : Path.IsName name) (h : location.text ≠ "") :
    (location.below name).path = location.path ++ [name] := by
  rw [path, parts_below h, List.foldl_append]
  exact Path.step_name hname _

/-- The empty text is the root as well. -/
theorem path_ofText_below (hname : Path.IsName name) (text : String) :
    ((ofText text).below name).path = (ofText text).path ++ [name] := by
  by_cases htext : text = ""
  · have hroot : (ofText "").path = [] := by decide
    have hbelow : (ofText "").below name = ⟨name, [name]⟩ := if_pos rfl
    rw [htext, hroot, hbelow]
    exact Path.step_name hname []
  · exact path_below hname htext

end Location

theorem bind_eq_ok {ε α β : Type} {x : Except ε α} {f : α → Except ε β} {b : β} :
    x >>= f = .ok b ↔ ∃ a, x = .ok a ∧ f a = .ok b := by
  cases x with
  | ok a => simp [bind, Except.bind]
  | error problem => simp [bind, Except.bind]

namespace FileTree

variable {tree tree' : FileTree} {path : Path}

theorem get?_set (h : path ≠ []) (tree : FileTree) (entry : FileEntry) (other : Path) :
    (tree.set path entry).get? other = if other = path then some entry else tree.get? other := by
  have hlookup : ∀ entries : List (Path × FileEntry), other ≠ path →
      (entries.filter fun e => e.1 ≠ path).lookup other = entries.lookup other := by
    intro entries hother
    induction entries with
    | nil => rfl
    | cons e entries ih =>
      by_cases he : e.1 = path
      · have hbeq : (other == e.1) = false := beq_false_of_ne (he ▸ hother)
        rw [List.filter_cons_of_neg (by simp [he]), ih, List.lookup_cons, hbeq]
      · rw [List.filter_cons_of_pos (by simp [he]), List.lookup_cons, List.lookup_cons, ih]
  unfold get? set
  by_cases hother : other = path
  · subst hother
    simp [h]
  · rw [if_neg hother, List.lookup_cons, beq_false_of_ne hother, hlookup _ hother]

theorem enter_eq_ok {way : Path} {part : String} : tree.enter way part = .ok path ↔
    tree.get? way = some .directory ∧ part.utf8ByteSize ≤ longestName ∧ path = way.step part := by
  unfold enter
  cases hway : tree.get? way with
  | none => simp
  | some entry =>
    cases entry with
    | file content => simp
    | directory =>
      by_cases hlong : longestName < part.utf8ByteSize
      · simp [hlong, Nat.not_le.mpr hlong]
      · simp [hlong, Nat.not_lt.mp hlong, eq_comm]

/-- To go one part further, the way so far must be a directory. -/
theorem resolve_concat {parts : List String} {part : String} :
    tree.resolve (parts ++ [part]) = .ok path ↔ ∃ way, tree.resolve parts = .ok way ∧
      tree.get? way = some .directory ∧ part.utf8ByteSize ≤ longestName ∧ path = way.step part := by
  have hlast : ∀ way, [part].foldlM tree.enter way = tree.enter way part := fun way => by
    simp
  unfold resolve
  simp only [List.foldlM_append, bind_eq_ok, hlast, enter_eq_ok]

theorem eq_foldl_of_resolve {parts : List String} (h : tree.resolve parts = .ok path) :
    path = parts.foldl Path.step [] := by
  induction parts using List.reverseRecOn generalizing path with
  | nil => exact (Except.ok.inj h).symm
  | append_singleton parts part ih =>
    obtain ⟨way, hway, -, -, rfl⟩ := resolve_concat.mp h
    rw [List.foldl_append, ← ih hway]
    rfl

/-! ## Trees one after the other -/

/-- A later tree that has all directories of a tree, and at some paths the same files. -/
structure Keeps (tree tree' : FileTree) (kept : Path → Prop) : Prop where
  directory : ∀ path, tree.get? path = some .directory → tree'.get? path = some .directory
  file : ∀ path, kept path → ∀ content,
    tree'.get? path = some (.file content) ↔ tree.get? path = some (.file content)

namespace Keeps

variable {kept : Path → Prop} {tree'' : FileTree}

theorem refl (tree : FileTree) (kept : Path → Prop) : tree.Keeps tree kept :=
  ⟨fun _ h => h, fun _ _ _ => Iff.rfl⟩

theorem trans (h : tree.Keeps tree' kept) (h' : tree'.Keeps tree'' kept) :
    tree.Keeps tree'' kept :=
  ⟨fun path hpath => h'.directory path (h.directory path hpath),
    fun path hpath content => (h'.file path hpath content).trans (h.file path hpath content)⟩

theorem mono {kept' : Path → Prop} (h : tree.Keeps tree' kept)
    (hkept : ∀ path, kept' path → kept path) : tree.Keeps tree' kept' :=
  ⟨h.directory, fun path hpath => h.file path (hkept path hpath)⟩

/-- A location that leads somewhere goes on to lead there. -/
theorem resolve (h : tree.Keeps tree' kept) {parts : List String}
    (hpath : tree.resolve parts = .ok path) : tree'.resolve parts = .ok path := by
  induction parts using List.reverseRecOn generalizing path with
  | nil => exact hpath
  | append_singleton parts part ih =>
    obtain ⟨way, hway, hdirectory, hshort, rfl⟩ := resolve_concat.mp hpath
    exact resolve_concat.mpr ⟨way, ih hway, h.directory way hdirectory, hshort, rfl⟩

end Keeps

/-! ## What a tree holds -/

section Holding

variable {kept : Path → Prop} {location : Location}

/-- No file is at a path or below it. -/
def NoFileBelow (tree : FileTree) (path : Path) : Prop :=
  ∀ rest content, tree.get? (path ++ rest) ≠ some (.file content)

theorem noFileBelow_empty (path : Path) : empty.NoFileBelow path := by
  intro rest content
  unfold get?
  split
  · simp
  · simp [empty]

/-- A location that leads to a directory with a file in it. -/
structure Has (tree : FileTree) (location : Location) (file : String × String) : Prop where
  resolve : tree.resolve location.parts = .ok location.path
  directory : tree.get? location.path = some .directory
  content : tree.get? (location.below file.1).path = some (.file file.2)

theorem Keeps.has (h : tree.Keeps tree' kept) {file : String × String}
    (hhas : tree.Has location file) (hkept : kept (location.below file.1).path) :
    tree'.Has location file :=
  ⟨h.resolve hhas.resolve, h.directory _ hhas.directory, (h.file _ hkept _).mpr hhas.content⟩

/-- A location that leads to a directory with exactly these files in it, and none further below. -/
structure Holds (tree : FileTree) (location : Location) (files : List (String × String)) :
    Prop where
  resolve : tree.resolve location.parts = .ok location.path
  directory : tree.get? location.path = some .directory
  file_iff : ∀ rest content, tree.get? (location.path ++ rest) = some (.file content) ↔
    ∃ name, rest = [name] ∧ (name, content) ∈ files

theorem Keeps.holds (h : tree.Keeps tree' kept) {files : List (String × String)}
    (hholds : tree.Holds location files) (hkept : ∀ rest, kept (location.path ++ rest)) :
    tree'.Holds location files where
  resolve := h.resolve hholds.resolve
  directory := h.directory _ hholds.directory
  file_iff rest content := (h.file _ (hkept rest) content).trans (hholds.file_iff rest content)

end Holding

section Steps

variable {location : Location}

/-- A file is written where its location leads, unless that is a directory. -/
theorem eq_set_of_write {content : String} (h : tree.write location content = .ok tree') :
    tree.resolve location.parts = .ok location.path ∧
      tree.get? location.path ≠ some .directory ∧
      tree' = tree.set location.path (.file content) := by
  obtain ⟨_, -, h⟩ := bind_eq_ok.mp h
  obtain ⟨path, hpath, h⟩ := bind_eq_ok.mp h
  obtain rfl : path = location.path := eq_foldl_of_resolve hpath
  split at h
  · cases h
  · next hfree => exact ⟨hpath, hfree, (Except.ok.inj h).symm⟩

/-- A file can be written unless a directory is in its place. -/
theorem write_eq_ok {content : String} (hcheck : location.check = .ok ())
    (hresolve : tree.resolve location.parts = .ok location.path)
    (hfree : tree.get? location.path ≠ some .directory) :
    tree.write location content = .ok (tree.set location.path (.file content)) := by
  refine bind_eq_ok.mpr ⟨(), hcheck, bind_eq_ok.mpr ⟨_, hresolve, ?_⟩⟩
  split
  · next hdirectory => exact absurd hdirectory hfree
  · rfl

/-- A location that the system takes is resolved, and must then be free. -/
theorem createDirectory_of_fits {spare : Nat} (h : location.Fits spare) :
    tree.createDirectory location = (tree.resolve location.parts).bind fun path =>
      match tree.get? path with
      | some _ => .error .exists
      | none => .ok (tree.set path .directory) := by
  rw [createDirectory, h.check]
  rfl

/-- A directory is created where nothing is. -/
theorem eq_set_of_createDirectory (h : tree.createDirectory location = .ok tree') :
    tree.get? location.path = none ∧ tree' = tree.set location.path .directory := by
  obtain ⟨_, -, h⟩ := bind_eq_ok.mp h
  obtain ⟨path, hpath, h⟩ := bind_eq_ok.mp h
  obtain rfl : path = location.path := eq_foldl_of_resolve hpath
  split at h
  · cases h
  · next hfree => exact ⟨hfree, (Except.ok.inj h).symm⟩

/-- A directory that is there already is refused, for this reason or because its location cannot be
written down. -/
theorem createDirectory_of_directory (hresolve : tree.resolve location.parts = .ok location.path)
    (hdirectory : tree.get? location.path = some .directory) :
    ∃ problem ≠ .missing, tree.createDirectory location = .error problem := by
  unfold createDirectory Location.check
  split
  · exact ⟨.nulInName, by decide, rfl⟩
  · split
    · exact ⟨.nameTooLong, by decide, rfl⟩
    · refine ⟨.exists, by decide, ?_⟩
      simp only [hresolve, hdirectory, bind, Except.bind]
      rfl

theorem ne_nil_of_get?_ne (h : tree.get? path ≠ some .directory) : path ≠ [] := by
  rintro rfl
  exact h rfl

theorem keeps_of_write {content : String} (h : tree.write location content = .ok tree') :
    tree.Keeps tree' (· ≠ location.path) := by
  obtain ⟨-, hfree, rfl⟩ := eq_set_of_write h
  have hne := ne_nil_of_get?_ne hfree
  refine ⟨fun path hpath => ?_, fun path hpath content => ?_⟩
  · have hother : path ≠ location.path := by
      rintro rfl
      exact hfree hpath
    rw [get?_set hne, if_neg hother, hpath]
  · rw [get?_set hne, if_neg hpath]

theorem keeps_of_createDirectory (h : tree.createDirectory location = .ok tree') :
    tree.Keeps tree' fun _ => True := by
  obtain ⟨hfree, rfl⟩ := eq_set_of_createDirectory h
  have hnone : tree.get? location.path ≠ some .directory := by
    simp [hfree]
  have hne := ne_nil_of_get?_ne hnone
  refine ⟨fun path hpath => ?_, fun path _ content => ?_⟩
  · rw [get?_set hne, hpath, ite_self]
  · rw [get?_set hne]
    split
    · next heq => simp [heq, hfree]
    · rfl

end Steps

end FileTree

/-! ## Programs -/

theorem run_updateTree (step : FileTree → Except FileProblem FileTree) (tree : FileTree) :
    (updateTree step).run tree = match step tree with
      | .ok tree' => (.ok (), tree')
      | .error problem => (.error problem, tree) := by
  unfold updateTree
  rw [StateT.run_bind, StateT.run_get, pure_bind]
  cases step tree <;> rfl

/-- A program with files that can fail. -/
abbrev FileProgram := ExceptT Fault (StateM FileTree)

/-- A program that keeps all directories, and the files at some paths. -/
def Leaves (kept : Path → Prop) {α : Type} (program : StateM FileTree α) : Prop :=
  ∀ tree : FileTree, tree.Keeps (program.run tree).2 kept

namespace Leaves

variable {kept : Path → Prop} {α β : Type}

theorem pure (a : α) : Leaves kept (pure a) := fun tree => .refl tree kept

theorem bind {first : StateM FileTree α} {next : α → StateM FileTree β} (h : Leaves kept first)
    (hnext : ∀ a, Leaves kept (next a)) : Leaves kept (first >>= next) :=
  fun tree => (h tree).trans (hnext _ _)

theorem mono {kept' : Path → Prop} {program : StateM FileTree α} (h : Leaves kept program)
    (hkept : ∀ path, kept' path → kept path) : Leaves kept' program :=
  fun tree => (h tree).mono hkept

theorem updateTree {step : FileTree → Except FileProblem FileTree}
    (h : ∀ tree tree', step tree = .ok tree' → tree.Keeps tree' kept) :
    Leaves kept (updateTree step) := by
  intro tree
  rw [run_updateTree]
  cases hstep : step tree with
  | ok tree' => exact h tree tree' hstep
  | error problem => exact .refl tree kept

/-- A fault ends a program; what was done before stays done. -/
theorem bindFault {first : FileProgram α}
    {next : α → FileProgram β} (h : Leaves kept first.run)
    (hnext : ∀ a, Leaves kept (next a).run) : Leaves kept (first >>= next).run := by
  rw [ExceptT.run_bind]
  refine h.bind fun result => ?_
  cases result with
  | ok a => exact hnext a
  | error fault => exact .pure _

theorem orFault {fault : FileProblem → Fault} {action : StateM FileTree (Except FileProblem α)}
    (h : Leaves kept action) : Leaves kept (FileAccess.orFault fault action).run := h

theorem forM {action : α → FileProgram PUnit} {xs : List α}
    (h : ∀ x ∈ xs, Leaves kept (action x).run) : Leaves kept (xs.forM action).run := by
  induction xs with
  | nil => exact .pure _
  | cons x xs ih =>
    obtain ⟨hx, hxs⟩ := List.forall_mem_cons.mp h
    exact hx.bindFault fun _ => ih hxs

end Leaves

theorem leaves_writeFile (location : Location) (content : String) :
    Leaves (· ≠ location.path)
      (FileAccess.writeFile location content : StateM FileTree (Except FileProblem Unit)) :=
  .updateTree fun _ _ h => FileTree.keeps_of_write h

section CreateDirectories

variable {kept : Path → Prop}

theorem leaves_createDirectory (location : Location) : Leaves kept
    (FileAccess.createDirectory location : StateM FileTree (Except FileProblem Unit)) :=
  .updateTree fun _ _ h => (FileTree.keeps_of_createDirectory h).mono fun _ _ => trivial

theorem leaves_settle (location : Location) (result : Except FileProblem Unit) : Leaves kept
    (FileAccess.settle location result : StateM FileTree (Except FileProblem Unit)) := by
  cases result with
  | ok => exact .pure _
  | error problem => exact fun tree => .refl tree kept

/-- Directories are created one by one, from the first that is missing. -/
theorem leaves_createUpTo (reversed : List String) : Leaves kept
    (FileAccess.createUpTo reversed : StateM FileTree (Except FileProblem Unit)) := by
  induction reversed with
  | nil => exact .pure _
  | cons last before ih =>
    unfold FileAccess.createUpTo
    refine (leaves_createDirectory _).bind fun result => ?_
    split
    · refine ih.bind fun result => ?_
      split
      · exact (leaves_createDirectory _).bind fun result => leaves_settle _ result
      · exact .pure _
    · exact leaves_settle _ _

theorem leaves_createDirectories (location : Location) : Leaves kept
    (FileAccess.createDirectories location : StateM FileTree (Except FileProblem Unit)) :=
  leaves_createUpTo _

end CreateDirectories

section Success

variable {α β : Type} {first : FileProgram α} {next : α → FileProgram β} {tree : FileTree} {a : α}
  {b : β}

/-- A program goes on from where its first part succeeded. -/
theorem run_bind_of_eq_ok (h : (first.run.run tree).1 = .ok a) :
    (first >>= next).run.run tree = (next a).run.run (first.run.run tree).2 := by
  rw [ExceptT.run_bind, StateT.run_bind]
  generalize first.run.run tree = ended at h ⊢
  obtain ⟨result, tree'⟩ := ended
  obtain rfl : result = .ok a := h
  rfl

/-- A program succeeds if both of its parts do. -/
theorem run_bind_eq_ok (h : ((first >>= next).run.run tree).1 = .ok b) :
    ∃ a, (first.run.run tree).1 = .ok a ∧
      ((next a).run.run (first.run.run tree).2).1 = .ok b ∧
      ((first >>= next).run.run tree).2 = ((next a).run.run (first.run.run tree).2).2 := by
  cases hfirst : (first.run.run tree).1 with
  | ok a =>
    rw [run_bind_of_eq_ok hfirst] at h ⊢
    exact ⟨a, rfl, h, rfl⟩
  | error fault =>
    rw [ExceptT.run_bind, StateT.run_bind] at h
    generalize first.run.run tree = ended at h hfirst
    obtain ⟨result, tree'⟩ := ended
    obtain rfl : result = .error fault := hfirst
    cases h

theorem run_createDirectory (location : Location) (tree : FileTree) :
    (FileAccess.createDirectory location : StateM FileTree (Except FileProblem Unit)).run tree =
      match tree.createDirectory location with
      | .ok tree' => (.ok (), tree')
      | .error problem => (.error problem, tree) :=
  run_updateTree _ _

/-- A directory in one that exists is created at once. -/
theorem run_createUpTo_of_ok {last : String} {before : List String} {tree tree' : FileTree}
    (h : tree.createDirectory (.ofParts (last :: before).reverse) = .ok tree') :
    (FileAccess.createUpTo (last :: before) : StateM FileTree (Except FileProblem Unit)).run tree =
      (.ok (), tree') := by
  unfold FileAccess.createUpTo
  rw [StateT.run_bind, run_createDirectory, h]
  rfl

/-- A directory in one that is missing is created after that one. -/
theorem run_createUpTo_of_missing {last : String} {before : List String}
    {tree tree' tree'' : FileTree}
    (h : tree.createDirectory (.ofParts (last :: before).reverse) = .error .missing)
    (hbefore : (FileAccess.createUpTo before : StateM FileTree (Except FileProblem Unit)).run tree =
      (.ok (), tree'))
    (hlast : tree'.createDirectory (.ofParts (last :: before).reverse) = .ok tree'') :
    (FileAccess.createUpTo (last :: before) : StateM FileTree (Except FileProblem Unit)).run tree =
      (.ok (), tree'') := by
  unfold FileAccess.createUpTo
  rw [StateT.run_bind, run_createDirectory, h]
  show StateT.run (FileAccess.createUpTo before >>= _) tree = _
  rw [StateT.run_bind, hbefore]
  show StateT.run (FileAccess.createDirectory _ >>= _) tree' = _
  rw [StateT.run_bind, run_createDirectory, hlast]
  rfl

/-- A directory that exists need not be created. -/
theorem run_createDirectories_of_directory {location : Location}
    (hresolve : tree.resolve location.parts = .ok location.path)
    (hdirectory : tree.get? location.path = some .directory) :
    (FileAccess.createDirectories location : StateM FileTree (Except FileProblem Unit)).run tree =
      (.ok (), tree) := by
  have hthere : tree.isDirectory (.ofParts location.parts) = true := by
    simp [FileTree.isDirectory, Location.ofParts, hresolve, hdirectory]
  obtain ⟨problem, hproblem, hrefused⟩ : ∃ problem ≠ FileProblem.missing,
      tree.createDirectory (.ofParts location.parts) = .error problem :=
    FileTree.createDirectory_of_directory hresolve hdirectory
  unfold FileAccess.createDirectories
  cases hparts : location.parts.reverse with
  | nil => rfl
  | cons last before =>
    rw [List.reverse_eq_iff.mp hparts] at hthere hrefused
    have hcreate : (FileAccess.createDirectory (.ofParts (last :: before).reverse) :
        StateM FileTree (Except FileProblem Unit)).run tree = (.error problem, tree) := by
      rw [run_createDirectory, hrefused]
    have hsettle : (FileAccess.settle (.ofParts (last :: before).reverse) (.error problem) :
        StateM FileTree (Except FileProblem Unit)).run tree = (.ok (), tree) := by
      show ((if tree.isDirectory _ then .ok () else .error problem : Except _ _), tree) = _
      rw [if_pos hthere]
    unfold FileAccess.createUpTo
    rw [StateT.run_bind, hcreate]
    cases problem with
    | missing => exact absurd rfl hproblem
    | _ => exact hsettle

end Success

end ReleaseGate
