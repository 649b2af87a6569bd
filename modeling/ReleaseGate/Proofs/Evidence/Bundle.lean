import ReleaseGate.Evidence.Bundle
import ReleaseGate.Proofs.FileTree
import ReleaseGate.Proofs.Text.Stamps
import ReleaseGate.Scoring.Aggregate
import ReleaseGate.Time.Epoch

/-!
# Bundles one after the other

The directory of a bundle is named after the second of its report's timestamp. Reports of different
seconds go to different directories, so no export touches what another one left. Reports of one
second share a directory, and the later export leaves those files of the earlier one that it does
not write itself.

* `bundleName_eq_iff`: which reports share a directory.
* `Export`, `FileTree.afterExports`: exports into a directory, one after the other.
* `leaves_into`: an export changes files in the directory of its bundle only.
* `holds_into`: after a successful export, that directory holds the files of the bundle.
* `into_eq_ok`: an export succeeds if nothing is in its way.
* `holds_afterExports`: the directory still holds these files after any exports of other seconds.
* `has_auditLog_of_sameSecond`: a later export of the same second leaves the audit log.
-/

namespace ReleaseGate

/-! ## Names of bundles -/

/-- The name of a bundle is longer than the names that do not lead one step further. -/
theorem isName_bundleName (r : Report) : Path.IsName (bundleName r) := by
  have hlength : "evidence_bundle_".toList.length ≤ (bundleName r).toList.length := by
    have htext : (bundleName r).toList =
        "evidence_bundle_".toList ++ r.timestamp.fileStamp.toList := String.toList_append
    rw [htext, List.length_append]
    exact Nat.le_add_right _ _
  refine ⟨?_, ?_, ?_⟩ <;>
  · intro h
    rw [h] at hlength
    exact absurd hlength (by decide)

theorem bundleName_eq_iff {r s : Report} :
    bundleName r = bundleName s ↔ r.timestamp.SameSecond s.timestamp :=
  (String.append_right_inj _).trans Instant.fileStamp_eq_iff

/-- The names of the files in a bundle with an audit log; the log comes last. -/
def evidenceNames : List String :=
  ["frequency_report.json", "frequency_report.yaml", "SUMMARY.md", "audit_log.json"]

theorem names_prefix_evidenceNames (r : Report) (log : Option AuditLog) :
    (bundleFiles r log).map Prod.fst <+: evidenceNames := by
  cases log with
  | none => exact ⟨["audit_log.json"], rfl⟩
  | some log => exact ⟨[], rfl⟩

theorem isName_of_mem_bundleFiles {r : Report} {log : Option AuditLog} :
    ∀ file ∈ bundleFiles r log, Path.IsName file.1 := by
  have hnames : ∀ name ∈ evidenceNames, Path.IsName name := by decide
  intro file hfile
  exact hnames _ ((names_prefix_evidenceNames r log).subset (List.mem_map_of_mem hfile))

theorem nodup_bundleFiles (r : Report) (log : Option AuditLog) :
    ((bundleFiles r log).map Prod.fst).Nodup := by
  have hnodup : evidenceNames.Nodup := by decide
  exact (names_prefix_evidenceNames r log).sublist.nodup hnodup

/-! ## Files of a bundle -/

section WriteEvidence

variable {bundle : Location} {file : String × String} {files : List (String × String)}
  {tree : FileTree}

theorem leaves_writeEvidence (bundle : Location) (file : String × String) :
    Leaves (· ≠ (bundle.below file.1).path) (writeEvidence bundle file : FileProgram Unit).run :=
  .orFault (leaves_writeFile _ _)

theorem leaves_writeFiles (bundle : Location) (files : List (String × String)) :
    Leaves (fun path => ∀ file ∈ files, path ≠ (bundle.below file.1).path)
      (files.forM (writeEvidence bundle) : FileProgram PUnit).run :=
  .forM fun file hfile => (leaves_writeEvidence bundle file).mono fun _ hpath => hpath file hfile

theorem run_writeEvidence (bundle : Location) (file : String × String) (tree : FileTree) :
    (writeEvidence bundle file : FileProgram Unit).run.run tree =
      match tree.write (bundle.below file.1) file.2 with
      | .ok tree' => (.ok (), tree')
      | .error problem =>
        (.error (.exportFailed (.writeFile (bundle.below file.1).text problem)), tree) := by
  have hwrite := run_updateTree (fun tree => tree.write (bundle.below file.1) file.2) tree
  unfold writeEvidence FileAccess.orFault
  rw [ExceptT.run_mk, StateT.run_map]
  show Prod.map _ id <$> (updateTree _).run tree = _
  rw [hwrite]
  cases tree.write (bundle.below file.1) file.2 <;> rfl

/-- A file can only be written if the bundle is a directory. -/
theorem has_writeEvidence (hbundle : bundle.text ≠ "")
    (h : ((writeEvidence bundle file : FileProgram Unit).run.run tree).1 = .ok ()) :
    ((writeEvidence bundle file : FileProgram Unit).run.run tree).2.Has bundle file := by
  have hleaves := leaves_writeEvidence bundle file tree
  rw [run_writeEvidence] at h hleaves ⊢
  cases hwrite : tree.write (bundle.below file.1) file.2 with
  | error problem =>
    rw [hwrite] at h
    cases h
  | ok tree' =>
    rw [hwrite] at hleaves
    obtain ⟨hresolve, hfree, hset⟩ := FileTree.eq_set_of_write hwrite
    rw [Location.parts_below hbundle] at hresolve
    obtain ⟨way, hway, hdirectory, -, -⟩ := FileTree.resolve_concat.mp hresolve
    obtain rfl : way = bundle.path := FileTree.eq_foldl_of_resolve hway
    refine ⟨hleaves.resolve hway, hleaves.directory _ hdirectory, ?_⟩
    rw [hset, FileTree.get?_set (FileTree.ne_nil_of_get?_ne hfree), if_pos rfl]

/-- Files with different names are all there in the end. -/
theorem has_writeFiles (hbundle : bundle.text ≠ "") (hnames : ∀ file ∈ files, Path.IsName file.1)
    (hnodup : (files.map Prod.fst).Nodup)
    (h : ((files.forM (writeEvidence bundle) : FileProgram PUnit).run.run tree).1 = .ok ()) :
    ∀ file ∈ files,
      ((files.forM (writeEvidence bundle) : FileProgram PUnit).run.run tree).2.Has bundle file := by
  induction files generalizing tree with
  | nil => exact fun _ hfile => absurd hfile List.not_mem_nil
  | cons first others ih =>
    obtain ⟨hname, hnames⟩ := List.forall_mem_cons.mp hnames
    obtain ⟨hnew, hnodup⟩ := List.nodup_cons.mp hnodup
    obtain ⟨_, hfirst, hothers, hafter⟩ := run_bind_eq_ok h
    show ∀ file ∈ first :: others, (((do
      writeEvidence bundle first
      others.forM (writeEvidence bundle)) : FileProgram PUnit).run.run tree).2.Has bundle file
    rw [hafter]
    refine List.forall_mem_cons.mpr ⟨?_, ih hnames hnodup hothers⟩
    refine (leaves_writeFiles bundle others _).has (has_writeEvidence hbundle hfirst) ?_
    intro other hother hsame
    rw [Location.path_below hname hbundle,
      Location.path_below (hnames other hother) hbundle] at hsame
    have hnameeq : first.1 = other.1 := by simpa using hsame
    exact hnew (hnameeq ▸ List.mem_map_of_mem hother)

/-- A file can be written to a bundle that is a directory, unless a directory is in its place. -/
theorem run_writeEvidence_of_directory (hbundle : bundle.text ≠ "")
    (hresolve : tree.resolve bundle.parts = .ok bundle.path)
    (hdirectory : tree.get? bundle.path = some .directory)
    (hfree : tree.get? (bundle.below file.1).path ≠ some .directory)
    (hcheck : (bundle.below file.1).check = .ok ()) (hshort : file.1.utf8ByteSize ≤ longestName) :
    (writeEvidence bundle file : FileProgram Unit).run.run tree =
      (.ok (), tree.set (bundle.below file.1).path (.file file.2)) := by
  have hparts : (bundle.below file.1).parts = bundle.parts ++ [file.1] :=
    Location.parts_below hbundle
  have hway : tree.resolve (bundle.below file.1).parts = .ok (bundle.below file.1).path := by
    rw [Location.path, hparts, List.foldl_append]
    exact FileTree.resolve_concat.mpr ⟨_, hresolve, hdirectory, hshort, rfl⟩
  rw [run_writeEvidence, FileTree.write_eq_ok hcheck hway hfree]

theorem writeFiles_eq_ok (hbundle : bundle.text ≠ "")
    (hresolve : tree.resolve bundle.parts = .ok bundle.path)
    (hdirectory : tree.get? bundle.path = some .directory)
    (hfree : ∀ file ∈ files, tree.get? (bundle.below file.1).path ≠ some .directory)
    (hcheck : ∀ file ∈ files, (bundle.below file.1).check = .ok ())
    (hshort : ∀ file ∈ files, file.1.utf8ByteSize ≤ longestName) :
    ((files.forM (writeEvidence bundle) : FileProgram PUnit).run.run tree).1 = .ok () := by
  induction files generalizing tree with
  | nil => rfl
  | cons first others ih =>
    obtain ⟨hfirst, hfree⟩ := List.forall_mem_cons.mp hfree
    obtain ⟨hcheckFirst, hcheck⟩ := List.forall_mem_cons.mp hcheck
    obtain ⟨hshortFirst, hshort⟩ := List.forall_mem_cons.mp hshort
    have hrun := run_writeEvidence_of_directory hbundle hresolve hdirectory hfirst hcheckFirst
      hshortFirst
    have hkeeps := leaves_writeEvidence bundle first tree
    rw [hrun] at hkeeps
    have hothers := ih (hkeeps.resolve hresolve) (hkeeps.directory _ hdirectory) ?_ hcheck hshort
    · show ((do
        writeEvidence bundle first
        others.forM (writeEvidence bundle) : FileProgram PUnit).run.run tree).1 = .ok ()
      rw [ExceptT.run_bind, StateT.run_bind, hrun]
      exact hothers
    · intro file hfile
      rw [FileTree.get?_set (FileTree.ne_nil_of_get?_ne hfirst)]
      split
      · simp
      · exact hfree file hfile

end WriteEvidence

/-! ## One export -/

/-- A report that is to be exported, with an audit log or without. -/
structure Export where
  report : Report
  log : Option AuditLog

namespace Export

variable {call : Export} {directory location : Location} {tree : FileTree}

/-- The names and contents of the files. -/
def files (call : Export) : List (String × String) := bundleFiles call.report call.log

/-- Where the files go. -/
def bundle (call : Export) (directory : Location) : Location :=
  directory.below (bundleName call.report)

/-- Export into a directory. -/
def into (call : Export) (directory : Location) : FileProgram Location :=
  exportBundle call.report call.log directory

theorem text_bundle_ne_empty (call : Export) (directory : Location) :
    (call.bundle directory).text ≠ "" :=
  Location.text_below_ne_empty (isName_bundleName call.report).1 directory

/-- An export writes the files of its bundle, and no other. -/
theorem leaves_into (call : Export) (directory : Location) :
    Leaves (fun path => ∀ file ∈ call.files, path ≠ ((call.bundle directory).below file.1).path)
      (call.into directory).run := by
  unfold into exportBundle
  refine .bindFault (.orFault (leaves_createDirectories _)) fun _ => ?_
  exact .bindFault (leaves_writeFiles _ _) fun _ => .pure _

theorem has_of_into_eq_ok (h : ((call.into directory).run.run tree).1 = .ok location) :
    location = call.bundle directory ∧
      ∀ file ∈ call.files, ((call.into directory).run.run tree).2.Has location file := by
  unfold into exportBundle at h ⊢
  obtain ⟨_, -, h, hcreated⟩ := run_bind_eq_ok h
  obtain ⟨_, hwritten, h, hafter⟩ := run_bind_eq_ok h
  obtain rfl : call.bundle directory = location := Except.ok.inj h
  refine ⟨rfl, ?_⟩
  rw [hcreated, hafter]
  exact has_writeFiles (text_bundle_ne_empty call directory) isName_of_mem_bundleFiles
    (nodup_bundleFiles _ _) hwritten

/-- After a successful export to a place without files, the location that it returned holds exactly
the files of the bundle. -/
theorem holds_into (hempty : tree.NoFileBelow (call.bundle directory).path)
    (h : ((call.into directory).run.run tree).1 = .ok location) :
    ((call.into directory).run.run tree).2.Holds location call.files := by
  obtain ⟨rfl, hhas⟩ := has_of_into_eq_ok h
  have hkeeps := leaves_into call directory tree
  generalize ((call.into directory).run.run tree).2 = tree' at hhas hkeeps
  have hpath : ∀ file ∈ call.files, ((call.bundle directory).below file.1).path =
      (call.bundle directory).path ++ [file.1] := fun file hfile =>
    Location.path_below (isName_of_mem_bundleFiles file hfile) (text_bundle_ne_empty call directory)
  have hreport := hhas _ List.mem_cons_self
  refine ⟨hreport.resolve, hreport.directory, fun rest content => ?_⟩
  constructor
  · intro hfile
    by_contra hnot
    refine hempty rest content ((hkeeps.file _ ?_ content).mp hfile)
    intro file hmem hsame
    rw [hpath file hmem] at hsame
    obtain rfl := List.append_cancel_left hsame
    have hcontent := (hhas file hmem).content
    rw [hpath file hmem, hfile] at hcontent
    cases hcontent
    exact hnot ⟨file.1, rfl, hmem⟩
  · rintro ⟨name, rfl, hmem⟩
    rw [← hpath _ hmem]
    exact (hhas _ hmem).content

/-- An export succeeds if its directory can be created and nothing is in the way of its files. -/
theorem into_eq_ok {created : FileTree}
    (hcreated : (FileAccess.createDirectories (call.bundle directory) :
      StateM FileTree (Except FileProblem Unit)).run tree = (.ok (), created))
    (hresolve : created.resolve (call.bundle directory).parts = .ok (call.bundle directory).path)
    (hdirectory : created.get? (call.bundle directory).path = some .directory)
    (hfree : ∀ file ∈ call.files,
      created.get? ((call.bundle directory).below file.1).path ≠ some .directory)
    (hcheck : ∀ file ∈ call.files, ((call.bundle directory).below file.1).check = .ok ()) :
    ((call.into directory).run.run tree).1 = .ok (call.bundle directory) := by
  have hnames : ∀ name ∈ evidenceNames, name.utf8ByteSize ≤ longestName := by decide
  have hshort : ∀ file ∈ call.files, file.1.utf8ByteSize ≤ longestName := fun file hfile =>
    hnames _ ((names_prefix_evidenceNames _ _).subset (List.mem_map_of_mem hfile))
  have hwritten := writeFiles_eq_ok (text_bundle_ne_empty call directory) hresolve hdirectory hfree
    hcheck hshort
  have hdone : ((FileAccess.orFault (fun problem =>
      Fault.exportFailed (.createDirectory (call.bundle directory).text problem))
      (FileAccess.createDirectories (call.bundle directory)) : FileProgram Unit).run.run tree) =
      (.ok (), created) := by
    rw [FileAccess.orFault, ExceptT.run_mk, StateT.run_map, hcreated]
    rfl
  unfold into exportBundle
  rw [← bundle, run_bind_of_eq_ok (congrArg Prod.fst hdone), hdone]
  exact congrArg Prod.fst (run_bind_of_eq_ok hwritten)

end Export

/-! ## Exports one after the other -/

/-- The tree after exports into a directory, whether they succeed or not. -/
def FileTree.afterExports (tree : FileTree) (directory : Location) (calls : List Export) :
    FileTree :=
  calls.foldl (fun tree call => ((call.into directory).run.run tree).2) tree

section Runs

variable {tree : FileTree} {text : String}

theorem path_bundle (call : Export) (text : String) : (call.bundle (.ofText text)).path =
    (Location.ofText text).path ++ [bundleName call.report] :=
  Location.path_ofText_below (isName_bundleName call.report) text

/-- Exports leave files alone that are in bundles of other seconds. -/
theorem keeps_afterExports {call : Export} {calls : List Export}
    (h : ∀ other ∈ calls, ¬ other.report.timestamp.SameSecond call.report.timestamp) :
    tree.Keeps (tree.afterExports (.ofText text) calls)
      fun path => (call.bundle (.ofText text)).path <+: path := by
  induction calls generalizing tree with
  | nil => exact .refl tree _
  | cons other calls ih =>
    obtain ⟨hother, hcalls⟩ := List.forall_mem_cons.mp h
    refine ((other.leaves_into (.ofText text) tree).mono ?_).trans (ih hcalls)
    rintro _ ⟨rest, rfl⟩ file hfile hsame
    rw [Location.path_below (isName_of_mem_bundleFiles file hfile)
      (other.text_bundle_ne_empty _), path_bundle, path_bundle, List.append_assoc,
      List.append_assoc] at hsame
    have hnames := (List.cons.inj (List.append_cancel_left hsame)).1
    exact hother (bundleName_eq_iff.mp hnames.symm)

/-- Into a directory without files, exports go one after the other, some with an audit log and some
without, and some of them may fail. The location that one of them returned holds exactly its files,
right after it and after all others, as long as no other report is of the same second. -/
theorem holds_afterExports (hstart : tree.NoFileBelow (Location.ofText text).path)
    {before after : List Export} {call : Export}
    (hseconds : ∀ other ∈ before ++ after,
      ¬ other.report.timestamp.SameSecond call.report.timestamp) {location : Location}
    (hcall : ((call.into (.ofText text)).run.run (tree.afterExports (.ofText text) before)).1 =
      .ok location) :
    (tree.afterExports (.ofText text) (before ++ call :: after)).Holds location call.files := by
  obtain ⟨hbefore, hafter⟩ := List.forall_mem_append.mp hseconds
  have hempty : (tree.afterExports (.ofText text) before).NoFileBelow
      (call.bundle (.ofText text)).path := by
    intro rest content hfile
    rw [(keeps_afterExports hbefore).file _ (List.prefix_append _ _), path_bundle,
      List.append_assoc] at hfile
    exact hstart _ content hfile
  have hholds := Export.holds_into hempty hcall
  obtain ⟨rfl, -⟩ := Export.has_of_into_eq_ok hcall
  rw [FileTree.afterExports, List.foldl_append, List.foldl_cons]
  exact (keeps_afterExports hafter).holds hholds fun rest => List.prefix_append _ _

end Runs

/-! ## Exports of one second -/

theorem audit_log_notMem {call : Export} (h : call.log = none) :
    "audit_log.json" ∉ call.files.map Prod.fst := by
  rw [Export.files, h]
  show "audit_log.json" ∉ ["frequency_report.json", "frequency_report.yaml", "SUMMARY.md"]
  decide

/-- An export without an audit log leaves the one of an earlier export of the same second. -/
theorem has_auditLog_of_sameSecond {first second : Export} {directory location : Location}
    {tree : FileTree} {log : AuditLog}
    (hsecond : second.report.timestamp.SameSecond first.report.timestamp)
    (hlog : first.log = some log) (hnone : second.log = none)
    (hfirst : ((first.into directory).run.run tree).1 = .ok location) :
    (tree.afterExports directory [first, second]).Has location
      ("audit_log.json", Json.prettyText log.content) := by
  obtain ⟨rfl, hhas⟩ := Export.has_of_into_eq_ok hfirst
  have hmem : ("audit_log.json", Json.prettyText log.content) ∈ first.files := by
    rw [Export.files, hlog]
    exact List.mem_append_right _ List.mem_cons_self
  refine (second.leaves_into directory _).has (hhas _ hmem) fun file hfile hsame => ?_
  have hbundle : second.bundle directory = first.bundle directory := by
    rw [Export.bundle, Export.bundle, bundleName_eq_iff.mpr hsecond]
  have htext := first.text_bundle_ne_empty directory
  have hlogName : Path.IsName "audit_log.json" := by decide
  rw [hbundle, Location.path_below hlogName htext,
    Location.path_below (isName_of_mem_bundleFiles file hfile) htext] at hsame
  have hname : "audit_log.json" = file.1 := (List.cons.inj (List.append_cancel_left hsame)).1
  exact audit_log_notMem hnone (hname ▸ List.mem_map_of_mem hfile)

/-! ## Two exports -/

/-- The export of a report at an instant. -/
def exportAt (now : Instant) (log : Option AuditLog) : Export :=
  ⟨report .standard [.uniform "core" 1] [] now, log⟩

/-- The log of a trail that nothing was appended to. -/
def emptyLog : AuditLog := ⟨"trail", [], .ofClock 0, ""⟩

/-- The bundle of the first second of the clock. -/
def firstBundle : Location := (Location.ofText "out").below "evidence_bundle_19700101_000000"

theorem bundle_exportAt {now : Instant} (h : now.SameSecond (.ofClock 0)) (log : Option AuditLog) :
    (exportAt now log).bundle (.ofText "out") = firstBundle := by
  have hstamp : now.fileStamp = "19700101_000000" := by
    rw [Instant.fileStamp_eq_iff.mpr h]
    decide +kernel
  show (Location.ofText "out").below ("evidence_bundle_" ++ now.fileStamp) = _
  rw [hstamp]
  rfl

theorem parts_firstBundle : firstBundle.parts = ["out", "evidence_bundle_19700101_000000"] := by
  have hparts : (Location.ofText "out").parts = ["out"] := by decide
  have htext : (Location.ofText "out").text ≠ "" := by decide
  rw [firstBundle, Location.parts_below htext, hparts]
  rfl

theorem path_firstBundle : firstBundle.path = ["out", "evidence_bundle_19700101_000000"] := by
  rw [Location.path, parts_firstBundle]
  decide

theorem check_firstBundle : ∀ name ∈ evidenceNames, (firstBundle.below name).check = .ok () := by
  have hdirectory : (Location.ofText "out").Fits 100 := ⟨by decide, by decide⟩
  have hnul : '\x00' ∉ "evidence_bundle_19700101_000000".toList := by decide
  have hbundle : firstBundle.Fits 68 := hdirectory.below hnul
  have hnames : ∀ name ∈ evidenceNames, '\x00' ∉ name.toList ∧ name.utf8ByteSize ≤ 21 := by decide
  intro name hname
  obtain ⟨hnulName, hshort⟩ := hnames name hname
  have hroom : firstBundle.Fits (name.utf8ByteSize + 1 + 0) :=
    ⟨hbundle.noNul, Nat.lt_of_le_of_lt (by omega) hbundle.short⟩
  exact (hroom.below hnulName).check

/-- The tree in which only the directory of the first bundle was created. -/
def firstCreated : FileTree :=
  ⟨[(["out", "evidence_bundle_19700101_000000"], .directory), (["out"], .directory)]⟩

theorem run_createDirectories_firstBundle :
    (FileAccess.createDirectories firstBundle : StateM FileTree (Except FileProblem Unit)).run
      .empty = (.ok (), firstCreated) := by
  have hout : (Location.ofParts ["out"]).Fits 0 := ⟨by decide, by decide⟩
  have hbundle : (Location.ofParts ["out", "evidence_bundle_19700101_000000"]).Fits 0 :=
    ⟨by decide, by decide⟩
  have habove : (FileAccess.createUpTo ["out"] : StateM FileTree (Except FileProblem Unit)).run
      .empty = (.ok (), ⟨[(["out"], .directory)]⟩) :=
    run_createUpTo_of_ok ((FileTree.createDirectory_of_fits hout).trans rfl)
  rw [FileAccess.createDirectories, parts_firstBundle]
  -- The bundle's directory is refused as long as the one above it is missing.
  exact run_createUpTo_of_missing ((FileTree.createDirectory_of_fits hbundle).trans rfl) habove
    ((FileTree.createDirectory_of_fits hbundle).trans rfl)

theorem into_exportAt_eq_ok {now : Instant} (h : now.SameSecond (.ofClock 0))
    (log : Option AuditLog) {tree created : FileTree}
    (hcreated : (FileAccess.createDirectories firstBundle :
      StateM FileTree (Except FileProblem Unit)).run tree = (.ok (), created))
    (hresolve : created.resolve firstBundle.parts = .ok firstBundle.path)
    (hdirectory : created.get? firstBundle.path = some .directory)
    (hfree : ∀ name ∈ evidenceNames,
      created.get? (firstBundle.below name).path ≠ some .directory) :
    (((exportAt now log).into (.ofText "out")).run.run tree).1 = .ok firstBundle := by
  have hnames : ∀ file ∈ (exportAt now log).files, file.1 ∈ evidenceNames := fun file hfile =>
    (names_prefix_evidenceNames _ _).subset (List.mem_map_of_mem hfile)
  rw [← bundle_exportAt h log] at hcreated hresolve hdirectory hfree ⊢
  refine Export.into_eq_ok hcreated hresolve hdirectory ?_ ?_
  · exact fun file hfile => hfree _ (hnames file hfile)
  · intro file hfile
    rw [bundle_exportAt h log]
    exact check_firstBundle _ (hnames file hfile)

theorem path_below_firstBundle : ∀ name ∈ evidenceNames,
    (firstBundle.below name).path = firstBundle.path ++ [name] := by
  have hnames : ∀ name ∈ evidenceNames, Path.IsName name := by decide
  have htext : firstBundle.text ≠ "" := Location.text_below_ne_empty (by decide) _
  exact fun name hname => Location.path_below (hnames name hname) htext

theorem firstExport_eq_ok (log : Option AuditLog) :
    (((exportAt (.ofClock 0) log).into (.ofText "out")).run.run .empty).1 = .ok firstBundle := by
  have hresolve : firstCreated.resolve firstBundle.parts = .ok firstBundle.path := by
    rw [parts_firstBundle, path_firstBundle]
    decide
  have hdirectory : firstCreated.get? firstBundle.path = some .directory := by
    rw [path_firstBundle]
    decide
  have hfree : ∀ name ∈ evidenceNames,
      firstCreated.get? (firstBundle.below name).path ≠ some .directory := by
    intro name hname
    rw [path_below_firstBundle name hname, path_firstBundle]
    simp [FileTree.get?, firstCreated, List.lookup_cons]
  exact into_exportAt_eq_ok (.refl _) log run_createDirectories_firstBundle hresolve hdirectory
    hfree

/-- A bundle with an audit log, and the bundle of the next second without one. -/
theorem holds_afterExports_nextSecond :
    FileTree.empty.NoFileBelow (Location.ofText "out").path ∧
      ¬ (Instant.ofClock 1000000000).SameSecond (.ofClock 0) ∧
      (((exportAt (.ofClock 0) (some emptyLog)).into (.ofText "out")).run.run .empty).1 =
        .ok firstBundle ∧
      (FileTree.empty.afterExports (.ofText "out") [exportAt (.ofClock 0) (some emptyLog),
        exportAt (.ofClock 1000000000) none]).Holds firstBundle
          (exportAt (.ofClock 0) (some emptyLog)).files := by
  have hempty := FileTree.noFileBelow_empty (Location.ofText "out").path
  have hlater : ¬ (Instant.ofClock 1000000000).SameSecond (.ofClock 0) := fun h =>
    absurd h.2.2 (by decide)
  have hfirst := firstExport_eq_ok (some emptyLog)
  have hothers : ∀ other ∈ [] ++ [exportAt (.ofClock 1000000000) none],
      ¬ other.report.timestamp.SameSecond
        (exportAt (.ofClock 0) (some emptyLog)).report.timestamp := by
    intro other hother
    rw [List.mem_singleton.mp hother]
    exact hlater
  exact ⟨hempty, hlater, hfirst, holds_afterExports hempty hothers hfirst⟩

/-- Two reports of one second, the first with an audit log and the second without: the second
export succeeds, and the directory that it returns holds the audit log of the first. -/
theorem afterExports_sameSecond :
    let first := exportAt (.ofClock 0) (some emptyLog)
    let second := exportAt (.ofClock 500000000) none
    FileTree.empty.NoFileBelow (Location.ofText "out").path ∧
      first.report.timestamp ≠ second.report.timestamp ∧
      ((second.into (.ofText "out")).run.run
        (FileTree.empty.afterExports (.ofText "out") [first])).1 = .ok firstBundle ∧
      ¬ (FileTree.empty.afterExports (.ofText "out") [first, second]).Holds firstBundle
        second.files := by
  intro first second
  have hsecond : second.report.timestamp.SameSecond first.report.timestamp := ⟨rfl, rfl, rfl⟩
  have hfirst : ((first.into (.ofText "out")).run.run .empty).1 = .ok firstBundle :=
    firstExport_eq_ok (some emptyLog)
  have hempty := FileTree.noFileBelow_empty (first.bundle (.ofText "out")).path
  have hholds := first.holds_into hempty hfirst
  have hlog := has_auditLog_of_sameSecond hsecond rfl rfl hfirst
  refine ⟨FileTree.noFileBelow_empty _, fun h => ?_, ?_, fun hafter => ?_⟩
  · exact absurd (congrArg Instant.nano h) (by decide)
  · have hcreated := run_createDirectories_of_directory hholds.resolve hholds.directory
    refine into_exportAt_eq_ok hsecond none hcreated hholds.resolve hholds.directory ?_
    intro name hname
    obtain ⟨file, hfile, rfl⟩ : ∃ file ∈ first.files, file.1 = name := List.mem_map.mp hname
    have hthere := (hholds.file_iff [file.1] file.2).mpr ⟨file.1, rfl, hfile⟩
    rw [path_below_firstBundle _ hname, hthere]
    simp
  · have hcontent := hlog.content
    rw [path_below_firstBundle _ (by decide), hafter.file_iff] at hcontent
    obtain ⟨name, hname, hmem⟩ := hcontent
    obtain rfl := (List.cons.inj hname).1
    exact audit_log_notMem rfl (List.mem_map_of_mem hmem)

end ReleaseGate
