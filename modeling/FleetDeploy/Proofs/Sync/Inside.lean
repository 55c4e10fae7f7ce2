import FleetDeploy.Proofs.Store.Relative
import FleetDeploy.Proofs.Sync.Replacing

/-!
# Uploads inside a directory

What is uploaded to a directory is stored below it, under the names of the files, unless
the local root leads to a file itself.  Such a file has no names behind the root, and is
stored under the directory's own key.
-/

namespace FleetDeploy

variable {s : Synchronizer} {watched : Bool} {dest : List Char} {root : Path} {tree : Tree}
  {exchanges : List (Exchange SyncService)}
  {outcome : Except Stop (Except ReleaseError SyncSummary)} {summary : SyncSummary}

namespace TreeFile

/-- The file that the root itself is has the directory for its key. -/
theorem key_of_nameless (dest : List Char) (body : List UInt8) :
    key dest ⟨[], body⟩ = Key.directory dest := by
  rw [key, Key.ofFile]
  exact List.append_nil _

end TreeFile

namespace Synchronizer

/-- Clearing and walking begin no upload, and neither does what is concluded. -/
theorem begunUploads_of_pooled {clearing turns asking : List (Exchange SyncService)}
    {result : Except Stop (Except ReleaseError Nat)} {r : Except Stop (Option (List LocalFile))}
    {cleared : Nat} {pool : Pool} (clear : (s.deleteDirectory dest).Trace clearing result)
    (conclusion : Conclusion cleared pool asking outcome) :
    begunUploads (clearing ++ ⟨.walk root, r⟩ :: (turns ++ asking)) = begunUploads turns := by
  have before := (uploads_eq_nil fun e member => (plain_of_trace clear e member).1).1
  have after := (uploads_eq_nil fun e member => (conclusion.inert e member).2.1).1
  rw [begunUploads_append, before, ← List.singleton_append, begunUploads_append,
    begunUploads_append, after, List.append_nil]
  rfl

/-- Whatever becomes of replacing a directory, each upload in it is one of a file that a walk
found and that was read. -/
theorem Replacement.exists_file (replacement : Replacement s watched dest root exchanges outcome)
    (trueTo : ∀ e ∈ exchanges, e.TrueTo tree) :
    ∀ upload ∈ begunUploads exchanges, ∃ (found : List Place) (file : TreeFile),
      tree.walk? root = some found ∧ file.names ∈ found ∧
        tree.read? (file.names.foldl Path.join root) = some file.body ∧
        upload = file.upload s.types s.bucket dest root := by
  have nothing {clearing : List (Exchange SyncService)} {result}
      (clear : (s.deleteDirectory dest).Trace clearing result) : begunUploads clearing = [] :=
    (uploads_eq_nil fun e member => (plain_of_trace clear e member).1).1
  cases replacement with
  | uncleared clear | clearingStopped clear => simp [nothing clear]
  | walkStopped clear | unwalked clear | vacant clear =>
      rw [begunUploads_append, nothing clear]
      exact nofun
  | pooled clear nonempty run conclusion =>
      rw [List.forall_mem_append, List.forall_mem_cons, List.forall_mem_append] at trueTo
      obtain ⟨-, ⟨found, walked, rfl⟩, runTrue, -⟩ := trueTo
      obtain ⟨contents, begun, read, once, -⟩ := run.exists_contents nonempty
      rw [begunUploads_of_pooled clear conclusion, begunUploads, begun, List.forall_mem_map]
      intro c member
      obtain ⟨names, here, equal⟩ := List.mem_map.mp (once.subset (List.mem_map_of_mem member))
      have held : tree.read? c.1.path = some c.2 := runTrue _ (read c member)
      rw [← equal] at held ⊢
      exact ⟨found, ⟨names, c.2⟩, walked, here, held, Pool.upload_below root ⟨names, c.2⟩⟩

/-- The uploads of files below a root are inside the directory. -/
theorem Replacement.inside (replacement : Replacement s watched dest root exchanges outcome)
    (trueTo : ∀ e ∈ exchanges, e.TrueTo tree) (legal : tree.IsLegal)
    (plain : ∀ file, tree.HasFile root file → ∀ name ∈ file.names, Path.backslash ∉ name)
    (nofile : tree.read? root = none) :
    ∀ upload ∈ begunUploads exchanges, Key.IsInside dest upload.key := by
  intro upload begun
  obtain ⟨found, file, walked, member, read, rfl⟩ := replacement.exists_file trueTo upload begun
  have directory : tree.at? root = some .directory := by
    by_contra other
    rw [Tree.eq_of_walk? other walked, List.mem_singleton] at member
    rw [member, List.foldl_nil, nofile] at read
    cases read
  obtain ⟨-, all, -⟩ := Tree.walk?_finds legal directory walked
  obtain ⟨below, isName⟩ := all file.names member
  exact Key.isInside_ofFile isName (plain file ⟨below, isName, read⟩) below dest

theorem Conclusion.uploaded_eq {cleared : Nat} {pool : Pool}
    (conclusion : Conclusion cleared pool exchanges (.ok (.ok summary))) :
    summary.uploaded = pool.uploaded := by
  generalize done : (.ok (.ok summary) : Except Stop (Except ReleaseError SyncSummary)) = ended
    at conclusion
  cases conclusion with
  | failed | stopped => cases done
  | unwatched =>
      cases done
      rfl
  | asked sound watched cancelled =>
      split at done
      · cases done
      · cases done
        rfl

/-- A root that leads to a file is uploaded as that file alone. -/
theorem Replacement.alone {body : List UInt8}
    (replacement : Replacement s watched dest root exchanges (.ok (.ok summary)))
    (trueTo : ∀ e ∈ exchanges, e.TrueTo tree) (read : tree.read? root = some body) :
    summary.uploaded = 1 ∧
      begunUploads exchanges = [TreeFile.upload s.types s.bucket dest root ⟨[], body⟩] := by
  have single {found : List Place} (walked : tree.walk? root = some found) : found = [[]] :=
    Tree.eq_of_walk? (Tree.at?_ne_of_read? read) walked
  generalize done : (.ok (.ok summary) : Except Stop (Except ReleaseError SyncSummary)) = ended
    at replacement
  cases replacement with
  | uncleared | clearingStopped | walkStopped | unwalked => cases done
  | vacant clear =>
      obtain ⟨found, walked, none⟩ := trueTo _ (List.mem_append_right _ (List.mem_singleton_self _))
      rw [single walked] at none
      cases none
  | pooled clear nonempty run conclusion =>
      subst done
      rw [List.forall_mem_append, List.forall_mem_cons, List.forall_mem_append] at trueTo
      obtain ⟨-, ⟨found, walked, rfl⟩, runTrue, -⟩ := trueTo
      obtain rfl := single walked
      obtain ⟨contents, begun, told, -, complete⟩ := run.exists_contents nonempty
      obtain ⟨all, -, count⟩ := complete (conclusion.isCalledOff_eq_false run)
      obtain ⟨c, rfl, same⟩ := List.map_eq_singleton_iff.mp (List.perm_singleton.mp all)
      have held : tree.read? c.1.path = some c.2 := runTrue _ (told c (List.mem_singleton_self c))
      rw [same] at held
      obtain rfl : c.2 = body := Option.some.inj (held.symm.trans read)
      refine ⟨conclusion.uploaded_eq.trans count, ?_⟩
      rw [begunUploads_of_pooled clear conclusion, begunUploads, begun, List.map_singleton, same]
      exact congrArg List.singleton (Pool.upload_below root ⟨[], c.2⟩)

/-- If an upload succeeds, something is stored under the key of the directory itself exactly
if the local root leads to a file.  Then this file is all that is uploaded; otherwise, if
no file name has a backslash, each key is that of the directory with one or more segments
behind it. -/
theorem uploadDirectory_inside_iff
    (trace : (s.uploadDirectory dest root).Trace exchanges (.ok (.ok summary)))
    (trueTo : ∀ e ∈ exchanges, e.TrueTo tree) (legal : tree.IsLegal)
    (plain : ∀ file, tree.HasFile root file → ∀ name ∈ file.names, Path.backslash ∉ name) :
    ((∃ upload ∈ begunUploads exchanges, upload.key = Key.directory dest) ↔
        ∃ body, tree.read? root = some body) ∧
      (∀ body, tree.read? root = some body → summary.uploaded = 1 ∧ ∃ contentType,
        begunUploads exchanges = [⟨s.bucket, Key.directory dest, body, contentType⟩]) ∧
      (tree.read? root = none →
        ∀ upload ∈ begunUploads exchanges, Key.IsInside dest upload.key) := by
  have replacement := Replacement.of_trace trace
  have inside := replacement.inside trueTo legal plain
  have alone (body : List UInt8) (read : tree.read? root = some body) : summary.uploaded = 1 ∧
      ∃ contentType, begunUploads exchanges =
        [⟨s.bucket, Key.directory dest, body, contentType⟩] := by
    obtain ⟨count, begun⟩ := replacement.alone trueTo read
    refine ⟨count, TreeFile.contentType s.types root ⟨[], body⟩, ?_⟩
    rw [begun, TreeFile.upload, TreeFile.key_of_nameless]
  refine ⟨⟨?_, ?_⟩, alone, inside⟩
  · rintro ⟨upload, begun, atop⟩
    by_contra nofile
    rw [not_exists, ← Option.eq_none_iff_forall_ne_some] at nofile
    exact (inside nofile upload begun).ne_directory atop
  · rintro ⟨body, read⟩
    obtain ⟨-, contentType, begun⟩ := alone body read
    exact ⟨_, begun ▸ List.mem_singleton_self _, rfl⟩

/-- The calls by which one worker uploads the only file below a directory. -/
def plainUpload : List (Exchange SyncService) :=
  soleWorker.singleUpload ['d'] [0x72] (.below [0x72] [[0x61]]) [0x7B]

theorem plainUpload_inside :
    (soleWorker.uploadDirectory ['d'] [0x72]).Trace plainUpload (.ok (.ok ⟨0, 1⟩)) ∧
      (∀ e ∈ plainUpload, e.TrueTo Tree.single) ∧ Tree.single.IsLegal ∧
      (∀ file, Tree.single.HasFile [0x72] file → ∀ name ∈ file.names, Path.backslash ∉ name) ∧
      ∀ upload ∈ begunUploads plainUpload, Key.IsInside ['d'] upload.key := by
  have trueTo : ∀ e ∈ plainUpload, e.TrueTo Tree.single := by
    simp [plainUpload, singleUpload, Exchange.TrueTo, LocalFile.below, Tree.walk?_single,
      Tree.read?_single]
  have plain (file : TreeFile) (has : Tree.single.HasFile [0x72] file) :
      ∀ name ∈ file.names, Path.backslash ∉ name := by
    obtain ⟨-, -, all⟩ := Tree.walk?_finds Tree.isLegal_single Tree.at?_single Tree.walk?_single
    rw [List.mem_singleton.mp (all file has)]
    decide
  have trace : (soleWorker.uploadDirectory ['d'] [0x72]).Trace plainUpload (.ok (.ok ⟨0, 1⟩)) :=
    trace_singleUpload rfl ['d'] [0x72] (.below [0x72] [[0x61]]) [0x7B]
  have nofile : Tree.single.read? [0x72] = none := by rw [Tree.read?, Tree.at?_single]
  obtain ⟨-, -, inside⟩ := uploadDirectory_inside_iff trace trueTo Tree.isLegal_single plain
  exact ⟨trace, trueTo, Tree.isLegal_single, plain, inside nofile⟩

/-! ## A file for a root -/

/-- A tree with one file. -/
def loneTree : Tree :=
  ⟨[([[0x72]], .file [0x7B])], by decide⟩

/-- The calls by which the file is uploaded as if it were a directory. -/
def loneUpload : List (Exchange SyncService) :=
  soleWorker.singleUpload ['d'] [0x72] (.below [0x72] []) [0x7B]

theorem resolve?_loneTree : loneTree.resolve? [0x72] = some [[0x72]] := by
  simp [Tree.resolve?, Tree.follow?, Path.split, Path.slash, Path.dot, Tree.entry?, loneTree,
    OrderedMap.get?]

/-- An upload succeeds that stores a file under the key of the directory itself, although no
file name has a backslash. -/
theorem loneUpload_not_inside :
    (soleWorker.uploadDirectory ['d'] [0x72]).Trace loneUpload (.ok (.ok ⟨0, 1⟩)) ∧
      (∀ e ∈ loneUpload, e.TrueTo loneTree) ∧ loneTree.IsLegal ∧
      (∀ place ∈ loneTree.keys, ∀ name ∈ place, Path.backslash ∉ name) ∧
      ∃ upload ∈ begunUploads loneUpload, upload.key = Key.directory ['d'] ∧
        ¬Key.IsInside ['d'] upload.key := by
  have walked : loneTree.walk? [0x72] = some [[]] := by
    rw [Tree.walk?, resolve?_loneTree]
    rfl
  have read : loneTree.read? [0x72] = some [0x7B] := by
    rw [Tree.read?, Tree.at?, resolve?_loneTree]
    rfl
  have trueTo : ∀ e ∈ loneUpload, e.TrueTo loneTree := by
    simp [loneUpload, singleUpload, Exchange.TrueTo, LocalFile.below, walked, read]
  refine ⟨trace_singleUpload rfl _ _ _ _, trueTo, ?_, by decide,
    soleWorker.onlyUpload ['d'] (.below [0x72] []) [0x7B], List.mem_singleton_self _, rfl,
    fun inside => inside.ne_directory rfl⟩
  unfold Tree.IsLegal
  decide

end Synchronizer

end FleetDeploy
