import FleetDeploy.Proofs.Store.Relative
import FleetDeploy.Proofs.Sync.Replacing
import Mathlib.Data.List.Dedup

/-!
# Files with the same key

Files whose names have the same segments are uploaded under the same key, and then one of
them is held in the place of all.  So after an upload a directory holds as many objects
as files are reported exactly if no two files have the same segments; without a backslash
in the names this is always so.
-/

namespace FleetDeploy

namespace TreeFile

/-- The segments of the names of a file. -/
def segments (file : TreeFile) : List (List UInt8) :=
  Path.segments file.names

/-- A file whose names are text. -/
def IsText (file : TreeFile) : Prop :=
  ∀ name ∈ file.names, Text.Utf8.IsText name

end TreeFile

variable {types : ContentTypes} {bucket : String} {dest : List Char} {root : Path} {tree : Tree}
  {file other : TreeFile} {files : List TreeFile} {before after : Holdings}
  {exchanges : List (Exchange SyncService)}

namespace Tree

/-- Files below a path have the same key exactly if their segments are the same. -/
theorem HasFile.key_eq_iff (has : tree.HasFile root file) (otherHas : tree.HasFile root other)
    (texts : file.IsText) (otherTexts : other.IsText) (dest : List Char) :
    file.key dest = other.key dest ↔ file.segments = other.segments :=
  Key.ofFile_eq_iff has.legal texts has.below otherHas.legal otherTexts otherHas.below dest

theorem FilesAt.nodup_keys_iff (found : tree.FilesAt root files)
    (texts : ∀ file, tree.HasFile root file → file.IsText) (dest : List Char) :
    (files.map (·.key dest)).Nodup ↔ (files.map (·.segments)).Nodup := by
  cases found with
  | alone read => simp
  | below directory lists =>
      rw [List.Nodup, List.Nodup, List.pairwise_map, List.pairwise_map]
      apply List.Pairwise.iff_of_mem
      intro file other member otherMember
      have has := (lists.mem_iff file).mp member
      have otherHas := (lists.mem_iff other).mp otherMember
      exact not_congr (has.key_eq_iff otherHas (texts file has) (texts other otherHas) dest)

/-- Without backslashes in their names no two files have the same segments. -/
theorem FilesAt.nodup_segments (found : tree.FilesAt root files)
    (plain : ∀ file ∈ files, ∀ name ∈ file.names, Path.backslash ∉ name) :
    (files.map (·.segments)).Nodup := by
  have names : files.map (·.segments) = files.map (·.names) :=
    List.map_congr_left fun file member => Path.segments_of_plain (plain file member)
  rw [names]
  cases found with
  | alone read => exact List.nodup_singleton _
  | below directory lists => exact lists.once

end Tree

/-- The keys in a directory that files have replaced are the keys of these. -/
theorem Replaced.lists (replaced : Replaced types bucket dest root files before exchanges after) :
    after.Lists (Key.directory dest) (files.map (·.key dest)).dedup := by
  refine ⟨List.nodup_dedup _, fun key => ?_⟩
  rw [List.mem_dedup, List.mem_map, replaced.mem_iff]

/-- Where all files have different keys, each is held under its own. -/
theorem Replaced.eq_object (replaced : Replaced types bucket dest root files before exchanges after)
    (apart : (files.map (·.key dest)).Nodup) (member : file ∈ files) :
    after (file.key dest) = some (file.object types root) := by
  obtain ⟨inside, some⟩ := (replaced.mem_iff (file.key dest)).mpr ⟨file, member, rfl⟩
  obtain ⟨object, held⟩ := Option.ne_none_iff_exists'.mp some
  obtain ⟨other, otherMember, same, rfl⟩ := replaced.holds _ object inside held
  rw [held, List.inj_on_of_nodup_map apart otherMember member same]

namespace Synchronizer

/-- Files below a path are uploaded under the same key exactly if their names, which are
text, have the same segments.  So after an upload that succeeds the directory holds at
most as many objects as files are reported, and as many exactly if no two files have the
same segments; then each file is held under its own key.  This is so if there is no
backslash in the names. -/
theorem uploadDirectory_collides_iff (s : Synchronizer) (dest : List Char) (root : Path)
    (tree : Tree) :
    (∀ file other, tree.HasFile root file → tree.HasFile root other → file.IsText →
      other.IsText → (file.key dest = other.key dest ↔ file.segments = other.segments)) ∧
    ∀ exchanges summary before after,
      (s.uploadDirectory dest root).Trace exchanges (.ok (.ok summary)) →
      Follows s.bucket before exchanges after → (∀ e ∈ exchanges, e.TrueTo tree) →
      tree.IsLegal → (∀ file, tree.HasFile root file → file.IsText) →
      ∃ files keys, tree.FilesAt root files ∧ summary.uploaded = files.length ∧
        after.Lists (Key.directory dest) keys ∧ keys.length ≤ summary.uploaded ∧
        (keys.length = summary.uploaded ↔ (files.map (·.segments)).Nodup) ∧
        ((files.map (·.segments)).Nodup →
          ∀ file ∈ files, after (file.key dest) = some (file.object s.types root)) ∧
        ((∀ file ∈ files, ∀ name ∈ file.names, Path.backslash ∉ name) →
          (files.map (·.segments)).Nodup) := by
  constructor
  · intro file other has otherHas texts otherTexts
    exact has.key_eq_iff otherHas texts otherTexts dest
  · intro exchanges summary before after trace follows trueTo legal texts
    obtain ⟨files, found, counted, replaced⟩ :=
      exists_replaced_of_trace trace follows trueTo legal
    have apart := found.nodup_keys_iff texts dest
    have length : (files.map (·.key dest)).length = summary.uploaded := by
      rw [List.length_map, counted]
    refine ⟨files, (files.map (·.key dest)).dedup, found, counted, replaced.lists, ?_, ?_, ?_,
      found.nodup_segments⟩
    · rw [← length]
      exact (List.dedup_sublist _).length_le
    · rw [← length, (List.dedup_sublist _).length_eq, List.dedup_eq_self, apart]
    · intro different file member
      exact replaced.eq_object (apart.mpr different) member

/-! ## Two files with the same key -/

/-- A file in a directory. -/
def nestedTwin : TreeFile :=
  ⟨[[0x61], [0x62]], [0x31]⟩

/-- A file whose name is that of the other with a backslash in the place of the slash. -/
def markedTwin : TreeFile :=
  ⟨[[0x61, 0x5C, 0x62]], [0x32]⟩

/-- A directory with both files below it. -/
def twinTree : Tree :=
  ⟨[([[0x72]], .directory), ([[0x72], [0x61]], .directory),
    ([[0x72], [0x61], [0x62]], .file [0x31]),
    ([[0x72], [0x61, 0x5C, 0x62]], .file [0x32])], by decide⟩

theorem isLegal_twinTree : twinTree.IsLegal := by
  unfold Tree.IsLegal
  decide

theorem resolve?_twinTree : twinTree.resolve? [0x72] = some [[0x72]] := by
  simp [Tree.resolve?, Tree.follow?, Path.split, Path.slash, Path.dot, Tree.entry?, twinTree,
    OrderedMap.get?]

theorem at?_twinTree : twinTree.at? [0x72] = some .directory := by
  rw [Tree.at?, resolve?_twinTree]
  rfl

theorem walk?_twinTree :
    twinTree.walk? [0x72] = some ([nestedTwin, markedTwin].map (·.names)) := by
  rw [Tree.walk?, resolve?_twinTree]
  decide

theorem read?_twinTree : ∀ file ∈ [nestedTwin, markedTwin],
    twinTree.read? (file.names.foldl Path.join [0x72]) = some file.body := by
  rw [List.forall_mem_cons, List.forall_mem_singleton]
  constructor
  · change twinTree.read? [0x72, 0x2F, 0x61, 0x2F, 0x62] = some [0x31]
    simp [Tree.read?, Tree.at?, Tree.resolve?, Tree.follow?, Path.split, Path.slash, Path.dot,
      Tree.entry?, twinTree, OrderedMap.get?, Tree.linkLimit]
  · change twinTree.read? [0x72, 0x2F, 0x61, 0x5C, 0x62] = some [0x32]
    simp [Tree.read?, Tree.at?, Tree.resolve?, Tree.follow?, Path.split, Path.slash, Path.dot,
      Tree.entry?, twinTree, OrderedMap.get?, Tree.linkLimit]

theorem lists_twinTree : twinTree.Lists [0x72] [nestedTwin, markedTwin] :=
  Tree.lists_of_walk? isLegal_twinTree at?_twinTree walk?_twinTree read?_twinTree

/-- The calls by which one worker uploads a file. -/
def twinTurns (file : TreeFile) : List (Exchange SyncService) :=
  let here : LocalFile := .below [0x72] file.names
  let upload := soleWorker.onlyUpload ['d'] here file.body
  [⟨.turn [0] false, .ok ⟨0, false⟩⟩,
    ⟨.turn [0] false, .ok ⟨0, false⟩⟩, ⟨.openFile here.path, .ok true⟩,
    ⟨.turn [0] false, .ok ⟨0, false⟩⟩, ⟨.readFile here.path, .ok (some file.body)⟩,
    ⟨.startUpload 0 upload, .ok ()⟩,
    ⟨.turn [0] false, .ok ⟨0, false⟩⟩, ⟨.awaitUpload 0 upload, .ok (.ok ())⟩]

/-- The calls by which one worker uploads both files to an empty directory. -/
def twinUpload : List (Exchange SyncService) :=
  [⟨.list "assets" (Key.directory ['d']) none, .ok (.ok ⟨[], []⟩)⟩,
    ⟨.walk [0x72],
      .ok (some ([nestedTwin, markedTwin].map fun file => .below [0x72] file.names))⟩] ++
    (twinTurns nestedTwin ++ (twinTurns markedTwin ++ [⟨.turn [0] false, .ok ⟨0, false⟩⟩]))

/-- The pool of one worker between two files, with the number of files that it has
uploaded. -/
def twinPool (queue : List LocalFile) (uploaded : Nat) : Pool :=
  { Pool.start Rehearsal.contentTypes "assets" ['d'] false 1 queue with
    workers := [.idle]
    uploaded := uploaded }

theorem trace_twinTurns (file : TreeFile) {queue : List LocalFile} {uploaded bound : Nat}
    {rest : List (Exchange SyncService)} {outcome : Except Stop Pool}
    (later : (Pool.takeTurns bound (twinPool queue (uploaded + 1))).Trace rest outcome) :
    (Pool.takeTurns (bound + 4) (twinPool (.below [0x72] file.names :: queue) uploaded)).Trace
      (twinTurns file ++ rest) outcome :=
  .call _ (.call _ (.call _ (.call _ (.call _ (.call _ (.call _ (.call _ later)))))))

theorem trace_twinUpload :
    (soleWorker.uploadDirectory ['d'] [0x72]).Trace twinUpload (.ok (.ok ⟨0, 2⟩)) := by
  have last : (Pool.takeTurns 1 (twinPool [] 2)).Trace [⟨.turn [0] false, .ok ⟨0, false⟩⟩]
      (.ok ((twinPool [] 2).move 0 .finished)) :=
    .call _ (.done _)
  have drained := trace_twinTurns nestedTwin (trace_twinTurns markedTwin last)
  refine Program.trace_bind_iff.mpr (.inl ⟨_, [_], _, rfl,
    trace_deleteDirectory_of_vacant soleWorker ['d'], .call _ ?_⟩)
  change Program.Trace ((Pool.start _ "assets" ['d'] false 1
    ([nestedTwin, markedTwin].map fun file => .below [0x72] file.names)).drain >>= _) _ _
  exact Program.trace_bind_iff.mpr (.inl ⟨_, _, [], (List.append_nil _).symm, drained, .done _⟩)

theorem follows_twinTurns (held : Holdings) (file : TreeFile) :
    Follows "assets" held (twinTurns file)
      (held.put (file.upload Rehearsal.contentTypes "assets" ['d'] [0x72])) := by
  rw [← @Pool.upload_below _ "assets" ['d'] false 1 [.below [0x72] file.names] [0x72] file]
  have stored : Follows "assets" held
      [⟨.awaitUpload 0 (soleWorker.onlyUpload ['d'] (.below [0x72] file.names) file.body),
        .ok (.ok ())⟩]
      (held.put (soleWorker.onlyUpload ['d'] (.below [0x72] file.names) file.body)) :=
    .cons (if_pos rfl).symm (.nil _)
  exact .cons rfl (.cons rfl (.cons rfl (.cons rfl (.cons rfl (.cons rfl (.cons rfl stored))))))

/-- What the bucket holds then, if it has been empty before. -/
def twinHoldings : Holdings :=
  let upload := TreeFile.upload Rehearsal.contentTypes "assets" ['d'] [0x72]
  (Holdings.put (fun _ => none) (upload nestedTwin)).put (upload markedTwin)

theorem follows_twinUpload : Follows "assets" (fun _ => none) twinUpload twinHoldings := by
  have rest : Follows "assets" twinHoldings [⟨.turn [0] false, .ok ⟨0, false⟩⟩] twinHoldings :=
    .cons rfl (.nil _)
  have turns := follows_append_iff.mpr ⟨_, follows_twinTurns (fun _ => none) nestedTwin,
    follows_append_iff.mpr ⟨_, follows_twinTurns _ markedTwin, rest⟩⟩
  exact .cons ⟨rfl, fun _ => Listing.complete_of_vacant fun _ _ => rfl⟩ (.cons rfl turns)

theorem trueTo_twinUpload : ∀ e ∈ twinUpload, e.TrueTo twinTree := by
  have read := read?_twinTree
  rw [List.forall_mem_cons, List.forall_mem_singleton] at read
  simp [twinUpload, twinTurns, Exchange.TrueTo, walk?_twinTree, LocalFile.below, read]

theorem isText_twins : ∀ file ∈ [nestedTwin, markedTwin], file.IsText := by
  have ascii : ∀ file ∈ [nestedTwin, markedTwin], ∀ name ∈ file.names, ∀ b ∈ name,
      b.toNat < 0x80 := by simp [nestedTwin, markedTwin]
  exact fun file member name among => Text.Utf8.isText_of_ascii (ascii file member name among)

theorem hasFile_twins : ∀ file ∈ [nestedTwin, markedTwin], twinTree.HasFile [0x72] file :=
  fun file => (lists_twinTree.mem_iff file).mp

theorem key_eq_twins : nestedTwin.key ['d'] = markedTwin.key ['d'] := by
  have has := hasFile_twins
  have texts := isText_twins
  rw [List.forall_mem_cons, List.forall_mem_singleton] at has texts
  exact (has.1.key_eq_iff has.2 texts.1 texts.2 ['d']).mpr (by decide)

theorem lists_twinHoldings :
    twinHoldings.Lists (Key.directory ['d']) [nestedTwin.key ['d']] := by
  refine ⟨List.nodup_singleton _, fun key => ?_⟩
  rw [List.mem_singleton]
  constructor
  · rintro rfl
    refine ⟨Key.directory_prefix_ofFile _ _, ?_⟩
    rw [twinHoldings, key_eq_twins]
    exact Holdings.put_ne_none _ _
  · rintro ⟨-, some⟩
    by_contra other
    have marked : key ≠ markedTwin.key ['d'] := by rwa [← key_eq_twins]
    exact some ((if_neg marked).trans (if_neg other))

theorem twinUpload_collides :
    (soleWorker.uploadDirectory ['d'] [0x72]).Trace twinUpload (.ok (.ok ⟨0, 2⟩)) ∧
      Follows "assets" (fun _ => none) twinUpload twinHoldings ∧
      (∀ e ∈ twinUpload, e.TrueTo twinTree) ∧ twinTree.IsLegal ∧
      (∀ file, twinTree.HasFile [0x72] file → file.IsText) ∧
      ∃ files keys, twinTree.FilesAt [0x72] files ∧ 2 = files.length ∧
        twinHoldings.Lists (Key.directory ['d']) keys ∧ keys.length ≤ 2 ∧
        (keys.length = 2 ↔ (files.map (·.segments)).Nodup) := by
  have texts (file : TreeFile) (has : twinTree.HasFile [0x72] file) : file.IsText :=
    isText_twins file ((lists_twinTree.mem_iff file).mpr has)
  obtain ⟨-, collides⟩ := uploadDirectory_collides_iff soleWorker ['d'] [0x72] twinTree
  obtain ⟨files, keys, found, counted, lists, few, all, -⟩ :=
    collides twinUpload ⟨0, 2⟩ (fun _ => none) twinHoldings trace_twinUpload follows_twinUpload
      trueTo_twinUpload isLegal_twinTree texts
  exact ⟨trace_twinUpload, follows_twinUpload, trueTo_twinUpload, isLegal_twinTree, texts,
    files, keys, found, counted, lists, few, all⟩

/-- Two different files, whose names are text, have the same key, and an upload that
succeeds counts both and leaves one object. -/
theorem twins_share_key :
    twinTree.HasFile [0x72] nestedTwin ∧ twinTree.HasFile [0x72] markedTwin ∧
      nestedTwin.IsText ∧ markedTwin.IsText ∧ nestedTwin ≠ markedTwin ∧
      nestedTwin.key ['d'] = markedTwin.key ['d'] ∧
      (soleWorker.uploadDirectory ['d'] [0x72]).Trace twinUpload (.ok (.ok ⟨0, 2⟩)) ∧
      Follows "assets" (fun _ => none) twinUpload twinHoldings ∧
      (∀ e ∈ twinUpload, e.TrueTo twinTree) ∧
      twinHoldings.Lists (Key.directory ['d']) [nestedTwin.key ['d']] := by
  have has := hasFile_twins
  have texts := isText_twins
  rw [List.forall_mem_cons, List.forall_mem_singleton] at has texts
  exact ⟨has.1, has.2, texts.1, texts.2, by decide, key_eq_twins, trace_twinUpload,
    follows_twinUpload, trueTo_twinUpload, lists_twinHoldings⟩

end Synchronizer

end FleetDeploy
