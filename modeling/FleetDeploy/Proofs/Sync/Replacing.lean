import FleetDeploy.Proofs.Sync.Reading

/-!
# Replacing a directory by a tree

A directory of a bucket that is replaced by a tree holds the files of the tree
afterwards and nothing else, whatever it held before and in whatever order the
workers take their turns.  Different files may have the same key: then one of them
is held under it.
-/

namespace FleetDeploy

/-- A listing that tells no key twice, or an exchange of another kind. -/
def Exchange.ListsOnce : Exchange SyncService → Prop
  | ⟨.list _ _ _, .ok (.ok listing)⟩ => (listing.objects.map (·.key)).Nodup
  | _ => True

/-- All keys under a stem that a bucket holds, each of them once. -/
structure Holdings.Lists (held : Holdings) (stem : Key) (keys : List Key) : Prop where
  once : keys.Nodup
  mem_iff : ∀ key, key ∈ keys ↔ stem <+: key ∧ held key ≠ none

/-- A complete listing without a delimiter lists the keys under its stem. -/
theorem Listing.Complete.lists {listing : Listing} {held : Holdings} {stem : Key}
    (complete : listing.Complete held stem none) (once : (listing.objects.map (·.key)).Nodup) :
    held.Lists stem (listing.objects.map (·.key)) := by
  refine ⟨once, fun key => ?_⟩
  rw [complete.mem_objects_iff key]
  simp [and_comm]

variable {types : ContentTypes} {bucket : String} {dest : List Char} {before after : Holdings}
  {exchanges : List (Exchange SyncService)}

/-! ## What is stored -/

/-- The uploads that exchanges begin, in their order. -/
def begunUploads (exchanges : List (Exchange SyncService)) : List Upload :=
  (exchanges.filterMap Exchange.begun?).map Prod.snd

/-- The uploads that exchanges complete, in their order. -/
def storedUploads (exchanges : List (Exchange SyncService)) : List Upload :=
  (exchanges.filterMap Exchange.stored?).map Prod.snd

theorem begunUploads_append (first rest : List (Exchange SyncService)) :
    begunUploads (first ++ rest) = begunUploads first ++ begunUploads rest := by
  rw [begunUploads, List.filterMap_append, List.map_append]
  rfl

theorem storedUploads_append (first rest : List (Exchange SyncService)) :
    storedUploads (first ++ rest) = storedUploads first ++ storedUploads rest := by
  rw [storedUploads, List.filterMap_append, List.map_append]
  rfl

/-- Exchanges that are no part of an upload begin and complete none. -/
theorem uploads_eq_nil (none : ∀ e ∈ exchanges, e.upload? = none) :
    begunUploads exchanges = [] ∧ storedUploads exchanges = [] := by
  rw [begunUploads, storedUploads, List.map_eq_nil_iff, List.map_eq_nil_iff,
    List.filterMap_eq_nil_iff, List.filterMap_eq_nil_iff, ← forall₂_and]
  intro e member
  have apart := none e member
  obtain ⟨call, reply⟩ := e
  cases call with
  | startUpload | awaitUpload => cases apart
  | _ => exact ⟨rfl, rfl⟩

/-- An exchange that goes well, and neither deletes nor abandons, stores the upload
that it completes. -/
theorem Exchange.Effect.eq_foldl_put {e : Exchange SyncService}
    (effect : e.Effect bucket before after) (succeeds : e.Succeeds)
    (undeleted : ∀ b keys, e.call ≠ .delete b keys)
    (kept : ∀ w upload, e.call ≠ .abandonUpload w upload)
    (here : ∀ upload ∈ storedUploads [e], upload.bucket = bucket) :
    after = (storedUploads [e]).foldl Holdings.put before := by
  obtain ⟨call, reply⟩ := e
  cases call with
  | list b stem delimiter =>
      obtain ⟨listing, rfl⟩ := succeeds
      exact effect.1
  | delete b keys => exact absurd rfl (undeleted b keys)
  | abandonUpload w upload => exact absurd rfl (kept w upload)
  | startUpload w upload =>
      cases succeeds
      exact effect
  | awaitUpload w upload =>
      cases succeeds
      exact effect.trans (if_pos (here upload (List.mem_singleton_self _)))
  | _ => exact effect

/-- Exchanges that go well, and neither delete nor abandon, store the uploads that
they complete one after another. -/
theorem Follows.eq_foldl_put (follows : Follows bucket before exchanges after)
    (succeeds : ∀ e ∈ exchanges, e.Succeeds)
    (undeleted : ∀ e ∈ exchanges, ∀ b keys, e.call ≠ .delete b keys)
    (kept : ∀ e ∈ exchanges, ∀ w upload, e.call ≠ .abandonUpload w upload)
    (here : ∀ upload ∈ storedUploads exchanges, upload.bucket = bucket) :
    after = (storedUploads exchanges).foldl Holdings.put before := by
  induction follows with
  | nil => rfl
  | @cons before between after e rest effect later ih =>
      rw [List.forall_mem_cons] at succeeds undeleted kept
      rw [← List.singleton_append, storedUploads_append, List.forall_mem_append] at here
      rw [← List.singleton_append, storedUploads_append, List.foldl_append,
        ← effect.eq_foldl_put succeeds.1 undeleted.1 kept.1 here.1]
      exact ih succeeds.2 undeleted.2 kept.2 here.2

/-- Under the key of uploads one of them is held, and all else is as it was. -/
theorem Holdings.foldl_put_apply (held : Holdings) (uploads : List Upload) (key : Key) :
    (∃ upload ∈ uploads, upload.key = key ∧
      uploads.foldl put held key = some ⟨upload.body, upload.contentType⟩) ∨
    (∀ upload ∈ uploads, upload.key ≠ key) ∧ uploads.foldl put held key = held key := by
  induction uploads generalizing held with
  | nil => exact .inr ⟨nofun, rfl⟩
  | cons first rest ih =>
      rw [List.foldl_cons]
      rcases ih (held.put first) with ⟨upload, member, same, stored⟩ | ⟨others, stays⟩
      · exact .inl ⟨upload, List.mem_cons_of_mem _ member, same, stored⟩
      · by_cases same : first.key = key
        · refine .inl ⟨first, List.mem_cons_self, same, ?_⟩
          rw [stays, put, if_pos same.symm]
        · refine .inr ⟨List.forall_mem_cons.mpr ⟨same, others⟩, ?_⟩
          rw [stays, put, if_neg (Ne.symm same)]

/-! ## What is removed -/

/-- A removal counts the keys of its directory. -/
theorem Bucket.Removal.exists_lists {count : Nat}
    (removal : Removal bucket dest exchanges (.ok (.ok count)))
    (follows : Follows bucket before exchanges after)
    (listsOnce : ∀ e ∈ exchanges, e.ListsOnce) :
    ∃ old, before.Lists (Key.directory dest) old ∧ old.length = count := by
  generalize ended : (.ok (.ok count) : Except Stop (Except StoreError Nat)) = outcome
    at removal
  cases removal with
  | stopped | unlisted => cases ended
  | @listed listing exchanges outcome deletion =>
      rcases outcome with reason | (cause | _)
      · cases ended
      · cases ended
      · cases ended
        cases follows with
        | cons effect later =>
            obtain ⟨rfl, complete⟩ := effect
            exact ⟨_, (complete rfl).lists (listsOnce _ List.mem_cons_self), List.length_map _⟩

/-! ## What replaces it -/

namespace TreeFile

/-- The key of a file. -/
def key (dest : List Char) (file : TreeFile) : Key :=
  Key.ofFile dest ([Path.slash].intercalate file.names)

/-- The content type of a file: the type registered for its extension, or else what
its first 512 bytes look like. -/
def contentType (types : ContentTypes) (root : Path) (file : TreeFile) : String :=
  (types.ofPath? (file.names.foldl Path.join root)).getD (Content.sniff (file.body.take 512))

/-- The object that a file becomes. -/
def object (types : ContentTypes) (root : Path) (file : TreeFile) : StoredObject :=
  ⟨file.body, file.contentType types root⟩

/-- The upload of a file. -/
def upload (types : ContentTypes) (bucket : String) (dest : List Char) (root : Path)
    (file : TreeFile) : Upload :=
  ⟨bucket, file.key dest, file.body, file.contentType types root⟩

end TreeFile

/-- Content looks like its beginning. -/
theorem Content.sniff_take (content : List UInt8) :
    sniff (content.take 512) = sniff content := by
  rw [sniff, sniff, windowLength, List.take_take, Nat.min_self]

theorem Pool.upload_below {watched : Bool} {workers : Nat} {files : List LocalFile}
    (root : Path) (file : TreeFile) :
    (start types bucket dest watched workers files).upload (.below root file.names) file.body =
      file.upload types bucket dest root := by
  rw [TreeFile.upload, TreeFile.contentType, Content.sniff_take]
  rfl

variable {root : Path} {tree : Tree} {files : List TreeFile}

/-- Files that were found are read and stored, each of them once. -/
structure Filled (types : ContentTypes) (tree : Tree) (bucket : String) (dest : List Char)
    (root : Path) (found : List Place) (files : List TreeFile) (before : Holdings)
    (exchanges : List (Exchange SyncService)) (after : Holdings) : Prop where
  names_eq : files.map (·.names) = found
  read : ∀ file ∈ files, tree.read? (file.names.foldl Path.join root) = some file.body
  begun : (begunUploads exchanges).Perm (files.map (·.upload types bucket dest root))
  stored : (storedUploads exchanges).Perm (files.map (·.upload types bucket dest root))
  put : after = (storedUploads exchanges).foldl Holdings.put before

/-- A run of the pool in which all calls go well stores what a walk found. -/
theorem Pool.Run.exists_filled {found : List Place} {workers : Nat}
    {steps : List Pool.Step} {final : Pool}
    (run : (start types bucket dest false workers (found.map (LocalFile.below root))).Run steps
      final)
    (nonempty : found ≠ []) (succeeds : ∀ e ∈ steps.flatMap Step.exchanges, e.Succeeds)
    (reads : ∀ e ∈ steps.flatMap Step.exchanges, e.Reads tree)
    (follows : Follows bucket before (steps.flatMap Step.exchanges) after) :
    ∃ files, Filled types tree bucket dest root found files before
        (steps.flatMap Step.exchanges) after ∧
      final.uploaded = files.length := by
  obtain ⟨count, content, held, begun, stored⟩ :=
    run.uploads_all (mt List.map_eq_nil_iff.mp nonempty) succeeds reads
  obtain ⟨-, kept⟩ := run.sound sound_start succeeds reads
  let files : List TreeFile := found.map fun names => ⟨names, content (.below root names)⟩
  have told : (found.map (LocalFile.below root)).map (fun file =>
        (start types bucket dest false workers (found.map (LocalFile.below root))).upload file
          (content file)) = files.map (·.upload types bucket dest root) := by
    rw [List.map_map, List.map_map]
    refine List.map_congr_left fun names _ => ?_
    exact upload_below root ⟨names, content (.below root names)⟩
  rw [told] at begun
  have all : (storedUploads (steps.flatMap Step.exchanges)).Perm
      (files.map (·.upload types bucket dest root)) :=
    (stored.symm.map Prod.snd).trans begun
  refine ⟨files, ⟨?_, ?_, begun, all, ?_⟩, by rw [count, List.length_map, List.length_map]⟩
  · rw [List.map_map]
    exact List.map_id _
  · rw [List.forall_mem_map] at held ⊢
    exact held
  · refine follows.eq_foldl_put succeeds run.undeleted kept ?_
    intro upload member
    obtain ⟨file, -, rfl⟩ := List.mem_map.mp (all.mem_iff.mp member)
    rfl

/-- Under the key of files one of them is held, and all else is as it was. -/
theorem Filled.apply {found : List Place}
    (filled : Filled types tree bucket dest root found files before exchanges after) (key : Key) :
    (∃ file ∈ files, file.key dest = key ∧ after key = some (file.object types root)) ∨
      (∀ file ∈ files, file.key dest ≠ key) ∧ after key = before key := by
  rw [filled.put]
  rcases before.foldl_put_apply (storedUploads exchanges) key with
    ⟨upload, member, same, held⟩ | ⟨others, stays⟩
  · obtain ⟨file, here, rfl⟩ := List.mem_map.mp (filled.stored.mem_iff.mp member)
    exact .inl ⟨file, here, same, held⟩
  · refine .inr ⟨fun file here => ?_, stays⟩
    exact others _ (filled.stored.mem_iff.mpr (List.mem_map_of_mem here))

/-- What is left of a directory that files have replaced, and of all else.  Each file
was uploaded once. -/
structure Replaced (types : ContentTypes) (bucket : String) (dest : List Char) (root : Path)
    (files : List TreeFile) (before : Holdings) (exchanges : List (Exchange SyncService))
    (after : Holdings) : Prop where
  begun : (begunUploads exchanges).Perm (files.map (·.upload types bucket dest root))
  stored : (storedUploads exchanges).Perm (files.map (·.upload types bucket dest root))
  mem_iff : ∀ key, Key.directory dest <+: key ∧ after key ≠ none ↔
    ∃ file ∈ files, file.key dest = key
  holds : ∀ key object, Key.directory dest <+: key → after key = some object →
    ∃ file ∈ files, file.key dest = key ∧ file.object types root = object
  others : ∀ key, ¬Key.directory dest <+: key → after key = before key

/-- A directory of a bucket holds the files of a path, and nothing else. -/
structure Holdings.Mirrors (held : Holdings) (types : ContentTypes) (dest : List Char)
    (root : Path) (files : List TreeFile) : Prop where
  mem_iff : ∀ key, Key.directory dest <+: key ∧ held key ≠ none ↔
    ∃ file ∈ files, file.key dest = key
  holds : ∀ key object, Key.directory dest <+: key → held key = some object →
    ∃ file ∈ files, file.key dest = key ∧ file.object types root = object

theorem Replaced.mirrors
    (replaced : Replaced types bucket dest root files before exchanges after) :
    after.Mirrors types dest root files :=
  ⟨replaced.mem_iff, replaced.holds⟩

/-- It still does when all keys in it are left alone. -/
theorem Holdings.Mirrors.congr (mirrors : before.Mirrors types dest root files)
    (same : ∀ key, Key.directory dest <+: key → after key = before key) :
    after.Mirrors types dest root files := by
  constructor
  · intro key
    rw [← mirrors.mem_iff key]
    exact and_congr_right fun inside => by rw [same key inside]
  · intro key object inside held
    exact mirrors.holds key object inside ((same key inside).symm.trans held)

/-- Files that are stored in an empty directory are all that it holds. -/
theorem Filled.replaced {found : List Place} {between : Holdings}
    (filled : Filled types tree bucket dest root found files between exchanges after)
    (vacant : ∀ key, Key.directory dest <+: key → between key = none)
    (others : ∀ key, ¬Key.directory dest <+: key → between key = before key) :
    Replaced types bucket dest root files before exchanges after := by
  have inside (file : TreeFile) : Key.directory dest <+: file.key dest :=
    Key.directory_prefix_ofFile dest _
  refine ⟨filled.begun, filled.stored, ?_, ?_, ?_⟩
  · intro key
    rcases filled.apply key with ⟨file, here, rfl, held⟩ | ⟨apart, stays⟩
    · exact ⟨fun _ => ⟨file, here, rfl⟩, fun _ => ⟨inside file, by simp [held]⟩⟩
    · constructor
      · rintro ⟨below, held⟩
        exact absurd (stays.trans (vacant key below)) held
      · rintro ⟨file, here, same⟩
        exact absurd same (apart file here)
  · intro key object below held
    rcases filled.apply key with ⟨file, here, same, new⟩ | ⟨-, stays⟩
    · exact ⟨file, here, same, Option.some.inj (new.symm.trans held)⟩
    · rw [stays, vacant key below] at held
      cases held
  · intro key outside
    rcases filled.apply key with ⟨file, -, rfl, -⟩ | ⟨-, stays⟩
    · exact absurd (inside file) outside
    · exact stays.trans (others key outside)

namespace Synchronizer

variable {s : Synchronizer} {outcome : Except Stop (Except ReleaseError SyncSummary)}

/-- Clearing a directory counts the keys that it holds. -/
theorem exists_lists_of_trace {cleared : Nat}
    (trace : (s.deleteDirectory dest).Trace exchanges (.ok (.ok cleared)))
    (follows : Follows s.bucket before exchanges after)
    (listsOnce : ∀ e ∈ exchanges, e.ListsOnce) :
    ∃ old, before.Lists (Key.directory dest) old ∧ old.length = cleared := by
  obtain ⟨_, removal, counted⟩ := exists_removal trace
  rw [counted cleared rfl] at removal
  exact removal.exists_lists follows listsOnce

theorem Conclusion.eq_of_sound {cleared : Nat} {pool : Pool}
    (conclusion : Conclusion cleared pool exchanges outcome) (sound : pool.Sound) :
    exchanges = [] ∧ outcome = .ok (.ok ⟨cleared, pool.uploaded⟩) := by
  have on := sound.on
  cases conclusion with
  | failed known =>
      rw [Pool.isCalledOff, known, Option.isSome_some, Bool.or_true] at on
      cases on
  | unwatched => exact ⟨rfl, rfl⟩
  | asked _ watched | stopped _ watched => cases sound.unwatched.symm.trans watched

/-- A directory is cleared, something is found, and then this is stored. -/
theorem exists_filled_of_cleared {clearing rest : List (Exchange SyncService)}
    {cleared uploaded : Nat} {found : List Place} {r : Except Stop (Option (List LocalFile))}
    (clear : (s.deleteDirectory dest).Trace clearing (.ok (.ok cleared)))
    (follows : Follows s.bucket before (clearing ++ ⟨.walk root, r⟩ :: rest) after)
    (fills : ∀ between, Follows s.bucket between rest after →
      ∃ files, Filled s.types tree s.bucket dest root found files between rest after ∧
        uploaded = files.length) :
    ∃ files, files.map (·.names) = found ∧
      (∀ file ∈ files, tree.read? (file.names.foldl Path.join root) = some file.body) ∧
      uploaded = files.length ∧
      Replaced s.types s.bucket dest root files before
        (clearing ++ ⟨.walk root, r⟩ :: rest) after := by
  obtain ⟨between, first, last⟩ := follows_append_iff.mp follows
  cases last with
  | cons effect later =>
      cases effect
      obtain ⟨vacant, others⟩ := after_deleteDirectory clear first
      obtain ⟨files, ⟨named, read, begun, stored, put⟩, counted⟩ := fills _ later
      obtain ⟨noneBegun, noneStored⟩ :=
        uploads_eq_nil fun e member => (plain_of_trace clear e member).1
      -- The clearing uploads nothing, so that only the rest counts.
      have whole : begunUploads (clearing ++ ⟨.walk root, r⟩ :: rest) = begunUploads rest ∧
          storedUploads (clearing ++ ⟨.walk root, r⟩ :: rest) = storedUploads rest := by
        rw [begunUploads_append, storedUploads_append, noneBegun, noneStored]
        exact ⟨rfl, rfl⟩
      rw [← whole.1] at begun
      rw [← whole.2] at stored put
      have again : Filled s.types tree s.bucket dest root found files between _ after :=
        ⟨named, read, begun, stored, put⟩
      exact ⟨files, named, read, counted, again.replaced vacant others⟩

/-- A directory is cleared, a walk finds files below another, and then these are stored. -/
theorem exists_replaced {clearing rest : List (Exchange SyncService)} {cleared uploaded : Nat}
    {found : List Place} {r : Except Stop (Option (List LocalFile))}
    (clear : (s.deleteDirectory dest).Trace clearing (.ok (.ok cleared)))
    (follows : Follows s.bucket before (clearing ++ ⟨.walk root, r⟩ :: rest) after)
    (listsOnce : ∀ e ∈ clearing, e.ListsOnce) (legal : tree.IsLegal)
    (directory : tree.at? root = some .directory) (walked : tree.walk? root = some found)
    (fills : ∀ between, Follows s.bucket between rest after →
      ∃ files, Filled s.types tree s.bucket dest root found files between rest after ∧
        uploaded = files.length) :
    ∃ old files, before.Lists (Key.directory dest) old ∧ tree.Lists root files ∧
      SyncSummary.mk cleared uploaded = ⟨old.length, files.length⟩ ∧
      Replaced s.types s.bucket dest root files before
        (clearing ++ ⟨.walk root, r⟩ :: rest) after := by
  obtain ⟨files, rfl, read, rfl, replaced⟩ := exists_filled_of_cleared clear follows fills
  obtain ⟨between, first, -⟩ := follows_append_iff.mp follows
  obtain ⟨old, lists, rfl⟩ := exists_lists_of_trace clear first listsOnce
  exact ⟨old, files, lists, Tree.lists_of_walk? legal directory walked read, rfl, replaced⟩

/-- A directory that was uploaded to has been replaced by the files of the tree. -/
theorem exists_replaced_of_trace {summary : SyncSummary}
    (trace : (s.uploadDirectory dest root).Trace exchanges (.ok (.ok summary)))
    (follows : Follows s.bucket before exchanges after)
    (trueTo : ∀ e ∈ exchanges, e.TrueTo tree) (legal : tree.IsLegal) :
    ∃ files, tree.FilesAt root files ∧ summary.uploaded = files.length ∧
      Replaced s.types s.bucket dest root files before exchanges after := by
  have replacement := Replacement.of_trace trace
  generalize done : (.ok (.ok summary) : Except Stop (Except ReleaseError SyncSummary)) = ended
    at replacement
  cases replacement with
  | uncleared | clearingStopped | walkStopped | unwalked => cases done
  | vacant clear =>
      cases done
      obtain ⟨found, walked, none⟩ := trueTo _ (List.mem_append_right _ (List.mem_singleton_self _))
      obtain rfl : found = [] := by simpa using none.symm
      have fills (between : Holdings) (follows : Follows s.bucket between [] after) :
          ∃ files, Filled s.types tree s.bucket dest root [] files between [] after ∧
            0 = files.length := by
        cases follows
        exact ⟨[], ⟨rfl, nofun, .nil, .nil, rfl⟩, rfl⟩
      obtain ⟨files, named, read, counted, replaced⟩ :=
        exists_filled_of_cleared clear follows fills
      exact ⟨files, Tree.filesAt_of_walk? legal (named ▸ walked) read, counted, replaced⟩
  | pooled clear nonempty run conclusion =>
      subst done
      have on := conclusion.isCalledOff_eq_false run
      rw [List.forall_mem_append, List.forall_mem_cons, List.forall_mem_append] at trueTo
      obtain ⟨-, ⟨found, walked, rfl⟩, runTrue, -⟩ := trueTo
      have well := run.well on runTrue
      have succeeds := fun e member => (well e member).1
      have reads := fun e member => (well e member).2
      obtain ⟨sound, -⟩ := run.sound Pool.sound_start succeeds reads
      obtain ⟨rfl, equal⟩ := conclusion.eq_of_sound sound
      cases equal
      obtain ⟨files, named, read, counted, replaced⟩ :=
        exists_filled_of_cleared clear follows fun between follows => by
          rw [List.append_nil] at follows ⊢
          exact run.exists_filled (mt List.map_eq_nil_iff.mpr nonempty) succeeds reads follows
      exact ⟨files, Tree.filesAt_of_walk? legal (named ▸ walked) read, counted, replaced⟩

/-- Replacing a directory by a tree in calls that all go well counts the keys that the
directory held and the files of the tree, and each of these files is uploaded once.
Then the directory holds the files, and nothing else; other keys stay as they were. -/
theorem uploadDirectory_replaces (trace : (s.uploadDirectory dest root).Trace exchanges outcome)
    (follows : Follows s.bucket before exchanges after)
    (succeeds : ∀ e ∈ exchanges, e.Succeeds) (listsOnce : ∀ e ∈ exchanges, e.ListsOnce)
    (reads : ∀ e ∈ exchanges, e.Reads tree) (legal : tree.IsLegal)
    (directory : tree.at? root = some .directory) :
    ∃ old files, before.Lists (Key.directory dest) old ∧ tree.Lists root files ∧
      outcome = .ok (.ok ⟨old.length, files.length⟩) ∧
      Replaced s.types s.bucket dest root files before exchanges after := by
  cases Replacement.of_trace trace with
  | uncleared clear | clearingStopped clear =>
      obtain ⟨count, equal⟩ := exists_count clear succeeds
      cases equal
  | walkStopped clear | unwalked clear =>
      obtain ⟨found, -, equal⟩ := reads _ (List.mem_append_right _ (List.mem_singleton_self _))
      cases equal
  | vacant clear =>
      rw [List.forall_mem_append] at listsOnce reads
      obtain ⟨found, walked, equal⟩ := reads.2 _ (List.mem_singleton_self _)
      obtain rfl : found = [] := by simpa using equal
      obtain ⟨old, files, lists, all, equal, replaced⟩ :=
        exists_replaced clear follows listsOnce.1 legal directory walked fun between follows => by
          cases follows
          exact ⟨[], ⟨rfl, nofun, .nil, .nil, rfl⟩, rfl⟩
      exact ⟨old, files, lists, all, congrArg (Except.ok ∘ Except.ok) equal, replaced⟩
  | pooled clear nonempty run conclusion =>
      rw [List.forall_mem_append, List.forall_mem_cons, List.forall_mem_append]
        at succeeds listsOnce reads
      obtain ⟨-, ⟨found, walked, equal⟩, runReads, -⟩ := reads
      obtain ⟨-, -, runSucceeds, -⟩ := succeeds
      cases equal
      obtain ⟨sound, -⟩ := run.sound Pool.sound_start runSucceeds runReads
      obtain ⟨rfl, rfl⟩ := conclusion.eq_of_sound sound
      obtain ⟨old, files, lists, all, equal, replaced⟩ :=
        exists_replaced clear follows listsOnce.1 legal directory walked fun between follows => by
          rw [List.append_nil] at follows ⊢
          exact run.exists_filled (mt List.map_eq_nil_iff.mpr nonempty) runSucceeds runReads follows
      exact ⟨old, files, lists, all, congrArg (Except.ok ∘ Except.ok) equal, replaced⟩

/-- A key that is no file's. -/
def staleKey : Key :=
  ['d', '/', 'b']

/-- A bucket with one object. -/
def staleBucket : Holdings :=
  fun key => if key = staleKey then some ⟨[], "text/plain"⟩ else none

/-- The calls by which one worker replaces the object by the only file of a tree. -/
def freshUpload : List (Exchange SyncService) :=
  [⟨.list "assets" (Key.directory ['d']) none, .ok (.ok ⟨[⟨staleKey, 0⟩], []⟩)⟩,
    ⟨.delete "assets" [staleKey], .ok (.ok ())⟩] ++
    (soleWorker.singleUpload ['d'] [0x72] (.below [0x72] [[0x61]]) [0x7B]).drop 1

/-- What the bucket holds then. -/
def freshBucket : Holdings :=
  (staleBucket.without [staleKey]).put
    (soleWorker.onlyUpload ['d'] (.below [0x72] [[0x61]]) [0x7B])

theorem uploadDirectory_replaces_stale :
    (soleWorker.uploadDirectory ['d'] [0x72]).Trace freshUpload (.ok (.ok ⟨1, 1⟩)) ∧
      Follows "assets" staleBucket freshUpload freshBucket ∧
      (∀ e ∈ freshUpload, e.Succeeds) ∧ (∀ e ∈ freshUpload, e.ListsOnce) ∧
      (∀ e ∈ freshUpload, e.Reads Tree.single) ∧
      ∃ old files, staleBucket.Lists (Key.directory ['d']) old ∧ Tree.single.Lists [0x72] files ∧
        (.ok (.ok ⟨1, 1⟩) : Except Stop (Except ReleaseError SyncSummary)) =
          .ok (.ok ⟨old.length, files.length⟩) ∧
        Replaced Rehearsal.contentTypes "assets" ['d'] [0x72] files staleBucket freshUpload
          freshBucket := by
  have trace : (soleWorker.uploadDirectory ['d'] [0x72]).Trace freshUpload (.ok (.ok ⟨1, 1⟩)) :=
    trace_singleUpload_of_cleared rfl
      (soleWorker.trace_deleteDirectory_of_single ['d'] ⟨staleKey, 0⟩) [0x72]
      (.below [0x72] [[0x61]]) [0x7B]
  have complete : Listing.Complete ⟨[⟨staleKey, 0⟩], []⟩ staleBucket (Key.directory ['d'])
      none := by
    refine Listing.complete_of_single (by simp [staleBucket]) (by decide) ?_
    intro key _ other
    exact if_neg other
  have follows : Follows "assets" staleBucket freshUpload freshBucket :=
    .cons ⟨rfl, fun _ => complete⟩ (.cons (if_pos rfl).symm
      (soleWorker.follows_singleUpload_drop _ _ _ _))
  have succeeds : ∀ e ∈ freshUpload, e.Succeeds := by
    simp [freshUpload, singleUpload, Exchange.Succeeds]
  have listsOnce : ∀ e ∈ freshUpload, e.ListsOnce := by
    simp [freshUpload, singleUpload, Exchange.ListsOnce]
  have reads : ∀ e ∈ freshUpload, e.Reads Tree.single := by
    simp [freshUpload, singleUpload, Exchange.Reads, LocalFile.below, Tree.walk?_single,
      Tree.read?_single]
  exact ⟨trace, follows, succeeds, listsOnce, reads, uploadDirectory_replaces trace follows
    succeeds listsOnce reads Tree.isLegal_single Tree.at?_single⟩

end Synchronizer

end FleetDeploy
