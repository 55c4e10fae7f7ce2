import FleetDeploy.Proofs.Store.Holdings
import FleetDeploy.Proofs.Store.Key
import FleetDeploy.Proofs.Sync.Directory
import FleetDeploy.Proofs.Sync.Refusal

/-!
# What synchronisation does to a bucket

Removing and replacing a directory touch only keys in that directory, however
they go, and a removal that succeeds leaves no key in it.
-/

namespace FleetDeploy

variable {types : ContentTypes} {bucket : String} {dir dest : List Char} {before after : Holdings}
  {exchanges : List (Exchange SyncService)}

namespace Bucket

/-! ## Removals -/

/-- What deleting batches touches is in the batches. -/
theorem Deletion.mem_flatten {keys : List (List Key)}
    {outcome : Except Stop (Except StoreError Unit)}
    (deletion : Deletion bucket keys exchanges outcome) :
    ∀ e ∈ exchanges, ∀ k ∈ e.touched, k ∈ keys.flatten := by
  induction deletion with
  | finished => exact nofun
  | stopped batch rest | refused batch rest =>
      intro e member k touched
      rw [List.mem_singleton.mp member] at touched
      exact List.mem_append_left _ touched
  | deleted batch later ih =>
      intro e member k touched
      rcases List.mem_cons.mp member with rfl | member
      · exact List.mem_append_left _ touched
      · exact List.mem_append_right _ (ih e member k touched)

/-- Deleting all batches deletes all their keys. -/
theorem Deletion.after_eq {keys : List (List Key)}
    (deletion : Deletion bucket keys exchanges (.ok (.ok ())))
    (follows : Follows bucket before exchanges after) {key : Key} :
    after key = if key ∈ keys.flatten then none else before key := by
  generalize ended : (.ok (.ok ()) : Except Stop (Except StoreError Unit)) = outcome
    at deletion
  induction deletion generalizing before with
  | finished =>
      cases follows
      rfl
  | stopped | refused => cases ended
  | @deleted batch rest exchanges outcome later ih =>
      cases follows with
      | cons effect following =>
          have removed := effect.trans (if_pos rfl)
          rw [ih following ended, removed, Holdings.without_apply, List.flatten_cons]
          by_cases inRest : key ∈ rest.flatten <;> by_cases inBatch : key ∈ batch <;>
            simp [inRest, inBatch]

theorem Deletion.plain {keys : List (List Key)}
    {outcome : Except Stop (Except StoreError Unit)}
    (deletion : Deletion bucket keys exchanges outcome) :
    ∀ e ∈ exchanges, e.upload? = none ∧ e.isTimer = false ∧ ∀ root, e.call ≠ .walk root := by
  induction deletion with
  | finished => exact nofun
  | stopped | refused => simp [Exchange.upload?, Exchange.isTimer]
  | deleted batch later ih =>
      rw [List.forall_mem_cons]
      exact ⟨⟨rfl, rfl, nofun⟩, ih⟩

/-- A removal is no part of an upload, sets no timer and walks no tree. -/
theorem Removal.plain {outcome : Except Stop (Except StoreError Nat)}
    (removal : Removal bucket dir exchanges outcome) :
    ∀ e ∈ exchanges, e.upload? = none ∧ e.isTimer = false ∧ ∀ root, e.call ≠ .walk root := by
  cases removal with
  | stopped | unlisted => simp [Exchange.upload?, Exchange.isTimer]
  | listed listing deletion =>
      rw [List.forall_mem_cons]
      exact ⟨⟨rfl, rfl, nofun⟩, deletion.plain⟩

/-- A removal touches only keys in its directory. -/
theorem Removal.within {outcome : Except Stop (Except StoreError Nat)}
    (removal : Removal bucket dir exchanges outcome)
    (inside : ∀ e ∈ exchanges, e.ListsInside bucket) :
    ∀ e ∈ exchanges, ∀ k ∈ e.touched, Key.directory dir <+: k := by
  cases removal with
  | stopped | unlisted => simp [Exchange.touched]
  | listed listing deletion =>
      rw [List.forall_mem_cons] at inside ⊢
      refine ⟨nofun, fun e member k touched => inside.1 rfl k ?_⟩
      rw [← flatten_batches (listing.objects.map (·.key))]
      exact deletion.mem_flatten e member k touched

/-- A removal that succeeds leaves nothing in its directory. -/
theorem Removal.eq_none {count : Nat} (removal : Removal bucket dir exchanges (.ok (.ok count)))
    (follows : Follows bucket before exchanges after) {key : Key}
    (inside : Key.directory dir <+: key) : after key = none := by
  generalize ended : (.ok (.ok count) : Except Stop (Except StoreError Nat)) = outcome
    at removal
  cases removal with
  | stopped | unlisted => cases ended
  | @listed listing exchanges outcome deletion =>
      rcases outcome with reason | (cause | _)
      · cases ended
      · cases ended
      · cases follows with
        | cons effect later =>
            obtain ⟨rfl, complete⟩ := effect
            rw [deletion.after_eq later, flatten_batches]
            apply ite_eq_left_iff.mpr
            intro unlisted
            by_contra held
            exact unlisted (((complete rfl).mem_objects_iff key).mpr
              ⟨held, inside, Objects.directory?_none⟩)

end Bucket

/-- Removing a directory by a synchronizer is a removal in its bucket. -/
theorem Synchronizer.exists_removal {s : Synchronizer}
    {outcome : Except Stop (Except ReleaseError Nat)}
    (trace : (s.deleteDirectory dir).Trace exchanges outcome) :
    ∃ removed, Bucket.Removal s.bucket dir exchanges removed ∧
      ∀ count, outcome = .ok (.ok count) → removed = .ok (.ok count) := by
  obtain ⟨removed, removal, rfl⟩ := trace_deleteDirectory_iff.mp trace
  refine ⟨removed, removal, fun count ended => ?_⟩
  rcases removed with reason | (cause | removed)
  · cases ended
  · cases ended
  · cases ended
    rfl

theorem Synchronizer.plain_of_trace {s : Synchronizer}
    {outcome : Except Stop (Except ReleaseError Nat)}
    (trace : (s.deleteDirectory dir).Trace exchanges outcome) :
    ∀ e ∈ exchanges, e.upload? = none ∧ e.isTimer = false ∧ ∀ root, e.call ≠ .walk root := by
  obtain ⟨removed, removal, -⟩ := exists_removal trace
  exact removal.plain

theorem Synchronizer.settled_of_trace {s : Synchronizer}
    {outcome : Except Stop (Except ReleaseError Nat)}
    (trace : (s.deleteDirectory dir).Trace exchanges outcome) : Settled exchanges :=
  settled_of_upload?_eq_none fun e member => (plain_of_trace trace e member).1

theorem Synchronizer.within_of_trace {s : Synchronizer}
    {outcome : Except Stop (Except ReleaseError Nat)}
    (trace : (s.deleteDirectory dir).Trace exchanges outcome)
    (inside : ∀ e ∈ exchanges, e.ListsInside s.bucket) :
    ∀ e ∈ exchanges, ∀ k ∈ e.touched, Key.directory dir <+: k := by
  obtain ⟨removed, removal, -⟩ := exists_removal trace
  exact removal.within inside

/-- A removal whose calls go well succeeds. -/
theorem Synchronizer.exists_count {s : Synchronizer}
    {outcome : Except Stop (Except ReleaseError Nat)}
    (trace : (s.deleteDirectory dir).Trace exchanges outcome)
    (succeeds : ∀ e ∈ exchanges, e.Succeeds) : ∃ count, outcome = .ok (.ok count) :=
  (s.yields_deleteDirectory dir).exists_ok trace succeeds

/-- A directory that is removed by calls that go well is empty afterwards, and
nothing else has changed. -/
theorem Synchronizer.after_deleteDirectory {s : Synchronizer} {count : Nat}
    (trace : (s.deleteDirectory dir).Trace exchanges (.ok (.ok count)))
    (follows : Follows s.bucket before exchanges after) :
    (∀ key, Key.directory dir <+: key → after key = none) ∧
      ∀ key, ¬Key.directory dir <+: key → after key = before key := by
  obtain ⟨_, removal, counted⟩ := exists_removal trace
  rw [counted count rfl] at removal
  exact ⟨fun key inside => removal.eq_none follows inside,
    fun key outside => follows.eq_of_not_prefix (removal.within follows.listsInside) outside⟩

namespace Pool

/-! ## Runs of the pool -/

/-- All uploads in flight go to the directory of the pool. -/
def Confined (pool : Pool) : Prop :=
  ∀ upload, .uploading upload ∈ pool.workers → Key.directory pool.dest <+: upload.key

variable {pool final : Pool} {deed : Deed} {steps : List Step}

/-- A turn touches only keys in the directory of the pool. -/
theorem Does.within (does : pool.Does deed)
    (here : pool.workers[deed.worker]? = some deed.phase) (confined : pool.Confined) :
    ∀ e ∈ deed.calls, ∀ k ∈ e.touched, Key.directory pool.dest <+: k := by
  have below (file : LocalFile) (body : List UInt8) :
      Key.directory pool.dest <+: (pool.upload file body).key :=
    Key.directory_prefix_ofFile pool.dest file.relative
  cases does with
  | started on w file body | startPanicked on w file body =>
      simpa [Exchange.touched] using below file body
  | stored on w upload | refused on w upload | awaitPanicked on w upload
  | abandoned off w upload =>
      simpa [Exchange.touched] using confined upload (List.mem_of_getElem? here)
  | _ => simp [Exchange.touched]

theorem Does.confined (does : pool.Does deed) (confined : pool.Confined) :
    (pool.after deed).Confined := by
  intro upload member
  rcases List.mem_or_eq_of_mem_set member with before | now
  · exact confined upload before
  · cases does with
    | started on w file body =>
        cases now
        exact Key.directory_prefix_ofFile pool.dest file.relative
    | _ => cases now

theorem Run.within (run : Run pool steps final) (confined : pool.Confined) :
    ∀ e ∈ steps.flatMap Step.exchanges, ∀ k ∈ e.touched, Key.directory pool.dest <+: k := by
  induction run with
  | finished all => exact nofun
  | @step pool final step steps here does rest ih =>
      intro e member
      rcases List.mem_append.mp member with turn | later
      · rcases List.mem_cons.mp turn with rfl | made
        · exact nofun
        · exact does.within here confined e made
      · exact ih (does.confined confined) e later

theorem Does.untimed (does : pool.Does deed) : ∀ e ∈ deed.calls, e.isTimer = false := by
  cases does <;> simp [Exchange.isTimer]

theorem Run.untimed (run : Run pool steps final) :
    ∀ e ∈ steps.flatMap Step.exchanges, e.isTimer = false := by
  induction run with
  | finished all => exact nofun
  | step here does rest ih =>
      rw [List.flatMap_cons, List.forall_mem_append, Step.exchanges, List.forall_mem_cons]
      exact ⟨⟨rfl, does.untimed⟩, ih⟩

/-- The pool deletes nothing. -/
theorem Does.undeleted (does : pool.Does deed) :
    ∀ e ∈ deed.calls, ∀ b keys, e.call ≠ .delete b keys := by
  cases does <;> simp

theorem Run.undeleted (run : Run pool steps final) :
    ∀ e ∈ steps.flatMap Step.exchanges, ∀ b keys, e.call ≠ .delete b keys := by
  induction run with
  | finished all => exact nofun
  | step here does rest ih =>
      rw [List.flatMap_cons, List.forall_mem_append, Step.exchanges, List.forall_mem_cons]
      exact ⟨⟨nofun, does.undeleted⟩, ih⟩

/-- A run that goes well stores an upload in the directory of the pool. -/
theorem Run.exists_stored {watched : Bool} {workers : Nat} {files : List LocalFile}
    (run : Run (start types bucket dest watched workers files) steps final) (nonempty : files ≠ [])
    (sound : final.isCalledOff = false) :
    ∃ w upload, ⟨.awaitUpload w upload, .ok (.ok ())⟩ ∈ steps.flatMap Step.exchanges ∧
      upload.bucket = bucket ∧ Key.directory dest <+: upload.key := by
  obtain ⟨contents, lost, begun, -, balanced, troubled⟩ := run.files
  obtain ⟨all, stored⟩ := run.complete nonempty sound balanced troubled
  obtain ⟨⟨file, body⟩, member⟩ : ∃ c, c ∈ contents := by
    apply List.exists_mem_of_ne_nil _
    rintro rfl
    exact nonempty (List.nil_perm.mp all)
  have fresh : (start types bucket dest watched workers files).upload file body ∈
      ((steps.flatMap Step.exchanges).filterMap Exchange.begun?).map Prod.snd := by
    rw [begun]
    exact List.mem_map.mpr ⟨(file, body), member, rfl⟩
  obtain ⟨⟨w, upload⟩, made, rfl⟩ := List.mem_map.mp fresh
  obtain ⟨e, exchanged, equal⟩ := List.mem_filterMap.mp (stored.mem_iff.mp made)
  rw [Exchange.eq_of_stored? equal] at exchanged
  exact ⟨w, _, exchanged, rfl, Key.directory_prefix_ofFile dest file.relative⟩

theorem confined_start {watched : Bool} {workers : Nat} {files : List LocalFile} :
    (start types bucket dest watched workers files).Confined := by
  intro upload member
  cases List.eq_of_mem_replicate member

end Pool

namespace Synchronizer

/-! ## Replacements -/

variable {s : Synchronizer} {watched : Bool} {root : Path}
  {outcome : Except Stop (Except ReleaseError SyncSummary)}

theorem Conclusion.inert {cleared : Nat} {pool : Pool}
    (conclusion : Conclusion cleared pool exchanges outcome) :
    ∀ e ∈ exchanges, e.touched = [] ∧ e.upload? = none ∧ e.isTimer = false := by
  cases conclusion <;> simp [Exchange.touched, Exchange.upload?, Exchange.isTimer]

theorem Conclusion.isCalledOff_eq_false {bucket : String} {workers cleared : Nat}
    {files : List LocalFile} {steps : List Pool.Step} {final : Pool} {summary : SyncSummary}
    (conclusion : Conclusion cleared final exchanges (.ok (.ok summary)))
    (run : (Pool.start types bucket dest watched workers files).Run steps final) :
    final.isCalledOff = false := by
  generalize done : (.ok (.ok summary) : Except Stop (Except ReleaseError SyncSummary)) = outcome
    at conclusion
  cases conclusion with
  | failed | stopped => cases done
  | unwatched sound free =>
      have unwatched : watched = false := run.watched_eq.symm.trans free
      have cancelled := run.cancelled_eq
      rw [unwatched] at cancelled
      rw [Pool.isCalledOff, sound, cancelled]
      rfl
  | asked sound watched asked =>
      rw [Pool.isCalledOff, sound]
      cases cancelled : final.cancelled with
      | true =>
          rw [cancelled] at done
          cases done
      | false => rfl

/-- However replacing a directory goes, it touches only keys in that directory. -/
theorem Replacement.within (replacement : Replacement s watched dest root exchanges outcome)
    (inside : ∀ e ∈ exchanges, e.ListsInside s.bucket) :
    ∀ e ∈ exchanges, ∀ k ∈ e.touched, Key.directory dest <+: k := by
  cases replacement with
  | uncleared clear | clearingStopped clear => exact within_of_trace clear inside
  | walkStopped clear | unwalked clear | vacant clear =>
      rw [List.forall_mem_append] at inside ⊢
      exact ⟨within_of_trace clear inside.1, by simp [Exchange.touched]⟩
  | pooled clear nonempty run conclusion =>
      rw [List.forall_mem_append] at inside
      rw [List.forall_mem_append, List.forall_mem_cons, List.forall_mem_append]
      refine ⟨within_of_trace clear inside.1, nofun, run.within Pool.confined_start, ?_⟩
      intro e member k touched
      rw [(conclusion.inert e member).1] at touched
      cases touched

/-- Whatever a store lists, replacing a directory uploads only to that directory. -/
theorem Replacement.uploads_within
    (replacement : Replacement s watched dest root exchanges outcome) :
    ∀ e ∈ exchanges, ∀ upload, e.upload? = some upload → Key.directory dest <+: upload.key := by
  have nothing {e : Exchange SyncService} (apart : e.upload? = none) :
      ∀ upload, e.upload? = some upload → Key.directory dest <+: upload.key := by
    simp [apart]
  have clearing {first : List (Exchange SyncService)} {result}
      (clear : (s.deleteDirectory dest).Trace first result) :
      ∀ e ∈ first, ∀ upload, e.upload? = some upload → Key.directory dest <+: upload.key :=
    fun e member => nothing (plain_of_trace clear e member).1
  cases replacement with
  | uncleared clear | clearingStopped clear => exact clearing clear
  | walkStopped clear | unwalked clear | vacant clear =>
      rw [List.forall_mem_append, List.forall_mem_singleton]
      exact ⟨clearing clear, nothing rfl⟩
  | pooled clear nonempty run conclusion =>
      rw [List.forall_mem_append, List.forall_mem_cons, List.forall_mem_append]
      refine ⟨clearing clear, nothing rfl, ?_,
        fun e member => nothing (conclusion.inert e member).2.1⟩
      intro e member upload uploads
      apply run.within Pool.confined_start e member
      rw [Exchange.touched_of_upload? uploads]
      exact List.mem_singleton_self _

/-- However replacing a directory goes, no upload is in flight afterwards. -/
theorem Replacement.settled (replacement : Replacement s watched dest root exchanges outcome) :
    Settled exchanges := by
  have walked (r : Except Stop (Option (List LocalFile))) : Settled [⟨.walk root, r⟩] :=
    settled_of_upload?_eq_none (by simp [Exchange.upload?])
  cases replacement with
  | uncleared clear | clearingStopped clear => exact settled_of_trace clear
  | walkStopped clear | unwalked clear | vacant clear =>
      exact (settled_of_trace clear).append (walked _)
  | pooled clear nonempty run conclusion =>
      have asked := settled_of_upload?_eq_none fun e member => (conclusion.inert e member).2.1
      exact (settled_of_trace clear).append ((walked _).append (run.settled.append asked))

/-- Replacing a directory sets no timer. -/
theorem Replacement.untimed (replacement : Replacement s watched dest root exchanges outcome) :
    ∀ e ∈ exchanges, e.isTimer = false := by
  have clearing {first : List (Exchange SyncService)} {result}
      (clear : (s.deleteDirectory dest).Trace first result) :
      ∀ e ∈ first, e.isTimer = false :=
    fun e member => (plain_of_trace clear e member).2.1
  cases replacement with
  | uncleared clear | clearingStopped clear => exact clearing clear
  | walkStopped clear | unwalked clear | vacant clear =>
      rw [List.forall_mem_append]
      exact ⟨clearing clear, by simp [Exchange.isTimer]⟩
  | pooled clear nonempty run conclusion =>
      rw [List.forall_mem_append, List.forall_mem_cons, List.forall_mem_append]
      exact ⟨clearing clear, rfl, run.untimed, fun e member => (conclusion.inert e member).2.2⟩

/-- A directory that was replaced by a tree with a file in it holds something. -/
theorem Replacement.exists_held {summary : SyncSummary} {tree : Path} {files : List LocalFile}
    (replacement : Replacement s watched dest root exchanges (.ok (.ok summary)))
    (follows : Follows s.bucket before exchanges after) (nonempty : files ≠ [])
    (found : ⟨.walk tree, .ok (some files)⟩ ∈ exchanges) :
    ∃ key, Key.directory dest <+: key ∧ after key ≠ none := by
  generalize done : (.ok (.ok summary) : Except Stop (Except ReleaseError SyncSummary)) = outcome
    at replacement
  cases replacement with
  | uncleared | clearingStopped | walkStopped | unwalked => cases done
  | vacant clear =>
      rcases List.mem_append.mp found with cleared | walked
      · exact absurd rfl ((plain_of_trace clear _ cleared).2.2 tree)
      · cases List.mem_singleton.mp walked
        exact absurd rfl nonempty
  | @pooled clearing asking cleared files steps final ended clear manned run conclusion =>
      cases done
      obtain ⟨w, upload, stored, here, below⟩ :=
        run.exists_stored manned (conclusion.isCalledOff_eq_false run)
      obtain ⟨between, -, later⟩ := follows_append_iff.mp follows
      cases later with
      | cons walked later =>
          obtain ⟨ended, turns, asking⟩ := follows_append_iff.mp later
          have held := turns.ne_none_of_stored run.undeleted stored here
          refine ⟨upload.key, below, ?_⟩
          rwa [asking.eq_of_notMem fun e member => by simp [(conclusion.inert e member).1]]

/-! ## Short runs -/

/-- What the only file of a tree is uploaded as. -/
def onlyUpload (s : Synchronizer) (dest : List Char) (file : LocalFile) (body : List UInt8) :
    Upload :=
  (Pool.start s.types s.bucket dest false s.workers [file]).upload file body

/-- The calls by which one worker uploads the only file of a tree to an empty
directory. -/
def singleUpload (s : Synchronizer) (dest : List Char) (root : Path) (file : LocalFile)
    (body : List UInt8) : List (Exchange SyncService) :=
  [⟨.list s.bucket (Key.directory dest) none, .ok (.ok ⟨[], []⟩)⟩,
    ⟨.walk root, .ok (some [file])⟩,
    ⟨.turn [0] false, .ok ⟨0, false⟩⟩,
    ⟨.turn [0] false, .ok ⟨0, false⟩⟩, ⟨.openFile file.path, .ok true⟩,
    ⟨.turn [0] false, .ok ⟨0, false⟩⟩, ⟨.readFile file.path, .ok (some body)⟩,
    ⟨.startUpload 0 (s.onlyUpload dest file body), .ok ()⟩,
    ⟨.turn [0] false, .ok ⟨0, false⟩⟩,
    ⟨.awaitUpload 0 (s.onlyUpload dest file body), .ok (.ok ())⟩,
    ⟨.turn [0] false, .ok ⟨0, false⟩⟩]

/-- Once its directory is cleared, the file is uploaded in the same calls. -/
theorem trace_singleUpload_of_cleared {clearing : List (Exchange SyncService)} {cleared : Nat}
    (alone : s.workers = 1)
    (clear : (s.deleteDirectory dest).Trace clearing (.ok (.ok cleared)))
    (root : Path) (file : LocalFile) (body : List UInt8) :
    (s.uploadDirectory dest root).Trace
      (clearing ++ (s.singleUpload dest root file body).drop 1) (.ok (.ok ⟨cleared, 1⟩)) := by
  have uploading : (Pool.takeTurns 3
      ⟨s.types, s.bucket, dest, false, [], [.reading file], false, none, 0⟩).Trace
      ((s.singleUpload dest root file body).drop 5)
      (.ok ⟨s.types, s.bucket, dest, false, [], [.finished], false, none, 1⟩) :=
    .call _ (.call _ (.call _ (.call _ (.call _ (.call _ (.done _))))))
  have drained : (Pool.start s.types s.bucket dest false s.workers [file]).drain.Trace
      ((s.singleUpload dest root file body).drop 2)
      (.ok ⟨s.types, s.bucket, dest, false, [], [.finished], false, none, 1⟩) := by
    rw [alone]
    exact .call _ (.call _ (.call _ uploading))
  refine Program.trace_bind_iff.mpr (.inl ⟨_, clearing, _, rfl, clear, .call _ ?_⟩)
  change Program.Trace
    ((Pool.start s.types s.bucket dest false s.workers [file]).drain >>= _) _ _
  exact Program.trace_bind_iff.mpr (.inl ⟨_, _, [], rfl, drained, .done _⟩)

theorem trace_singleUpload (alone : s.workers = 1) (dest : List Char) (root : Path)
    (file : LocalFile) (body : List UInt8) :
    (s.uploadDirectory dest root).Trace (s.singleUpload dest root file body) (.ok (.ok ⟨0, 1⟩)) :=
  trace_singleUpload_of_cleared alone (trace_deleteDirectory_of_vacant _ _) root file body

theorem follows_singleUpload_drop (s : Synchronizer) (held : Holdings) (root : Path)
    (file : LocalFile) (body : List UInt8) :
    Follows s.bucket held ((s.singleUpload dest root file body).drop 1)
      (held.put (s.onlyUpload dest file body)) := by
  have stored : Follows s.bucket held
      [⟨.awaitUpload 0 (s.onlyUpload dest file body), .ok (.ok ())⟩,
        ⟨.turn [0] false, .ok ⟨0, false⟩⟩] (held.put (s.onlyUpload dest file body)) :=
    .cons (if_pos rfl).symm (.cons rfl (.nil _))
  exact .cons rfl (.cons rfl (.cons rfl (.cons rfl (.cons rfl (.cons rfl (.cons rfl (.cons rfl
    stored)))))))

theorem follows_singleUpload (s : Synchronizer) {held : Holdings}
    (vacant : ∀ key, Key.directory dest <+: key → held key = none) (file : LocalFile)
    (body : List UInt8) :
    Follows s.bucket held (s.singleUpload dest root file body)
      (held.put (s.onlyUpload dest file body)) :=
  .cons ⟨rfl, fun _ => Listing.complete_of_vacant vacant⟩
    (s.follows_singleUpload_drop held root file body)

/-- The calls of uploading a tree that cannot be walked to an empty directory. -/
def blindUpload (bucket : String) (dest : List Char) (root : Path) : List (Exchange SyncService) :=
  [⟨.list bucket (Key.directory dest) none, .ok (.ok ⟨[], []⟩)⟩, ⟨.walk root, .ok none⟩]

theorem trace_blindUpload (s : Synchronizer) (dest : List Char) (root : Path) :
    (s.uploadDirectory dest root).Trace (blindUpload s.bucket dest root)
      (.ok (.error (.walk root))) :=
  Program.trace_bind_iff.mpr (.inl ⟨_, [_], _, rfl, trace_deleteDirectory_of_vacant _ _,
    .call _ (.done _)⟩)

theorem follows_blindUpload {held : Holdings}
    (vacant : ∀ key, Key.directory dest <+: key → held key = none) :
    Follows bucket held (blindUpload bucket dest root) held :=
  .cons ⟨rfl, fun _ => Listing.complete_of_vacant vacant⟩ (.cons rfl (.nil held))

end Synchronizer

end FleetDeploy
