import FleetDeploy.Proofs.Local.Walk
import FleetDeploy.Proofs.Sync.Effects
import FleetDeploy.Proofs.Sync.Upload

/-!
# Uploading what a tree holds

A pool whose calls all go well, and that nobody cancels, goes on until each of its
files is stored: once, with what the tree holds of it, whoever has which turn.
-/

namespace FleetDeploy

/-- What a walk tells of a file below its root. -/
def LocalFile.below (root : Path) (names : Place) : LocalFile :=
  ⟨names.foldl Path.join root, [Path.slash].intercalate names⟩

/-- An exchange that reads a tree without a failure, or one with somebody else. -/
def Exchange.Reads (tree : Tree) : Exchange SyncService → Prop
  | ⟨.walk root, r⟩ =>
    ∃ found, tree.walk? root = some found ∧ r = .ok (some (found.map (LocalFile.below root)))
  | ⟨.openFile _, r⟩ => r = .ok true
  | ⟨.readFile path, r⟩ => ∃ body, tree.read? path = some body ∧ r = .ok (some body)
  | _ => True

/-- An exchange that tells of a tree only what it holds, or one with somebody else. -/
def Exchange.TrueTo (tree : Tree) : Exchange SyncService → Prop
  | ⟨.walk root, .ok (some files)⟩ =>
    ∃ found, tree.walk? root = some found ∧ files = found.map (LocalFile.below root)
  | ⟨.readFile path, .ok (some body)⟩ => tree.read? path = some body
  | _ => True

namespace Pool

variable {tree : Tree} {pool final : Pool} {deed : Deed} {steps : List Step}

/-- A pool in which nothing has gone wrong, and that nobody can cancel. -/
structure Sound (pool : Pool) : Prop where
  unwatched : pool.watched = false
  on : pool.isCalledOff = false
  calm : .panicked ∉ pool.workers

theorem Sound.notice (sound : pool.Sound) (t : Turn) : (pool.notice t).Sound := by
  obtain ⟨unwatched, on, calm⟩ := sound
  refine ⟨unwatched, ?_, calm⟩
  rw [← on, isCalledOff, isCalledOff, Pool.notice, unwatched, Bool.false_and, Bool.or_false]

/-- Where all calls go well, a worker neither fails nor panics, and abandons no
upload. -/
theorem Does.flawless (does : pool.Does deed) (sound : pool.Sound)
    (here : pool.workers[deed.worker]? = some deed.phase)
    (succeeds : ∀ e ∈ deed.calls, e.Succeeds) (reads : ∀ e ∈ deed.calls, e.Reads tree) :
    deed.recorded = none ∧ deed.next ≠ .panicked ∧
      ∀ e ∈ deed.calls, ∀ w upload, e.call ≠ .abandonUpload w upload := by
  have on := sound.on
  cases does with
  | joined => exact absurd (List.mem_of_getElem? here) sound.calm
  | resigned off | abandoned off =>
      rw [on] at off
      cases off
  | unopened | openPanicked =>
      rw [List.forall_mem_singleton] at reads
      cases reads
  | unread | readPanicked =>
      rw [List.forall_mem_singleton] at reads
      obtain ⟨body, -, read⟩ := reads
      cases read
  | startPanicked =>
      rw [List.forall_mem_cons, List.forall_mem_singleton] at succeeds
      cases succeeds.2
  | refused | awaitPanicked =>
      rw [List.forall_mem_singleton] at succeeds
      cases succeeds
  | rested | took | opened | started | stored => simp

theorem Does.sound (does : pool.Does deed) (sound : pool.Sound)
    (here : pool.workers[deed.worker]? = some deed.phase)
    (succeeds : ∀ e ∈ deed.calls, e.Succeeds) (reads : ∀ e ∈ deed.calls, e.Reads tree) :
    (pool.after deed).Sound := by
  obtain ⟨unfailed, unshaken, -⟩ := does.flawless sound here succeeds reads
  refine ⟨sound.unwatched, ?_, ?_⟩
  · rw [← sound.on, isCalledOff, isCalledOff, after, unfailed, Option.or_none]
  · intro member
    rcases List.mem_or_eq_of_mem_set member with before | now
    · exact sound.calm before
    · exact unshaken now.symm

theorem Run.sound (run : Run pool steps final) (sound : pool.Sound)
    (succeeds : ∀ e ∈ steps.flatMap Step.exchanges, e.Succeeds)
    (reads : ∀ e ∈ steps.flatMap Step.exchanges, e.Reads tree) :
    final.Sound ∧ ∀ e ∈ steps.flatMap Step.exchanges, ∀ w upload,
      e.call ≠ .abandonUpload w upload := by
  induction run with
  | finished all => exact ⟨sound, by simp⟩
  | @step pool final step steps here does rest ih =>
      rw [List.flatMap_cons, List.forall_mem_append, Step.exchanges, List.forall_mem_cons]
        at succeeds reads
      obtain ⟨⟨-, turnSucceeds⟩, restSucceeds⟩ := succeeds
      obtain ⟨⟨-, turnReads⟩, restReads⟩ := reads
      have noticed := sound.notice step.turn
      obtain ⟨-, -, turn⟩ := does.flawless noticed here turnSucceeds turnReads
      obtain ⟨ends, later⟩ :=
        ih (does.sound noticed here turnSucceeds turnReads) restSucceeds restReads
      rw [List.flatMap_cons, List.forall_mem_append, Step.exchanges, List.forall_mem_cons]
      exact ⟨ends, ⟨by simp, turn⟩, later⟩

/-- In a turn that is not spoilt all calls go well. -/
theorem Does.well (does : pool.Does deed) (unspoilt : ¬pool.Spoilt deed)
    (trueTo : ∀ e ∈ deed.calls, e.TrueTo tree) :
    ∀ e ∈ deed.calls, e.Succeeds ∧ e.Reads tree := by
  cases does with
  | resigned off | abandoned off => exact absurd (.inl off) unspoilt
  | openPanicked | readPanicked | startPanicked | awaitPanicked =>
      exact absurd (.inr (.inl rfl)) unspoilt
  | joined | unopened | unread | refused => exact absurd (.inr (.inr rfl)) unspoilt
  | rested | took => exact nofun
  | opened | stored =>
      rw [List.forall_mem_singleton]
      exact ⟨by trivial, by trivial⟩
  | started =>
      rw [List.forall_mem_cons, List.forall_mem_singleton] at trueTo ⊢
      exact ⟨⟨trivial, _, trueTo.1, rfl⟩, rfl, trivial⟩

/-- In a run that is not called off all calls have gone well. -/
theorem Run.well (run : Run pool steps final) (on : final.isCalledOff = false)
    (trueTo : ∀ e ∈ steps.flatMap Step.exchanges, e.TrueTo tree) :
    ∀ e ∈ steps.flatMap Step.exchanges, e.Succeeds ∧ e.Reads tree := by
  induction run with
  | finished all => exact nofun
  | @step pool final step steps here does rest ih =>
      rw [List.flatMap_cons, List.forall_mem_append, Step.exchanges, List.forall_mem_cons]
        at trueTo ⊢
      -- A spoilt turn would have called the work off for the rest of the run.
      have unspoilt : ¬(pool.notice step.turn).Spoilt step.deed := by
        intro spoilt
        rw [rest.isCalledOff_of_troubled (rest.troubled (does.troubled here (.inr spoilt)))] at on
        cases on
      exact ⟨⟨⟨trivial, trivial⟩, does.well unspoilt trueTo.1.2⟩, ih on trueTo.2⟩

variable {types : ContentTypes} {bucket : String} {dest : List Char} {workers : Nat}
  {files : List LocalFile}

theorem sound_start : (start types bucket dest false workers files).Sound := by
  refine ⟨rfl, rfl, ?_⟩
  intro member
  cases List.eq_of_mem_replicate member

/-- Each file is uploaded once, with what the tree holds of it. -/
theorem Run.uploads_all (run : Run (start types bucket dest false workers files) steps final)
    (nonempty : files ≠ []) (succeeds : ∀ e ∈ steps.flatMap Step.exchanges, e.Succeeds)
    (reads : ∀ e ∈ steps.flatMap Step.exchanges, e.Reads tree) :
    final.uploaded = files.length ∧ ∃ content : LocalFile → List UInt8,
      (∀ file ∈ files, tree.read? file.path = some (content file)) ∧
      (((steps.flatMap Step.exchanges).filterMap Exchange.begun?).map Prod.snd).Perm
        (files.map fun file =>
          (start types bucket dest false workers files).upload file (content file)) ∧
      ((steps.flatMap Step.exchanges).filterMap Exchange.begun?).Perm
        ((steps.flatMap Step.exchanges).filterMap Exchange.stored?) := by
  obtain ⟨contents, begun, read, -, complete⟩ := run.exists_contents nonempty
  obtain ⟨⟨-, on, -⟩, -⟩ := run.sound sound_start succeeds reads
  obtain ⟨all, stored, count⟩ := complete on
  have held (c : LocalFile × List UInt8) (member : c ∈ contents) :
      tree.read? c.1.path = some c.2 := by
    obtain ⟨body, found, equal⟩ := reads _ (read c member)
    cases equal
    exact found
  refine ⟨count, fun file => (tree.read? file.path).getD [], ?_, ?_, stored⟩
  · intro file member
    obtain ⟨c, here, rfl⟩ := List.mem_map.mp (all.mem_iff.mpr member)
    simp [held c here]
  · have told :
        contents.map (fun c => (start types bucket dest false workers files).upload c.1 c.2) =
        (contents.map Prod.fst).map fun file =>
          (start types bucket dest false workers files).upload file
            ((tree.read? file.path).getD []) := by
      rw [List.map_map]
      refine List.map_congr_left fun c member => ?_
      simp [held c member]
    rw [begun, told]
    exact all.map _

end Pool

end FleetDeploy
