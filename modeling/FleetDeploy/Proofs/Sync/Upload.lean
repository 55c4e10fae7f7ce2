import FleetDeploy.Proofs.Sync.Bucket
import FleetDeploy.Proofs.Sync.Directory

/-!
# Uploading files under failure and cancellation

What holds of an upload once its directory is cleared and its files are known,
whatever the order of the workers, the outcome of each call and the point at
which the caller cancels.
-/

namespace FleetDeploy

namespace Pool

/-- The first error that the workers of a run record. -/
def firstRecorded (steps : List Step) : Option ReleaseError :=
  steps.findSome? fun step => step.deed.recorded

/-- What an upload of files keeps.  `contents` are the files for which an upload
was begun, each with what was read from it, and `fired` says whether the caller
had cancelled by the end. -/
structure Keeps (pool : Pool) (files : List LocalFile) (cleared : Nat) (steps : List Step)
    (final : Pool) (fired : Bool) (contents : List (LocalFile × List UInt8))
    (result : Except ReleaseError SyncSummary) : Prop where
  result_eq : result = match firstRecorded steps with
    | some e => .error e
    | none => if fired then .error .cancelled else .ok ⟨cleared, files.length⟩
  panics_recorded : ∀ step ∈ steps, step.deed.next = .panicked → (firstRecorded steps).isSome
  begun_eq : ((steps.flatMap Step.exchanges).filterMap Exchange.begun?).map Prod.snd =
    contents.map fun (file, body) => pool.upload file body
  read : ∀ c ∈ contents, ⟨.readFile c.1.path, .ok (some c.2)⟩ ∈ steps.flatMap Step.exchanges
  once : (contents.map Prod.fst).Subperm files
  complete : ∀ summary, result = .ok summary → (contents.map Prod.fst).Perm files ∧
    ((steps.flatMap Step.exchanges).filterMap Exchange.begun?).Perm
      ((steps.flatMap Step.exchanges).filterMap Exchange.stored?)
  quiet : ∀ first step later, steps = first ++ step :: later →
    (step.turn.cancelled = true ∨
      ∃ s ∈ first, s.turn.cancelled = true ∨ s.deed.recorded.isSome = true) →
    step.deed.taken = [] ∧ ∀ e ∈ step.deed.calls, ∃ w upload r, e = ⟨.abandonUpload w upload, r⟩
  finished : ∀ phase ∈ final.workers, phase = .finished
  settled : Settled (steps.flatMap Step.exchanges)

variable {types : ContentTypes} {bucket : String} {dest : List Char} {watched : Bool}
  {workers : Nat} {files : List LocalFile} {steps : List Step} {final : Pool}

theorem Run.failure_eq_firstRecorded
    (run : Run (start types bucket dest true workers files) steps final) :
    final.failure = firstRecorded steps := by
  rw [run.failure_eq]
  rfl

/-- The files for which an upload was begun.  Without an error and a cancellation
these are all files, and all of their uploads were stored and counted. -/
theorem Run.exists_contents (run : Run (start types bucket dest watched workers files) steps final)
    (nonempty : files ≠ []) :
    ∃ contents : List (LocalFile × List UInt8),
      ((steps.flatMap Step.exchanges).filterMap Exchange.begun?).map Prod.snd =
        contents.map (fun c => (start types bucket dest watched workers files).upload c.1 c.2) ∧
      (∀ c ∈ contents, ⟨.readFile c.1.path, .ok (some c.2)⟩ ∈ steps.flatMap Step.exchanges) ∧
      (contents.map Prod.fst).Subperm files ∧
      (final.isCalledOff = false → (contents.map Prod.fst).Perm files ∧
        ((steps.flatMap Step.exchanges).filterMap Exchange.begun?).Perm
          ((steps.flatMap Step.exchanges).filterMap Exchange.stored?) ∧
        final.uploaded = files.length) := by
  obtain ⟨contents, lost, begun, read, balanced, troubled⟩ := run.files
  refine ⟨contents, begun, read, ?_, ?_⟩
  · rw [pending_start] at balanced
    apply List.Subperm.trans _ (List.Perm.subperm (List.Perm.symm balanced))
    rw [List.append_assoc]
    exact (List.sublist_append_left _ _).subperm
  · intro sound
    obtain ⟨all, stored⟩ := run.complete nonempty sound balanced troubled
    have lengths := congrArg List.length begun
    rw [List.length_map, List.length_map] at lengths
    refine ⟨all, stored, ?_⟩
    rw [run.uploaded_eq, ← stored.length_eq, lengths, ← all.length_eq, List.length_map]
    exact Nat.zero_add _

/-- What is concluded from a run, told by its turns. -/
theorem Run.keeps (run : Run (start types bucket dest true workers files) steps final)
    (nonempty : files ≠ []) {cleared : Nat} (asked : Bool)
    {result : Except ReleaseError SyncSummary}
    (concluded : result = match final.failure with
      | some e => .error e
      | none => if final.cancelled || asked then .error .cancelled
        else .ok ⟨cleared, final.uploaded⟩) :
    ∃ contents, (start types bucket dest true workers files).Keeps files cleared steps final
      ((steps.any fun step => step.turn.cancelled) || asked) contents result := by
  have cancelled : final.cancelled = steps.any fun step => step.turn.cancelled :=
    run.cancelled_eq
  rw [run.failure_eq_firstRecorded, cancelled] at concluded
  obtain ⟨contents, begun, read, once, complete⟩ := run.exists_contents nonempty
  have sound (none : firstRecorded steps = none)
      (off : (steps.any fun step => step.turn.cancelled) = false) :
      final.isCalledOff = false := by
    simp [isCalledOff, run.failure_eq_firstRecorded, cancelled, none, off]
  refine ⟨contents, ?_, ?_, begun, read, once, ?_, ?_, run.all_finished, run.settled⟩
  · rw [concluded]
    cases none : firstRecorded steps with
    | some e => rfl
    | none =>
        cases off : steps.any fun step => step.turn.cancelled with
        | true => rfl
        | false => rw [(complete (sound none off)).2.2]
  · intro step member panicked
    rw [← run.failure_eq_firstRecorded]
    exact run.failure_of_faulty (run.faulty (.inr ⟨step, member, .inl panicked⟩))
  · intro summary ended
    rw [concluded] at ended
    cases none : firstRecorded steps with
    | some e =>
        rw [none] at ended
        cases ended
    | none =>
        rw [none] at ended
        cases off : steps.any fun step => step.turn.cancelled with
        | true =>
            rw [off] at ended
            cases ended
        | false =>
            obtain ⟨all, stored, -⟩ := complete (sound none off)
            exact ⟨all, stored⟩
  · rintro first step later rfl told
    exact run.quiet rfl (.inr told)

end Pool

namespace Synchronizer

/-- Once the directory is cleared and its files are known, what is left of an upload
is a run of the pool and its conclusion. -/
theorem exists_run_of_walked {s : Synchronizer} {watched : Bool} {dest : List Char} {root : Path}
    {clearing rest : List (Exchange SyncService)} {cleared : Nat} {files : List LocalFile}
    {outcome : Except Stop (Except ReleaseError SyncSummary)}
    (trace : (s.replace watched dest root).Trace
      (clearing ++ ⟨.walk root, .ok (some files)⟩ :: rest) outcome)
    (clear : (s.deleteDirectory dest).Trace clearing (.ok (.ok cleared)))
    (nonempty : files ≠ []) :
    ∃ steps final asking, rest = steps.flatMap Pool.Step.exchanges ++ asking ∧
      (Pool.start s.types s.bucket dest watched s.workers files).Run steps final ∧
      Conclusion cleared final asking outcome := by
  have replacement := Replacement.of_trace trace
  generalize whole : clearing ++ ⟨.walk root, .ok (some files)⟩ :: rest = exchanges
    at replacement
  cases replacement with
  | uncleared other | clearingStopped other =>
      obtain ⟨-, equal, -⟩ := clear.eq_of_append other (whole.trans (List.append_nil _).symm)
      cases equal
  | walkStopped other | unwalked other =>
      obtain ⟨-, -, equal⟩ := clear.eq_of_append other whole
      cases equal
  | vacant other =>
      obtain ⟨-, -, equal⟩ := clear.eq_of_append other whole
      cases equal
      exact absurd rfl nonempty
  | @pooled _ asking _ _ steps final ended other some run conclusion =>
      obtain ⟨rfl, same, equal⟩ := clear.eq_of_append other whole
      cases same
      cases equal
      exact ⟨steps, final, asking, rfl, run, conclusion⟩

/-- Once the directory is cleared and its files are known, an upload ends with a
result: the first error that a worker recorded, or else the cancellation, or else
the number of files, each of which was then stored once.  No file is uploaded
twice, no worker goes on once the work is called off, and in the end no worker
runs and no upload is in flight. -/
theorem uploadDirectoryUntil_keeps {s : Synchronizer} {dest : List Char} {root : Path}
    {clearing rest : List (Exchange SyncService)} {cleared : Nat} {files : List LocalFile}
    {outcome : Except Stop (Except ReleaseError SyncSummary)}
    (trace : (s.uploadDirectoryUntil dest root).Trace
      (clearing ++ ⟨.walk root, .ok (some files)⟩ :: rest) outcome)
    (clear : (s.deleteDirectory dest).Trace clearing (.ok (.ok cleared)))
    (nonempty : files ≠ []) (answered : ∀ reason, ⟨.isCancelled, .error reason⟩ ∉ rest) :
    ∃ steps final asked contents result,
      rest = steps.flatMap Pool.Step.exchanges ++
        (if (Pool.firstRecorded steps).isSome then [] else [⟨.isCancelled, .ok asked⟩]) ∧
      outcome = .ok result ∧
      (Pool.start s.types s.bucket dest true s.workers files).Run steps final ∧
      (Pool.start s.types s.bucket dest true s.workers files).Keeps files cleared steps final
        ((steps.any fun step => step.turn.cancelled) || asked) contents result := by
  obtain ⟨steps, final, asking, rfl, run, conclusion⟩ := exists_run_of_walked trace clear nonempty
  cases conclusion with
  | failed known =>
      obtain ⟨contents, keeps⟩ := run.keeps nonempty false (by rw [known])
      refine ⟨steps, final, false, contents, _, ?_, rfl, run, keeps⟩
      rw [← run.failure_eq_firstRecorded, known]
      rfl
  | unwatched sound free => cases run.watched_eq.symm.trans free
  | asked sound watched cancelled =>
      obtain ⟨contents, keeps⟩ := run.keeps nonempty cancelled (by rw [sound])
      refine ⟨steps, final, cancelled, contents, _, ?_, rfl, run, keeps⟩
      rw [← run.failure_eq_firstRecorded, sound]
      rfl
  | stopped sound watched reason =>
      exact absurd (List.mem_append_right _ (List.mem_singleton_self _)) (answered reason)

/-- Two files without extensions. -/
def twoFiles : List LocalFile :=
  [⟨[0x61], [0x61]⟩, ⟨[0x62], [0x62]⟩]

/-- The pool of two workers that uploads them. -/
def twoWorkers : Pool :=
  .start Rehearsal.contentTypes "assets" ['d'] true 2 twoFiles

/-- A run of both workers.  The second file cannot be opened while the first is in
flight, whose upload is then abandoned. -/
def abandonedRun : List (Exchange SyncService) :=
  let upload := twoWorkers.upload ⟨[0x61], [0x61]⟩ [0x7B]
  [⟨.turn [0, 1] false, .ok ⟨0, false⟩⟩,
    ⟨.turn [0, 1] false, .ok ⟨1, false⟩⟩,
    ⟨.turn [0, 1] false, .ok ⟨0, false⟩⟩, ⟨.openFile [0x61], .ok true⟩,
    ⟨.turn [0, 1] false, .ok ⟨2, false⟩⟩, ⟨.readFile [0x61], .ok (some [0x7B])⟩,
    ⟨.startUpload 0 upload, .ok ()⟩,
    ⟨.turn [0, 1] false, .ok ⟨1, false⟩⟩, ⟨.openFile [0x62], .ok false⟩,
    ⟨.turn [0] true, .ok ⟨0, true⟩⟩, ⟨.abandonUpload 0 upload, .ok ()⟩]

theorem abandonedRun_keeps :
    (uploadDirectoryUntil ⟨"assets", 2⟩ ['d'] [0x72]).Trace
        ([⟨.list "assets" (Key.directory ['d']) none, .ok (.ok ⟨[], []⟩)⟩] ++
          ⟨.walk [0x72], .ok (some twoFiles)⟩ :: abandonedRun) (.ok (.error (.file [0x62]))) ∧
      (∀ reason, ⟨.isCancelled, .error reason⟩ ∉ abandonedRun) ∧
      ∃ steps final asked contents result,
        abandonedRun = steps.flatMap Pool.Step.exchanges ++
          (if (Pool.firstRecorded steps).isSome then [] else [⟨.isCancelled, .ok asked⟩]) ∧
        (.ok (.error (.file [0x62])) : Except Stop (Except ReleaseError SyncSummary)) =
          .ok result ∧
        twoWorkers.Run steps final ∧
        twoWorkers.Keeps twoFiles 0 steps final
          ((steps.any fun step => step.turn.cancelled) || asked) contents result := by
  have clear := trace_deleteDirectory_of_vacant ⟨"assets", 2⟩ ['d']
  have trace : (uploadDirectoryUntil ⟨"assets", 2⟩ ['d'] [0x72]).Trace
      ([⟨.list "assets" (Key.directory ['d']) none, .ok (.ok ⟨[], []⟩)⟩] ++
        ⟨.walk [0x72], .ok (some twoFiles)⟩ :: abandonedRun) (.ok (.error (.file [0x62]))) := by
    refine Program.trace_bind_iff.mpr (.inl ⟨.ok 0, _, _, rfl, clear, .call _ ?_⟩)
    exact .call _ (.call _ (.call _ (.call _ (.call _ (.call _ (.call _ (.call _ (.call _
      (.call _ (.call _ (.done _)))))))))))
  have answered : ∀ reason, ⟨.isCancelled, .error reason⟩ ∉ abandonedRun := by
    simp [abandonedRun]
  exact ⟨trace, answered, uploadDirectoryUntil_keeps trace clear (by decide) answered⟩

end Synchronizer

end FleetDeploy
