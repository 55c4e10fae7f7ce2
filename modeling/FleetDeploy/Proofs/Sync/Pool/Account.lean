import FleetDeploy.Proofs.Sync.Pool.Run

/-!
# Accounts of a run

Where the files and the uploads of a pool are at each point of a run, and what
the pool knows of its faults.  Each account is a statement about one turn, from
which the one about a run follows by induction.
-/

namespace FleetDeploy

namespace Phase

/-- The upload that a worker has in flight. -/
def aloft : Phase → Nat → List (Nat × Upload)
  | .uploading upload, w => [(w, upload)]
  | _, _ => []

/-- The file that a worker has taken and not yet begun to upload. -/
def inHand : Phase → Nat → List LocalFile
  | .opening file, _ => [file]
  | .reading file, _ => [file]
  | _, _ => []

end Phase

namespace Pool

/-- The uploads in flight. -/
def aloft (pool : Pool) : List (Nat × Upload) :=
  pool.workers.zipIdx.flatMap fun p => p.1.aloft p.2

/-- The files that no upload was begun for: in the hands of workers, or queued. -/
def pending (pool : Pool) : List LocalFile :=
  (pool.workers.zipIdx.flatMap fun p => p.1.inHand p.2) ++ pool.queue

/-- A fault is known, or a worker has panicked and will be joined. -/
def Faulty (pool : Pool) : Prop :=
  pool.failure.isSome = true ∨ .panicked ∈ pool.workers

/-- The work is called off, or will be. -/
def Troubled (pool : Pool) : Prop :=
  pool.cancelled = true ∨ pool.Faulty

variable {pool final : Pool} {deed : Deed} {steps : List Step}

/-! ## One worker moves, the others stay -/

theorem zipIdx_set (workers : List Phase) (w : Nat) (next : Phase) :
    (workers.set w next).zipIdx = workers.zipIdx.set w (next, w) := by
  apply List.ext_getElem?
  intro i
  rw [List.getElem?_zipIdx, List.getElem?_set, List.getElem?_set, List.length_zipIdx]
  by_cases same : w = i
  · subst same
    by_cases within : w < workers.length <;> simp [within]
  · simp [same, List.getElem?_zipIdx]

/-- What the workers hold is what one of them holds and what the others hold. -/
theorem exists_others {α : Type} (f : Phase → Nat → List α) {workers : List Phase} {w : Nat}
    {phase : Phase} (here : workers[w]? = some phase) :
    ∃ others, (workers.zipIdx.flatMap fun p => f p.1 p.2).Perm (f phase w ++ others) ∧
      ∀ next, ((workers.set w next).zipIdx.flatMap fun p => f p.1 p.2).Perm
        (f next w ++ others) := by
  obtain ⟨within, rfl⟩ := List.getElem?_eq_some_iff.mp here
  have indexed : w < workers.zipIdx.length := by rwa [List.length_zipIdx]
  refine ⟨(workers.zipIdx.eraseIdx w).flatMap fun p => f p.1 p.2, ?_, ?_⟩
  · have moved := (List.getElem_cons_eraseIdx_perm indexed).symm.flatMap_right
      fun p => f p.1 p.2
    simpa using moved
  · intro next
    rw [zipIdx_set]
    exact (List.set_perm_cons_eraseIdx indexed (next, w)).flatMap_right fun p => f p.1 p.2

/-! ## One turn -/

/-- Why the end of a turn may lose what its worker held. -/
def Spoilt (pool : Pool) (deed : Deed) : Prop :=
  pool.isCalledOff = true ∨ deed.next = .panicked ∨ deed.recorded.isSome = true

/-- The upload that a worker begins it then has in flight, and it keeps it until
it is stored, unless the turn is spoilt. -/
theorem Does.uploads (does : pool.Does deed) :
    ∃ dropped, Balanced (deed.calls.filterMap Exchange.begun?)
      (deed.calls.filterMap Exchange.stored?) dropped
      (deed.phase.aloft deed.worker) (deed.next.aloft deed.worker) ∧
      (dropped ≠ [] → pool.Spoilt deed) := by
  cases does with
  | resigned off w grounded =>
      refine ⟨[], ?_, nofun⟩
      rcases grounded with rfl | ⟨file, rfl | rfl⟩ <;> exact .refl _
  | abandoned off w upload => exact ⟨[(w, upload)], .refl _, fun _ => .inl off⟩
  | startPanicked on w file body reason =>
      exact ⟨[(w, pool.upload file body)], .refl _, fun _ => .inr (.inl rfl)⟩
  | refused on w upload cause => exact ⟨[(w, upload)], .refl _, fun _ => .inr (.inr rfl)⟩
  | awaitPanicked on w upload reason =>
      exact ⟨[(w, upload)], .refl _, fun _ => .inr (.inl rfl)⟩
  | _ => exact ⟨[], .refl _, nofun⟩

/-- An upload is in flight from its start until it is awaited or abandoned. -/
theorem Does.flights (does : pool.Does deed) :
    Balanced (deed.calls.filterMap Exchange.started?) (deed.calls.filterMap Exchange.ended?) []
      (deed.phase.aloft deed.worker) (deed.next.aloft deed.worker) := by
  cases does with
  | resigned off w grounded =>
      rcases grounded with rfl | ⟨file, rfl | rfl⟩ <;> exact .refl _
  | _ => exact .refl _

/-- A file that is taken stays in the worker's hand until an upload of what was
read from it begins, unless the turn is spoilt. -/
theorem Does.files (does : pool.Does deed) :
    ∃ (contents : List (LocalFile × List UInt8)) (lost : List LocalFile),
      (deed.calls.filterMap Exchange.begun?).map Prod.snd =
        contents.map (fun (file, body) => pool.upload file body) ∧
      (∀ c ∈ contents, ⟨.readFile c.1.path, .ok (some c.2)⟩ ∈ deed.calls) ∧
      Balanced deed.taken (contents.map Prod.fst) lost
        (deed.phase.inHand deed.worker) (deed.next.inHand deed.worker) ∧
      (lost ≠ [] → pool.Spoilt deed) := by
  cases does with
  | @resigned off w phase grounded =>
      refine ⟨[], phase.inHand w, rfl, by simp, ?_, fun _ => .inl off⟩
      exact List.Perm.of_eq (List.append_nil _).symm
  | unopened on w file => exact ⟨[], [file], rfl, nofun, .refl _, fun _ => .inr (.inr rfl)⟩
  | openPanicked on w file reason =>
      exact ⟨[], [file], rfl, nofun, .refl _, fun _ => .inr (.inl rfl)⟩
  | unread on w file => exact ⟨[], [file], rfl, nofun, .refl _, fun _ => .inr (.inr rfl)⟩
  | readPanicked on w file reason =>
      exact ⟨[], [file], rfl, nofun, .refl _, fun _ => .inr (.inl rfl)⟩
  | started on w file body | startPanicked on w file body =>
      exact ⟨[(file, body)], [], rfl, by simp, .refl _, nofun⟩
  | _ => exact ⟨[], [], rfl, nofun, .refl _, nofun⟩

/-- A turn takes its files from the front of the queue. -/
theorem Does.queue (does : pool.Does deed) :
    pool.queue = deed.taken ++ (pool.after deed).queue := by
  cases does with
  | took on w queued =>
      change pool.queue = [_] ++ pool.queue.drop 1
      rw [queued]
      rfl
  | _ => rfl

/-- While the work is called off no file is taken, and uploads are only
abandoned. -/
theorem Does.quiet (does : pool.Does deed) (off : pool.isCalledOff = true) :
    deed.taken = [] ∧ ∀ e ∈ deed.calls, ∃ w upload r, e = ⟨.abandonUpload w upload, r⟩ := by
  cases does with
  | joined | resigned => exact ⟨rfl, by simp⟩
  | abandoned off w upload r => exact ⟨rfl, by simp⟩
  | _ on => rw [off] at on; cases on

/-- A worker finishes because the queue is empty, unless the turn is spoilt. -/
theorem Does.queue_eq_nil (does : pool.Does deed) (ended : deed.next = .finished) :
    pool.queue = [] ∨ pool.Spoilt deed := by
  cases does with
  | rested on w empty => exact .inl empty
  | resigned off | abandoned off => exact .inr (.inl off)
  | joined | unopened | unread | refused => exact .inr (.inr (.inr rfl))
  | _ => cases ended

/-- A panic is recorded when its worker is joined. -/
theorem Does.recorded_of_panicked (does : pool.Does deed) (panicked : deed.phase = .panicked) :
    deed.recorded.isSome = true := by
  cases does with
  | joined => rfl
  | resigned off w grounded => rcases grounded with rfl | ⟨file, rfl | rfl⟩ <;> cases panicked
  | _ => cases panicked

/-- A fault stays known, and a turn that panics or records an error makes one. -/
theorem Does.faulty (does : pool.Does deed)
    (here : pool.workers[deed.worker]? = some deed.phase)
    (fault : pool.Faulty ∨ deed.next = .panicked ∨ deed.recorded.isSome = true) :
    (pool.after deed).Faulty := by
  have recorded (new : deed.recorded.isSome = true) : (pool.after deed).Faulty := by
    left
    simp [after, new]
  rcases fault with (known | waiting) | panicked | new
  · left
    simp [after, known]
  · obtain ⟨i, there⟩ := List.mem_iff_getElem?.mp waiting
    by_cases same : deed.worker = i
    · subst same
      exact recorded (does.recorded_of_panicked (Option.some.inj (here.symm.trans there)))
    · refine .inr (List.mem_of_getElem? (i := i) ?_)
      rwa [after, List.getElem?_set_ne same]
  · obtain ⟨within, -⟩ := List.getElem?_eq_some_iff.mp here
    exact .inr (panicked ▸ List.mem_set within _)
  · exact recorded new

theorem troubled_of_isCalledOff (off : pool.isCalledOff = true) : pool.Troubled := by
  rw [isCalledOff, Bool.or_eq_true] at off
  exact off.imp id .inl

/-- The work stays called off, and a turn that is spoilt calls it off. -/
theorem Does.troubled (does : pool.Does deed)
    (here : pool.workers[deed.worker]? = some deed.phase)
    (trouble : pool.Troubled ∨ pool.Spoilt deed) : (pool.after deed).Troubled := by
  rcases trouble with (cancelled | fault) | off | spoilt
  · exact .inl cancelled
  · exact .inr (does.faulty here (.inl fault))
  · rcases troubled_of_isCalledOff off with cancelled | fault
    · exact .inl cancelled
    · exact .inr (does.faulty here (.inl fault))
  · exact .inr (does.faulty here (.inr spoilt))

/-- The ledger of one worker is the ledger of all. -/
theorem balanced_workers {α : Type} [DecidableEq α] {f : Phase → Nat → List α}
    {workers : List Phase} {w : Nat} {phase next : Phase} (here : workers[w]? = some phase)
    {entered left dropped : List α}
    (one : Balanced entered left dropped (f phase w) (f next w)) :
    Balanced entered left dropped (workers.zipIdx.flatMap fun p => f p.1 p.2)
      ((workers.set w next).zipIdx.flatMap fun p => f p.1 p.2) := by
  obtain ⟨others, before, after⟩ := exists_others f here
  unfold Balanced at one ⊢
  rw [List.perm_iff_count] at one ⊢
  intro a
  have beforeCount := before.count_eq a
  have afterCount := (after next).count_eq a
  have oneCount := one a
  simp only [List.count_append] at beforeCount afterCount oneCount ⊢
  omega

/-! ## Whole runs -/

/-- In the end all workers have finished. -/
theorem Run.all_finished (run : Run pool steps final) :
    ∀ phase ∈ final.workers, phase = .finished := by
  induction run with
  | finished all => exact all
  | step here does rest ih => exact ih

/-- A pool whose workers have all finished knows its faults. -/
theorem Run.failure_of_faulty (run : Run pool steps final) (fault : final.Faulty) :
    final.failure.isSome = true := by
  rcases fault with known | waiting
  · exact known
  · cases run.all_finished _ waiting

theorem Run.isCalledOff_of_troubled (run : Run pool steps final) (trouble : final.Troubled) :
    final.isCalledOff = true := by
  rw [isCalledOff, Bool.or_eq_true]
  exact trouble.imp id run.failure_of_faulty

theorem Run.faulty (run : Run pool steps final)
    (fault : pool.Faulty ∨ ∃ step ∈ steps,
      step.deed.next = .panicked ∨ step.deed.recorded.isSome = true) : final.Faulty := by
  induction run with
  | finished all => simpa using fault
  | @step pool final step steps here does rest ih =>
      rcases fault with fault | ⟨other, member, fault⟩
      · exact ih (.inl (does.faulty here (.inl fault)))
      · rcases List.mem_cons.mp member with rfl | later
        · exact ih (.inl (does.faulty here (.inr fault)))
        · exact ih (.inr ⟨other, later, fault⟩)

theorem Run.troubled (run : Run pool steps final) (trouble : pool.Troubled) :
    final.Troubled := by
  induction run with
  | finished all => exact trouble
  | @step pool final step steps here does rest ih =>
      refine ih (does.troubled here (.inl ?_))
      rcases trouble with cancelled | fault
      · exact .inl (by simp [notice, cancelled])
      · exact .inr fault

/-- Only the first error of a run is kept. -/
theorem Run.failure_eq (run : Run pool steps final) :
    final.failure = pool.failure.or (steps.findSome? fun step => step.deed.recorded) := by
  induction run with
  | finished all => simp
  | @step pool final step steps here does rest ih =>
      rw [ih, List.findSome?_cons]
      change (pool.failure.or step.deed.recorded).or _ = _
      cases step.deed.recorded <;> simp

/-- A run is cancelled once a turn tells so, if the caller can cancel at all. -/
theorem Run.cancelled_eq (run : Run pool steps final) :
    final.cancelled =
      (pool.cancelled || (pool.watched && steps.any fun step => step.turn.cancelled)) := by
  induction run with
  | finished all => simp
  | @step pool final step steps here does rest ih =>
      rw [ih, List.any_cons]
      change ((pool.cancelled || (pool.watched && step.turn.cancelled)) ||
        (pool.watched && _)) = _
      rw [Bool.or_assoc, Bool.and_or_distrib_left]

theorem Run.watched_eq (run : Run pool steps final) : final.watched = pool.watched := by
  induction run with
  | finished all => rfl
  | step here does rest ih => exact ih

/-- The uploads are counted. -/
theorem Run.uploaded_eq (run : Run pool steps final) :
    final.uploaded = pool.uploaded +
      ((steps.flatMap Step.exchanges).filterMap Exchange.stored?).length := by
  induction run with
  | finished all => rfl
  | @step pool final step steps here does rest ih =>
      rw [ih, List.flatMap_cons, List.filterMap_append, List.length_append]
      exact Nat.add_assoc _ _ _

/-- Every upload that is begun ends up stored, unless the work is called off. -/
theorem Run.uploads (run : Run pool steps final) :
    ∃ dropped, Balanced ((steps.flatMap Step.exchanges).filterMap Exchange.begun?)
      ((steps.flatMap Step.exchanges).filterMap Exchange.stored?) dropped
      pool.aloft final.aloft ∧ (dropped ≠ [] → final.Troubled) := by
  induction run with
  | finished all => exact ⟨[], .refl _, nofun⟩
  | @step pool final step steps here does rest ih =>
      obtain ⟨dropped, turn, spoilt⟩ := does.uploads
      obtain ⟨others, later, troubled⟩ := ih
      rw [List.flatMap_cons, List.filterMap_append, List.filterMap_append]
      refine ⟨dropped ++ others, (balanced_workers here turn).trans later, ?_⟩
      intro some
      by_cases none : dropped = []
      · exact troubled (by simpa [none] using some)
      · exact rest.troubled (does.troubled here (.inr (spoilt none)))

/-- Every upload that is started is awaited or abandoned by the end. -/
theorem Run.flights (run : Run pool steps final) :
    Balanced ((steps.flatMap Step.exchanges).filterMap Exchange.started?)
      ((steps.flatMap Step.exchanges).filterMap Exchange.ended?) [] pool.aloft final.aloft := by
  induction run with
  | finished all => exact .refl _
  | @step pool final step steps here does rest ih =>
      rw [List.flatMap_cons, List.filterMap_append, List.filterMap_append]
      exact (balanced_workers here does.flights).trans ih

/-- The ledger of the pending files. -/
theorem Does.pending (does : pool.Does deed)
    (here : pool.workers[deed.worker]? = some deed.phase) {left lost : List LocalFile}
    (one : Balanced deed.taken left lost
      (deed.phase.inHand deed.worker) (deed.next.inHand deed.worker)) :
    Balanced [] left lost pool.pending (pool.after deed).pending := by
  have all := balanced_workers here one
  unfold Balanced at all ⊢
  rw [Pool.pending, Pool.pending, does.queue]
  rw [List.perm_iff_count] at all ⊢
  intro a
  have count := all a
  simp only [List.count_append, List.nil_append] at count ⊢
  change _ = _ + _ + (List.count a ((pool.workers.set deed.worker deed.next).zipIdx.flatMap
    fun p => p.1.inHand p.2) + _)
  omega

/-- The uploads of a run are of different files, each with what was read from it,
and a file is left out only if the work is called off. -/
theorem Run.files (run : Run pool steps final) :
    ∃ (contents : List (LocalFile × List UInt8)) (lost : List LocalFile),
      ((steps.flatMap Step.exchanges).filterMap Exchange.begun?).map Prod.snd =
        contents.map (fun (file, body) => pool.upload file body) ∧
      (∀ c ∈ contents,
        ⟨.readFile c.1.path, .ok (some c.2)⟩ ∈ steps.flatMap Step.exchanges) ∧
      Balanced [] (contents.map Prod.fst) lost pool.pending final.pending ∧
      (lost ≠ [] → final.Troubled) := by
  induction run with
  | finished all => exact ⟨[], [], rfl, by simp, .refl _, nofun⟩
  | @step pool final step steps here does rest ih =>
      obtain ⟨contents, lost, begun, read, turn, spoilt⟩ := does.files
      obtain ⟨others, later, othersBegun, othersRead, restBalanced, troubled⟩ := ih
      refine ⟨contents ++ others, lost ++ later, ?_, ?_, ?_, ?_⟩
      · rw [List.flatMap_cons, List.filterMap_append, List.map_append, List.map_append,
          othersBegun]
        exact congrArg (· ++ _) begun
      · intro c member
        rw [List.flatMap_cons, List.mem_append]
        rcases List.mem_append.mp member with member | member
        · exact .inl (List.mem_cons_of_mem _ (read c member))
        · exact .inr (othersRead c member)
      · rw [List.map_append]
        exact (does.pending here turn).trans restBalanced
      · intro some
        by_cases none : lost = []
        · exact troubled (by simpa [none] using some)
        · exact rest.troubled (does.troubled here (.inr (spoilt none)))

/-- Workers do not finish before the queue is empty, unless the work is called
off. -/
theorem Run.queue_eq_nil (run : Run pool steps final) (manned : pool.workers ≠ [])
    (rested : .finished ∈ pool.workers → pool.queue = [] ∨ pool.Troubled) :
    final.queue = [] ∨ final.Troubled := by
  induction run with
  | @finished pool all =>
      obtain ⟨phase, member⟩ := List.exists_mem_of_ne_nil _ manned
      exact rested (all phase member ▸ member)
  | @step pool final step steps here does rest ih =>
      have emptied (empty : pool.queue = []) :
          ((pool.notice step.turn).after step.deed).queue = [] := by
        change pool.queue.drop _ = []
        rw [empty, List.drop_nil]
      apply ih (by simpa [after, notice] using manned)
      intro member
      rcases List.mem_or_eq_of_mem_set member with before | now
      · rcases rested before with empty | trouble
        · exact .inl (emptied empty)
        · exact .inr (does.troubled here (.inl (trouble.imp (by simp +contextual [notice]) id)))
      · rcases does.queue_eq_nil now.symm with empty | spoilt
        · exact .inl (emptied empty)
        · exact .inr (does.troubled here (.inr spoilt))

/-- Once the work is called off, by a cancellation that is told or by an error
that is recorded, workers only finish. -/
theorem Run.quiet {first later : List Step} {step : Step}
    (run : Run pool (first ++ step :: later) final) (watched : pool.watched = true)
    (off : pool.isCalledOff = true ∨ step.turn.cancelled = true ∨
      ∃ s ∈ first, s.turn.cancelled = true ∨ s.deed.recorded.isSome = true) :
    step.deed.taken = [] ∧
      ∀ e ∈ step.deed.calls, ∃ w upload r, e = ⟨.abandonUpload w upload, r⟩ := by
  induction first generalizing pool with
  | nil =>
      cases run with
      | step here does rest =>
          apply does.quiet
          rcases off with off | cancelled | ⟨_, none, _⟩
          · rw [isCalledOff, Bool.or_eq_true] at off ⊢
            exact off.imp (by simp +contextual [notice]) id
          · simp [isCalledOff, notice, watched, cancelled]
          · cases none
  | cons head first ih =>
      cases run with
      | step here does rest =>
          apply ih rest watched
          rcases off with off | cancelled | ⟨s, member, told⟩
          · left
            rw [isCalledOff, Bool.or_eq_true] at off ⊢
            exact off.imp (by simp +contextual [after, notice])
              (by simp +contextual [after, notice])
          · exact .inr (.inl cancelled)
          · rcases List.mem_cons.mp member with rfl | later
            · left
              rcases told with cancelled | recorded
              · simp [isCalledOff, after, notice, watched, cancelled]
              · simp [isCalledOff, after, recorded]
            · exact .inr (.inr ⟨s, later, told⟩)

/-! ## From the first turn to the last -/

theorem Run.aloft_eq_nil (run : Run pool steps final) : final.aloft = [] := by
  apply List.flatMap_eq_nil_iff.mpr
  rintro ⟨phase, w⟩ member
  rw [run.all_finished phase (List.fst_mem_of_mem_zipIdx member)]
  rfl

theorem Run.pending_eq_queue (run : Run pool steps final) : final.pending = final.queue := by
  have empty : (final.workers.zipIdx.flatMap fun p => p.1.inHand p.2) = [] := by
    apply List.flatMap_eq_nil_iff.mpr
    rintro ⟨phase, w⟩ member
    rw [run.all_finished phase (List.fst_mem_of_mem_zipIdx member)]
    rfl
  rw [pending, empty, List.nil_append]

variable {types : ContentTypes} {bucket : String} {dest : List Char} {watched : Bool}
  {workers : Nat} {files : List LocalFile}

theorem aloft_start : (start types bucket dest watched workers files).aloft = [] := by
  apply List.flatMap_eq_nil_iff.mpr
  rintro ⟨phase, w⟩ member
  rw [List.eq_of_mem_replicate (List.fst_mem_of_mem_zipIdx member)]
  rfl

theorem pending_start : (start types bucket dest watched workers files).pending = files := by
  have empty : ((start types bucket dest watched workers files).workers.zipIdx.flatMap
      fun p => p.1.inHand p.2) = [] := by
    apply List.flatMap_eq_nil_iff.mpr
    rintro ⟨phase, w⟩ member
    rw [List.eq_of_mem_replicate (List.fst_mem_of_mem_zipIdx member)]
    rfl
  rw [pending, empty]
  rfl

/-- When the pool has finished, no upload is in flight. -/
theorem Run.settled (run : Run (start types bucket dest watched workers files) steps final) :
    Settled (steps.flatMap Step.exchanges) := by
  have flights := run.flights
  rw [aloft_start, run.aloft_eq_nil] at flights
  simpa [Balanced, Settled] using flights

/-- A run without errors and without a cancellation uploads each file once. -/
theorem Run.complete
    (run : Run (start types bucket dest watched workers files) steps final) (nonempty : files ≠ [])
    (sound : final.isCalledOff = false) {contents : List (LocalFile × List UInt8)}
    {lost : List LocalFile}
    (balanced : Balanced [] (contents.map Prod.fst) lost
      (start types bucket dest watched workers files).pending final.pending)
    (troubled : lost ≠ [] → final.Troubled) :
    (contents.map Prod.fst).Perm files ∧
      ((steps.flatMap Step.exchanges).filterMap Exchange.begun?).Perm
        ((steps.flatMap Step.exchanges).filterMap Exchange.stored?) := by
  have untroubled : ¬final.Troubled := by
    intro trouble
    rw [run.isCalledOff_of_troubled trouble] at sound
    cases sound
  have kept : lost = [] := by
    by_contra some
    exact untroubled (troubled some)
  have manned : (start types bucket dest watched workers files).workers ≠ [] := by
    have some : 0 < files.length := List.length_pos_iff.mpr nonempty
    rw [← List.length_pos_iff, start, List.length_replicate]
    omega
  have fresh : Phase.finished ∉ (start types bucket dest watched workers files).workers := by
    intro member
    cases List.eq_of_mem_replicate member
  have empty : final.queue = [] :=
    (run.queue_eq_nil manned fun member => absurd member fresh).resolve_right untroubled
  constructor
  · rw [pending_start, run.pending_eq_queue, empty, kept] at balanced
    simpa [Balanced] using List.Perm.symm balanced
  · obtain ⟨dropped, uploads, spoilt⟩ := run.uploads
    have none : dropped = [] := by
      by_contra some
      exact untroubled (spoilt some)
    rw [aloft_start, run.aloft_eq_nil, none] at uploads
    simpa [Balanced] using uploads

end Pool

end FleetDeploy
