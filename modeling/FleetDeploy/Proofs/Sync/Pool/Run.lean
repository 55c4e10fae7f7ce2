import FleetDeploy.Proofs.Sync.Uploads
import FleetDeploy.Sync.Pool
import Mathlib.Data.List.GetD

/-!
# Runs of the pool

What a worker can do in one turn, as a relation with one constructor for each
way, and the runs that such turns make up.  Everything that is proved of the
pool goes by these relations.  The replies of the services decide who has the
next turn and how each call ends, so the runs are all interleavings with all
outcomes.
-/

namespace FleetDeploy

/-- What a worker does in one turn: its phase before, its calls, its phase after,
the files it takes from the queue and the error it records. -/
structure Deed where
  worker : Nat
  phase : Phase
  calls : List (Exchange SyncService)
  next : Phase
  taken : List LocalFile
  recorded : Option ReleaseError

namespace Pool

/-- What a worker can do.  While the work is called off it can only finish; else
it goes on with its file, and a call that panics takes it to the phase in which
it waits to be joined. -/
inductive Does (pool : Pool) : Deed → Prop
  | joined (w : Nat) :
      Does pool ⟨w, .panicked, [], .finished, [], some (.panicked none)⟩
  | resigned (off : pool.isCalledOff = true) (w : Nat) {phase : Phase}
      (grounded : phase = .idle ∨ ∃ file, phase = .opening file ∨ phase = .reading file) :
      Does pool ⟨w, phase, [], .finished, [], none⟩
  | abandoned (off : pool.isCalledOff = true) (w : Nat) (upload : Upload) (r : Except Stop Unit) :
      Does pool ⟨w, .uploading upload, [⟨.abandonUpload w upload, r⟩], .finished, [], none⟩
  | rested (on : pool.isCalledOff = false) (w : Nat) (empty : pool.queue = []) :
      Does pool ⟨w, .idle, [], .finished, [], none⟩
  | took (on : pool.isCalledOff = false) (w : Nat) {file : LocalFile} {rest : List LocalFile}
      (queued : pool.queue = file :: rest) :
      Does pool ⟨w, .idle, [], .opening file, [file], none⟩
  | opened (on : pool.isCalledOff = false) (w : Nat) (file : LocalFile) :
      Does pool ⟨w, .opening file, [⟨.openFile file.path, .ok true⟩], .reading file, [], none⟩
  | unopened (on : pool.isCalledOff = false) (w : Nat) (file : LocalFile) :
      Does pool ⟨w, .opening file, [⟨.openFile file.path, .ok false⟩], .finished, [],
        some (.file file.path)⟩
  | openPanicked (on : pool.isCalledOff = false) (w : Nat) (file : LocalFile) (reason : Stop) :
      Does pool ⟨w, .opening file, [⟨.openFile file.path, .error reason⟩], .panicked, [], none⟩
  | unread (on : pool.isCalledOff = false) (w : Nat) (file : LocalFile) :
      Does pool ⟨w, .reading file, [⟨.readFile file.path, .ok none⟩], .finished, [],
        some (.file file.path)⟩
  | readPanicked (on : pool.isCalledOff = false) (w : Nat) (file : LocalFile) (reason : Stop) :
      Does pool ⟨w, .reading file, [⟨.readFile file.path, .error reason⟩], .panicked, [], none⟩
  | started (on : pool.isCalledOff = false) (w : Nat) (file : LocalFile) (body : List UInt8) :
      Does pool ⟨w, .reading file,
        [⟨.readFile file.path, .ok (some body)⟩,
          ⟨.startUpload w (pool.upload file body), .ok ()⟩],
        .uploading (pool.upload file body), [], none⟩
  | startPanicked (on : pool.isCalledOff = false) (w : Nat) (file : LocalFile)
      (body : List UInt8) (reason : Stop) :
      Does pool ⟨w, .reading file,
        [⟨.readFile file.path, .ok (some body)⟩,
          ⟨.startUpload w (pool.upload file body), .error reason⟩], .panicked, [], none⟩
  | stored (on : pool.isCalledOff = false) (w : Nat) (upload : Upload) :
      Does pool ⟨w, .uploading upload, [⟨.awaitUpload w upload, .ok (.ok ())⟩], .idle, [], none⟩
  | refused (on : pool.isCalledOff = false) (w : Nat) (upload : Upload) (cause : StoreError) :
      Does pool ⟨w, .uploading upload, [⟨.awaitUpload w upload, .ok (.error cause)⟩], .finished,
        [], some (.store cause)⟩
  | awaitPanicked (on : pool.isCalledOff = false) (w : Nat) (upload : Upload) (reason : Stop) :
      Does pool ⟨w, .uploading upload, [⟨.awaitUpload w upload, .error reason⟩], .panicked,
        [], none⟩

/-- The pool after a turn.  Only the first error is kept. -/
def after (pool : Pool) (deed : Deed) : Pool :=
  { pool with
    queue := pool.queue.drop deed.taken.length
    workers := pool.workers.set deed.worker deed.next
    failure := pool.failure.or deed.recorded
    uploaded := pool.uploaded + (deed.calls.filterMap Exchange.stored?).length }

/-- A turn: the question who is next, its reply, and what the worker does then. -/
structure Step where
  waiting : List Nat
  hurry : Bool
  reply : Except Stop Turn
  deed : Deed

/-- The calls of a turn with the replies. -/
def Step.exchanges (step : Step) : List (Exchange SyncService) :=
  ⟨.turn step.waiting step.hurry, step.reply⟩ :: step.deed.calls

/-- What the reply tells. -/
def Step.turn (step : Step) : Turn :=
  step.reply.toOption.getD ⟨0, false⟩

/-- Turns of workers one after another, until all of them have finished. -/
inductive Run : Pool → List Step → Pool → Prop
  | finished {pool : Pool} (all : ∀ phase ∈ pool.workers, phase = .finished) : Run pool [] pool
  | step {pool final : Pool} {step : Step} {steps : List Step}
      (here : pool.workers[step.deed.worker]? = some step.deed.phase)
      (does : (pool.notice step.turn).Does step.deed)
      (rest : Run ((pool.notice step.turn).after step.deed) steps final) :
      Run pool (step :: steps) final

variable {pool : Pool} {w : Nat} {exchanges : List (Exchange SyncService)}

/-! ## The turns of the program -/

/-- What a worker does whose work is called off. -/
theorem exists_does_of_trace_giveUp (off : pool.isCalledOff = true) {phase : Phase}
    (busy : phase ≠ .finished) {outcome : Except Stop Pool}
    (trace : (pool.giveUp w phase).Trace exchanges outcome) :
    ∃ next taken recorded, pool.Does ⟨w, phase, exchanges, next, taken, recorded⟩ ∧
      outcome = .ok (pool.after ⟨w, phase, exchanges, next, taken, recorded⟩) := by
  cases phase with
  | finished => exact absurd rfl busy
  | panicked =>
      obtain ⟨rfl, rfl⟩ := Program.trace_done_iff.mp trace
      exact ⟨_, _, _, .joined w, rfl⟩
  | uploading upload =>
      obtain ⟨r, rest, rfl, tail⟩ := Program.trace_call_iff.mp trace
      refine ⟨.finished, [], none, ?_⟩
      cases r <;> obtain ⟨rfl, rfl⟩ := Program.trace_done_iff.mp tail <;>
        exact ⟨.abandoned off w upload _, by simp [after, move, Exchange.stored?]⟩
  | idle =>
      obtain ⟨rfl, rfl⟩ := Program.trace_done_iff.mp trace
      exact ⟨_, _, _, .resigned off w (.inl rfl), by simp [after, move, Exchange.stored?]⟩
  | opening file | reading file =>
      obtain ⟨rfl, rfl⟩ := Program.trace_done_iff.mp trace
      exact ⟨_, _, _, .resigned off w (.inr ⟨file, by simp⟩),
        by simp [after, move, Exchange.stored?]⟩

/-- What a worker does that opens its file. -/
theorem exists_does_of_trace_openFile (on : pool.isCalledOff = false) {file : LocalFile}
    {outcome : Except Stop Pool} (trace : (pool.openFile w file).Trace exchanges outcome) :
    ∃ next taken recorded, pool.Does ⟨w, .opening file, exchanges, next, taken, recorded⟩ ∧
      outcome = .ok (pool.after ⟨w, .opening file, exchanges, next, taken, recorded⟩) := by
  obtain ⟨r, rest, rfl, tail⟩ := Program.trace_call_iff.mp trace
  rcases r with reason | found
  · obtain ⟨rfl, rfl⟩ := Program.trace_done_iff.mp tail
    exact ⟨_, _, _, .openPanicked on w file reason, by simp [after, move, Exchange.stored?]⟩
  · cases found <;> obtain ⟨rfl, rfl⟩ := Program.trace_done_iff.mp tail
    · exact ⟨_, _, _, .unopened on w file, rfl⟩
    · exact ⟨_, _, _, .opened on w file, by simp [after, move, Exchange.stored?]⟩

/-- What a worker does that reads its file. -/
theorem exists_does_of_trace_readFile (on : pool.isCalledOff = false) {file : LocalFile}
    {outcome : Except Stop Pool} (trace : (pool.readFile w file).Trace exchanges outcome) :
    ∃ next taken recorded, pool.Does ⟨w, .reading file, exchanges, next, taken, recorded⟩ ∧
      outcome = .ok (pool.after ⟨w, .reading file, exchanges, next, taken, recorded⟩) := by
  obtain ⟨r, rest, rfl, tail⟩ := Program.trace_call_iff.mp trace
  rcases r with reason | (_ | body)
  · obtain ⟨rfl, rfl⟩ := Program.trace_done_iff.mp tail
    exact ⟨_, _, _, .readPanicked on w file reason, by simp [after, move, Exchange.stored?]⟩
  · obtain ⟨rfl, rfl⟩ := Program.trace_done_iff.mp tail
    exact ⟨_, _, _, .unread on w file, rfl⟩
  · obtain ⟨begun, rest, rfl, last⟩ := Program.trace_call_iff.mp tail
    cases begun <;> obtain ⟨rfl, rfl⟩ := Program.trace_done_iff.mp last
    · exact ⟨_, _, _, .startPanicked on w file body _, by simp [after, move, Exchange.stored?]⟩
    · exact ⟨_, _, _, .started on w file body, by simp [after, move, Exchange.stored?]⟩

/-- What a worker does that waits for its upload. -/
theorem exists_does_of_trace_finishUpload (on : pool.isCalledOff = false) {upload : Upload}
    {outcome : Except Stop Pool} (trace : (pool.finishUpload w upload).Trace exchanges outcome) :
    ∃ next taken recorded, pool.Does ⟨w, .uploading upload, exchanges, next, taken, recorded⟩ ∧
      outcome = .ok (pool.after ⟨w, .uploading upload, exchanges, next, taken, recorded⟩) := by
  obtain ⟨r, rest, rfl, tail⟩ := Program.trace_call_iff.mp trace
  rcases r with reason | (cause | _) <;> obtain ⟨rfl, rfl⟩ := Program.trace_done_iff.mp tail
  · exact ⟨_, _, _, .awaitPanicked on w upload reason, by simp [after, move, Exchange.stored?]⟩
  · exact ⟨_, _, _, .refused on w upload cause, rfl⟩
  · exact ⟨_, _, _, .stored on w upload, by simp [after, move, Exchange.stored?]⟩

/-- The turn of a worker that has not finished is one of the ways, and never
stops. -/
theorem exists_does_of_trace {phase : Phase} (here : pool.workers[w]? = some phase)
    (busy : phase ≠ .finished) {outcome : Except Stop Pool}
    (trace : (pool.turn w).Trace exchanges outcome) :
    ∃ next taken recorded, pool.Does ⟨w, phase, exchanges, next, taken, recorded⟩ ∧
      outcome = .ok (pool.after ⟨w, phase, exchanges, next, taken, recorded⟩) := by
  have present : pool.workers.getD w .finished = phase := by simp [here]
  rw [turn, present] at trace
  by_cases off : pool.isCalledOff = true
  · rw [if_pos off] at trace
    exact exists_does_of_trace_giveUp off busy trace
  · rw [if_neg off] at trace
    have on : pool.isCalledOff = false := Bool.eq_false_iff.mpr off
    cases phase with
    | finished => exact absurd rfl busy
    | opening file => exact exists_does_of_trace_openFile on trace
    | reading file => exact exists_does_of_trace_readFile on trace
    | uploading upload => exact exists_does_of_trace_finishUpload on trace
    | panicked =>
        obtain ⟨rfl, rfl⟩ := Program.trace_done_iff.mp trace
        exact ⟨_, _, _, .joined w, rfl⟩
    | idle =>
        obtain ⟨rfl, rfl⟩ := Program.trace_done_iff.mp trace
        cases queued : pool.queue with
        | nil => exact ⟨_, _, _, .rested on w queued,
            by simp [takeFile, queued, after, move, Exchange.stored?]⟩
        | cons file rest => exact ⟨_, _, _, .took on w queued,
            by simp [takeFile, queued, after, move, Exchange.stored?]⟩

theorem trace_nextTurn_iff {outcome : Except Stop Turn} :
    pool.nextTurn.Trace exchanges outcome ↔
      ∃ reply : Except Stop Turn, exchanges = [⟨.turn pool.unfinished pool.isCalledOff, reply⟩] ∧
        outcome = .ok (reply.toOption.getD ⟨0, false⟩) := by
  constructor
  · intro trace
    obtain ⟨reply, rest, rfl, tail⟩ := Program.trace_call_iff.mp trace
    cases reply <;> obtain ⟨rfl, rfl⟩ := Program.trace_done_iff.mp tail
    · exact ⟨.error _, rfl, rfl⟩
    · exact ⟨.ok _, rfl, rfl⟩
  · rintro ⟨reply, rfl, rfl⟩
    refine Program.trace_call_iff.mpr ⟨reply, [], rfl, ?_⟩
    cases reply <;> exact .done _

/-! ## The work that is left -/

theorem mem_unfinished_iff :
    w ∈ pool.unfinished ↔ ∃ phase, pool.workers[w]? = some phase ∧ phase ≠ .finished := by
  simp only [unfinished, List.mem_filter, List.mem_range, decide_eq_true_eq]
  constructor
  · rintro ⟨within, busy⟩
    refine ⟨pool.workers[w], List.getElem?_eq_getElem within, ?_⟩
    rintro same
    exact busy (by rw [List.getElem?_eq_getElem within, same])
  · rintro ⟨phase, here, busy⟩
    obtain ⟨within, rfl⟩ := List.getElem?_eq_some_iff.mp here
    refine ⟨within, ?_⟩
    rw [here]
    intro same
    exact busy (Option.some.inj same)

theorem unfinished_eq_nil_iff :
    pool.unfinished = [] ↔ ∀ phase ∈ pool.workers, phase = .finished := by
  rw [List.eq_nil_iff_forall_not_mem]
  simp only [mem_unfinished_iff]
  constructor
  · intro nobody phase member
    obtain ⟨w, here⟩ := List.mem_iff_getElem?.mp member
    by_cases ended : phase = .finished
    · exact ended
    · exact absurd ⟨phase, here, ended⟩ (nobody w)
  · rintro all w ⟨phase, here, busy⟩
    exact busy (all phase (List.mem_of_getElem? here))

/-- The rank of the phases, as `work` adds them up, goes by the worker that
moves. -/
theorem sum_rank_set (workers : List Phase) {phase : Phase} (here : workers[w]? = some phase)
    (next : Phase) :
    ((workers.set w next).map Phase.rank).foldr (· + ·) 0 + phase.rank =
      (workers.map Phase.rank).foldr (· + ·) 0 + next.rank := by
  induction workers generalizing w with
  | nil => cases here
  | cons first rest ih =>
      cases w with
      | zero =>
          cases here
          simp only [List.set_cons_zero, List.map_cons, List.foldr_cons]
          omega
      | succ w =>
          have tail := ih here
          simp only [List.set_cons_succ, List.map_cons, List.foldr_cons]
          omega

/-- Each turn leaves less work. -/
theorem Does.work_lt {deed : Deed} (does : pool.Does deed)
    (here : pool.workers[deed.worker]? = some deed.phase) :
    (pool.after deed).work < pool.work := by
  have ranks := sum_rank_set pool.workers here deed.next
  have queued : 4 * (pool.after deed).queue.length + deed.next.rank <
      4 * pool.queue.length + deed.phase.rank := by
    cases does with
    | resigned off w grounded =>
        rcases grounded with rfl | ⟨file, rfl | rfl⟩ <;> simp [after, Phase.rank]
    | took on w waiting =>
        simp only [after, waiting, Phase.rank, List.length_cons, List.length_nil, List.drop_succ_cons,
          List.drop_zero]
        omega
    | _ => simp [after, Phase.rank]
  change 4 * (pool.after deed).queue.length +
    ((pool.workers.set deed.worker deed.next).map Phase.rank).foldr (· + ·) 0 <
      4 * pool.queue.length + (pool.workers.map Phase.rank).foldr (· + ·) 0
  omega

theorem unfinished_eq_nil_of_work (none : pool.work = 0) : pool.unfinished = [] := by
  have ranks : (pool.workers.map Phase.rank).sum = 0 := Nat.eq_zero_of_add_eq_zero_left none
  rw [List.sum_eq_zero_iff_forall_eq_nat, List.forall_mem_map] at ranks
  apply unfinished_eq_nil_iff.mpr
  intro phase member
  have rank := ranks phase member
  cases phase with
  | finished => rfl
  | _ => cases rank

/-- Whatever place is told, somebody is picked. -/
theorem picked_mem (first : Nat) (others : List Nat) (pick : Nat) :
    (first :: others).getD (pick % (others.length + 1)) first ∈ first :: others := by
  have within : pick % (others.length + 1) < (first :: others).length :=
    Nat.mod_lt _ (Nat.succ_pos _)
  rw [List.getD_eq_getElem _ _ within]
  exact List.getElem_mem within

/-- While somebody has not finished, taking turns starts with a turn. -/
theorem exists_step_of_trace {bound : Nat} (busy : pool.unfinished ≠ [])
    {outcome : Except Stop Pool} (trace : (pool.takeTurns (bound + 1)).Trace exchanges outcome) :
    ∃ step rest, exchanges = Step.exchanges step ++ rest ∧
      pool.workers[step.deed.worker]? = some step.deed.phase ∧
      (pool.notice step.turn).Does step.deed ∧
      (((pool.notice step.turn).after step.deed).takeTurns bound).Trace rest outcome := by
  rw [takeTurns] at trace
  cases waiting : pool.unfinished with
  | nil => exact absurd waiting busy
  | cons first others =>
      rw [waiting] at trace
      rcases Program.trace_bind_iff.mp trace with
        ⟨t, asking, rest, rfl, asked, tail⟩ | ⟨reason, rfl, asked⟩
      · obtain ⟨reply, rfl, equal⟩ := trace_nextTurn_iff.mp asked
        cases equal
        obtain ⟨w, member, turned⟩ : ∃ w ∈ pool.unfinished, Program.Trace
            ((pool.notice (reply.toOption.getD ⟨0, false⟩)).turn w >>= takeTurns bound)
            rest outcome := by
          refine ⟨_, ?_, tail⟩
          rw [waiting]
          exact picked_mem first others _
        obtain ⟨phase, here, busy⟩ := mem_unfinished_iff.mp member
        have noticed : (pool.notice (reply.toOption.getD ⟨0, false⟩)).workers[w]? =
            some phase := here
        rcases Program.trace_bind_iff.mp turned with
          ⟨moved, calls, last, rfl, deed, later⟩ | ⟨reason, rfl, deed⟩
        · obtain ⟨next, taken, recorded, does, equal⟩ := exists_does_of_trace noticed busy deed
          cases equal
          exact ⟨⟨pool.unfinished, pool.isCalledOff, reply, _⟩, last, rfl, here, does, later⟩
        · obtain ⟨_, _, _, _, equal⟩ := exists_does_of_trace noticed busy deed
          cases equal
      · obtain ⟨_, _, equal⟩ := trace_nextTurn_iff.mp asked
        cases equal

/-- With a bound that covers the work, taking turns is a run: it never stops, and
every worker has finished in the end. -/
theorem Run.of_trace_takeTurns {bound : Nat} (enough : pool.work ≤ bound)
    {outcome : Except Stop Pool} (trace : (pool.takeTurns bound).Trace exchanges outcome) :
    ∃ steps final, exchanges = steps.flatMap Step.exchanges ∧ outcome = .ok final ∧
      Run pool steps final := by
  induction bound generalizing pool exchanges outcome with
  | zero =>
      obtain ⟨rfl, rfl⟩ := Program.trace_done_iff.mp trace
      have idle := unfinished_eq_nil_of_work (Nat.le_zero.mp enough)
      exact ⟨[], pool, rfl, rfl, .finished (unfinished_eq_nil_iff.mp idle)⟩
  | succ bound ih =>
      by_cases idle : pool.unfinished = []
      · rw [takeTurns, idle] at trace
        obtain ⟨rfl, rfl⟩ := Program.trace_done_iff.mp trace
        exact ⟨[], pool, rfl, rfl, .finished (unfinished_eq_nil_iff.mp idle)⟩
      · obtain ⟨step, rest, rfl, here, does, later⟩ := exists_step_of_trace idle trace
        have less : ((pool.notice step.turn).after step.deed).work < pool.work :=
          does.work_lt here
        obtain ⟨steps, final, rfl, rfl, run⟩ := ih (by omega) later
        exact ⟨step :: steps, final, rfl, rfl, .step here does run⟩

theorem Run.of_trace_drain {outcome : Except Stop Pool}
    (trace : pool.drain.Trace exchanges outcome) :
    ∃ steps final, exchanges = steps.flatMap Step.exchanges ∧ outcome = .ok final ∧
      Run pool steps final :=
  Run.of_trace_takeTurns (Nat.le_refl _) trace

end Pool

end FleetDeploy
