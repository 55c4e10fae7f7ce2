import FleetDeploy.Proofs.Sync.Effects
import FleetDeploy.Sync.Cleanup

/-!
# Cleaning up

The ways in which a cleanup can go: the removal of the directory ends in time or
is cut off when the time expires.
-/

namespace FleetDeploy

/-- An exchange that does not panic.  Time may expire in it, unless it is one with
the timer itself. -/
def Exchange.Calm (e : Exchange SyncService) : Prop :=
  ∀ reason, e.reply = .error reason → reason = .expired ∧ e.isTimer = false

theorem Exchange.call_ne_startTimer (e : Exchange SyncService) (untimed : e.isTimer = false)
    (ms : Nat) : e.call ≠ .startTimer ms := by
  obtain ⟨call, reply⟩ := e
  rintro rfl
  cases untimed

namespace Synchronizer

/-- What an ended removal makes of a cleanup. -/
def cleanedBy : Except ReleaseError Nat → CleanupOutcome
  | .ok count => .removed count
  | .error _ => .failed

/-- How a cleanup can go. -/
inductive Cleaning (s : Synchronizer) (dir : List Char) (limitMs : Nat) :
    List (Exchange SyncService) → Except Stop CleanupOutcome → Prop
  | unset (reason : Stop) :
      Cleaning s dir limitMs [⟨.startTimer limitMs, .error reason⟩] (.error reason)
  | ended {removing : List (Exchange SyncService)} {result : Except ReleaseError Nat}
      (remove : (s.deleteDirectory dir).Trace removing (.ok result)) (r : Except Stop Unit) :
      Cleaning s dir limitMs (⟨.startTimer limitMs, .ok ()⟩ :: (removing ++ [⟨.stopTimer, r⟩]))
        (r.map fun _ => cleanedBy result)
  | expired {removing : List (Exchange SyncService)}
      (remove : (s.deleteDirectory dir).Trace removing (.error .expired)) :
      Cleaning s dir limitMs (⟨.startTimer limitMs, .ok ()⟩ :: removing) (.ok .timedOut)
  | panicked {removing : List (Exchange SyncService)} {text : Option String}
      (remove : (s.deleteDirectory dir).Trace removing (.error (.panic text))) :
      Cleaning s dir limitMs (⟨.startTimer limitMs, .ok ()⟩ :: removing) (.error (.panic text))

variable {s : Synchronizer} {dir : List Char} {limitMs : Nat} {before after : Holdings}
  {exchanges : List (Exchange SyncService)} {outcome : Except Stop CleanupOutcome}

theorem Cleaning.of_trace (trace : (s.cleanup dir limitMs).Trace exchanges outcome) :
    Cleaning s dir limitMs exchanges outcome := by
  obtain ⟨set, rest, rfl, tail⟩ := Program.trace_call_iff.mp trace
  cases set with
  | error reason =>
      obtain ⟨rfl, rfl⟩ := Program.trace_stop_iff.mp tail
      exact .unset reason
  | ok =>
      change Program.Trace ((s.deleteDirectory dir).attempt >>= _) _ _ at tail
      simp only [Program.trace_bind_iff, Program.trace_attempt_iff] at tail
      rcases tail with ⟨ended, removing, last, rfl, ⟨_, ⟨⟩, remove⟩, tail⟩ | ⟨_, _, _, ⟨⟩, _⟩
      rcases ended with (text | _) | result
      · obtain ⟨rfl, rfl⟩ := Program.trace_stop_iff.mp tail
        rw [List.append_nil]
        exact .panicked remove
      · obtain ⟨rfl, rfl⟩ := Program.trace_done_iff.mp tail
        rw [List.append_nil]
        exact .expired remove
      · obtain ⟨r, nothing, rfl, stopped⟩ := Program.trace_call_iff.mp tail
        cases r with
        | error reason =>
            obtain ⟨rfl, rfl⟩ := Program.trace_stop_iff.mp stopped
            exact .ended remove (.error reason)
        | ok =>
            cases result <;> obtain ⟨rfl, rfl⟩ := Program.trace_done_iff.mp stopped
            · exact .ended remove (.ok ())
            · exact .ended remove (.ok ())

/-- However a cleanup goes, it touches only keys in its directory. -/
theorem Cleaning.within (cleaning : Cleaning s dir limitMs exchanges outcome)
    (inside : ∀ e ∈ exchanges, e.ListsInside s.bucket) :
    ∀ e ∈ exchanges, ∀ k ∈ e.touched, Key.directory dir <+: k := by
  cases cleaning with
  | unset reason => simp [Exchange.touched]
  | ended remove r =>
      rw [List.forall_mem_cons, List.forall_mem_append] at inside ⊢
      exact ⟨by simp [Exchange.touched], within_of_trace remove inside.2.1,
        by simp [Exchange.touched]⟩
  | expired remove | panicked remove =>
      rw [List.forall_mem_cons] at inside ⊢
      exact ⟨by simp [Exchange.touched], within_of_trace remove inside.2⟩

/-- A cleanup is no part of an upload. -/
theorem Cleaning.upload?_eq_none (cleaning : Cleaning s dir limitMs exchanges outcome) :
    ∀ e ∈ exchanges, e.upload? = none := by
  have removal {removing : List (Exchange SyncService)} {result}
      (remove : (s.deleteDirectory dir).Trace removing result) :
      ∀ e ∈ removing, e.upload? = none :=
    fun e member => (plain_of_trace remove e member).1
  cases cleaning with
  | unset reason => simp [Exchange.upload?]
  | ended remove r =>
      rw [List.forall_mem_cons, List.forall_mem_append]
      exact ⟨rfl, removal remove, by simp [Exchange.upload?]⟩
  | expired remove | panicked remove =>
      rw [List.forall_mem_cons]
      exact ⟨rfl, removal remove⟩

/-- A cleanup that removed the directory left nothing in it. -/
theorem Cleaning.eq_none {count : Nat}
    (cleaning : Cleaning s dir limitMs exchanges (.ok (.removed count)))
    (follows : Follows s.bucket before exchanges after) {key : Key}
    (inside : Key.directory dir <+: key) : after key = none := by
  generalize done : (.ok (.removed count) : Except Stop CleanupOutcome) = outcome at cleaning
  cases cleaning with
  | unset | expired | panicked => cases done
  | @ended removing result remove r =>
      rcases r with reason | _
      · cases done
      · rcases result with e | removed
        · cases done
        · cases follows with
          | cons effect later =>
              obtain ⟨between, first, last⟩ := follows_append_iff.mp later
              obtain ⟨_, removal, counted⟩ := exists_removal remove
              rw [counted removed rfl] at removal
              cases last with
              | cons stopped nothing =>
                  cases nothing
                  have same : after = between := stopped
                  rw [same]
                  exact removal.eq_none first inside

/-- The first exchange of a cleanup sets a timer, and no other does. -/
theorem Cleaning.exists_cons (cleaning : Cleaning s dir limitMs exchanges outcome) :
    ∃ r rest, exchanges = ⟨.startTimer limitMs, r⟩ :: rest ∧
      ∀ e ∈ rest, ∀ ms, e.call ≠ .startTimer ms := by
  have removal {removing : List (Exchange SyncService)} {result}
      (remove : (s.deleteDirectory dir).Trace removing result) :
      ∀ e ∈ removing, ∀ ms, e.call ≠ .startTimer ms :=
    fun e member => e.call_ne_startTimer (plain_of_trace remove e member).2.1
  cases cleaning with
  | unset reason => exact ⟨_, [], rfl, nofun⟩
  | ended remove r =>
      refine ⟨_, _, rfl, ?_⟩
      rw [List.forall_mem_append]
      exact ⟨removal remove, by simp⟩
  | expired remove | panicked remove => exact ⟨_, _, rfl, removal remove⟩

/-- A cleanup whose timer is set and stopped has panicked exactly where a call of the
removal has, and has not stopped for another reason. -/
theorem Cleaning.eq_error_iff (cleaning : Cleaning s dir limitMs exchanges outcome)
    (timed : ∀ e ∈ exchanges, e.isTimer = true → ∀ reason, e.reply ≠ .error reason)
    (reason : Stop) :
    outcome = .error reason ↔
      ∃ text, reason = .panic text ∧ ∃ e ∈ exchanges, e.reply = .error (.panic text) := by
  have removed {removing : List (Exchange SyncService)} {result}
      (remove : (s.deleteDirectory dir).Trace removing result) (reason : Stop) :
      result = .error reason ↔ ∃ e ∈ removing, e.reply = .error reason :=
    (s.unguarded_deleteDirectory dir).eq_error_iff remove reason
  cases cleaning with
  | unset other => exact absurd rfl (timed _ (List.mem_singleton_self _) rfl other)
  | ended remove r =>
      rcases r with other | _
      · have last := timed ⟨.stopTimer, .error other⟩
          (List.mem_cons_of_mem _ (List.mem_append_right _ (List.mem_singleton_self _)))
        exact absurd rfl (last rfl other)
      · simpa [Except.map] using fun text _ e member panicked =>
          nomatch (removed remove (.panic text)).mpr ⟨e, member, panicked⟩
  | expired remove =>
      simpa using fun text _ e member panicked =>
        nomatch (removed remove (.panic text)).mpr ⟨e, member, panicked⟩
  | @panicked removing text remove =>
      simp only [List.mem_cons, exists_eq_or_imp, reduceCtorEq, false_or, ← removed remove]
      simp [eq_comm]

/-- A cleanup whose calls do not panic ends with an outcome. -/
theorem Cleaning.exists_ok (cleaning : Cleaning s dir limitMs exchanges outcome)
    (calm : ∀ e ∈ exchanges, e.Calm) : ∃ cleaned, outcome = .ok cleaned := by
  have timed : ∀ e ∈ exchanges, e.isTimer = true → ∀ reason, e.reply ≠ .error reason := by
    intro e member timer reason stopped
    obtain ⟨-, free⟩ := calm e member reason stopped
    rw [timer] at free
    cases free
  cases outcome with
  | ok cleaned => exact ⟨cleaned, rfl⟩
  | error reason =>
      obtain ⟨text, rfl, e, member, panicked⟩ := (cleaning.eq_error_iff timed reason).mp rfl
      obtain ⟨expired, -⟩ := calm e member _ panicked
      cases expired

/-- A cleanup whose calls go well removes the directory. -/
theorem Cleaning.exists_removed {cleaned : CleanupOutcome}
    (cleaning : Cleaning s dir limitMs exchanges (.ok cleaned))
    (succeeds : ∀ e ∈ exchanges, e.Succeeds) : ∃ count, cleaned = .removed count := by
  generalize done : (.ok cleaned : Except Stop CleanupOutcome) = outcome at cleaning
  cases cleaning with
  | unset | panicked => cases done
  | @ended removing result remove r =>
      rw [List.forall_mem_cons, List.forall_mem_append] at succeeds
      obtain ⟨count, counted⟩ := exists_count remove succeeds.2.1
      cases counted
      cases r with
      | error reason => cases done
      | ok =>
          cases done
          exact ⟨count, rfl⟩
  | expired remove =>
      rw [List.forall_mem_cons] at succeeds
      obtain ⟨count, counted⟩ := exists_count remove succeeds.2
      cases counted

/-- A removal that panics is the end of a cleanup. -/
theorem trace_cleanup_of_panicked {removing : List (Exchange SyncService)} {text : Option String}
    (removed : (s.deleteDirectory dir).Trace removing (.error (.panic text))) :
    (s.cleanup dir limitMs).Trace (⟨.startTimer limitMs, .ok ()⟩ :: removing)
      (.error (.panic text)) := by
  have attempted := Program.trace_attempt_iff.mpr ⟨_, rfl, removed⟩
  rw [cleanup, Program.trace_perform_bind_iff, ← List.append_nil removing]
  exact .inl ⟨(), _, rfl, attempted.bind (.stop _)⟩

/-- A removal that ends in time is a cleanup. -/
theorem trace_cleanup_of_ended {removing : List (Exchange SyncService)}
    {result : Except ReleaseError Nat}
    (ended : (s.deleteDirectory dir).Trace removing (.ok result)) :
    (s.cleanup dir limitMs).Trace
      (⟨.startTimer limitMs, .ok ()⟩ :: (removing ++ [⟨.stopTimer, .ok ()⟩]))
      (.ok (cleanedBy result)) := by
  have attempted := Program.trace_attempt_iff.mpr ⟨_, rfl, ended⟩
  rw [cleanup, Program.trace_perform_bind_iff]
  refine .inl ⟨(), _, rfl, attempted.bind (.call _ ?_)⟩
  cases result <;> exact .done _

/-- A removal that is cut off by the timer is a cleanup, too. -/
theorem trace_cleanup_of_expired {removing : List (Exchange SyncService)}
    (expired : (s.deleteDirectory dir).Trace removing (.error .expired)) :
    (s.cleanup dir limitMs).Trace (⟨.startTimer limitMs, .ok ()⟩ :: removing)
      (.ok .timedOut) := by
  have attempted := Program.trace_attempt_iff.mpr ⟨_, rfl, expired⟩
  rw [cleanup, Program.trace_perform_bind_iff, ← List.append_nil removing]
  exact .inl ⟨(), _, rfl, attempted.bind (.done _)⟩

end Synchronizer

end FleetDeploy
