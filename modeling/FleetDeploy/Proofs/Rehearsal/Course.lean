import FleetDeploy.Rehearsal.Script

/-!
# Calls within a time limit

Calls are made one after another until one of them is refused or the time expires.
What becomes of them depends on the running sums of their delays only: a call that is
over when the time expires, or just then, is in time, and the first refusal decides if
it is in time.
-/

namespace FleetDeploy.Rehearsal

variable {ε α σ : Type}

theorem Clock.eq_of_deadline {clock : Clock} {deadline : Nat}
    (limited : clock.deadline = some deadline) : clock = ⟨clock.now, some deadline⟩ := by
  rw [← limited]

namespace Act

/-! ## Playing an act before a deadline -/

section Play

variable {act : Act ε} {now left : Nat} (world : Clock → σ) (effect : σ → α × σ)

theorem play_of_late (late : left < act.delayMs) :
    act.play ⟨now, some (now + left)⟩ world effect =
      (.error .expired, world ⟨now + left, none⟩) := by
  have beyond : ¬now + act.delayMs ≤ now + left := by omega
  simp only [play, start, Clock.wait, if_neg beyond]

theorem play_of_refused {cause : ε} (inTime : act.delayMs ≤ left) (calm : act.panic = none)
    (refused : act.refusal = some cause) :
    act.play ⟨now, some (now + left)⟩ world effect =
      (.ok (.error cause), world ⟨now + act.delayMs, some (now + left)⟩) := by
  have within : now + act.delayMs ≤ now + left := Nat.add_le_add_left inTime now
  simp only [play, start, Clock.wait, if_pos within, calm, refused]

theorem play_of_accepted (inTime : act.delayMs ≤ left) (calm : act.panic = none)
    (accepted : act.refusal = none) :
    act.play ⟨now, some (now + left)⟩ world effect =
      (.ok (.ok (effect (world ⟨now + act.delayMs, some (now + left)⟩)).1),
        (effect (world ⟨now + act.delayMs, some (now + left)⟩)).2) := by
  have within : now + act.delayMs ≤ now + left := Nat.add_le_add_left inTime now
  simp only [play, start, Clock.wait, if_pos within, calm, accepted]

end Play

/-! ## Acts one after another -/

/-- The acts of the next calls of a script.  Behind its end, calls succeed at once. -/
def upcoming (script : List (Act ε)) : Nat → List (Act ε)
  | 0 => []
  | n + 1 => script.headD free :: upcoming script.tail n

@[simp]
theorem length_upcoming (script : List (Act ε)) (n : Nat) : (upcoming script n).length = n := by
  induction n generalizing script with
  | zero => rfl
  | succ n ih => exact congrArg Nat.succ (ih script.tail)

/-- The time that acts take together. -/
def totalMs (acts : List (Act ε)) : Nat :=
  acts.foldr (fun act rest => act.delayMs + rest) 0

@[simp]
theorem totalMs_nil : totalMs ([] : List (Act ε)) = 0 :=
  rfl

@[simp]
theorem totalMs_cons (act : Act ε) (rest : List (Act ε)) :
    totalMs (act :: rest) = act.delayMs + totalMs rest :=
  rfl

/-- All acts succeed, and the last of them is over in time. -/
def AcceptedIn (ms : Nat) (acts : List (Act ε)) : Prop :=
  (∀ act ∈ acts, act.refusal = none) ∧ totalMs acts ≤ ms

/-- The first act that is refused is over in time. -/
def RefusedIn (ms : Nat) (acts : List (Act ε)) : Prop :=
  ∃ before act rest, acts = before ++ act :: rest ∧ (∀ other ∈ before, other.refusal = none) ∧
    act.refusal ≠ none ∧ totalMs (before ++ [act]) ≤ ms

variable {act : Act ε} {rest : List (Act ε)} {left : Nat}

theorem acceptedIn_nil : AcceptedIn left ([] : List (Act ε)) :=
  ⟨nofun, Nat.zero_le left⟩

theorem not_refusedIn_nil : ¬RefusedIn left ([] : List (Act ε)) := by
  rintro ⟨before, act, rest, split, -⟩
  exact List.append_ne_nil_of_right_ne_nil before (List.cons_ne_nil act rest) split.symm

theorem acceptedIn_cons_iff (accepted : act.refusal = none) :
    AcceptedIn (act.delayMs + left) (act :: rest) ↔ AcceptedIn left rest := by
  rw [AcceptedIn, AcceptedIn, List.forall_mem_cons, totalMs_cons, Nat.add_le_add_iff_left,
    and_iff_right accepted]

theorem refusedIn_cons_iff (accepted : act.refusal = none) :
    RefusedIn (act.delayMs + left) (act :: rest) ↔ RefusedIn left rest := by
  constructor
  · rintro ⟨_ | ⟨first, before⟩, last, others, split, succeed, refused, inTime⟩
    · cases split
      exact absurd accepted refused
    · cases split
      rw [List.cons_append, totalMs_cons, Nat.add_le_add_iff_left] at inTime
      exact ⟨before, last, others, rfl, (List.forall_mem_cons.mp succeed).2, refused, inTime⟩
  · rintro ⟨before, last, others, rfl, succeed, refused, inTime⟩
    refine ⟨act :: before, last, others, rfl, List.forall_mem_cons.mpr ⟨accepted, succeed⟩,
      refused, ?_⟩
    rw [List.cons_append, totalMs_cons]
    exact Nat.add_le_add_left inTime act.delayMs

theorem not_acceptedIn_of_late (late : left < act.delayMs) : ¬AcceptedIn left (act :: rest) := by
  rintro ⟨-, inTime⟩
  rw [totalMs_cons] at inTime
  omega

theorem not_refusedIn_of_late (late : left < act.delayMs) : ¬RefusedIn left (act :: rest) := by
  rintro ⟨_ | ⟨first, before⟩, last, others, split, -, -, inTime⟩
  all_goals
    cases split
    simp only [List.nil_append, List.cons_append, totalMs_cons] at inTime
    omega

theorem not_refusedIn_of_forall {acts : List (Act ε)} (succeed : ∀ act ∈ acts, act.refusal = none) :
    ¬RefusedIn left acts := by
  rintro ⟨before, act, rest, rfl, -, refused, -⟩
  exact refused (succeed act (List.mem_append_right _ List.mem_cons_self))

theorem not_acceptedIn_of_refused (refused : act.refusal ≠ none) :
    ¬AcceptedIn left (act :: rest) :=
  fun all => refused (all.1 act List.mem_cons_self)

theorem refusedIn_of_refused (refused : act.refusal ≠ none) (inTime : act.delayMs ≤ left) :
    RefusedIn left (act :: rest) :=
  ⟨[], act, rest, rfl, nofun, refused, by simpa using inTime⟩

end Act

/-! ## The course of calls -/

/-- How calls end that are made one after another. -/
inductive Ending (ε : Type)
  | finished
  | refused (cause : ε)
  | expired

/-- What a program comes to whose calls end so, and whose value is known. -/
def Ending.outcome (value : α) : Ending ε → Except Stop (Except ε α)
  | finished => .ok (.ok value)
  | refused cause => .ok (.error cause)
  | expired => .error .expired

theorem Ending.map_outcome {β : Type} (ending : Ending ε) (value : α) (f : α → β) :
    ((ending.outcome value).map fun result => result.map f) = ending.outcome (f value) := by
  cases ending <;> rfl

/-- Calls that are made one after another in the time that is left: how many take effect,
how long it takes, and how it ends. -/
inductive Course : Nat → List (Act ε) → Nat → Nat → Ending ε → Prop
  | finished (left : Nat) : Course left [] 0 0 .finished
  | expired {left : Nat} {act : Act ε} (late : left < act.delayMs) (rest : List (Act ε)) :
      Course left (act :: rest) 0 left .expired
  | refused {left : Nat} {act : Act ε} {cause : ε} (inTime : act.delayMs ≤ left)
      (refusal : act.refusal = some cause) (rest : List (Act ε)) :
      Course left (act :: rest) 0 act.delayMs (.refused cause)
  | effective {left done elapsed : Nat} {act : Act ε} {rest : List (Act ε)} {ending : Ending ε}
      (accepted : act.refusal = none) (later : Course left rest done elapsed ending) :
      Course (act.delayMs + left) (act :: rest) (done + 1) (act.delayMs + elapsed) ending

namespace Course

open Act

variable {left done elapsed : Nat} {acts : List (Act ε)} {ending : Ending ε}

/-- The calls end with a refusal exactly if the first one is in time. -/
theorem refusedIn_iff (course : Course left acts done elapsed ending) :
    RefusedIn left acts ↔ ∃ cause, ending = .refused cause := by
  induction course with
  | finished => exact iff_of_false not_refusedIn_nil nofun
  | expired late => exact iff_of_false (not_refusedIn_of_late late) nofun
  | refused inTime refusal =>
      refine iff_of_true (refusedIn_of_refused ?_ inTime) ⟨_, rfl⟩
      rw [refusal]
      exact Option.some_ne_none _
  | effective accepted later ih => exact (refusedIn_cons_iff accepted).trans ih

/-- All calls are made exactly if all succeed in time. -/
theorem acceptedIn_iff (course : Course left acts done elapsed ending) :
    AcceptedIn left acts ↔ ending = .finished := by
  induction course with
  | finished => exact iff_of_true acceptedIn_nil rfl
  | expired late => exact iff_of_false (not_acceptedIn_of_late late) nofun
  | refused inTime refusal =>
      refine iff_of_false (not_acceptedIn_of_refused ?_) nofun
      rw [refusal]
      exact Option.some_ne_none _
  | effective accepted later ih => exact (acceptedIn_cons_iff accepted).trans ih

/-- Exactly the calls take effect that succeed in time with all calls before them. -/
theorem lt_done_iff (course : Course left acts done elapsed ending) {i : Nat}
    (made : i < acts.length) : i < done ↔ AcceptedIn left (acts.take (i + 1)) := by
  induction course generalizing i with
  | finished => cases made
  | expired late => exact iff_of_false (Nat.not_lt_zero i) (not_acceptedIn_of_late late)
  | refused inTime refusal =>
      refine iff_of_false (Nat.not_lt_zero i) (not_acceptedIn_of_refused ?_)
      rw [refusal]
      exact Option.some_ne_none _
  | effective accepted later ih =>
      rw [List.take_succ_cons, acceptedIn_cons_iff accepted]
      cases i with
      | zero =>
          rw [List.take_zero]
          exact iff_of_true (Nat.zero_lt_succ _) acceptedIn_nil
      | succ i => rw [Nat.add_lt_add_iff_right, ih (Nat.lt_of_succ_lt_succ made)]

theorem elapsed_le (course : Course left acts done elapsed ending) : elapsed ≤ left := by
  induction course with
  | finished left => exact Nat.zero_le left
  | expired => exact Nat.le_refl _
  | refused inTime => exact inTime
  | effective accepted later ih => exact Nat.add_le_add_left ih _

/-- Where the time expires, the calls end just then. -/
theorem elapsed_of_expired (course : Course left acts done elapsed .expired) :
    elapsed = left := by
  generalize ended : (Ending.expired : Ending ε) = ending at course
  induction course with
  | finished | refused => cases ended
  | expired => rfl
  | effective accepted later ih => rw [ih ended]

/-- Where the time expires, exactly the calls have taken effect that were over by then. -/
theorem lt_done_iff_of_expired (course : Course left acts done elapsed .expired) {i : Nat}
    (made : i < acts.length) : i < done ↔ totalMs (acts.take (i + 1)) ≤ left := by
  generalize ended : (Ending.expired : Ending ε) = ending at course
  induction course generalizing i with
  | finished | refused => cases ended
  | expired late =>
      rw [List.take_succ_cons, totalMs_cons]
      exact iff_of_false (Nat.not_lt_zero i) (by omega)
  | effective accepted later ih =>
      rw [List.take_succ_cons, totalMs_cons, Nat.add_le_add_iff_left]
      cases i with
      | zero => exact iff_of_true (Nat.zero_lt_succ _) (Nat.zero_le _)
      | succ i => rw [Nat.add_lt_add_iff_right, ih (Nat.lt_of_succ_lt_succ made) ended]

end Course

end FleetDeploy.Rehearsal
