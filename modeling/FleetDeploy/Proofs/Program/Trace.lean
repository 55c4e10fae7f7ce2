import FleetDeploy.Program.Basic

/-!
# Traces of programs

A trace of a program is the list of its calls with the replies that they got,
together with the outcome of the run.  Nothing is said about the services: a
program has a trace for each way in which they might have answered.  What a
particular service can answer is a condition on the exchanges of a trace.

The laws below give the traces of a composed program by the traces of its
parts, so that later proofs need not open `bind` or `attempt`.
-/

namespace FleetDeploy

/-- A call with the reply that it got. -/
structure Exchange (I : Interface) where
  call : I.Call
  reply : Except Stop (I.Reply call)

namespace Program

variable {I J : Interface} {α β : Type}

/-- `Trace p exchanges outcome` says that `p` makes exactly the calls of
`exchanges`, in their order, and ends with `outcome`, if the replies are those
of `exchanges`. -/
inductive Trace : Program I α → List (Exchange I) → Except Stop α → Prop
  | done (value : α) : Trace (done value) [] (.ok value)
  | stop (reason : Stop) : Trace (stop reason) [] (.error reason)
  | call {c : I.Call} {next : Except Stop (I.Reply c) → Program I α}
      (r : Except Stop (I.Reply c)) {rest : List (Exchange I)} {outcome : Except Stop α}
      (tail : Trace (next r) rest outcome) : Trace (call c next) (⟨c, r⟩ :: rest) outcome

variable {exchanges : List (Exchange I)}

@[simp]
theorem trace_done_iff {value : α} {outcome : Except Stop α} :
    Trace (done value : Program I α) exchanges outcome ↔
      exchanges = [] ∧ outcome = .ok value := by
  constructor
  · intro trace
    cases trace
    exact ⟨rfl, rfl⟩
  · rintro ⟨rfl, rfl⟩
    exact .done value

@[simp]
theorem trace_stop_iff {reason : Stop} {outcome : Except Stop α} :
    Trace (stop reason : Program I α) exchanges outcome ↔
      exchanges = [] ∧ outcome = .error reason := by
  constructor
  · intro trace
    cases trace
    exact ⟨rfl, rfl⟩
  · rintro ⟨rfl, rfl⟩
    exact .stop reason

theorem trace_call_iff {c : I.Call} {next : Except Stop (I.Reply c) → Program I α}
    {outcome : Except Stop α} :
    Trace (call c next) exchanges outcome ↔
      ∃ r rest, exchanges = ⟨c, r⟩ :: rest ∧ Trace (next r) rest outcome := by
  constructor
  · intro trace
    cases trace with
    | call r tail => exact ⟨r, _, rfl, tail⟩
  · rintro ⟨r, rest, rfl, tail⟩
    exact .call r tail

/-- The only exchange of a single call tells its outcome. -/
theorem trace_perform_iff {c : I.Call} {outcome : Except Stop (I.Reply c)} :
    Trace (perform c) exchanges outcome ↔ exchanges = [⟨c, outcome⟩] := by
  rw [perform, trace_call_iff]
  constructor
  · rintro ⟨r, rest, rfl, tail⟩
    cases r <;> cases tail <;> rfl
  · rintro rfl
    refine ⟨outcome, [], rfl, ?_⟩
    cases outcome with
    | error reason => exact .stop reason
    | ok value => exact .done value

/-- A composed program runs its first part and then the rest, unless the first
part stops. -/
theorem trace_bind_iff {p : Program I α} {f : α → Program I β} {outcome : Except Stop β} :
    Trace (p >>= f) exchanges outcome ↔
      (∃ value first rest, exchanges = first ++ rest ∧ Trace p first (.ok value) ∧
        Trace (f value) rest outcome) ∨
      ∃ reason, outcome = .error reason ∧ Trace p exchanges (.error reason) := by
  induction p generalizing exchanges with
  | done value =>
      rw [bind_done]
      constructor
      · intro trace
        exact .inl ⟨value, [], exchanges, rfl, .done value, trace⟩
      · rintro (⟨_, first, rest, rfl, head, tail⟩ | ⟨_, _, head⟩)
        · cases head
          exact tail
        · cases head
  | stop reason =>
      rw [bind_stop]
      constructor
      · intro trace
        cases trace
        exact .inr ⟨reason, rfl, .stop reason⟩
      · rintro (⟨_, first, rest, rfl, head, tail⟩ | ⟨_, rfl, head⟩)
        · cases head
        · cases head
          exact .stop reason
  | call c next ih =>
      rw [bind_call, trace_call_iff]
      constructor
      · rintro ⟨r, rest, rfl, tail⟩
        rcases (ih r).mp tail with ⟨value, first, last, rfl, head, tail⟩ | ⟨reason, rfl, head⟩
        · exact .inl ⟨value, ⟨c, r⟩ :: first, last, rfl, .call r head, tail⟩
        · exact .inr ⟨reason, rfl, .call r head⟩
      · rintro (⟨value, first, last, rfl, head, tail⟩ | ⟨reason, rfl, head⟩)
        · cases head with
          | call r head => exact ⟨r, _, rfl, (ih r).mpr (.inl ⟨value, _, last, rfl, head, tail⟩)⟩
        · cases head with
          | call r head => exact ⟨r, _, rfl, (ih r).mpr (.inr ⟨reason, rfl, head⟩)⟩

/-- An attempt makes the calls of its program and never stops. -/
theorem trace_attempt_iff {p : Program I α} {outcome : Except Stop (Except Stop α)} :
    Trace p.attempt exchanges outcome ↔ ∃ inner, outcome = .ok inner ∧ Trace p exchanges inner := by
  induction p generalizing exchanges with
  | done value =>
      rw [attempt, trace_done_iff]
      constructor
      · rintro ⟨rfl, rfl⟩
        exact ⟨.ok value, rfl, .done value⟩
      · rintro ⟨inner, rfl, trace⟩
        cases trace
        exact ⟨rfl, rfl⟩
  | stop reason =>
      rw [attempt, trace_done_iff]
      constructor
      · rintro ⟨rfl, rfl⟩
        exact ⟨.error reason, rfl, .stop reason⟩
      · rintro ⟨inner, rfl, trace⟩
        cases trace
        exact ⟨rfl, rfl⟩
  | call c next ih =>
      rw [attempt, trace_call_iff]
      constructor
      · rintro ⟨r, rest, rfl, tail⟩
        obtain ⟨inner, rfl, trace⟩ := (ih r).mp tail
        exact ⟨inner, rfl, .call r trace⟩
      · rintro ⟨inner, rfl, trace⟩
        cases trace with
        | call r tail => exact ⟨r, _, rfl, (ih r).mpr ⟨inner, rfl, tail⟩⟩

/-- A call in front of a program comes first, and the program goes on with its
reply. -/
theorem trace_perform_bind_iff {c : I.Call} {f : I.Reply c → Program I β}
    {outcome : Except Stop β} :
    Trace (perform c >>= f) exchanges outcome ↔
      (∃ value rest, exchanges = ⟨c, .ok value⟩ :: rest ∧ Trace (f value) rest outcome) ∨
      ∃ reason, outcome = .error reason ∧ exchanges = [⟨c, .error reason⟩] := by
  simp only [trace_bind_iff, trace_perform_iff]
  constructor
  · rintro (⟨value, first, rest, rfl, rfl, tail⟩ | stopped)
    · exact .inl ⟨value, rest, rfl, tail⟩
    · exact .inr stopped
  · rintro (⟨value, rest, rfl, tail⟩ | stopped)
    · exact .inl ⟨value, _, rest, rfl, rfl, tail⟩
    · exact .inr stopped

/-- A program whose value is only worked on makes the calls of the program. -/
theorem trace_bind_map_iff {p : Program I α} {f : α → Program I β} {g : α → β}
    (ends : ∀ value, f value = done (g value)) {outcome : Except Stop β} :
    Trace (p >>= f) exchanges outcome ↔ ∃ r, Trace p exchanges r ∧ outcome = r.map g := by
  rw [trace_bind_iff]
  constructor
  · rintro (⟨value, first, rest, rfl, head, tail⟩ | ⟨reason, rfl, stopped⟩)
    · rw [ends, trace_done_iff] at tail
      obtain ⟨rfl, rfl⟩ := tail
      rw [List.append_nil]
      exact ⟨.ok value, head, rfl⟩
    · exact ⟨.error reason, stopped, rfl⟩
  · rintro ⟨r, trace, rfl⟩
    cases r with
    | error reason => exact .inr ⟨reason, rfl, trace⟩
    | ok value =>
        exact .inl ⟨value, exchanges, [], (List.append_nil _).symm, trace, ends value ▸ .done _⟩

/-- A call whose reply is only worked on is the only exchange. -/
theorem trace_perform_map_iff {c : I.Call} {f : I.Reply c → Program I β} {g : I.Reply c → β}
    (ends : ∀ value, f value = done (g value)) {outcome : Except Stop β} :
    Trace (perform c >>= f) exchanges outcome ↔
      ∃ r : Except Stop (I.Reply c), exchanges = [⟨c, r⟩] ∧ outcome = r.map g := by
  simp only [trace_bind_map_iff ends, trace_perform_iff]

/-- A program whose stop is cleaned up makes the calls of the cleanup after it
has stopped, and only then.  A cleanup that stops itself hides the first stop. -/
theorem trace_onStop_iff {p : Program I α} {cleanup : Program I Unit}
    {outcome : Except Stop α} :
    Trace (p.onStop cleanup) exchanges outcome ↔
      (∃ value, outcome = .ok value ∧ Trace p exchanges (.ok value)) ∨
      ∃ reason first rest swept, exchanges = first ++ rest ∧ Trace p first (.error reason) ∧
        Trace cleanup rest swept ∧ outcome = swept >>= fun _ => .error reason := by
  simp only [onStop, trace_bind_iff, trace_attempt_iff]
  constructor
  · rintro (⟨ended, first, rest, rfl, ⟨_, equal, head⟩, tail⟩ | ⟨_, _, _, equal, _⟩)
    · cases equal
      cases ended with
      | ok value =>
          obtain ⟨rfl, rfl⟩ := trace_done_iff.mp tail
          exact .inl ⟨value, rfl, by rwa [List.append_nil]⟩
      | error reason =>
          rcases trace_bind_iff.mp tail with ⟨value, swept, last, rfl, cleaned, tail⟩ | stopped
          · obtain ⟨rfl, rfl⟩ := trace_stop_iff.mp tail
            exact .inr ⟨reason, first, swept, .ok value, by rw [List.append_nil], head, cleaned, rfl⟩
          · obtain ⟨later, rfl, cleaned⟩ := stopped
            exact .inr ⟨reason, first, rest, .error later, rfl, head, cleaned, rfl⟩
    · cases equal
  · rintro (⟨value, rfl, trace⟩ | ⟨reason, first, rest, swept, rfl, head, cleaned, rfl⟩)
    · exact .inl ⟨.ok value, exchanges, [], (List.append_nil _).symm, ⟨_, rfl, trace⟩, .done value⟩
    · refine .inl ⟨.error reason, first, rest, rfl, ⟨_, rfl, head⟩, trace_bind_iff.mpr ?_⟩
      cases swept with
      | ok value => exact .inl ⟨value, rest, [], (List.append_nil _).symm, cleaned, .stop reason⟩
      | error later => exact .inr ⟨later, rfl, cleaned⟩

/-- An embedded program makes the calls of the program, as the larger interface
names them. -/
theorem trace_embed_iff {onCall : I.Call → J.Call}
    {reply : ∀ c, J.Reply (onCall c) → I.Reply c} {p : Program I α}
    {exchanges : List (Exchange J)} {outcome : Except Stop α} :
    Trace (p.embed onCall reply) exchanges outcome ↔
      ∃ inner : List ((c : I.Call) × Except Stop (J.Reply (onCall c))),
        exchanges = inner.map (fun e => ⟨onCall e.1, e.2⟩) ∧
        Trace p (inner.map fun e => ⟨e.1, e.2.map (reply e.1)⟩) outcome := by
  induction p generalizing exchanges with
  | done value =>
      rw [embed, trace_done_iff]
      constructor
      · rintro ⟨rfl, rfl⟩
        exact ⟨[], rfl, .done value⟩
      · rintro ⟨inner, rfl, trace⟩
        obtain ⟨nothing, rfl⟩ := trace_done_iff.mp trace
        exact ⟨congrArg _ (List.map_eq_nil_iff.mp nothing), rfl⟩
  | stop reason =>
      rw [embed, trace_stop_iff]
      constructor
      · rintro ⟨rfl, rfl⟩
        exact ⟨[], rfl, .stop reason⟩
      · rintro ⟨inner, rfl, trace⟩
        obtain ⟨nothing, rfl⟩ := trace_stop_iff.mp trace
        exact ⟨congrArg _ (List.map_eq_nil_iff.mp nothing), rfl⟩
  | call c next ih =>
      rw [embed, trace_call_iff]
      constructor
      · rintro ⟨r, rest, rfl, tail⟩
        obtain ⟨inner, rfl, trace⟩ := (ih _).mp tail
        exact ⟨⟨c, r⟩ :: inner, rfl, .call _ trace⟩
      · rintro ⟨inner, rfl, trace⟩
        cases inner with
        | nil => cases trace
        | cons e inner =>
          simp only [List.map_cons] at trace
          cases trace with
          | call r tail => exact ⟨e.2, _, rfl, (ih _).mpr ⟨inner, rfl, tail⟩⟩

/-- What a program does is settled by the replies: of two of its traces neither
goes on where the other has ended. -/
theorem Trace.eq_of_append {p : Program I α} {first rest other otherRest : List (Exchange I)}
    {outcome otherOutcome : Except Stop α} (trace : Trace p first outcome)
    (otherTrace : Trace p other otherOutcome) (equal : first ++ rest = other ++ otherRest) :
    first = other ∧ outcome = otherOutcome ∧ rest = otherRest := by
  induction trace generalizing other with
  | done value =>
      cases otherTrace
      exact ⟨rfl, rfl, equal⟩
  | stop reason =>
      cases otherTrace
      exact ⟨rfl, rfl, equal⟩
  | call r tail ih =>
      cases otherTrace with
      | call r' otherTail =>
          simp only [List.cons_append, List.cons.injEq, Exchange.mk.injEq, heq_eq_eq,
            true_and] at equal
          obtain ⟨rfl, equal⟩ := equal
          obtain ⟨rfl, rfl, rfl⟩ := ih otherTail equal
          exact ⟨rfl, rfl, rfl⟩

/-- A first part that ends with a value is followed by the rest. -/
theorem Trace.bind {p : Program I α} {f : α → Program I β} {value : α}
    {first rest : List (Exchange I)} {outcome : Except Stop β} (head : p.Trace first (.ok value))
    (tail : (f value).Trace rest outcome) : (p >>= f).Trace (first ++ rest) outcome :=
  trace_bind_iff.mpr (.inl ⟨value, first, rest, rfl, head, tail⟩)

/-- Behind a first part that ends with a value there is only the rest. -/
theorem Trace.bind_append_iff {p : Program I α} {f : α → Program I β} {value : α}
    {first rest : List (Exchange I)} {outcome : Except Stop β} (head : p.Trace first (.ok value)) :
    (p >>= f).Trace (first ++ rest) outcome ↔ (f value).Trace rest outcome := by
  refine ⟨fun trace => ?_, head.bind⟩
  rcases trace_bind_iff.mp trace with ⟨other, _, _, equal, started, tail⟩ | ⟨reason, rfl, stopped⟩
  · obtain ⟨-, same, rfl⟩ := head.eq_of_append started equal
    cases same
    exact tail
  · obtain ⟨-, same, -⟩ := head.eq_of_append stopped (List.append_nil _).symm
    cases same

/-! ## Programs that catch no stop -/

/-- A program that catches no stop: where a call stops, so does the program. -/
inductive Unguarded : Program I α → Prop
  | done (value : α) : Unguarded (done value)
  | call {c : I.Call} {next : Except Stop (I.Reply c) → Program I α}
      (passes : ∀ reason, next (.error reason) = stop reason)
      (answered : ∀ value, Unguarded (next (.ok value))) : Unguarded (call c next)

theorem unguarded_perform (c : I.Call) : Unguarded (perform c) :=
  .call (fun _ => rfl) fun value => .done value

theorem Unguarded.bind {p : Program I α} {f : α → Program I β} (first : p.Unguarded)
    (rest : ∀ value, (f value).Unguarded) : (p >>= f).Unguarded := by
  induction first with
  | done value => exact rest value
  | call passes answered ih =>
      rw [bind_call]
      exact .call (fun reason => by rw [passes, bind_stop]) ih

/-- A program that catches no stop has stopped exactly where a call has. -/
theorem Unguarded.eq_error_iff {p : Program I α} {outcome : Except Stop α}
    (unguarded : p.Unguarded) (trace : p.Trace exchanges outcome) (reason : Stop) :
    outcome = .error reason ↔ ∃ e ∈ exchanges, e.reply = .error reason := by
  induction unguarded generalizing exchanges with
  | done value =>
      obtain ⟨rfl, rfl⟩ := trace_done_iff.mp trace
      simp
  | @call c next passes answered ih =>
      obtain ⟨r, rest, rfl, tail⟩ := trace_call_iff.mp trace
      cases r with
      | error other =>
          rw [passes] at tail
          obtain ⟨rfl, rfl⟩ := trace_stop_iff.mp tail
          simp
      | ok value => simp [ih value tail]

/-- A program that catches no stop ends with a value if no call stops. -/
theorem Unguarded.exists_ok {p : Program I α} {outcome : Except Stop α}
    (unguarded : p.Unguarded) (trace : p.Trace exchanges outcome)
    (answered : ∀ e ∈ exchanges, ∀ reason, e.reply ≠ .error reason) :
    ∃ value, outcome = .ok value := by
  cases outcome with
  | ok value => exact ⟨value, rfl⟩
  | error reason =>
      obtain ⟨e, member, stopped⟩ := (unguarded.eq_error_iff trace reason).mp rfl
      exact absurd stopped (answered e member reason)

end Program

end FleetDeploy
