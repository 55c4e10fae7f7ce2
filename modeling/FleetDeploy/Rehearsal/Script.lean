import FleetDeploy.Program.Basic

/-!
# Scripted calls

A deployment can be rehearsed against services in memory.  How they behave is
told by a script: an act for each call to come.  A call waits first, then it may
panic, and then it may be refused.  Waiting moves a clock of its own, and ends
early where a deadline comes first.
-/

namespace FleetDeploy.Rehearsal

/-- A clock in milliseconds, with the time at which waiting ends. -/
structure Clock where
  now : Nat
  deadline : Option Nat
  deriving DecidableEq, Repr

namespace Clock

/-- The clock at its beginning. -/
def zero : Clock :=
  ⟨0, none⟩

/-- Wait.  What ends at the deadline itself is still in time. -/
def wait (clock : Clock) (ms : Nat) : Except Stop Unit × Clock :=
  match clock.deadline with
  | none => (.ok (), { clock with now := clock.now + ms })
  | some deadline =>
    if clock.now + ms ≤ deadline then (.ok (), { clock with now := clock.now + ms })
    else (.error .expired, ⟨deadline, none⟩)

/-- Wait for what never comes. -/
def waitForever (clock : Clock) : Clock :=
  ⟨clock.deadline.getD clock.now, none⟩

/-- Set the deadline from now on. -/
def limit (clock : Clock) (ms : Nat) : Clock :=
  { clock with deadline := some (clock.now + ms) }

/-- Lift the deadline. -/
def unlimit (clock : Clock) : Clock :=
  { clock with deadline := none }

end Clock

/-- How a call behaves.  A panic may have a text. -/
structure Act (ε : Type) where
  delayMs : Nat
  panic : Option (Option String)
  refusal : Option ε
  deriving Repr

namespace Act

variable {ε α σ : Type}

/-- A call that succeeds at once. -/
def free : Act ε :=
  ⟨0, none, none⟩

instance : Inhabited (Act ε) :=
  ⟨free⟩

/-- Wait, and panic if that is to be. -/
def start (act : Act ε) (clock : Clock) : Except Stop Unit × Clock :=
  match clock.wait act.delayMs, act.panic with
  | (.ok (), clock), some text => (.error (.panic text), clock)
  | (outcome, clock), _ => (outcome, clock)

/-- Play an act.  `world` is the service at a time; the call takes effect if it is
not refused. -/
def play (act : Act ε) (clock : Clock) (world : Clock → σ) (effect : σ → α × σ) :
    Except Stop (Except ε α) × σ :=
  match act.start clock with
  | (.error s, clock) => (.error s, world clock)
  | (.ok (), clock) =>
    match act.refusal with
    | some e => (.ok (.error e), world clock)
    | none =>
      let (value, after) := effect (world clock)
      (.ok (.ok value), after)

end Act

end FleetDeploy.Rehearsal
