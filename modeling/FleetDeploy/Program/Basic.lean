/-!
# Programs of calls

A deployment works by calls to services that it does not control.  A program is
such work as data: it is done, or it has stopped, or it makes a call and goes on
with the reply.  What the services do is left to whoever runs the program, so a
statement about all programs' runs is a statement about every behaviour of the
services.

A run may stop in the middle: a call may panic, and time may expire while a call
is waited for.  A stop passes through what follows, unless `attempt` catches it.
-/

namespace FleetDeploy

/-- Why a run stops before its end.  A panic may carry a text. -/
inductive Stop
  | panic (text : Option String)
  | expired
  deriving DecidableEq, Repr

/-- The calls that a program can make, and the reply to each. -/
structure Interface where
  Call : Type
  Reply : Call → Type

/-- A program that makes calls and ends with a value. -/
inductive Program (I : Interface) (α : Type)
  | done (value : α)
  | stop (reason : Stop)
  | call (c : I.Call) (next : Except Stop (I.Reply c) → Program I α)

namespace Program

variable {I J : Interface} {α β γ : Type}

/-- Go on with the value of a program. -/
def bind : Program I α → (α → Program I β) → Program I β
  | done a, f => f a
  | stop s, _ => stop s
  | call c next, f => call c fun r => (next r).bind f

instance : Monad (Program I) where
  pure := done
  bind := bind

@[simp]
theorem pure_eq (a : α) : (pure a : Program I α) = done a :=
  rfl

@[simp]
theorem bind_done (a : α) (f : α → Program I β) : (done a >>= f) = f a :=
  rfl

@[simp]
theorem bind_stop (s : Stop) (f : α → Program I β) : (stop s >>= f) = stop s :=
  rfl

@[simp]
theorem bind_call (c : I.Call) (next : Except Stop (I.Reply c) → Program I α)
    (f : α → Program I β) : (call c next >>= f) = call c fun r => next r >>= f :=
  rfl

theorem bind_done_right (p : Program I α) : p >>= done = p := by
  induction p with
  | done a => rfl
  | stop s => rfl
  | call c next ih => simp only [bind_call]; congr 1; funext r; exact ih r

theorem bind_assoc (p : Program I α) (f : α → Program I β) (g : β → Program I γ) :
    p >>= f >>= g = p >>= fun a => f a >>= g := by
  induction p with
  | done a => rfl
  | stop s => rfl
  | call c next ih => simp only [bind_call]; congr 1; funext r; exact ih r

instance : LawfulMonad (Program I) :=
  LawfulMonad.mk' (Program I) bind_done_right (fun _ _ => rfl) bind_assoc

/-- Make a call.  Where the call stops, so does the program. -/
def perform (c : I.Call) : Program I (I.Reply c) :=
  call c fun
    | .ok r => done r
    | .error s => stop s

/-- The outcome of a program, a stop included. -/
def attempt : Program I α → Program I (Except Stop α)
  | done a => done (.ok a)
  | stop s => done (.error s)
  | call c next => call c fun r => (next r).attempt

/-- Run `cleanup` where a program stops, and stop then. -/
def onStop (p : Program I α) (cleanup : Program I Unit) : Program I α := do
  match ← p.attempt with
  | .ok a => return a
  | .error s =>
    cleanup
    stop s

/-- A program on calls that another interface includes. -/
def embed (onCall : I.Call → J.Call) (reply : ∀ c, J.Reply (onCall c) → I.Reply c) :
    Program I α → Program J α
  | done a => done a
  | stop s => stop s
  | call c next => call (onCall c) fun r => (next (r.map (reply c))).embed onCall reply

/-- Run a program against services that answer each call and change with it.
The calls are told in the order they were made. -/
def run {σ : Type} (answer : (c : I.Call) → σ → Except Stop (I.Reply c) × σ) :
    Program I α → σ → Except Stop α × σ × List I.Call
  | done a, world => (.ok a, world, [])
  | stop s, world => (.error s, world, [])
  | call c next, world =>
    let (reply, world) := answer c world
    let (outcome, world, calls) := (next reply).run answer world
    (outcome, world, c :: calls)

end Program

end FleetDeploy
