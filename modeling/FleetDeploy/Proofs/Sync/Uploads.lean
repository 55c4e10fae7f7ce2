import FleetDeploy.Proofs.Program.Trace
import FleetDeploy.Sync.Service
import Mathlib.Data.List.Perm.Basic

/-!
# Uploads in a list of exchanges

An upload takes two exchanges, one that starts it and one that ends it.  Here
uploads are told from the exchanges alone, each with the worker that makes it.
A ledger says that nothing gets lost between two states: what was there before
and what came in is what went out, what was dropped and what is there after.
-/

namespace FleetDeploy

namespace Exchange

/-- The upload that an exchange begins, even if the call panics. -/
def begun? : Exchange SyncService → Option (Nat × Upload)
  | ⟨.startUpload w upload, _⟩ => some (w, upload)
  | _ => none

/-- The upload that is in flight from an exchange on. -/
def started? : Exchange SyncService → Option (Nat × Upload)
  | ⟨.startUpload w upload, .ok ()⟩ => some (w, upload)
  | _ => none

/-- The upload that is no longer in flight after an exchange. -/
def ended? : Exchange SyncService → Option (Nat × Upload)
  | ⟨.awaitUpload w upload, _⟩ => some (w, upload)
  | ⟨.abandonUpload w upload, _⟩ => some (w, upload)
  | _ => none

/-- The upload that an exchange is a part of. -/
def upload? : Exchange SyncService → Option Upload
  | ⟨.startUpload _ upload, _⟩ => some upload
  | ⟨.awaitUpload _ upload, _⟩ => some upload
  | ⟨.abandonUpload _ upload, _⟩ => some upload
  | _ => none

/-- Whether an exchange sets or stops a timer. -/
def isTimer : Exchange SyncService → Bool
  | ⟨.startTimer _, _⟩ => true
  | ⟨.stopTimer, _⟩ => true
  | _ => false

/-- The upload that an exchange completes. -/
def stored? : Exchange SyncService → Option (Nat × Upload)
  | ⟨.awaitUpload w upload, .ok (.ok ())⟩ => some (w, upload)
  | _ => none

/-- Only an awaited upload is completed. -/
theorem eq_of_stored? {e : Exchange SyncService} {w : Nat} {upload : Upload}
    (stored : e.stored? = some (w, upload)) :
    e = ⟨.awaitUpload w upload, .ok (.ok ())⟩ := by
  obtain ⟨call, reply⟩ := e
  cases call with
  | awaitUpload v other =>
      rcases reply with reason | (cause | _)
      · cases stored
      · cases stored
      · cases stored
        rfl
  | _ => cases stored

end Exchange

/-- Exchanges after which no upload is in flight: those that are started are those
that are awaited or abandoned. -/
def Settled (exchanges : List (Exchange SyncService)) : Prop :=
  (exchanges.filterMap Exchange.started?).Perm (exchanges.filterMap Exchange.ended?)

theorem Settled.append {first rest : List (Exchange SyncService)} (firstSettled : Settled first)
    (restSettled : Settled rest) : Settled (first ++ rest) := by
  unfold Settled
  rw [List.filterMap_append, List.filterMap_append]
  exact List.Perm.append firstSettled restSettled

theorem settled_of_upload?_eq_none {exchanges : List (Exchange SyncService)}
    (none : ∀ e ∈ exchanges, e.upload? = none) : Settled exchanges := by
  have started : exchanges.filterMap Exchange.started? = [] := by
    apply List.filterMap_eq_nil_iff.mpr
    intro e member
    have apart := none e member
    obtain ⟨call, reply⟩ := e
    cases call with
    | startUpload => cases apart
    | _ => rfl
  have ended : exchanges.filterMap Exchange.ended? = [] := by
    apply List.filterMap_eq_nil_iff.mpr
    intro e member
    have apart := none e member
    obtain ⟨call, reply⟩ := e
    cases call with
    | awaitUpload | abandonUpload => cases apart
    | _ => rfl
  rw [Settled, started, ended]

/-- What came in and was there before is, but for the order, what went out, what
was dropped and what is there after. -/
def Balanced {α : Type} (entered left dropped before after : List α) : Prop :=
  (entered ++ before).Perm (left ++ dropped ++ after)

theorem Balanced.refl {α : Type} (held : List α) : Balanced [] [] [] held held :=
  List.Perm.refl held

/-- Ledgers add up. -/
theorem Balanced.trans {α : Type} [DecidableEq α] {before between after : List α}
    {entered left dropped : List α} (first : Balanced entered left dropped before between)
    {entered' left' dropped' : List α} (next : Balanced entered' left' dropped' between after) :
    Balanced (entered ++ entered') (left ++ left') (dropped ++ dropped') before after := by
  unfold Balanced at first next ⊢
  rw [List.perm_iff_count] at first next ⊢
  intro a
  have firstCount := first a
  have nextCount := next a
  simp only [List.count_append] at firstCount nextCount ⊢
  omega

end FleetDeploy
