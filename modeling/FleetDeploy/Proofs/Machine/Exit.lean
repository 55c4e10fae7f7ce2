import FleetDeploy.Proofs.Machine.Bracket

/-!
# Leases on every way out

The turn of a machine runs to its end, or it is dropped while it waits for a call,
or it panics.  Each way out releases the lease that was acquired: at once where the
turn gets that far, and in the background where it stops before that or while the
release is waited for.  So a lease is released once, and twice only if the release
itself is dropped or panics.
-/

namespace FleetDeploy

/-- The machine and the nonce with which a call releases a lease, be it in the
background. -/
def MachineCall.released? : MachineCall → Option (String × String)
  | .release id nonce => some (id, nonce)
  | .releaseLater id nonce => some (id, nonce)
  | _ => none

namespace Exchange

/-- A call that was dropped while it was waited for, or panicked. -/
def Stopped (e : Exchange MachineService) : Prop :=
  ∃ reason, e.reply = .error reason

/-- An update that is answered with the machine it was asked for, or another
exchange. -/
def AnswersSame : Exchange MachineService → Prop
  | ⟨.update id _ _, .ok (.ok machine)⟩ => machine.id = id
  | _ => True

end Exchange

namespace LeasedMachine

variable {leased updated : LeasedMachine} {input : LaunchInput} {m : Mutation}
  {exchanges : List (Exchange MachineService)}

@[simp]
theorem stopped_updating_iff {r : Except Stop (Except MachineError Machine)} :
    (leased.updating input r).Stopped ↔ ∃ reason, r = .error reason :=
  Iff.rfl

/-- All calls of a submission are updates under the lease. -/
theorem Submission.exists_updating {ended : Except Stop (Except MachineError LeasedMachine)}
    (submission : leased.Submission input exchanges ended) :
    ∀ e ∈ exchanges, ∃ asked r, e = leased.updating asked r := by
  cases submission with
  | stopped | accepted | refused | overflowed =>
      rw [List.forall_mem_singleton]
      exact ⟨_, _, rfl⟩
  | retried | retryStopped =>
      rw [List.forall_mem_cons, List.forall_mem_singleton]
      exact ⟨⟨_, _, rfl⟩, _, _, rfl⟩

/-- A submission stops exactly if one of its calls does or a repair overflows. -/
theorem Submission.stopped_iff {ended : Except Stop (Except MachineError LeasedMachine)}
    (submission : leased.Submission input exchanges ended) :
    (∃ reason, ended = .error reason) ↔
      (∃ e ∈ exchanges, e.Stopped) ∨ ended = .error overflowStop := by
  cases submission <;> simp

/-- A submission that is accepted keeps the machine, if updates are answered with the
machine they were asked for. -/
theorem Submission.id_eq
    (submission : leased.Submission input exchanges (.ok (.ok updated)))
    (same : ∀ e ∈ exchanges, e.AnswersSame) : updated.machine.id = leased.machine.id := by
  generalize equal : (Except.ok (.ok updated) : Except Stop (Except MachineError _)) = ended
    at submission
  cases submission with
  | stopped | refused | overflowed | retryStopped => cases equal
  | accepted machine =>
      cases equal
      exact same _ (List.mem_singleton_self _)
  | retried repaired answer =>
      cases answer with
      | error cause => cases equal
      | ok machine =>
          cases equal
          exact same _ (List.mem_cons_of_mem _ (List.mem_singleton_self _))

/-- All calls of a change are updates under the lease. -/
theorem Change.exists_updating {ended : Except Stop (LeasedMachine × Except FleetError Unit)}
    (change : leased.Change m exchanges ended) :
    ∀ e ∈ exchanges, ∃ asked r, e = leased.updating asked r := by
  cases change with
  | unknown asked => exact nofun
  | submitted asked submission => exact submission.exists_updating

theorem Change.stopped_iff {ended : Except Stop (LeasedMachine × Except FleetError Unit)}
    (change : leased.Change m exchanges ended) :
    (∃ reason, ended = .error reason) ↔
      (∃ e ∈ exchanges, e.Stopped) ∨ ended = .error overflowStop := by
  cases change with
  | unknown asked => simp
  | @submitted guest asked _ ended submission =>
      have stopped := submission.stopped_iff
      cases ended with
      | error reason => simpa [Except.map] using stopped
      | ok result => simpa [Except.map] using stopped

/-- A change that ends keeps the machine and its lease. -/
theorem Change.same_lease {result : Except FleetError Unit}
    (change : leased.Change m exchanges (.ok (updated, result)))
    (same : ∀ e ∈ exchanges, e.AnswersSame) :
    updated.machine.id = leased.machine.id ∧ updated.lease = leased.lease := by
  generalize equal : (Except.ok (updated, result) : Except Stop _) = ended at change
  cases change with
  | unknown asked =>
      cases equal
      exact ⟨rfl, rfl⟩
  | @submitted guest asked _ ended submission =>
      rcases ended with reason | (cause | accepted)
      · cases equal
      · cases equal
        exact ⟨rfl, rfl⟩
      · cases equal
        exact ⟨submission.id_eq same, Fleet.lease_of_submission submission⟩

end LeasedMachine

namespace Fleet

/-- The machines and the nonces of the releases that were called, in their order. -/
def releases (exchanges : List (Exchange MachineService)) : List (String × String) :=
  exchanges.filterMap (·.call.released?)

/-- What has become of a lease when a turn is over: it has been released a number of
times, and nothing else has been.  The turn runs to its end unless a call stops or a
repair overflows. -/
structure Released (id nonce : String) (exchanges : List (Exchange MachineService))
    (outcome : Except Stop (Except FleetError Machine)) (times : Nat) : Prop where
  releases_eq : releases exchanges = List.replicate times (id, nonce)
  least : 1 ≤ times
  most : times ≤ 2
  once : ∀ result, outcome = .ok result → times = 1
  twice_iff : times = 2 ↔ ∃ reason, ⟨.release id nonce, .error reason⟩ ∈ exchanges
  stopped_iff : (∃ reason, outcome = .error reason) ↔
    (∃ e ∈ exchanges, e.Stopped) ∨ outcome = .error overflowStop

variable {ttlSecs : UInt64} {m : Mutation} {machine : Machine} {lease : Lease}
  {exchanges : List (Exchange MachineService)}

theorem releases_append (first rest : List (Exchange MachineService)) :
    releases (first ++ rest) = releases first ++ releases rest :=
  List.filterMap_append

/-- A change releases nothing. -/
theorem releases_of_change {leased : LeasedMachine}
    {ended : Except Stop (LeasedMachine × Except FleetError Unit)}
    (change : leased.Change m exchanges ended) : releases exchanges = [] := by
  apply List.filterMap_eq_nil_iff.mpr
  intro e member
  obtain ⟨asked, r, rfl⟩ := change.exists_updating e member
  rfl

/-- The calls of a change are neither an acquisition nor a release. -/
theorem notMem_of_change {leased : LeasedMachine}
    {ended : Except Stop (LeasedMachine × Except FleetError Unit)}
    (change : leased.Change m exchanges ended) {e : Exchange MachineService}
    (other : ∀ id nonce input, e.call ≠ .update id nonce input) : e ∉ exchanges := by
  intro member
  obtain ⟨asked, r, rfl⟩ := change.exists_updating e member
  exact other _ _ _ rfl

/-- What a turn with a lease releases, it releases after its change. -/
theorem releases_of_leased {leased : LeasedMachine}
    {ended : Except Stop (LeasedMachine × Except FleetError Unit)}
    (change : leased.Change m exchanges ended) (rest : List (Exchange MachineService)) :
    releases (⟨.acquire machine.id ttlSecs, .ok (.ok lease)⟩ :: (exchanges ++ rest)) =
      releases rest := by
  have acquired : releases [⟨.acquire machine.id ttlSecs, .ok (.ok lease)⟩] = [] := rfl
  rw [← List.singleton_append, releases_append, releases_append, acquired,
    releases_of_change change, List.nil_append, List.nil_append]

/-- A change that stops leaves the lease to the background. -/
theorem released_of_broken {reason : Stop}
    (change : LeasedMachine.Change ⟨machine, lease⟩ m exchanges (.error reason))
    (swept : Except Stop Unit) :
    Released machine.id lease.nonce
      (⟨.acquire machine.id ttlSecs, .ok (.ok lease)⟩ ::
        (exchanges ++ [LeasedMachine.abandoning ⟨machine, lease⟩ swept]))
      (swept >>= fun _ => .error reason) 1 where
  releases_eq := releases_of_leased change _
  least := Nat.le_refl 1
  most := Nat.le_succ 1
  once := fun _ _ => rfl
  twice_iff := by simp [notMem_of_change change, LeasedMachine.abandoning]
  stopped_iff := by
    cases swept with
    | error later =>
        have member : LeasedMachine.abandoning ⟨machine, lease⟩ (.error later) ∈
            ⟨.acquire machine.id ttlSecs, .ok (.ok lease)⟩ ::
              (exchanges ++ [LeasedMachine.abandoning ⟨machine, lease⟩ (.error later)]) := by
          simp
        exact iff_of_true ⟨later, rfl⟩ (.inl ⟨_, member, later, rfl⟩)
    | ok =>
        refine iff_of_true ⟨reason, rfl⟩ ?_
        rcases change.stopped_iff.mp ⟨reason, rfl⟩ with ⟨e, member, stopped⟩ | overflowed
        · exact .inl ⟨e, List.mem_cons_of_mem _ (List.mem_append_left _ member), stopped⟩
        · cases overflowed
          exact .inr rfl

/-- After a change that ended the lease is released, and once more in the background if
that release stops. -/
theorem exists_released_of_returned {rest : List (Exchange MachineService)}
    {leased : LeasedMachine} {result : Except FleetError Unit} {ended : Except Stop Machine}
    (change : LeasedMachine.Change ⟨machine, lease⟩ m exchanges (.ok (leased, result)))
    (release : leased.Release rest ended) (same : ∀ e ∈ exchanges, e.AnswersSame) :
    ∃ times, Released machine.id lease.nonce
      (⟨.acquire machine.id ttlSecs, .ok (.ok lease)⟩ :: (exchanges ++ rest))
      (ended.map fun machine => result.map fun _ => machine) times := by
  obtain ⟨sameId, sameLease⟩ := change.same_lease same
  have calm : ∀ e ∈ exchanges, ¬e.Stopped := by
    intro e member stopped
    obtain ⟨reason, equal⟩ := change.stopped_iff.mpr (.inl ⟨e, member, stopped⟩)
    cases equal
  cases release with
  | given reply =>
      refine ⟨1, ?_, Nat.le_refl 1, Nat.le_succ 1, fun _ _ => rfl, ?_, ?_⟩
      · rw [releases_of_leased change, LeasedMachine.releasing, sameId, sameLease]
        rfl
      · simp [notMem_of_change change, LeasedMachine.releasing]
      · apply iff_of_false
        · rintro ⟨reason, equal⟩
          cases equal
        · rintro (⟨e, member, reason, stopped⟩ | overflowed)
          · simp only [List.mem_cons, List.mem_append, List.not_mem_nil, or_false] at member
            rcases member with rfl | member | rfl
            · cases stopped
            · exact calm e member ⟨reason, stopped⟩
            · cases stopped
          · cases overflowed
  | left reason swept =>
      have stopping : leased.releasing (.error reason) =
          ⟨.release machine.id lease.nonce, .error reason⟩ := by
        rw [LeasedMachine.releasing, sameId, sameLease]
      have member : (⟨.release machine.id lease.nonce, .error reason⟩ : Exchange MachineService) ∈
          ⟨.acquire machine.id ttlSecs, .ok (.ok lease)⟩ ::
            (exchanges ++ [leased.releasing (.error reason), leased.abandoning swept]) := by
        rw [stopping]
        simp
      refine ⟨2, ?_, Nat.le_succ 1, Nat.le_refl 2, ?_, iff_of_true rfl ⟨reason, member⟩, ?_⟩
      · rw [releases_of_leased change, LeasedMachine.releasing, LeasedMachine.abandoning, sameId,
          sameLease]
        rfl
      · intro ended equal
        cases swept <;> cases equal
      · refine iff_of_true ?_ (.inl ⟨_, member, reason, rfl⟩)
        cases swept with
        | error later => exact ⟨later, rfl⟩
        | ok => exact ⟨reason, rfl⟩

/-- However the turn of a machine ends, the lease that it acquired has been released by
then with its own nonce: once if the turn ran to its end, and otherwise once or twice,
twice exactly if the release was dropped or panicked.  A turn that acquired no lease
releases none. -/
theorem updateMachine_released {outcome : Except Stop (Except FleetError Machine)}
    (trace : (updateMachine ttlSecs m machine).Trace exchanges outcome)
    (same : ∀ e ∈ exchanges, e.AnswersSame) :
    (∀ lease, ⟨.acquire machine.id ttlSecs, .ok (.ok lease)⟩ ∈ exchanges →
      ∃ times, Released machine.id lease.nonce exchanges outcome times) ∧
    ((∀ lease, ⟨.acquire machine.id ttlSecs, .ok (.ok lease)⟩ ∉ exchanges) →
      releases exchanges = []) := by
  cases trace_updateMachine_iff.mp trace with
  | stopped reason => exact ⟨by simp, fun _ => rfl⟩
  | denied cause => exact ⟨by simp, fun _ => rfl⟩
  | @broken lease changes reason change swept =>
      refine ⟨fun acquired member => ?_, fun none => absurd List.mem_cons_self (none lease)⟩
      obtain rfl : acquired = lease := by
        simpa [notMem_of_change change, LeasedMachine.abandoning] using member
      exact ⟨1, released_of_broken change swept⟩
  | @returned lease changes rest leased result ended change release =>
      refine ⟨fun acquired member => ?_, fun none => absurd List.mem_cons_self (none lease)⟩
      obtain rfl : acquired = lease := by
        cases release <;>
          simpa [notMem_of_change change, LeasedMachine.releasing, LeasedMachine.abandoning]
            using member
      rw [List.forall_mem_cons, List.forall_mem_append] at same
      exact exists_released_of_returned change release same.2.1

/-- The lease of the turn below. -/
def turnLease : Lease :=
  ⟨"n", "operator", ⟨0, 0⟩⟩

/-- A turn whose update is rejected, repaired and then accepted, and that is dropped while
it waits for the release. -/
def droppedTurn : List (Exchange MachineService) :=
  let leased : LeasedMachine := ⟨idleMachine "a", turnLease⟩
  let input := (LaunchInput.ofMachine leased.machine).withGuest ⟨.shared, 1, 300⟩
  [⟨.acquire "a" 30, .ok (.ok turnLease)⟩,
    leased.updating input (.ok (.error (.rejected (.notMultipleOf 256)))),
    leased.updating (input.withGuest ⟨.shared, 1, 512⟩) (.ok (.ok (idleMachine "a"))),
    leased.releasing (.error .expired), leased.abandoning (.ok ())]

theorem droppedTurn_released :
    (updateMachine 30 ⟨none, some 300, none⟩ (idleMachine "a")).Trace droppedTurn
        (.error .expired) ∧
      (∀ e ∈ droppedTurn, e.AnswersSame) ∧
      ⟨.acquire "a" 30, .ok (.ok turnLease)⟩ ∈ droppedTurn ∧
      ∃ times, Released "a" "n" droppedTurn (.error .expired) times := by
  have repaired : (Rejection.notMultipleOf 256).repair ⟨.shared, 1, 300⟩ =
      .repaired ⟨.shared, 1, 512⟩ := by decide
  have change : LeasedMachine.Change ⟨idleMachine "a", turnLease⟩ ⟨none, some 300, none⟩
      ((droppedTurn.drop 1).take 2) _ :=
    .submitted rfl (.retried repaired (.ok (idleMachine "a")))
  have turn : Turn 30 ⟨none, some 300, none⟩ (idleMachine "a") droppedTurn (.error .expired) :=
    .returned turnLease change (.left .expired (.ok ()))
  have trace := trace_updateMachine_iff.mpr turn
  have same : ∀ e ∈ droppedTurn, e.AnswersSame := by
    simp [droppedTurn, LeasedMachine.updating, LeasedMachine.releasing, LeasedMachine.abandoning,
      Exchange.AnswersSame]
  exact ⟨trace, same, List.mem_cons_self,
    (updateMachine_released trace same).1 turnLease List.mem_cons_self⟩

end Fleet

end FleetDeploy
