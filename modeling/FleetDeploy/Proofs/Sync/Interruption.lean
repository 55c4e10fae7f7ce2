import FleetDeploy.Proofs.Sync.Thinning

/-!
# Thinning out interrupted

Thinning out is many calls, and the store may refuse any of them.  What has been done by
then stands: the releases in front of the one at hand are removed, and those behind it
are as they were.
-/

namespace FleetDeploy.Retention

variable {s : Synchronizer} {root app : List Char} {keep : Nat} {current : UInt64}
  {versions : List UInt64} {before after : Holdings} {exchanges : List (Exchange SyncService)}
  {outcome : Except Stop (Except ReleaseError RetentionReport)} {e : ReleaseError}
  {cause : StoreError}

/-- Deleting releases fails at the first that is not removed. -/
theorem Deleting.exists_cut
    (deleting : Deleting s root app versions exchanges (.ok (.error e))) :
    ∃ gone v spared removed removing, versions = gone ++ v :: spared ∧
      exchanges = removed ++ removing ∧
      (deleteVersions s root app gone).Trace removed (.ok (.ok ())) ∧
      (s.deleteDirectory (Key.versionRoot root app v)).Trace removing (.ok (.error e)) := by
  generalize failed : (.ok (.error e) : Except Stop (Except ReleaseError Unit)) = ended at deleting
  induction deleting with
  | finished | stopped => cases failed
  | @failed v removing _ remove rest =>
      cases failed
      exact ⟨[], v, rest, [], removing, rfl, rfl, .done _, remove⟩
  | @deleted first firstRemoving later count remove rest ended others ih =>
      obtain ⟨gone, v, spared, removed, removing, rfl, rfl, delete, failing⟩ := ih failed
      exact ⟨first :: gone, v, spared, firstRemoving ++ removed, removing, rfl,
        (List.append_assoc _ _ _).symm, remove.bind delete, failing⟩

/-- No number is reported twice. -/
theorem Reports.nodup_deleted {report : RetentionReport}
    (reports : Reports root app keep current before report) : report.deleted.Nodup := by
  refine List.nodup_append.mpr ⟨reports.tooNew_ascending.imp UInt64.ne_of_lt,
    reports.expired_ascending.imp UInt64.ne_of_lt, ?_⟩
  rintro v above w below rfl
  have less := ((reports.mem_tooNew_iff v).mp above).2
  exact UInt64.not_le.mpr less ((reports.mem_expired_iff v).mp below).2.1

/-- How a pass stands that is interrupted while it removes a release: those in front of it
are empty, those behind it are as they were, and so is all else but its own. -/
structure Interrupted (s : Synchronizer) (root app : List Char) (cause : StoreError)
    (before after : Holdings) (exchanges : List (Exchange SyncService)) (gone : List UInt64)
    (v : UInt64) (spared : List UInt64) : Prop where
  calls : ∃ listing removed removing,
    exchanges = ⟨.list s.bucket (Key.appRoot root app) (some ['/']), .ok (.ok listing)⟩ ::
      (removed ++ removing) ∧
    (deleteVersions s root app gone).Trace removed (.ok (.ok ())) ∧
    (s.deleteDirectory (Key.versionRoot root app v)).Trace removing (.ok (.error (.store cause)))
  emptied : ∀ w ∈ gone, ∀ key, Key.versionRoot root app w ++ ['/'] <+: key → after key = none
  untouched : ∀ w ∈ spared, ∀ key, Key.versionRoot root app w ++ ['/'] <+: key →
    after key = before key
  within : ∀ key, after key = before key ∨
    after key = none ∧ ∃ w ∈ gone ++ [v], Key.versionRoot root app w ++ ['/'] <+: key

/-- Where deleting the releases of a report fails, it is interrupted at one of them. -/
theorem exists_interrupted_of_failed (plainRoot : '\\' ∉ root) (plainApp : '\\' ∉ app)
    {listing : Listing} {report : RetentionReport} {deleting : List (Exchange SyncService)}
    (reports : Reports root app keep current before report)
    (delete : (deleteVersions s root app report.deleted).Trace deleting
      (.ok (.error (.store cause))))
    (follows : Follows s.bucket before deleting after) :
    ∃ gone v spared, report.deleted = gone ++ v :: spared ∧
      Interrupted s root app cause before after
        (⟨.list s.bucket (Key.appRoot root app) (some ['/']), .ok (.ok listing)⟩ :: deleting)
        gone v spared := by
  obtain ⟨gone, v, spared, removed, removing, order, rfl, deleted, failing⟩ :=
    (Deleting.of_trace delete).exists_cut
  obtain ⟨between, first, last⟩ := follows_append_iff.mp follows
  have cleared := ((Deleting.of_trace deleted).without first).cleared plainRoot plainApp
  have within := Synchronizer.within_of_trace failing last.listsInside
  rw [Key.directory_versionRoot_of_plain plainRoot plainApp] at within
  have kept (key : Key) (outside : ¬Key.versionRoot root app v ++ ['/'] <+: key) :
      after key = between key := last.eq_of_not_prefix within outside
  have others {w : UInt64} (different : w ≠ v) {key : Key}
      (inside : Key.versionRoot root app w ++ ['/'] <+: key) : after key = between key :=
    kept key fun other => different (Key.eq_of_versionRoot_prefix inside other)
  have once := reports.nodup_deleted
  rw [order, List.nodup_append, List.nodup_cons] at once
  obtain ⟨-, ⟨fresh, -⟩, disjoint⟩ := once
  refine ⟨gone, v, spared, order, ⟨_, _, _, rfl, deleted, failing⟩, ?_, ?_, ?_⟩
  · intro w member key inside
    rw [others (disjoint w member v List.mem_cons_self) inside]
    exact cleared.emptied w member key inside
  · intro w member key inside
    have other : w ≠ v := by
      rintro rfl
      exact fresh member
    rw [others other inside]
    refine cleared.eq_of_notMem (fun early => ?_) inside
    exact disjoint w early w (List.mem_cons_of_mem _ member) rfl
  · intro key
    by_cases inside : ∃ w ∈ gone ++ [v], Key.versionRoot root app w ++ ['/'] <+: key
    · have idle := fun e member => ((Deleting.of_trace delete).plain e member).1
      exact (follows.eq_or_eq_none idle key).imp_right fun empty => ⟨empty, inside⟩
    · push Not at inside
      rw [List.forall_mem_append, List.forall_mem_singleton] at inside
      rw [kept key inside.2, cleared.kept key inside.1]
      exact .inl rfl

/-- What a pass has done by the call that is refused.  Objects are gone only from
directories of numbers that are to go, and unless it was the listing of the app's
directory that was refused, in the order of the report. -/
structure Halted (s : Synchronizer) (root app : List Char) (keep : Nat) (current : UInt64)
    (cause : StoreError) (before after : Holdings) (exchanges : List (Exchange SyncService)) :
    Prop where
  removed : ∀ key, after key = before key ∨ after key = none ∧
    ∃ v ∈ outdated root app keep current before, Key.versionRoot root app v ++ ['/'] <+: key
  ordered : exchanges = [⟨.list s.bucket (Key.appRoot root app) (some ['/']),
      .ok (.error cause)⟩] ∧ after = before ∨
    ∃ report gone v spared, Reports root app keep current before report ∧
      report.deleted = gone ++ v :: spared ∧
      Interrupted s root app cause before after exchanges gone v spared

/-- Thinning out that is refused a call ends there with the cause. -/
theorem halted_of_refused (plainRoot : '\\' ∉ root) (plainApp : '\\' ∉ app)
    {well rest : List (Exchange SyncService)} {failing : Exchange SyncService}
    (trace : (deleteOldVersions s root app keep current).Trace (well ++ failing :: rest) outcome)
    (succeeds : ∀ e ∈ well, e.Succeeds) (refused : failing.Refuses cause)
    (follows : Follows s.bucket before (well ++ failing :: rest) after) :
    (rest = [] ∧ outcome = .ok (.error (.store cause))) ∧
      Halted s root app keep current cause before after (well ++ [failing]) := by
  obtain ⟨rfl, rfl⟩ := (yields_deleteOldVersions s root app keep current).of_refused trace succeeds
    refused
  refine ⟨⟨rfl, rfl⟩, ?_⟩
  rcases trace_deleteOldVersions_iff.mp trace with
    ⟨reason, -, ended⟩ | ⟨cause, calls, ended⟩ | ⟨listing, deleting, result, calls, delete, ended⟩
  · cases ended
  · cases ended
    rw [calls] at follows ⊢
    cases follows with
    | cons effect following =>
        cases following
        obtain rfl : after = before := effect
        exact ⟨fun _ => .inl rfl, .inl ⟨rfl, rfl⟩⟩
  · rcases result with reason | (e | _)
    · cases ended
    · cases ended
      rw [calls] at follows ⊢
      cases follows with
      | cons effect following =>
          obtain ⟨rfl, complete⟩ := effect
          have reports : Reports root app keep current _ _ := reports_plan (complete rfl)
          obtain ⟨gone, v, spared, order, interrupted⟩ :=
            exists_interrupted_of_failed plainRoot plainApp reports delete following
          refine ⟨fun key => ?_, .inr ⟨_, gone, v, spared, reports, order, interrupted⟩⟩
          refine (interrupted.within key).imp_right ?_
          rintro ⟨empty, w, early, inside⟩
          refine ⟨empty, w, reports.mem_deleted_iff.mp ?_, inside⟩
          rw [order, List.append_cons]
          exact List.mem_append_left _ early
    · cases ended

end FleetDeploy.Retention
