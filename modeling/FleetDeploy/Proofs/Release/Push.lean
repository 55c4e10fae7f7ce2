import FleetDeploy.Proofs.Sync.Cleanup
import FleetDeploy.Release.Push

/-!
# Failed pushes are compensated

A push whose upload fails or panics reports that failure and removes what it has
uploaded.  Everything it may have written is in the directory of its release, no
upload is in flight when the cleanup starts, and nothing is uploaded after that.
-/

namespace FleetDeploy

namespace Exchange

/-- An exchange of synchronisation as a part of a release. -/
def ofSync (e : Exchange SyncService) : Exchange ReleaseService :=
  ⟨.sync e.call, e.reply⟩

/-- The exchange of synchronisation that an exchange of a release is. -/
def sync? : Exchange ReleaseService → Option (Exchange SyncService)
  | ⟨.sync call, reply⟩ => some ⟨call, reply⟩
  | _ => none

/-- The assets that an exchange of a release leaves in the configuration. -/
def statics? : Exchange ReleaseService → Option (List StaticAsset)
  | ⟨.setStatics statics, .ok ()⟩ => some statics
  | _ => none

end Exchange

theorem filterMap_sync?_map_ofSync (exchanges : List (Exchange SyncService)) :
    (exchanges.map Exchange.ofSync).filterMap Exchange.sync? = exchanges := by
  rw [List.filterMap_map]
  exact List.filterMap_some

/-- Telling the configuration is no synchronisation. -/
theorem filterMap_sync?_of_told (exchanges : List (Exchange SyncService))
    (statics : List StaticAsset) (r : Except Stop Unit) :
    (exchanges.map Exchange.ofSync ++ [(⟨.setStatics statics, r⟩ : Exchange ReleaseService)]
      ).filterMap Exchange.sync? = exchanges := by
  rw [List.filterMap_append, filterMap_sync?_map_ofSync]
  exact List.append_nil exchanges

/-- Synchronisation leaves the configuration alone. -/
theorem filterMap_statics?_map_ofSync (exchanges : List (Exchange SyncService)) :
    (exchanges.map Exchange.ofSync).filterMap Exchange.statics? = [] := by
  rw [List.filterMap_map]
  exact List.filterMap_eq_nil_iff.mpr fun _ _ => rfl

/-- Synchronisation makes the same calls as a part of a release. -/
theorem ReleaseService.trace_sync_iff {α : Type} {p : Program SyncService α}
    {exchanges : List (Exchange ReleaseService)} {outcome : Except Stop α} :
    (ReleaseService.sync p).Trace exchanges outcome ↔
      ∃ inner, exchanges = inner.map Exchange.ofSync ∧ p.Trace inner outcome := by
  have kept {α : Type} (r : Except Stop α) : r.map (fun reply => reply) = r := by
    cases r <;> rfl
  rw [ReleaseService.sync, Program.trace_embed_iff]
  constructor
  · rintro ⟨inner, rfl, trace⟩
    refine ⟨_, ?_, trace⟩
    rw [List.map_map]
    exact List.map_congr_left fun e _ => congrArg (Exchange.mk _) (kept e.2).symm
  · rintro ⟨inner, rfl, trace⟩
    refine ⟨inner.map fun e => ⟨e.call, e.reply⟩, ?_, ?_⟩
    · rw [List.map_map]
      rfl
    · rw [List.map_map]
      have same : ((fun e : (c : SyncCall) × Except Stop (SyncService.Reply c) =>
          (⟨e.1, e.2.map fun reply => reply⟩ : Exchange SyncService)) ∘
          fun e : Exchange SyncService => ⟨e.call, e.reply⟩) = id :=
        funext fun e => congrArg (Exchange.mk e.call) (kept e.reply)
      rw [show inner.map _ = inner from (congrArg (inner.map ·) same).trans (List.map_id inner)]
      exact trace

namespace ReleaseContext

/-- How uploading assets can go: each in turn, up to the first that fails. -/
inductive Uploading (c : ReleaseContext) : Nat → List StaticAsset →
    List (Exchange SyncService) → Except Stop (Except ReleaseError PushReport) → Prop
  | finished (place : Nat) : Uploading c place [] [] (.ok (.ok []))
  | stopped {place : Nat} {asset : StaticAsset} {exchanges : List (Exchange SyncService)}
      {reason : Stop} (replacement : c.sync.Replacement false (c.dest place) (c.localRoot asset)
        exchanges (.error reason)) (rest : List StaticAsset) :
      Uploading c place (asset :: rest) exchanges (.error reason)
  | failed {place : Nat} {asset : StaticAsset} {exchanges : List (Exchange SyncService)}
      {e : ReleaseError} (replacement : c.sync.Replacement false (c.dest place)
        (c.localRoot asset) exchanges (.ok (.error e))) (rest : List StaticAsset) :
      Uploading c place (asset :: rest) exchanges (.ok (.error e))
  | next {place : Nat} {asset : StaticAsset} {first later : List (Exchange SyncService)}
      {summary : SyncSummary} (replacement : c.sync.Replacement false (c.dest place)
        (c.localRoot asset) first (.ok (.ok summary))) {rest : List StaticAsset}
      {ended : Except Stop (Except ReleaseError PushReport)}
      (others : Uploading c (place + 1) rest later ended) :
      Uploading c place (asset :: rest) (first ++ later)
        (ended.map fun result => result.map (⟨c.entry place asset, summary⟩ :: ·))

variable {c : ReleaseContext} {place : Nat} {assets : List StaticAsset}
  {exchanges : List (Exchange SyncService)}
  {ended : Except Stop (Except ReleaseError PushReport)} {before after : Holdings}

theorem Uploading.of_trace (trace : (c.uploadFrom place assets).Trace exchanges ended) :
    Uploading c place assets exchanges ended := by
  induction assets generalizing place exchanges ended with
  | nil =>
      obtain ⟨rfl, rfl⟩ := Program.trace_done_iff.mp trace
      exact .finished place
  | cons asset rest ih =>
      rw [uploadFrom] at trace
      rcases Program.trace_bind_iff.mp trace with
        ⟨result, first, later, rfl, replace, tail⟩ | ⟨reason, rfl, replace⟩
      · cases result with
        | error e =>
            obtain ⟨rfl, rfl⟩ := Program.trace_done_iff.mp tail
            rw [List.append_nil]
            exact .failed (.of_trace replace) rest
        | ok summary =>
            change Program.Trace (c.uploadFrom (place + 1) rest >>= _) _ _ at tail
            rw [Program.trace_bind_map_iff
              (g := Except.map (⟨c.entry place asset, summary⟩ :: ·))
              (by rintro (e | others) <;> rfl)] at tail
            obtain ⟨ended, others, rfl⟩ := tail
            exact .next (.of_trace replace) (ih others)
      · exact .stopped (.of_trace replace) rest

/-- Uploading assets from a place on touches only keys in the directories of those
places. -/
theorem Uploading.within_places (uploading : Uploading c place assets exchanges ended)
    (inside : ∀ e ∈ exchanges, e.ListsInside c.sync.bucket) :
    ∀ e ∈ exchanges, ∀ k ∈ e.touched, ∃ p, place ≤ p ∧ Key.directory (c.dest p) <+: k := by
  induction uploading with
  | finished => exact nofun
  | @stopped place _ _ _ replacement | @failed place _ _ _ replacement =>
      exact fun e member k touched =>
        ⟨place, Nat.le_refl _, replacement.within inside e member k touched⟩
  | @next place _ _ _ _ replacement _ _ others ih =>
      rw [List.forall_mem_append] at inside ⊢
      constructor
      · exact fun e member k touched =>
          ⟨place, Nat.le_refl _, replacement.within inside.1 e member k touched⟩
      · intro e member k touched
        obtain ⟨p, further, below⟩ := ih inside.2 e member k touched
        exact ⟨p, Nat.le_of_succ_le further, below⟩

/-- Uploading assets touches only keys in the directory of the release. -/
theorem Uploading.within (uploading : Uploading c place assets exchanges ended)
    (inside : ∀ e ∈ exchanges, e.ListsInside c.sync.bucket) :
    ∀ e ∈ exchanges, ∀ k ∈ e.touched, Key.directory c.versionRoot <+: k := by
  intro e member k touched
  obtain ⟨p, -, below⟩ := uploading.within_places inside e member k touched
  exact (Key.directory_versionRoot_prefix_staticDest p).trans below

/-- A release whose trees have a file between them holds something once its assets
are uploaded. -/
theorem Uploading.exists_held {report : PushReport} {tree : Path} {files : List LocalFile}
    (uploading : Uploading c place assets exchanges (.ok (.ok report)))
    (follows : Follows c.sync.bucket before exchanges after) (nonempty : files ≠ [])
    (found : ⟨.walk tree, .ok (some files)⟩ ∈ exchanges) :
    ∃ key, Key.directory c.versionRoot <+: key ∧ after key ≠ none := by
  generalize done : (.ok (.ok report) : Except Stop (Except ReleaseError PushReport)) = ended
    at uploading
  induction uploading generalizing before report with
  | finished => cases found
  | stopped | failed => cases done
  | @next place asset _ _ _ replacement _ ended others ih =>
      obtain ⟨between, first, later⟩ := follows_append_iff.mp follows
      rcases List.mem_append.mp found with here | there
      · obtain ⟨key, below, held⟩ := replacement.exists_held first nonempty here
        refine ⟨key, (Key.directory_versionRoot_prefix_staticDest place).trans below, ?_⟩
        rwa [later.eq_of_notMem]
        intro e member touched
        obtain ⟨p, further, other⟩ := others.within_places later.listsInside e member key touched
        have same : place = p := Key.eq_of_directory_staticDest_prefix below other
        omega
      · rcases ended with reason | (e | report)
        · cases done
        · cases done
        · exact ih later there rfl

/-- When uploading has ended, however it did, no upload is in flight. -/
theorem Uploading.settled (uploading : Uploading c place assets exchanges ended) :
    Settled exchanges := by
  induction uploading with
  | finished => exact settled_of_upload?_eq_none nofun
  | stopped replacement | failed replacement => exact replacement.settled
  | next replacement others ih => exact replacement.settled.append ih

theorem Uploading.untimed (uploading : Uploading c place assets exchanges ended) :
    ∀ e ∈ exchanges, e.isTimer = false := by
  induction uploading with
  | finished => exact nofun
  | stopped replacement | failed replacement => exact replacement.untimed
  | next replacement others ih =>
      rw [List.forall_mem_append]
      exact ⟨replacement.untimed, ih⟩

/-- Assets that were uploaded, each in a run of its own. -/
inductive Uploaded (c : ReleaseContext) :
    Nat → List StaticAsset → List (List (Exchange SyncService)) → PushReport → Prop
  | finished (place : Nat) : Uploaded c place [] [] []
  | next {place : Nat} {asset : StaticAsset} {run : List (Exchange SyncService)}
      {summary : SyncSummary}
      (upload : (c.sync.uploadDirectory (c.dest place) (c.localRoot asset)).Trace run
        (.ok (.ok summary))) {rest : List StaticAsset} {runs : List (List (Exchange SyncService))}
      {report : PushReport} (others : Uploaded c (place + 1) rest runs report) :
      Uploaded c place (asset :: rest) (run :: runs) (⟨c.entry place asset, summary⟩ :: report)

theorem exists_uploaded {report : PushReport}
    (trace : (c.uploadFrom place assets).Trace exchanges (.ok (.ok report))) :
    ∃ runs, exchanges = runs.flatten ∧ c.Uploaded place assets runs report := by
  induction assets generalizing place exchanges report with
  | nil =>
      obtain ⟨rfl, equal⟩ := Program.trace_done_iff.mp trace
      cases equal
      exact ⟨[], rfl, .finished place⟩
  | cons asset rest ih =>
      rw [uploadFrom] at trace
      rcases Program.trace_bind_iff.mp trace with
        ⟨result, run, later, rfl, upload, tail⟩ | ⟨reason, equal, -⟩
      · cases result with
        | error e =>
            obtain ⟨-, equal⟩ := Program.trace_done_iff.mp tail
            cases equal
        | ok summary =>
            rcases Program.trace_bind_iff.mp tail with
              ⟨result, first, last, rfl, others, ended⟩ | ⟨reason, equal, -⟩
            · cases result with
              | error e =>
                  obtain ⟨-, equal⟩ := Program.trace_done_iff.mp ended
                  cases equal
              | ok report =>
                  obtain ⟨rfl, equal⟩ := Program.trace_done_iff.mp ended
                  cases equal
                  obtain ⟨runs, rfl, uploaded⟩ := ih others
                  exact ⟨run :: runs, by simp, .next upload uploaded⟩
            · cases equal
      · cases equal

variable {runs : List (List (Exchange SyncService))} {report : PushReport}

theorem Uploaded.length_eq (uploaded : c.Uploaded place assets runs report) :
    runs.length = assets.length ∧ report.length = assets.length := by
  induction uploaded with
  | finished => exact ⟨rfl, rfl⟩
  | next upload others ih => simp [ih]

/-- Each asset has its run and its part of the report. -/
theorem Uploaded.exists_run (uploaded : c.Uploaded place assets runs report) {i : Nat}
    {asset : StaticAsset} (declared : assets[i]? = some asset) :
    ∃ run summary, runs[i]? = some run ∧
      report[i]? = some ⟨c.entry (place + i) asset, summary⟩ ∧
      (c.sync.uploadDirectory (c.dest (place + i)) (c.localRoot asset)).Trace run
        (.ok (.ok summary)) := by
  induction uploaded generalizing i with
  | finished => cases declared
  | @next place _ run summary upload _ _ _ others ih =>
      cases i with
      | zero =>
          cases declared
          exact ⟨run, summary, rfl, rfl, upload⟩
      | succ i =>
          rw [← Nat.add_assoc, Nat.add_right_comm]
          exact ih declared

/-- How a push can go: its assets are uploaded and the configuration is told, or
the upload fails and the directory of the release is cleaned up. -/
inductive Pushing (c : ReleaseContext) (statics : List StaticAsset) :
    List (Exchange ReleaseService) → Except Stop (Except ReleaseError PushReport) → Prop
  | published {uploading : List (Exchange SyncService)} {report : PushReport}
      (upload : (c.uploadFrom 0 c.candidates).Trace uploading (.ok (.ok report)))
      (r : Except Stop Unit) :
      Pushing c statics
        (uploading.map Exchange.ofSync ++ [⟨.setStatics (statics ++ report.statics), r⟩])
        (r.map fun _ => .ok report)
  | compensated {uploading cleaning : List (Exchange SyncService)}
      {ended : Except Stop (Except ReleaseError PushReport)} {e : ReleaseError}
      {cleaned : Except Stop CleanupOutcome}
      (upload : (c.uploadFrom 0 c.candidates).Trace uploading ended)
      (failed : pushResult ended = .error e)
      (cleanup : (c.sync.cleanup c.versionRoot (1000 * c.cleanupTimeoutSecs.toNat)).Trace
        cleaning cleaned) :
      Pushing c statics (uploading.map Exchange.ofSync ++ cleaning.map Exchange.ofSync)
        (cleaned.map fun _ => .error e)

theorem pushResult_eq_ok_iff {report : PushReport} :
    pushResult ended = .ok report ↔ ended = .ok (.ok report) := by
  constructor
  · intro pushed
    rcases ended with (text | _) | result
    · cases pushed
    · cases pushed
    · exact congrArg Except.ok pushed
  · rintro rfl
    rfl

theorem Pushing.of_trace {statics : List StaticAsset} {exchanges : List (Exchange ReleaseService)}
    {outcome : Except Stop (Except ReleaseError PushReport)}
    (trace : (c.push statics).Trace exchanges outcome) : Pushing c statics exchanges outcome := by
  simp only [push, Program.trace_bind_iff, Program.trace_attempt_iff,
    ReleaseService.trace_sync_iff] at trace
  rcases trace with
    ⟨ended, _, rest, rfl, ⟨_, ⟨⟩, uploading, rfl, upload⟩, tail⟩ | ⟨_, _, _, ⟨⟩, _⟩
  cases result : pushResult ended with
  | ok report =>
      rw [result] at tail
      rw [pushResult_eq_ok_iff] at result
      subst result
      obtain ⟨r, nothing, rfl, done⟩ := Program.trace_call_iff.mp tail
      cases r with
      | error reason =>
          obtain ⟨rfl, rfl⟩ := Program.trace_stop_iff.mp done
          exact .published upload (.error reason)
      | ok =>
          obtain ⟨rfl, rfl⟩ := Program.trace_done_iff.mp done
          exact .published upload (.ok ())
  | error e =>
      rw [result] at tail
      simp only [Program.trace_bind_iff, ReleaseService.trace_sync_iff] at tail
      rcases tail with
        ⟨cleaned, _, last, rfl, ⟨cleaning, rfl, cleanup⟩, done⟩ |
          ⟨reason, rfl, cleaning, rfl, cleanup⟩
      · obtain ⟨rfl, rfl⟩ := Program.trace_done_iff.mp done
        rw [List.append_nil]
        exact .compensated upload result cleanup
      · exact .compensated upload result cleanup

/-- However a push goes, it touches only keys in the directory of its release. -/
theorem Pushing.within {statics : List StaticAsset} {exchanges : List (Exchange ReleaseService)}
    {outcome : Except Stop (Except ReleaseError PushReport)}
    (pushing : Pushing c statics exchanges outcome)
    (inside : ∀ e ∈ exchanges.filterMap Exchange.sync?, e.ListsInside c.sync.bucket) :
    ∀ e ∈ exchanges.filterMap Exchange.sync?, ∀ k ∈ e.touched,
      Key.directory c.versionRoot <+: k := by
  cases pushing with
  | published upload r =>
      rw [filterMap_sync?_of_told] at inside ⊢
      exact (Uploading.of_trace upload).within inside
  | compensated upload failed cleanup =>
      rw [List.filterMap_append, filterMap_sync?_map_ofSync, filterMap_sync?_map_ofSync,
        List.forall_mem_append] at inside ⊢
      exact ⟨(Uploading.of_trace upload).within inside.1,
        (Synchronizer.Cleaning.of_trace cleanup).within inside.2⟩

/-- A push that did not succeed has left the configuration alone. -/
theorem Pushing.untold {statics : List StaticAsset} {exchanges : List (Exchange ReleaseService)}
    {outcome : Except Stop (Except ReleaseError PushReport)}
    (pushing : Pushing c statics exchanges outcome)
    (failed : ∀ report, outcome ≠ .ok (.ok report)) :
    exchanges.filterMap Exchange.statics? = [] := by
  cases pushing with
  | published upload r =>
      cases r with
      | error reason =>
          rw [List.filterMap_append, filterMap_statics?_map_ofSync]
          rfl
      | ok => exact absurd rfl (failed _)
  | compensated =>
      rw [List.filterMap_append, filterMap_statics?_map_ofSync, filterMap_statics?_map_ofSync]
      rfl

/-- Where the assets are uploaded, the configuration is told, and that is the push. -/
theorem trace_push_of_uploaded {uploading : List (Exchange SyncService)} {report : PushReport}
    (upload : (c.uploadFrom 0 c.candidates).Trace uploading (.ok (.ok report)))
    (statics : List StaticAsset) :
    (c.push statics).Trace
      (uploading.map Exchange.ofSync ++ [⟨.setStatics (statics ++ report.statics), .ok ()⟩])
      (.ok (.ok report)) := by
  have sync := ReleaseService.trace_sync_iff.mpr ⟨uploading, rfl, upload⟩
  have attempted := Program.trace_attempt_iff.mpr ⟨_, rfl, sync⟩
  exact attempted.bind (.call (I := ReleaseService) (c := .setStatics _) (.ok ()) (.done _))

/-- Where uploading the assets fails, the cleanup is the rest of the push. -/
theorem trace_push_of_failed {uploading cleaning : List (Exchange SyncService)} {e : ReleaseError}
    {cleaned : Except Stop CleanupOutcome}
    (upload : (c.uploadFrom 0 c.candidates).Trace uploading ended)
    (failed : pushResult ended = .error e)
    (cleanup : (c.sync.cleanup c.versionRoot (1000 * c.cleanupTimeoutSecs.toNat)).Trace
      cleaning cleaned) (statics : List StaticAsset) :
    (c.push statics).Trace (uploading.map Exchange.ofSync ++ cleaning.map Exchange.ofSync)
      (cleaned.map fun _ => .error e) := by
  have sync := ReleaseService.trace_sync_iff.mpr ⟨uploading, rfl, upload⟩
  have attempted := Program.trace_attempt_iff.mpr ⟨_, rfl, sync⟩
  refine attempted.bind ?_
  rw [failed]
  exact (Program.trace_bind_map_iff fun _ => rfl).mpr
    ⟨cleaned, ReleaseService.trace_sync_iff.mpr ⟨cleaning, rfl, cleanup⟩, rfl⟩

/-- Finalizing a release is thinning out the releases of its app. -/
theorem trace_finalize_iff {exchanges : List (Exchange ReleaseService)}
    {outcome : Except Stop (Option RetentionReport)} :
    c.finalize.Trace exchanges outcome ↔
      ∃ thinning result, exchanges = thinning.map Exchange.ofSync ∧
        outcome = result.map Except.toOption ∧
        (Retention.deleteOldVersions c.sync c.storageRoot.toList c.appName.toList
          c.keepVersions.toNat c.release.version).Trace thinning result := by
  refine (Program.trace_bind_map_iff fun _ => rfl).trans ?_
  simp only [ReleaseService.trace_sync_iff]
  constructor
  · rintro ⟨result, ⟨thinning, rfl, thins⟩, rfl⟩
    exact ⟨thinning, result, rfl, rfl, thins⟩
  · rintro ⟨thinning, result, rfl, rfl, thins⟩
    exact ⟨result, ⟨thinning, rfl, thins⟩, rfl⟩

/-- The last asset is uploaded in the calls of its directory. -/
theorem trace_uploadFrom_of_last {uploading : List (Exchange SyncService)} {asset : StaticAsset}
    {summary : SyncSummary}
    (upload : (c.sync.uploadDirectory (c.dest place) (c.localRoot asset)).Trace uploading
      (.ok (.ok summary))) :
    (c.uploadFrom place [asset]).Trace uploading (.ok (.ok [⟨c.entry place asset, summary⟩])) := by
  rw [uploadFrom, ← List.append_nil uploading]
  exact upload.bind (Program.trace_bind_iff.mpr (.inl ⟨_, [], [], rfl, .done _, .done _⟩))

/-- The only asset of a release, with one file in its tree, is pushed by one worker. -/
theorem trace_push_of_single {asset : StaticAsset} (only : c.candidates = [asset])
    (alone : c.sync.workers = 1) (file : LocalFile) (body : List UInt8)
    (statics : List StaticAsset) :
    (c.push statics).Trace
      ((c.sync.singleUpload (c.dest 0) (c.localRoot asset) file body).map Exchange.ofSync ++
        [⟨.setStatics (statics ++ [c.entry 0 asset]), .ok ()⟩])
      (.ok (.ok [⟨c.entry 0 asset, ⟨0, 1⟩⟩])) := by
  have upload := Synchronizer.trace_singleUpload alone (c.dest 0) (c.localRoot asset) file body
  have uploading := trace_uploadFrom_of_last upload
  rw [← only] at uploading
  exact trace_push_of_uploaded uploading statics

/-- Where an asset cannot be uploaded, the others are left. -/
theorem trace_uploadFrom_of_failed {uploading : List (Exchange SyncService)} {asset : StaticAsset}
    {e : ReleaseError}
    (upload : (c.sync.uploadDirectory (c.dest place) (c.localRoot asset)).Trace uploading
      (.ok (.error e))) (rest : List StaticAsset) :
    (c.uploadFrom place (asset :: rest)).Trace uploading (.ok (.error e)) := by
  rw [uploadFrom, ← List.append_nil uploading]
  exact upload.bind (.done _)

/-- A push that succeeded has uploaded its assets and told the configuration. -/
theorem exists_uploading_of_push {statics : List StaticAsset}
    {exchanges : List (Exchange ReleaseService)} {report : PushReport}
    (trace : (c.push statics).Trace exchanges (.ok (.ok report))) :
    ∃ uploading,
      exchanges = uploading.map Exchange.ofSync ++
        [⟨.setStatics (statics ++ report.statics), .ok ()⟩] ∧
      (c.uploadFrom 0 c.candidates).Trace uploading (.ok (.ok report)) := by
  have pushing := Pushing.of_trace trace
  generalize done : (.ok (.ok report) : Except Stop (Except ReleaseError PushReport)) = outcome
    at pushing
  cases pushing with
  | published upload r =>
      cases r with
      | error reason => cases done
      | ok =>
          cases done
          exact ⟨_, rfl, upload⟩
  | @compensated _ _ _ _ cleaned => cases cleaned <;> cases done

/-- A push that failed has uploaded some of its assets and cleaned up. -/
theorem exists_cleaning_of_push {statics : List StaticAsset}
    {exchanges : List (Exchange ReleaseService)} {e : ReleaseError}
    (trace : (c.push statics).Trace exchanges (.ok (.error e))) :
    ∃ uploading ended cleaning cleaned, exchanges.filterMap Exchange.sync? = uploading ++ cleaning ∧
      c.Uploading 0 c.candidates uploading ended ∧
      c.sync.Cleaning c.versionRoot (1000 * c.cleanupTimeoutSecs.toNat) cleaning
        (.ok cleaned) := by
  have pushing := Pushing.of_trace trace
  generalize done : (.ok (.error e) : Except Stop (Except ReleaseError PushReport)) = outcome
    at pushing
  cases pushing with
  | published upload r => cases r <;> cases done
  | @compensated uploading cleaning ended e cleaned upload failed cleanup =>
      cases cleaned with
      | error reason => cases done
      | ok cleaned =>
          refine ⟨uploading, ended, cleaning, cleaned, ?_, .of_trace upload, .of_trace cleanup⟩
          rw [List.filterMap_append, filterMap_sync?_map_ofSync, filterMap_sync?_map_ofSync]

/-- What is kept of a push that failed: its error is the upload's own, the
configuration is not changed, and one cleanup is made, after the last upload.
Outside the directory of the release nothing has changed, and nothing is left in
it if the cleanup removed it. -/
structure Compensated (c : ReleaseContext) (uploading : List (Exchange SyncService))
    (ended : Except Stop (Except ReleaseError PushReport)) (rest : List (Exchange ReleaseService))
    (outcome : Except Stop (Except ReleaseError PushReport)) (before after : Holdings)
    (cleaning : List (Exchange SyncService)) (cleaned : CleanupOutcome) : Prop where
  own_error : ∀ e, ended = .ok (.error e) → outcome = .ok (.error e)
  own_panic : ∀ text, ended = .error (.panic text) →
    outcome = .ok (.error (.panicked (some (text.getD "unknown panic payload"))))
  fails : ∃ e, outcome = .ok (.error e)
  unconfigured : ∀ e ∈ uploading.map Exchange.ofSync ++ rest, ∀ statics,
    e.call ≠ .setStatics statics
  cleans : rest = cleaning.map Exchange.ofSync
  cleanup : (c.sync.cleanup c.versionRoot (1000 * c.cleanupTimeoutSecs.toNat)).Trace
    cleaning (.ok cleaned)
  once : ∃ r later, cleaning = ⟨.startTimer (1000 * c.cleanupTimeoutSecs.toNat), r⟩ :: later ∧
    ∀ e ∈ uploading ++ later, ∀ ms, e.call ≠ .startTimer ms
  settled : Settled uploading
  idle : ∀ e ∈ cleaning, e.upload? = none
  removed : ∀ count, cleaned = .removed count →
    ∀ key, Key.directory c.versionRoot <+: key → after key = none
  kept : ∀ key, ¬Key.directory c.versionRoot <+: key → after key = before key

/-- After an upload that fails or panics, a push makes a cleanup and no other call. -/
theorem exists_cleanup_of_failed {statics : List StaticAsset}
    {uploading : List (Exchange SyncService)} {rest : List (Exchange ReleaseService)}
    {outcome : Except Stop (Except ReleaseError PushReport)}
    (trace : (c.push statics).Trace (uploading.map Exchange.ofSync ++ rest) outcome)
    (upload : (c.uploadFrom 0 c.candidates).Trace uploading ended)
    (failed : ∀ report, ended ≠ .ok (.ok report)) :
    ∃ cleaning cleaned e, rest = cleaning.map Exchange.ofSync ∧ pushResult ended = .error e ∧
      outcome = cleaned.map (fun _ => .error e) ∧
      (c.sync.cleanup c.versionRoot (1000 * c.cleanupTimeoutSecs.toNat)).Trace
        cleaning cleaned := by
  have pushing := Pushing.of_trace trace
  generalize whole : uploading.map Exchange.ofSync ++ rest = exchanges at pushing
  have sync : (ReleaseService.sync (c.uploadFrom 0 c.candidates)).Trace
      (uploading.map Exchange.ofSync) ended :=
    ReleaseService.trace_sync_iff.mpr ⟨uploading, rfl, upload⟩
  cases pushing with
  | published other r =>
      obtain ⟨-, same, -⟩ :=
        sync.eq_of_append (ReleaseService.trace_sync_iff.mpr ⟨_, rfl, other⟩) whole
      exact absurd same (failed _)
  | @compensated _ cleaning _ e cleaned other result cleanup =>
      obtain ⟨-, rfl, rfl⟩ :=
        sync.eq_of_append (ReleaseService.trace_sync_iff.mpr ⟨_, rfl, other⟩) whole
      exact ⟨cleaning, cleaned, e, rfl, result, rfl, cleanup⟩

/-- A push whose upload fails or panics is compensated, however the cleanup goes
without a panic of its own. -/
theorem push_compensated {statics : List StaticAsset} {uploading : List (Exchange SyncService)}
    {rest : List (Exchange ReleaseService)}
    {outcome : Except Stop (Except ReleaseError PushReport)}
    (trace : (c.push statics).Trace (uploading.map Exchange.ofSync ++ rest) outcome)
    (upload : (c.uploadFrom 0 c.candidates).Trace uploading ended)
    (failed : ∀ report, ended ≠ .ok (.ok report))
    (calm : ∀ e ∈ rest.filterMap Exchange.sync?, e.Calm)
    (follows : Follows c.sync.bucket before
      ((uploading.map Exchange.ofSync ++ rest).filterMap Exchange.sync?) after) :
    ∃ cleaning cleaned,
      c.Compensated uploading ended rest outcome before after cleaning cleaned := by
  obtain ⟨cleaning, cleaned, e, rfl, result, rfl, cleanup⟩ :=
    exists_cleanup_of_failed trace upload failed
  rw [List.filterMap_append, filterMap_sync?_map_ofSync, filterMap_sync?_map_ofSync] at follows
  rw [filterMap_sync?_map_ofSync] at calm
  obtain ⟨between, first, last⟩ := follows_append_iff.mp follows
  have uploads := Uploading.of_trace upload
  have cleans := Synchronizer.Cleaning.of_trace cleanup
  obtain ⟨cleaned, rfl⟩ := cleans.exists_ok calm
  refine ⟨cleaning, cleaned, ?_, ?_, ⟨e, rfl⟩, ?_, rfl, cleanup, ?_, uploads.settled,
    cleans.upload?_eq_none, ?_, ?_⟩
  · rintro own rfl
    cases result
    rfl
  · rintro text rfl
    cases result
    rfl
  · rw [← List.map_append]
    intro e member statics
    obtain ⟨inner, -, rfl⟩ := List.mem_map.mp member
    exact nofun
  · obtain ⟨r, later, rfl, single⟩ := cleans.exists_cons
    refine ⟨r, later, rfl, ?_⟩
    rw [List.forall_mem_append]
    exact ⟨fun e member => e.call_ne_startTimer (uploads.untimed e member), single⟩
  · rintro count rfl key inside
    exact cleans.eq_none last inside
  · intro key outside
    rw [last.eq_of_not_prefix (cleans.within last.listsInside) outside,
      first.eq_of_not_prefix (uploads.within first.listsInside) outside]

/-- An asset whose tree has one file. -/
def firstAsset : StaticAsset :=
  ⟨"a", "/a", none, none⟩

/-- An asset whose tree cannot be walked. -/
def secondAsset : StaticAsset :=
  ⟨"b", "/b", none, none⟩

/-- A release with both assets, pushed by one worker. -/
def twoAssets : ReleaseContext :=
  ⟨.soleWorker, ⟨""⟩, "app", ⟨3, [0x72]⟩, [firstAsset, secondAsset], "root", 2, 5⟩

/-- The only file of its first asset. -/
def onlyFile : LocalFile :=
  ⟨[0x66], [0x66]⟩

/-- What that file is uploaded as. -/
def firstUpload : Upload :=
  twoAssets.sync.onlyUpload (twoAssets.dest 0) onlyFile [0x7B]

/-- The first asset is uploaded completely. -/
def completeUploading : List (Exchange SyncService) :=
  twoAssets.sync.singleUpload (twoAssets.dest 0) (twoAssets.localRoot firstAsset) onlyFile [0x7B]

/-- The walk over the second asset fails. -/
def failedUploading : List (Exchange SyncService) :=
  Synchronizer.blindUpload "assets" (twoAssets.dest 1) (twoAssets.localRoot secondAsset)

/-- Why the push fails. -/
def unwalkedRoot : ReleaseError :=
  .walk (twoAssets.localRoot secondAsset)

/-- The cleanup finds the object of the first asset and deletes it. -/
def fullCleaning : List (Exchange SyncService) :=
  [⟨.startTimer 5000, .ok ()⟩,
    ⟨.list "assets" (Key.directory twoAssets.versionRoot) none,
      .ok (.ok ⟨[⟨firstUpload.key, 1⟩], []⟩)⟩,
    ⟨.delete "assets" [firstUpload.key], .ok (.ok ())⟩,
    ⟨.stopTimer, .ok ()⟩]

/-- A bucket that holds an object of somebody else. -/
def foreignHoldings : Holdings :=
  fun key => if key = ['x'] then some ⟨[], "text/plain"⟩ else none

/-- What the bucket holds after the cleanup. -/
def cleanedHoldings : Holdings :=
  (foreignHoldings.put firstUpload).without [firstUpload.key]

theorem twoAssets_uploading : (twoAssets.uploadFrom 0 twoAssets.candidates).Trace
    (completeUploading ++ failedUploading) (.ok (.error unwalkedRoot)) := by
  have first : (twoAssets.sync.uploadDirectory (twoAssets.dest 0)
      (twoAssets.localRoot firstAsset)).Trace completeUploading (.ok (.ok ⟨0, 1⟩)) :=
    Synchronizer.trace_singleUpload rfl _ _ onlyFile [0x7B]
  have second := twoAssets.sync.trace_blindUpload (twoAssets.dest 1)
    (twoAssets.localRoot secondAsset)
  have others : (twoAssets.uploadFrom 1 [secondAsset]).Trace failedUploading
      (.ok (.error unwalkedRoot)) :=
    trace_uploadFrom_of_failed second []
  exact Program.trace_bind_iff.mpr (.inl ⟨_, _, _, rfl, first,
    Program.trace_bind_iff.mpr (.inl ⟨_, _, [], rfl, others, .done _⟩)⟩)

theorem twoAssets_cleaning :
    (twoAssets.sync.cleanup twoAssets.versionRoot 5000).Trace fullCleaning (.ok (.removed 1)) :=
  Synchronizer.trace_cleanup_of_ended
    (twoAssets.sync.trace_deleteDirectory_of_single twoAssets.versionRoot ⟨firstUpload.key, 1⟩)

theorem twoAssets_follows : Follows "assets" foreignHoldings
    ((completeUploading ++ failedUploading) ++ fullCleaning) cleanedHoldings := by
  have away {stem key : Key} (below : Key.directory twoAssets.versionRoot <+: stem)
      (inside : stem <+: key) : foreignHoldings key = none := by
    apply if_neg
    rintro rfl
    exact absurd (below.trans inside) (by decide)
  have first : Follows "assets" foreignHoldings completeUploading
      (foreignHoldings.put firstUpload) :=
    twoAssets.sync.follows_singleUpload
      (fun key => away (Key.directory_versionRoot_prefix_staticDest 0)) onlyFile [0x7B]
  have second : Follows "assets" (foreignHoldings.put firstUpload) failedUploading
      (foreignHoldings.put firstUpload) := by
    apply Synchronizer.follows_blindUpload
    intro key inside
    rw [Holdings.put, if_neg, away (Key.directory_versionRoot_prefix_staticDest 1) inside]
    rintro rfl
    exact absurd inside (by decide)
  have third : Listing.Complete ⟨[⟨firstUpload.key, 1⟩], []⟩ (foreignHoldings.put firstUpload)
      (Key.directory twoAssets.versionRoot) none := by
    refine Listing.complete_of_single ?_ (by decide) fun key inside other => ?_
    · exact Holdings.put_ne_none _ _
    · rw [Holdings.put, if_neg other, away (List.prefix_refl _) inside]
  exact follows_append_iff.mpr ⟨_, follows_append_iff.mpr ⟨_, first, second⟩,
    .cons rfl (.cons ⟨rfl, fun _ => third⟩ (.cons rfl (.cons rfl (.nil _))))⟩

theorem twoAssets_compensated :
    (twoAssets.push []).Trace ((completeUploading ++ failedUploading).map Exchange.ofSync ++
        fullCleaning.map Exchange.ofSync) (.ok (.error unwalkedRoot)) ∧
      (twoAssets.uploadFrom 0 twoAssets.candidates).Trace (completeUploading ++ failedUploading)
        (.ok (.error unwalkedRoot)) ∧
      (∀ e ∈ fullCleaning, e.Calm) ∧
      Follows "assets" foreignHoldings ((completeUploading ++ failedUploading) ++ fullCleaning)
        cleanedHoldings ∧
      ∃ cleaning cleaned, twoAssets.Compensated (completeUploading ++ failedUploading)
        (.ok (.error unwalkedRoot)) (fullCleaning.map Exchange.ofSync)
        (.ok (.error unwalkedRoot)) foreignHoldings cleanedHoldings cleaning cleaned := by
  have trace := trace_push_of_failed twoAssets_uploading rfl twoAssets_cleaning []
  have calm : ∀ e ∈ fullCleaning, e.Calm := by simp [fullCleaning, Exchange.Calm]
  refine ⟨trace, twoAssets_uploading, calm, twoAssets_follows,
    push_compensated trace twoAssets_uploading nofun ?_ ?_⟩
  · rwa [filterMap_sync?_map_ofSync]
  · rw [List.filterMap_append, filterMap_sync?_map_ofSync, filterMap_sync?_map_ofSync]
    exact twoAssets_follows

end ReleaseContext

end FleetDeploy
