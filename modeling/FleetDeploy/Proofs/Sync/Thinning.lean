import FleetDeploy.Proofs.Store.Objects
import FleetDeploy.Proofs.Sync.Retention

/-!
# What thinning out removes

The names below an app's directory are anybody's.  A number can be read off some of
them that are not spelled as the directory of a release, such as `007` or `+7`, and off
others none.  Thinning out goes by the numbers: it reports each that is not retained,
and removes the directory of that release, which is the plain spelling alone.  Objects
in directories of other spellings stay, although their number is reported.
-/

namespace FleetDeploy.Retention

variable {root app : List Char} {keep : Nat} {current v : UInt64} {held before after : Holdings}

/-- The numbers that are retained: the largest of those up to the current one. -/
def retained (root app : List Char) (keep : Nat) (current : UInt64) (held : Holdings) :
    Set UInt64 :=
  largest (max keep 1) {v | v ∈ numbered root app held ∧ v ≤ current}

/-- The numbers that are to go. -/
def outdated (root app : List Char) (keep : Nat) (current : UInt64) (held : Holdings) :
    Set UInt64 :=
  numbered root app held \ retained root app keep current held

/-- The current number is never to go. -/
theorem current_notMem_outdated : current ∉ outdated root app keep current held := by
  rintro ⟨member, expired⟩
  exact expired (mem_largest_of_forall_le (by omega) ⟨member, UInt64.le_refl current⟩
    fun w below => below.2)

/-- Where objects are only gone, no number is read off a name that was not before. -/
theorem numbered_subset (gone : ∀ key, after key ≠ none → before key ≠ none) :
    numbered root app after ⊆ numbered root app before := by
  rintro v ⟨dir, ⟨key, present, inDir⟩, parsed⟩
  exact ⟨dir, ⟨key, gone key present, inDir⟩, parsed⟩

/-- Where objects are only gone, no number is to go that was not before: with fewer
numbers, those that are retained stay so. -/
theorem outdated_subset (gone : ∀ key, after key ≠ none → before key ≠ none) :
    outdated root app keep current after ⊆ outdated root app keep current before := by
  have subset : numbered root app after ⊆ numbered root app before := numbered_subset gone
  rintro v ⟨member, expired⟩
  refine ⟨subset member, fun newest => expired (mem_largest_of_subset newest ?_ ?_)⟩
  · exact fun w valid => ⟨subset valid.1, valid.2⟩
  · exact ⟨member, newest.1.2⟩

/-! ## The report -/

/-- A report of the numbers that are to go: those above the current one, and of the
others those that are not retained, each in ascending order. -/
structure Reports (root app : List Char) (keep : Nat) (current : UInt64) (held : Holdings)
    (report : RetentionReport) : Prop where
  mem_tooNew_iff : ∀ v, v ∈ report.tooNew ↔ v ∈ numbered root app held ∧ current < v
  mem_expired_iff : ∀ v, v ∈ report.expired ↔
    v ∈ numbered root app held ∧ v ≤ current ∧ v ∉ retained root app keep current held
  tooNew_ascending : report.tooNew.Pairwise (· < ·)
  expired_ascending : report.expired.Pairwise (· < ·)

/-- The numbers that are reported are those that are to go. -/
theorem Reports.mem_deleted_iff {report : RetentionReport}
    (reports : Reports root app keep current held report) :
    v ∈ report.deleted ↔ v ∈ outdated root app keep current held := by
  rw [RetentionReport.deleted, List.mem_append, reports.mem_tooNew_iff, reports.mem_expired_iff]
  constructor
  · rintro (⟨member, above⟩ | ⟨member, -, expired⟩)
    · exact ⟨member, fun newest => UInt64.not_le.mpr above newest.1.2⟩
    · exact ⟨member, expired⟩
  · rintro ⟨member, expired⟩
    rcases UInt64.lt_or_le current v with above | below
    · exact .inl ⟨member, above⟩
    · exact .inr ⟨member, below, expired⟩

/-- The plan for a complete listing reports the numbers that are to go. -/
theorem reports_plan {listing : Listing}
    (complete : listing.Complete held (Key.appRoot root app) (some ['/'])) :
    Reports root app keep current held
      (plan keep current (listed (Key.appRoot root app) listing)) := by
  have ascending : (listed (Key.appRoot root app) listing).Pairwise (· < ·) :=
    Ascending.pairwise_ofList _
  have told (v : UInt64) : v ∈ listed (Key.appRoot root app) listing ↔ v ∈ numbered root app held :=
    mem_listed_iff complete
  have remaining (v : UInt64) : v ∈ numbered root app held ∧
        v ∉ (plan keep current (listed (Key.appRoot root app) listing)).deleted ↔
      v ∈ retained root app keep current held := notMem_deleted_listed_iff complete
  constructor
  · intro v
    rw [plan, List.mem_filter, told, decide_eq_true_eq]
  · intro v
    constructor
    · intro old
      have valid := List.mem_filter.mp (List.mem_of_mem_take old)
      exact ⟨(told v).mp valid.1, of_decide_eq_true valid.2, fun newest =>
        ((remaining v).mpr newest).2 (List.mem_append_right _ old)⟩
    · rintro ⟨member, below, expired⟩
      by_contra fresh
      refine expired ((remaining v).mp ⟨member, fun gone => ?_⟩)
      rcases List.mem_append.mp gone with above | old
      · exact UInt64.not_le.mpr (of_decide_eq_true (List.mem_filter.mp above).2) below
      · exact fresh old
  · exact ascending.filter _
  · exact (ascending.filter _).take

/-! ## What is removed -/

/-- The directories of some numbers are empty, in their plain spelling, and nothing else
has changed. -/
structure Cleared (root app : List Char) (gone : Set UInt64) (before after : Holdings) :
    Prop where
  emptied : ∀ v ∈ gone, ∀ key, Key.versionRoot root app v ++ ['/'] <+: key → after key = none
  kept : ∀ key, (∀ v ∈ gone, ¬Key.versionRoot root app v ++ ['/'] <+: key) →
    after key = before key

namespace Cleared

variable {gone : Set UInt64}

/-- Only directories of numbers that are gone have changed. -/
theorem eq_of_notMem (cleared : Cleared root app gone before after) (spared : v ∉ gone) {key : Key}
    (inside : Key.versionRoot root app v ++ ['/'] <+: key) : after key = before key := by
  refine cleared.kept key fun w member other => spared ?_
  rwa [Key.eq_of_versionRoot_prefix inside other]

theorem ne_none (cleared : Cleared root app gone before after) {key : Key}
    (present : after key ≠ none) : before key ≠ none := by
  rwa [← cleared.kept key fun v member inside => present (cleared.emptied v member key inside)]

/-- Directories that are empty already can be cleared once more without any change. -/
theorem eq_of_subset {fewer : Set UInt64} {last : Holdings}
    (cleared : Cleared root app gone before after) (again : Cleared root app fewer after last)
    (subset : fewer ⊆ gone) : last = after := by
  funext key
  by_cases inside : ∃ v ∈ fewer, Key.versionRoot root app v ++ ['/'] <+: key
  · obtain ⟨v, member, inside⟩ := inside
    rw [again.emptied v member key inside, cleared.emptied v (subset member) key inside]
  · push Not at inside
    exact again.kept key inside

end Cleared

/-- Where no backslash is in the way, the directories of releases are spelled plainly. -/
theorem Without.cleared (plainRoot : '\\' ∉ root) (plainApp : '\\' ∉ app) {gone : List UInt64}
    (without : Without root app gone before after) :
    Cleared root app {v | v ∈ gone} before after := by
  obtain ⟨emptied, kept⟩ := without
  simp only [Key.directory_versionRoot_of_plain plainRoot plainApp] at emptied kept
  exact ⟨emptied, kept⟩

section Pass

variable {s : Synchronizer} {exchanges : List (Exchange SyncService)}
  {outcome : Except Stop (Except ReleaseError RetentionReport)}

/-- A pass whose calls go well reports the numbers that are to go, and clears their
directories. -/
theorem exists_report_of_succeeds (plainRoot : '\\' ∉ root) (plainApp : '\\' ∉ app)
    (trace : (deleteOldVersions s root app keep current).Trace exchanges outcome)
    (succeeds : ∀ e ∈ exchanges, e.Succeeds) (follows : Follows s.bucket before exchanges after) :
    ∃ report, outcome = .ok (.ok report) ∧ Reports root app keep current before report ∧
      Cleared root app (outdated root app keep current before) before after := by
  obtain ⟨report, rfl⟩ := (yields_deleteOldVersions s root app keep current).exists_ok trace succeeds
  rcases trace_deleteOldVersions_iff.mp trace with
    ⟨reason, -, ended⟩ | ⟨cause, -, ended⟩ | ⟨listing, deleting, result, rfl, delete, ended⟩
  · cases ended
  · cases ended
  · rw [List.forall_mem_cons] at succeeds
    cases follows with
    | cons effect following =>
        obtain ⟨rfl, complete⟩ := effect
        have reports : Reports root app keep current _ _ := reports_plan (complete rfl)
        obtain ⟨_, rfl⟩ := (yields_deleteVersions s root app _).exists_ok delete succeeds.2
        cases ended
        have cleared := ((Deleting.of_trace delete).without following).cleared plainRoot plainApp
        simp only [reports.mem_deleted_iff] at cleared
        exact ⟨_, rfl, reports, cleared⟩

/-- Thinning out by calls that go well is exact.  It reports the numbers that are read
off the names below the app's directory and are not retained, and it removes the
objects in their directories and no others, in particular none of the current release.
Once more, it removes nothing. -/
theorem deleteOldVersions_exact (plainRoot : '\\' ∉ root) (plainApp : '\\' ∉ app)
    (trace : (deleteOldVersions s root app keep current).Trace exchanges outcome)
    (succeeds : ∀ e ∈ exchanges, e.Succeeds) (follows : Follows s.bucket before exchanges after) :
    (∃ report, outcome = .ok (.ok report) ∧ Reports root app keep current before report) ∧
      Cleared root app (outdated root app keep current before) before after ∧
      (∀ key, Key.versionRoot root app current ++ ['/'] <+: key → after key = before key) ∧
      ∀ again ended last, (deleteOldVersions s root app keep current).Trace again ended →
        (∀ e ∈ again, e.Succeeds) → Follows s.bucket after again last → last = after := by
  obtain ⟨report, done, reports, cleared⟩ :=
    exists_report_of_succeeds plainRoot plainApp trace succeeds follows
  refine ⟨⟨report, done, reports⟩, cleared, ?_, ?_⟩
  · exact fun key => cleared.eq_of_notMem current_notMem_outdated
  · intro again ended last repeated succeedsAgain followsAgain
    obtain ⟨-, -, -, clearedAgain⟩ :=
      exists_report_of_succeeds plainRoot plainApp repeated succeedsAgain followsAgain
    exact cleared.eq_of_subset clearedAgain (outdated_subset fun _ => cleared.ne_none)

/-- Of the directories whose number is reported, exactly those in the plain spelling are
empty afterwards.  The others are left as they were. -/
theorem reported_empty_iff (plainRoot : '\\' ∉ root) (plainApp : '\\' ∉ app)
    {report : RetentionReport}
    (trace : (deleteOldVersions s root app keep current).Trace exchanges (.ok (.ok report)))
    (succeeds : ∀ e ∈ exchanges, e.Succeeds) (follows : Follows s.bucket before exchanges after)
    {dir : Key} (listed : dir ∈ directories root app before)
    (parsed : Key.parseVersion (Key.appRoot root app) dir = some v)
    (reported : v ∈ report.tooNew ∨ v ∈ report.expired) :
    ((∀ key, dir <+: key → after key = none) ↔ dir = Key.versionRoot root app v ++ ['/']) ∧
      (dir ≠ Key.versionRoot root app v ++ ['/'] →
        ∀ key, dir <+: key → after key = before key) := by
  obtain ⟨_, done, reports, cleared⟩ :=
    exists_report_of_succeeds plainRoot plainApp trace succeeds follows
  cases done
  have gone : v ∈ outdated root app keep current before :=
    reports.mem_deleted_iff.mp (List.mem_append.mpr reported)
  obtain ⟨key, present, inDir⟩ := listed
  -- A key is in one directory below the app's, and of the plain spellings only that of the
  -- number reads as the number.
  have keeps (other : dir ≠ Key.versionRoot root app v ++ ['/']) (key : Key)
      (inside : dir <+: key) : after key = before key := by
    refine cleared.kept key fun w _ below => other ?_
    have plain := Key.directory?_of_versionRoot_prefix below
    rw [Key.directory?_slash_of_prefix inDir inside] at plain
    cases plain
    rw [Key.parseVersion_versionRoot] at parsed
    cases parsed
    rfl
  refine ⟨⟨fun empty => ?_, ?_⟩, keeps⟩
  · obtain ⟨-, -, -, inside⟩ := Key.directory?_slash_eq_some_iff.mp inDir
    by_contra other
    rw [← keeps other key inside] at present
    exact present (empty key inside)
  · rintro rfl
    exact cleared.emptied v gone

end Pass

/-! ## A bucket with other spellings -/

section Spelled

/-- The key of an object below the directory of an app. -/
def webKey (name : String) : Key :=
  Key.appRoot "fly-statics".toList "web".toList ++ name.toList

/-- A bucket in which two numbers are spelled otherwise, and one of them plainly too. -/
def spelled : Objects :=
  .ofList (["007/a", "7/b", "+4/c", "latest/d", "loose", "1/e", "5/f"].map fun name =>
    (webKey name, ⟨[0x6F], "seed"⟩))

/-- The calls by which that bucket is thinned out. -/
def spelledPass : List (Exchange SyncService) :=
  [⟨.list "assets" (webKey "") (some ['/']), .ok (.ok (spelled.listing (webKey "") (some ['/'])))⟩,
    ⟨.list "assets" (webKey "7/") none, .ok (.ok ⟨[⟨webKey "7/b", 1⟩], []⟩)⟩,
    ⟨.delete "assets" [webKey "7/b"], .ok (.ok ())⟩,
    ⟨.list "assets" (webKey "1/") none, .ok (.ok ⟨[⟨webKey "1/e", 1⟩], []⟩)⟩,
    ⟨.delete "assets" [webKey "1/e"], .ok (.ok ())⟩,
    ⟨.list "assets" (webKey "4/") none, .ok (.ok ⟨[], []⟩)⟩]

theorem spelledPass_trace : (deleteOldVersions .soleWorker "fly-statics".toList "web".toList 1
    5).Trace spelledPass (.ok (.ok ⟨[7], [1, 4]⟩)) := by
  have single (version : UInt64) (entry : ListedObject) :=
    Synchronizer.soleWorker.trace_deleteDirectory_of_single
      (Key.versionRoot "fly-statics".toList "web".toList version) entry
  have vacant := Synchronizer.soleWorker.trace_deleteDirectory_of_vacant
    (Key.versionRoot "fly-statics".toList "web".toList 4)
  have deleted : (deleteVersions .soleWorker "fly-statics".toList "web".toList [7, 1, 4]).Trace
      (spelledPass.drop 1) (.ok (.ok ())) :=
    (single 7 ⟨webKey "7/b", 1⟩).bind ((single 1 ⟨webKey "1/e", 1⟩).bind (vacant.bind (.done _)))
  exact trace_deleteOldVersions_of_planned (by decide) deleted

/-- What is left of it. -/
def spelledLeft : Objects :=
  (spelled.delete [webKey "7/b"]).delete [webKey "1/e"]

/-- The first release is removed by the first calls. -/
theorem spelledPass_begins : Follows "assets" spelled.get? (spelledPass.take 3)
    (spelled.delete [webKey "7/b"]).get? := by
  have first : spelled.listing (webKey "7/") none = ⟨[⟨webKey "7/b", 1⟩], []⟩ := by decide
  refine .cons (spelled.effect_list _ _ _) (.cons (first ▸ spelled.effect_list _ _ _) ?_)
  exact .cons (spelled.effect_delete _ _) (.nil _)

theorem spelledPass_follows : Follows "assets" spelled.get? spelledPass spelledLeft.get? := by
  have second : (spelled.delete [webKey "7/b"]).listing (webKey "1/") none =
      ⟨[⟨webKey "1/e", 1⟩], []⟩ := by decide
  have third : spelledLeft.listing (webKey "4/") none = ⟨[], []⟩ := by decide
  refine follows_append_iff.mpr ⟨_, spelledPass_begins, ?_⟩
  refine .cons (second ▸ Objects.effect_list _ _ _ _) (.cons (Objects.effect_delete _ _ _) ?_)
  exact .cons (third ▸ Objects.effect_list _ _ _ _) (.nil _)

theorem spelledPass_succeeds : ∀ e ∈ spelledPass, e.Succeeds := by
  simp [spelledPass, Exchange.Succeeds]

theorem spelledPass_exact :
    ('\\' ∉ "fly-statics".toList ∧ '\\' ∉ "web".toList) ∧
      (deleteOldVersions .soleWorker "fly-statics".toList "web".toList 1 5).Trace spelledPass
        (.ok (.ok ⟨[7], [1, 4]⟩)) ∧
      (∀ e ∈ spelledPass, e.Succeeds) ∧
      Follows "assets" spelled.get? spelledPass spelledLeft.get? ∧
      Reports "fly-statics".toList "web".toList 1 5 spelled.get? ⟨[7], [1, 4]⟩ ∧
      Cleared "fly-statics".toList "web".toList
        (outdated "fly-statics".toList "web".toList 1 5 spelled.get?) spelled.get?
        spelledLeft.get? ∧
      (∀ key, Key.versionRoot "fly-statics".toList "web".toList 5 ++ ['/'] <+: key →
        spelledLeft.get? key = spelled.get? key) ∧
      ∀ again ended last,
        (deleteOldVersions .soleWorker "fly-statics".toList "web".toList 1 5).Trace again ended →
        (∀ e ∈ again, e.Succeeds) → Follows "assets" spelledLeft.get? again last →
        last = spelledLeft.get? := by
  have plainRoot : '\\' ∉ "fly-statics".toList := by decide
  have plainApp : '\\' ∉ "web".toList := by decide
  obtain ⟨⟨report, done, reports⟩, cleared, current, again⟩ := deleteOldVersions_exact plainRoot
    plainApp spelledPass_trace spelledPass_succeeds spelledPass_follows
  cases done
  exact ⟨⟨plainRoot, plainApp⟩, spelledPass_trace, spelledPass_succeeds, spelledPass_follows,
    reports, cleared, current, again⟩

/-- The directory of the plain spelling is empty afterwards, and that of the other is not. -/
theorem spelledPass_reported :
    (deleteOldVersions .soleWorker "fly-statics".toList "web".toList 1 5).Trace spelledPass
        (.ok (.ok ⟨[7], [1, 4]⟩)) ∧
      Follows "assets" spelled.get? spelledPass spelledLeft.get? ∧
      (webKey "7/" ∈ directories "fly-statics".toList "web".toList spelled.get? ∧
        webKey "007/" ∈ directories "fly-statics".toList "web".toList spelled.get?) ∧
      (∀ key, webKey "7/" <+: key → spelledLeft.get? key = none) ∧
      (∃ key, webKey "007/" <+: key ∧ spelledLeft.get? key ≠ none) ∧
      ∀ key, webKey "007/" <+: key → spelledLeft.get? key = spelled.get? key := by
  have plain : webKey "7/" ∈ directories "fly-statics".toList "web".toList spelled.get? :=
    ⟨webKey "7/b", by decide, by decide⟩
  have padded : webKey "007/" ∈ directories "fly-statics".toList "web".toList spelled.get? :=
    ⟨webKey "007/a", by decide, by decide⟩
  have emptied := reported_empty_iff (by decide) (by decide) spelledPass_trace spelledPass_succeeds
    spelledPass_follows plain (v := 7) (by decide) (.inl (by decide))
  have spared := reported_empty_iff (by decide) (by decide) spelledPass_trace spelledPass_succeeds
    spelledPass_follows padded (v := 7) (by decide) (.inl (by decide))
  have other : webKey "007/" ≠ Key.versionRoot "fly-statics".toList "web".toList 7 ++ ['/'] := by
    decide
  refine ⟨spelledPass_trace, spelledPass_follows, ⟨plain, padded⟩, emptied.1.mpr (by decide), ?_,
    spared.2 other⟩
  simpa using mt spared.1.mp other

/-- A number is reported although an object is left in a directory that it was read off. -/
theorem reported_not_empty :
    (deleteOldVersions .soleWorker "fly-statics".toList "web".toList 1 5).Trace spelledPass
        (.ok (.ok ⟨[7], [1, 4]⟩)) ∧
      (∀ e ∈ spelledPass, e.Succeeds) ∧
      Follows "assets" spelled.get? spelledPass spelledLeft.get? ∧
      webKey "007/" ∈ directories "fly-statics".toList "web".toList spelled.get? ∧
      Key.parseVersion (webKey "") (webKey "007/") = some 7 ∧
      webKey "007/" <+: webKey "007/a" ∧ spelledLeft.get? (webKey "007/a") ≠ none :=
  ⟨spelledPass_trace, spelledPass_succeeds, spelledPass_follows,
    ⟨webKey "007/a", by decide, by decide⟩, by decide, by decide, by decide⟩

end Spelled

end FleetDeploy.Retention
