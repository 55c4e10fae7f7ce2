import FleetDeploy.Proofs.Sync.Effects
import FleetDeploy.Sync.Retention
import Mathlib.Data.Set.Card

/-!
# Which releases are kept

The releases of an app are those with an object in their directory.  Thinning
them out keeps the largest of those up to the current one, and their objects as
they were.
-/

namespace FleetDeploy.Retention

/-- The largest members of a set, up to a number: those with fewer members above
them. -/
def largest (n : Nat) (versions : Set UInt64) : Set UInt64 :=
  {v | v ∈ versions ∧ {w | w ∈ versions ∧ v < w}.ncard < n}

theorem finite_versions (versions : Set UInt64) : versions.Finite := by
  have : Finite UInt64 := .of_injective UInt64.toFin fun _ _ => UInt64.toFin_inj.mp
  exact versions.toFinite

/-- The largest member is among the largest. -/
theorem mem_largest_of_forall_le {n : Nat} {versions : Set UInt64} {v : UInt64}
    (positive : 0 < n) (member : v ∈ versions) (top : ∀ w ∈ versions, w ≤ v) :
    v ∈ largest n versions := by
  refine ⟨member, ?_⟩
  have alone : {w | w ∈ versions ∧ v < w} = ∅ := by
    ext w
    simpa using top w
  rwa [alone, Set.ncard_empty]

/-- The largest members are among the largest of the fewer members too. -/
theorem mem_largest_of_subset {n : Nat} {versions fewer : Set UInt64} {v : UInt64}
    (newest : v ∈ largest n versions) (subset : fewer ⊆ versions) (member : v ∈ fewer) :
    v ∈ largest n fewer := by
  refine ⟨member, lt_of_le_of_lt (Set.ncard_le_ncard ?_ (finite_versions _)) newest.2⟩
  exact fun w above => ⟨subset above.1, above.2⟩

/-- The releases with an object in their directory. -/
def releases (root app : List Char) (held : Holdings) : Set UInt64 :=
  {version | ∃ key, held key ≠ none ∧ Key.directory (Key.versionRoot root app version) <+: key}

/-- All objects are in directories of releases. -/
def Tidy (root app : List Char) (held : Holdings) : Prop :=
  ∀ key, held key ≠ none → ∃ version, Key.directory (Key.versionRoot root app version) <+: key

/-- Only the objects of one release differ. -/
def OnlyIn (root app : List Char) (version : UInt64) (before after : Holdings) : Prop :=
  ∀ key, ¬Key.directory (Key.versionRoot root app version) <+: key → after key = before key

namespace OnlyIn

variable {root app : List Char} {version v : UInt64} {before after : Holdings}

/-- The objects of the other releases are the same. -/
theorem eq (only : OnlyIn root app version before after) (different : v ≠ version) {key : Key}
    (inside : Key.directory (Key.versionRoot root app v) <+: key) : after key = before key :=
  only key fun other => different (Key.eq_of_directory_versionRoot_prefix inside other)

theorem mem_releases_iff (only : OnlyIn root app version before after) (different : v ≠ version) :
    v ∈ releases root app after ↔ v ∈ releases root app before := by
  refine exists_congr fun key => and_congr_left fun inside => ?_
  rw [only.eq different inside]

theorem tidy (only : OnlyIn root app version before after) (tidy : Tidy root app before) :
    Tidy root app after := by
  intro key present
  by_cases inside : Key.directory (Key.versionRoot root app version) <+: key
  · exact ⟨version, inside⟩
  · rw [only key inside] at present
    exact tidy key present

/-- A release that has objects now has been added. -/
theorem releases_eq_union (only : OnlyIn root app version before after)
    (present : version ∈ releases root app after) :
    releases root app after = releases root app before ∪ {version} := by
  ext v
  by_cases same : v = version
  · simp [same, present]
  · simp [same, only.mem_releases_iff same]

/-- A release that has no objects now has been removed. -/
theorem releases_eq_diff (only : OnlyIn root app version before after)
    (absent : version ∉ releases root app after) :
    releases root app after = releases root app before \ {version} := by
  ext v
  by_cases same : v = version
  · simp [same, absent]
  · simp [same, only.mem_releases_iff same]

end OnlyIn

section Putting

variable {root app : List Char} {version : UInt64} {held : Holdings} {upload : Upload}

/-- Storing an upload changes the release that its key is in. -/
theorem onlyIn_put (inside : Key.directory (Key.versionRoot root app version) <+: upload.key) :
    OnlyIn root app version held (held.put upload) := by
  intro key outside
  have other : key ≠ upload.key := fun same => outside (same ▸ inside)
  rw [Holdings.put, if_neg other]

theorem releases_put (inside : Key.directory (Key.versionRoot root app version) <+: upload.key) :
    releases root app (held.put upload) = releases root app held ∪ {version} :=
  (onlyIn_put inside).releases_eq_union ⟨_, held.put_ne_none upload, inside⟩

end Putting

/-- Some releases are gone, and nothing else has changed. -/
structure Without (root app : List Char) (gone : List UInt64) (before after : Holdings) :
    Prop where
  emptied : ∀ v ∈ gone, ∀ key, Key.directory (Key.versionRoot root app v) <+: key →
    after key = none
  kept : ∀ key, (∀ v ∈ gone, ¬Key.directory (Key.versionRoot root app v) <+: key) →
    after key = before key

namespace Without

variable {root app : List Char} {gone : List UInt64} {v : UInt64} {before after : Holdings}

theorem eq (without : Without root app gone before after) (spared : v ∉ gone) {key : Key}
    (inside : Key.directory (Key.versionRoot root app v) <+: key) : after key = before key := by
  refine without.kept key fun w member other => spared ?_
  rwa [Key.eq_of_directory_versionRoot_prefix inside other]

theorem mem_releases_iff (without : Without root app gone before after) :
    v ∈ releases root app after ↔ v ∈ releases root app before ∧ v ∉ gone := by
  constructor
  · rintro ⟨key, present, inside⟩
    have spared : v ∉ gone := fun member => present (without.emptied v member key inside)
    rw [without.eq spared inside] at present
    exact ⟨⟨key, present, inside⟩, spared⟩
  · rintro ⟨⟨key, present, inside⟩, spared⟩
    rw [← without.eq spared inside] at present
    exact ⟨key, present, inside⟩

theorem tidy (without : Without root app gone before after) (tidy : Tidy root app before) :
    Tidy root app after := by
  intro key present
  by_cases inside : ∃ v ∈ gone, Key.directory (Key.versionRoot root app v) <+: key
  · obtain ⟨v, -, inside⟩ := inside
    exact ⟨v, inside⟩
  · push Not at inside
    rw [without.kept key inside] at present
    exact tidy key present

end Without

/-! ## The plan -/

instance : LinearlyOrdered UInt64 :=
  .ofStandard

/-- In an ascending list the members above one are those behind it. -/
theorem filter_lt_getElem {versions : List UInt64} (ascending : versions.Pairwise (· < ·))
    {i : Nat} (within : i < versions.length) :
    versions.filter (versions[i] < ·) = versions.drop (i + 1) := by
  have ordered := List.pairwise_iff_getElem.mp ascending
  have front : (versions.take (i + 1)).filter (versions[i] < ·) = [] := by
    apply List.filter_eq_nil_iff.mpr
    intro w member
    obtain ⟨j, before, rfl⟩ := List.mem_take_iff_getElem.mp member
    rw [decide_eq_true_eq, UInt64.not_lt]
    rcases Nat.lt_or_ge j i with less | least
    · exact UInt64.le_of_lt (ordered j i (by omega) within less)
    · have same : j = i := by omega
      subst same
      exact UInt64.le_refl _
  have back : (versions.drop (i + 1)).filter (versions[i] < ·) = versions.drop (i + 1) := by
    apply List.filter_eq_self.mpr
    intro w member
    obtain ⟨j, behind, rfl⟩ := List.mem_drop_iff_getElem.mp member
    exact decide_eq_true (ordered i (i + 1 + j) within (by omega) (by omega))
  have parts := List.filter_append (p := (versions[i] < ·))
    (versions.take (i + 1)) (versions.drop (i + 1))
  rw [List.take_append_drop, front, back, List.nil_append] at parts
  exact parts

/-- What is left of an ascending list without its start are its largest members. -/
theorem notMem_take_iff {versions : List UInt64} (ascending : versions.Pairwise (· < ·))
    {v : UInt64} (member : v ∈ versions) (n : Nat) :
    v ∉ versions.take (versions.length - n) ↔ (versions.filter (v < ·)).length < n := by
  obtain ⟨i, within, rfl⟩ := List.getElem_of_mem member
  have nodup : versions.Nodup := ascending.imp UInt64.ne_of_lt
  have early : versions[i] ∈ versions.take (versions.length - n) ↔ i < versions.length - n := by
    constructor
    · intro found
      obtain ⟨j, before, same⟩ := List.mem_take_iff_getElem.mp found
      have := (List.getElem_inj nodup).mp same
      omega
    · intro before
      exact List.mem_take_iff_getElem.mpr ⟨i, by omega, rfl⟩
  rw [early, filter_lt_getElem ascending within, List.length_drop]
  omega

/-- The largest members of an ascending list are its end. -/
theorem mem_largest_iff {versions : List UInt64} (ascending : versions.Pairwise (· < ·))
    {v : UInt64} {n : Nat} :
    v ∈ largest n {w | w ∈ versions} ↔
      v ∈ versions ∧ v ∉ versions.take (versions.length - n) := by
  have nodup : versions.Nodup := ascending.imp UInt64.ne_of_lt
  have above : {w | w ∈ versions ∧ v < w} = ↑(versions.filter (v < ·)).toFinset := by
    ext w
    simp
  have count : {w | w ∈ versions ∧ v < w}.ncard = (versions.filter (v < ·)).length := by
    rw [above, Set.ncard_coe_finset, List.toFinset_card_of_nodup (nodup.filter _)]
  constructor
  · rintro ⟨member, few⟩
    exact ⟨member, (notMem_take_iff ascending member n).mpr (count ▸ few)⟩
  · rintro ⟨member, late⟩
    exact ⟨member, count ▸ (notMem_take_iff ascending member n).mp late⟩

/-- The plan leaves the newest of the releases that are not above the current
one. -/
theorem notMem_deleted_iff {versions : List UInt64} (ascending : versions.Pairwise (· < ·))
    {keep : Nat} {current v : UInt64} :
    v ∈ versions ∧ v ∉ (plan keep current versions).deleted ↔
      v ∈ largest (max keep 1) {w | w ∈ versions ∧ w ≤ current} := by
  have valid : {w | w ∈ versions ∧ w ≤ current} = {w | w ∈ versions.filter (· ≤ current)} := by
    ext w
    simp
  rw [valid, mem_largest_iff (ascending.filter _)]
  simp only [plan, RetentionReport.deleted, List.mem_append, List.mem_filter, decide_eq_true_eq]
  constructor
  · rintro ⟨member, kept⟩
    rw [not_or] at kept
    exact ⟨⟨member, UInt64.not_lt.mp fun above => kept.1 ⟨member, above⟩⟩, kept.2⟩
  · rintro ⟨⟨member, below⟩, late⟩
    refine ⟨member, ?_⟩
    rintro (⟨-, above⟩ | early)
    · exact UInt64.not_lt.mpr below above
    · exact late early

/-- The current release is never planned to go. -/
theorem current_notMem_deleted {versions : List UInt64} (ascending : versions.Pairwise (· < ·))
    {keep : Nat} {current : UInt64} : current ∉ (plan keep current versions).deleted := by
  intro gone
  have member : current ∈ versions := by
    rcases List.mem_append.mp gone with above | old
    · exact List.mem_of_mem_filter above
    · exact List.mem_of_mem_filter (List.mem_of_mem_take old)
  have newest : current ∈ largest (max keep 1) {w | w ∈ versions ∧ w ≤ current} :=
    mem_largest_of_forall_le (by omega) ⟨member, UInt64.le_refl current⟩ fun w below => below.2
  exact ((notMem_deleted_iff ascending).mpr newest).2 gone

/-! ## Thinning out -/

variable {root app : List Char} {s : Synchronizer} {before after : Holdings}
  {exchanges : List (Exchange SyncService)}

/-- The directories below an app's, each of which has an object in it. -/
def directories (root app : List Char) (held : Holdings) : Set Key :=
  {dir | ∃ key, held key ≠ none ∧
    Objects.directory? (Key.appRoot root app) (some ['/']) key = some dir}

/-- The numbers that are read off the names of the directories below an app's. -/
def numbered (root app : List Char) (held : Holdings) : Set UInt64 :=
  {version | ∃ dir ∈ directories root app held,
    Key.parseVersion (Key.appRoot root app) dir = some version}

/-- A complete listing of an app's directory tells the numbers of the directories below. -/
theorem mem_listed_iff {listing : Listing} {held : Holdings}
    (complete : listing.Complete held (Key.appRoot root app) (some ['/'])) {version : UInt64} :
    version ∈ listed (Key.appRoot root app) listing ↔ version ∈ numbered root app held := by
  rw [listed, Ascending.mem_ofList, List.mem_filterMap]
  exact exists_congr fun dir => and_congr_left fun _ => complete.mem_directories_iff dir

/-- Where all objects are in directories of releases, no other number is read off a
name. -/
theorem numbered_eq_releases (plainRoot : '\\' ∉ root) (plainApp : '\\' ∉ app)
    {held : Holdings} (tidy : Tidy root app held) :
    numbered root app held = releases root app held := by
  ext version
  constructor
  · rintro ⟨dir, ⟨key, present, inDir⟩, parsed⟩
    obtain ⟨w, inside⟩ := tidy key present
    rw [Key.directory?_of_prefix plainRoot plainApp inside] at inDir
    cases inDir
    rw [Key.parseVersion_directory plainRoot plainApp] at parsed
    cases parsed
    exact ⟨key, present, inside⟩
  · rintro ⟨key, present, inside⟩
    have inDir := Key.directory?_of_prefix plainRoot plainApp inside
    exact ⟨_, ⟨key, present, inDir⟩, Key.parseVersion_directory plainRoot plainApp⟩

/-- The listing that tells an app's releases is complete. -/
theorem complete_of_releases (plainRoot : '\\' ∉ root) (plainApp : '\\' ∉ app)
    {held : Holdings} (tidy : Tidy root app held) {versions : List UInt64}
    (all : releases root app held = {v | v ∈ versions}) :
    Listing.Complete ⟨[], versions.map fun v => Key.directory (Key.versionRoot root app v)⟩ held
      (Key.appRoot root app) (some ['/']) := by
  constructor
  · intro key
    simp only [List.map_nil, List.not_mem_nil, false_iff]
    rintro ⟨present, -, plain⟩
    obtain ⟨v, inside⟩ := tidy key present
    rw [Key.directory?_of_prefix plainRoot plainApp inside] at plain
    cases plain
  · intro dir
    rw [List.mem_map]
    constructor
    · rintro ⟨v, member, rfl⟩
      obtain ⟨key, present, inside⟩ : v ∈ releases root app held := all ▸ member
      exact ⟨key, present, Key.directory?_of_prefix plainRoot plainApp inside⟩
    · rintro ⟨key, present, inDir⟩
      obtain ⟨v, inside⟩ := tidy key present
      rw [Key.directory?_of_prefix plainRoot plainApp inside] at inDir
      have member : v ∈ releases root app held := ⟨key, present, inside⟩
      rw [all] at member
      exact ⟨v, member, Option.some.inj inDir⟩

/-- The plan for a complete listing leaves the newest of the numbers that are not above
the current one. -/
theorem notMem_deleted_listed_iff {listing : Listing} {held : Holdings}
    (complete : listing.Complete held (Key.appRoot root app) (some ['/'])) {keep : Nat}
    {current v : UInt64} :
    v ∈ numbered root app held ∧
        v ∉ (plan keep current (listed (Key.appRoot root app) listing)).deleted ↔
      v ∈ largest (max keep 1) {w | w ∈ numbered root app held ∧ w ≤ current} := by
  have told : ∀ w, w ∈ listed (Key.appRoot root app) listing ↔ w ∈ numbered root app held :=
    fun w => mem_listed_iff complete
  simp only [← told]
  exact notMem_deleted_iff (Ascending.pairwise_ofList _)

/-- How deleting releases can go: directory after directory, up to the first that is not
removed. -/
inductive Deleting (s : Synchronizer) (root app : List Char) :
    List UInt64 → List (Exchange SyncService) → Except Stop (Except ReleaseError Unit) → Prop
  | finished : Deleting s root app [] [] (.ok (.ok ()))
  | stopped {version : UInt64} {removing : List (Exchange SyncService)} {reason : Stop}
      (remove : (s.deleteDirectory (Key.versionRoot root app version)).Trace removing
        (.error reason)) (rest : List UInt64) :
      Deleting s root app (version :: rest) removing (.error reason)
  | failed {version : UInt64} {removing : List (Exchange SyncService)} {e : ReleaseError}
      (remove : (s.deleteDirectory (Key.versionRoot root app version)).Trace removing
        (.ok (.error e))) (rest : List UInt64) :
      Deleting s root app (version :: rest) removing (.ok (.error e))
  | deleted {version : UInt64} {removing later : List (Exchange SyncService)} {count : Nat}
      (remove : (s.deleteDirectory (Key.versionRoot root app version)).Trace removing
        (.ok (.ok count))) {rest : List UInt64} {ended : Except Stop (Except ReleaseError Unit)}
      (others : Deleting s root app rest later ended) :
      Deleting s root app (version :: rest) (removing ++ later) ended

variable {versions : List UInt64} {ended : Except Stop (Except ReleaseError Unit)}

theorem Deleting.of_trace (trace : (deleteVersions s root app versions).Trace exchanges ended) :
    Deleting s root app versions exchanges ended := by
  induction versions generalizing exchanges with
  | nil =>
      obtain ⟨rfl, rfl⟩ := Program.trace_done_iff.mp trace
      exact .finished
  | cons version rest ih =>
      rw [deleteVersions] at trace
      rcases Program.trace_bind_iff.mp trace with
        ⟨result, removing, later, rfl, remove, tail⟩ | ⟨reason, rfl, remove⟩
      · cases result with
        | error e =>
            obtain ⟨rfl, rfl⟩ := Program.trace_done_iff.mp tail
            rw [List.append_nil]
            exact .failed remove rest
        | ok count => exact .deleted remove (ih tail)
      · exact .stopped remove rest

/-- Releases that were deleted have empty directories, and nothing else has changed. -/
theorem Deleting.without (deleting : Deleting s root app versions exchanges (.ok (.ok ())))
    (follows : Follows s.bucket before exchanges after) :
    Without root app versions before after := by
  generalize done : (.ok (.ok ()) : Except Stop (Except ReleaseError Unit)) = ended at deleting
  induction deleting generalizing before with
  | finished =>
      cases follows
      exact ⟨nofun, fun _ _ => rfl⟩
  | stopped | failed => cases done
  | @deleted v removing later count remove rest ended others ih =>
      obtain ⟨between, first, following⟩ := follows_append_iff.mp follows
      obtain ⟨emptied, kept⟩ := Synchronizer.after_deleteDirectory remove first
      have without := ih following done
      constructor
      · intro w member key inside
        by_cases again : ∃ u ∈ rest, Key.directory (Key.versionRoot root app u) <+: key
        · obtain ⟨u, listed, inside⟩ := again
          exact without.emptied u listed key inside
        · push Not at again
          rcases List.mem_cons.mp member with rfl | member
          · rw [without.kept key again, emptied key inside]
          · exact absurd inside (again w member)
      · intro key outside
        rw [List.forall_mem_cons] at outside
        rw [without.kept key outside.2, kept key outside.1]

/-- Deleting releases is no part of an upload, sets no timer and walks no tree. -/
theorem Deleting.plain (deleting : Deleting s root app versions exchanges ended) :
    ∀ e ∈ exchanges, e.upload? = none ∧ e.isTimer = false ∧ ∀ tree, e.call ≠ .walk tree := by
  induction deleting with
  | finished => exact nofun
  | stopped remove | failed remove => exact Synchronizer.plain_of_trace remove
  | deleted remove others ih =>
      rw [List.forall_mem_append]
      exact ⟨Synchronizer.plain_of_trace remove, ih⟩

/-- Deleting releases touches only keys in their directories. -/
theorem Deleting.within (deleting : Deleting s root app versions exchanges ended)
    (inside : ∀ e ∈ exchanges, e.ListsInside s.bucket) :
    ∀ e ∈ exchanges, ∀ k ∈ e.touched,
      ∃ v ∈ versions, Key.directory (Key.versionRoot root app v) <+: k := by
  have removing {version : UInt64} {rest : List UInt64} {first : List (Exchange SyncService)}
      {result}
      (remove : (s.deleteDirectory (Key.versionRoot root app version)).Trace first result)
      (inside : ∀ e ∈ first, e.ListsInside s.bucket) : ∀ e ∈ first, ∀ k ∈ e.touched,
        ∃ w ∈ version :: rest, Key.directory (Key.versionRoot root app w) <+: k :=
    fun e member k touched => ⟨version, List.mem_cons_self,
      Synchronizer.within_of_trace remove inside e member k touched⟩
  induction deleting with
  | finished => exact nofun
  | stopped remove | failed remove => exact removing remove inside
  | deleted remove others ih =>
      rw [List.forall_mem_append] at inside ⊢
      refine ⟨removing remove inside.1, fun e member k touched => ?_⟩
      obtain ⟨w, listed, below⟩ := ih inside.2 e member k touched
      exact ⟨w, List.mem_cons_of_mem _ listed, below⟩

/-- Deleting releases yields to whatever call is refused. -/
theorem yields_deleteVersions (s : Synchronizer) (root app : List Char)
    (versions : List UInt64) :
    Program.Yields ReleaseError.store (deleteVersions s root app versions) := by
  induction versions with
  | nil => exact .done ()
  | cons version rest ih => exact (s.yields_deleteDirectory _).bind (fun _ => rfl) fun _ => ih

/-- Thinning out yields to whatever call is refused. -/
theorem yields_deleteOldVersions (s : Synchronizer) (root app : List Char) (keep : Nat)
    (current : UInt64) :
    Program.Yields ReleaseError.store (deleteOldVersions s root app keep current) := by
  refine (Program.yields_list _ _ _).bind (fun _ => rfl) fun listing => ?_
  exact (yields_deleteVersions s root app _).bind (fun _ => rfl) fun _ => .done _

/-- Deleting releases catches no stop. -/
theorem unguarded_deleteVersions (s : Synchronizer) (root app : List Char)
    (versions : List UInt64) : (deleteVersions s root app versions).Unguarded := by
  induction versions with
  | nil => exact .done _
  | cons v rest ih =>
      rw [deleteVersions]
      refine (s.unguarded_deleteDirectory _).bind fun removed => ?_
      cases removed with
      | error e => exact .done _
      | ok count => exact ih

/-- Thinning out catches no stop. -/
theorem unguarded_deleteOldVersions (s : Synchronizer) (root app : List Char) (keep : Nat)
    (current : UInt64) : (deleteOldVersions s root app keep current).Unguarded := by
  refine (Program.unguarded_perform _).bind fun r => ?_
  cases r with
  | error cause => exact .done _
  | ok listing =>
      refine (unguarded_deleteVersions _ _ _ _).bind fun deleted => ?_
      cases deleted <;> exact .done _

variable {keep : Nat} {current : UInt64}

/-- Thinning out lists the app's directory, and if that succeeds, it deletes the releases
that are planned to go and reports the plan. -/
theorem trace_deleteOldVersions_iff {outcome : Except Stop (Except ReleaseError RetentionReport)} :
    (deleteOldVersions s root app keep current).Trace exchanges outcome ↔
      (∃ reason, exchanges = [⟨.list s.bucket (Key.appRoot root app) (some ['/']),
          .error reason⟩] ∧ outcome = .error reason) ∨
      (∃ cause, exchanges = [⟨.list s.bucket (Key.appRoot root app) (some ['/']),
          .ok (.error cause)⟩] ∧ outcome = .ok (.error (.store cause))) ∨
      ∃ listing deleting result,
        exchanges = ⟨.list s.bucket (Key.appRoot root app) (some ['/']),
          .ok (.ok listing)⟩ :: deleting ∧
        (deleteVersions s root app
          (plan keep current (listed (Key.appRoot root app) listing)).deleted).Trace
            deleting result ∧
        outcome = result.map (Except.map fun _ =>
          plan keep current (listed (Key.appRoot root app) listing)) := by
  constructor
  · intro trace
    obtain ⟨r, rest, rfl, tail⟩ := Program.trace_call_iff.mp trace
    rcases r with reason | (cause | listing)
    · obtain ⟨rfl, rfl⟩ := Program.trace_stop_iff.mp tail
      exact .inl ⟨reason, rfl, rfl⟩
    · obtain ⟨rfl, rfl⟩ := Program.trace_done_iff.mp tail
      exact .inr (.inl ⟨cause, rfl, rfl⟩)
    · change Program.Trace (deleteVersions s root app (plan keep current
        (listed (Key.appRoot root app) listing)).deleted >>= _) _ _ at tail
      rw [Program.trace_bind_map_iff
        (g := Except.map fun _ => plan keep current (listed (Key.appRoot root app) listing))
        (by rintro (e | _) <;> rfl)] at tail
      obtain ⟨result, delete, rfl⟩ := tail
      exact .inr (.inr ⟨listing, rest, result, rfl, delete, rfl⟩)
  · rintro (⟨reason, rfl, rfl⟩ | ⟨cause, rfl, rfl⟩ | ⟨listing, deleting, result, rfl, delete, same⟩)
    · exact .call _ (.stop reason)
    · exact .call _ (.done _)
    · apply Program.Trace.call
      change Program.Trace (deleteVersions s root app (plan keep current
        (listed (Key.appRoot root app) listing)).deleted >>= _) _ _
      rw [Program.trace_bind_map_iff
        (g := Except.map fun _ => plan keep current (listed (Key.appRoot root app) listing))
        (by rintro (e | _) <;> rfl)]
      exact ⟨result, delete, same⟩

/-- Where the releases that are planned to go are deleted, thinning out reports the plan. -/
theorem trace_deleteOldVersions_of_planned {listing : Listing} {report : RetentionReport}
    {deleting : List (Exchange SyncService)}
    (planned : plan keep current (listed (Key.appRoot root app) listing) = report)
    (delete : (deleteVersions s root app report.deleted).Trace deleting (.ok (.ok ()))) :
    (deleteOldVersions s root app keep current).Trace
      (⟨.list s.bucket (Key.appRoot root app) (some ['/']), .ok (.ok listing)⟩ :: deleting)
      (.ok (.ok report)) := by
  subst planned
  exact trace_deleteOldVersions_iff.mpr (.inr (.inr ⟨listing, deleting, _, rfl, delete, rfl⟩))

/-- How thinning out can go: the app's directory is listed, and if that succeeds,
the releases that are planned to go are deleted. -/
inductive Thinning (s : Synchronizer) (root app : List Char) (keep : Nat) (current : UInt64) :
    List (Exchange SyncService) → Prop
  | unlisted {r : Except Stop (Except StoreError Listing)}
      (failed : ∀ listing, r ≠ .ok (.ok listing)) :
      Thinning s root app keep current [⟨.list s.bucket (Key.appRoot root app) (some ['/']), r⟩]
  | thinned (listing : Listing) {deleting : List (Exchange SyncService)}
      {result : Except Stop (Except ReleaseError Unit)}
      (delete : (deleteVersions s root app
        (plan keep current (listed (Key.appRoot root app) listing)).deleted).Trace
          deleting result) :
      Thinning s root app keep current
        (⟨.list s.bucket (Key.appRoot root app) (some ['/']), .ok (.ok listing)⟩ :: deleting)

theorem Thinning.of_trace {outcome : Except Stop (Except ReleaseError RetentionReport)}
    (trace : (deleteOldVersions s root app keep current).Trace exchanges outcome) :
    Thinning s root app keep current exchanges := by
  rcases trace_deleteOldVersions_iff.mp trace with
    ⟨reason, rfl, -⟩ | ⟨cause, rfl, -⟩ | ⟨listing, deleting, result, rfl, delete, -⟩
  · exact .unlisted nofun
  · exact .unlisted nofun
  · exact .thinned listing delete

/-- Thinning out walks no tree. -/
theorem Thinning.call_ne_walk (thinning : Thinning s root app keep current exchanges) :
    ∀ e ∈ exchanges, ∀ tree, e.call ≠ .walk tree := by
  cases thinning with
  | unlisted failed => simp
  | thinned listing delete =>
      rw [List.forall_mem_cons]
      exact ⟨nofun, fun e member => ((Deleting.of_trace delete).plain e member).2.2⟩

/-- Thinning out touches only keys of other releases than the current one. -/
theorem Thinning.within (thinning : Thinning s root app keep current exchanges)
    (inside : ∀ e ∈ exchanges, e.ListsInside s.bucket) :
    ∀ e ∈ exchanges, ∀ k ∈ e.touched,
      ∃ v ≠ current, Key.directory (Key.versionRoot root app v) <+: k := by
  cases thinning with
  | unlisted failed => simp [Exchange.touched]
  | thinned listing delete =>
      rw [List.forall_mem_cons] at inside ⊢
      refine ⟨by simp [Exchange.touched], fun e member k touched => ?_⟩
      obtain ⟨v, planned, below⟩ :=
        (Deleting.of_trace delete).within inside.2 e member k touched
      refine ⟨v, ?_, below⟩
      rintro rfl
      exact current_notMem_deleted (Ascending.pairwise_ofList _) planned

/-- Thinning out by calls that go well leaves the newest releases that are not above
the current one, and leaves them as they were. -/
theorem Thinning.leaves (plainRoot : '\\' ∉ root) (plainApp : '\\' ∉ app)
    (thinning : Thinning s root app keep current exchanges)
    (succeeds : ∀ e ∈ exchanges, e.Succeeds) (follows : Follows s.bucket before exchanges after)
    (tidy : Tidy root app before) :
    releases root app after =
        largest (max keep 1) {v | v ∈ releases root app before ∧ v ≤ current} ∧
      Tidy root app after ∧
      ∀ v ∈ releases root app after, ∀ key,
        Key.directory (Key.versionRoot root app v) <+: key → after key = before key := by
  cases thinning with
  | unlisted failed =>
      obtain ⟨listing, listed⟩ := succeeds _ (List.mem_singleton_self _)
      exact absurd listed (failed listing)
  | thinned listing delete =>
      rw [List.forall_mem_cons] at succeeds
      cases follows with
      | @cons _ between _ _ _ effect following =>
          obtain ⟨unchanged, complete⟩ := effect
          subst between
          have remaining {v : UInt64} :
              v ∈ releases root app before ∧
                  v ∉ (plan keep current (listed (Key.appRoot root app) listing)).deleted ↔
                v ∈ largest (max keep 1) {w | w ∈ releases root app before ∧ w ≤ current} := by
            rw [← numbered_eq_releases plainRoot plainApp tidy]
            exact notMem_deleted_listed_iff (complete rfl)
          obtain ⟨_, rfl⟩ := (yields_deleteVersions s root app _).exists_ok delete succeeds.2
          have without := (Deleting.of_trace delete).without following
          refine ⟨?_, without.tidy tidy, fun v left key inside => ?_⟩
          · ext v
            rw [without.mem_releases_iff, remaining]
          · exact without.eq (without.mem_releases_iff.mp left).2 inside

end FleetDeploy.Retention
