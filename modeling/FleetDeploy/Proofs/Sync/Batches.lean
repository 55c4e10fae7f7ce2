import FleetDeploy.Proofs.Sync.Replacing

/-!
# Clearing a directory batch by batch

The keys of a directory are deleted in the order of their listing, in batches that are
full but for the last.  A batch that is refused is the last call: the batches before it
are gone then, and the others are still there.
-/

namespace FleetDeploy

/-! ## Batches -/

/-- Keys in batches of at most a thousand, of which only the last may have fewer. -/
structure Batched (keys : List Key) (plan : List (List Key)) : Prop where
  flatten_eq : plan.flatten = keys
  bounded : ∀ batch ∈ plan, 1 ≤ batch.length ∧ batch.length ≤ 1000
  full : ∀ batch ∈ plan.dropLast, batch.length = 1000

theorem Batched.eq_nil {keys : List Key} {plan : List (List Key)} (batched : Batched keys plan)
    (none : keys = []) : plan = [] := by
  apply List.eq_nil_iff_forall_not_mem.mpr
  intro batch member
  have empty := List.flatten_eq_nil_iff.mp (batched.flatten_eq.trans none) batch member
  have some := (batched.bounded batch member).1
  rw [empty] at some
  cases some

theorem batches_nil : batches [] = [] := by
  rw [batches]

/-- A full batch is split off the keys after which others follow. -/
theorem batches_append {first : List Key} (full : first.length = 1000) (rest : List Key) :
    batches (first ++ rest) = first :: batches rest := by
  cases first with
  | nil => cases full
  | cons key others =>
      rw [List.cons_append, batches, ← List.cons_append, batchLimit,
        List.take_left' full, List.drop_left' full]

/-- Few keys are a batch of their own. -/
theorem batches_of_le {keys : List Key} (some : keys ≠ []) (few : keys.length ≤ 1000) :
    batches keys = [keys] := by
  cases keys with
  | nil => exact absurd rfl some
  | cons key rest => rw [batches, batchLimit, List.take_of_length_le few,
      List.drop_of_length_le few, batches_nil]

theorem Batched.cons {batch keys : List Key} {plan : List (List Key)} (full : batch.length = 1000)
    (batched : Batched keys plan) : Batched (batch ++ keys) (batch :: plan) := by
  refine ⟨by rw [List.flatten_cons, batched.flatten_eq], ?_, ?_⟩
  · exact List.forall_mem_cons.mpr ⟨by omega, batched.bounded⟩
  · cases plan with
    | nil => exact nofun
    | cons next others => exact List.forall_mem_cons.mpr ⟨full, batched.full⟩

theorem batched_singleton {keys : List Key} (some : keys ≠ []) (few : keys.length ≤ 1000) :
    Batched keys [keys] := by
  refine ⟨List.flatten_singleton, ?_, nofun⟩
  rw [List.forall_mem_singleton]
  exact ⟨List.length_pos_of_ne_nil some, few⟩

theorem batched_batches (keys : List Key) : Batched keys (batches keys) := by
  fun_induction batches keys with
  | case1 => exact ⟨rfl, List.forall_mem_nil _, List.forall_mem_nil _⟩
  | case2 key rest ih =>
      rw [batchLimit] at ih ⊢
      by_cases few : (key :: rest).length ≤ 1000
      · rw [List.take_of_length_le few, List.drop_of_length_le few, batches_nil]
        exact batched_singleton (List.cons_ne_nil key rest) few
      · have full : ((key :: rest).take 1000).length = 1000 :=
          List.length_take_of_le (Nat.le_of_not_le few)
        have batched := Batched.cons full ih
        rwa [List.take_append_drop] at batched

/-! ## What is gone -/

/-- Without the keys under a stem, nothing is held under it. -/
theorem Holdings.Lists.without_of_prefix {held : Holdings} {stem key : Key} {keys : List Key}
    (lists : held.Lists stem keys) (inside : stem <+: key) : held.without keys key = none := by
  rw [without_apply, ite_eq_left_iff]
  intro unlisted
  by_contra present
  exact unlisted ((lists.mem_iff key).mpr ⟨inside, present⟩)

theorem Holdings.Lists.without_of_not_prefix {held : Holdings} {stem key : Key} {keys : List Key}
    (lists : held.Lists stem keys) (outside : ¬stem <+: key) :
    held.without keys key = held key := by
  rw [without_apply, if_neg fun member => outside ((lists.mem_iff key).mp member).1]

theorem Holdings.Lists.eq_nil {held : Holdings} {stem : Key} {keys : List Key}
    (lists : held.Lists stem keys) (vacant : ∀ key, stem <+: key → held key = none) :
    keys = [] := by
  apply List.eq_nil_iff_forall_not_mem.mpr
  intro key member
  obtain ⟨inside, present⟩ := (lists.mem_iff key).mp member
  exact present (vacant key inside)

/-- What exchanges do to a bucket one after another where those that do not go well change
nothing. -/
inductive FollowsCleanly (bucket : String) :
    Holdings → List (Exchange SyncService) → Holdings → Prop
  | nil (held : Holdings) : FollowsCleanly bucket held [] held
  | cons {before between after : Holdings} {e : Exchange SyncService}
      {rest : List (Exchange SyncService)} (effect : e.Effect bucket before between)
      (clean : ¬e.Succeeds → between = before) (later : FollowsCleanly bucket between rest after) :
      FollowsCleanly bucket before (e :: rest) after

/-- A reply that the removal of a directory ends with, and how it ends. -/
inductive EndsRemoval {α : Type} :
    Except Stop (Except StoreError α) → Except Stop (Except ReleaseError Nat) → Prop
  | refused (cause : StoreError) : EndsRemoval (.ok (.error cause)) (.ok (.error (.store cause)))
  | stopped (reason : Stop) : EndsRemoval (.error reason) (.error reason)

/-- A call that deletes a batch. -/
def deletes (bucket : String) (batch : List Key) : Exchange SyncService :=
  ⟨.delete bucket batch, .ok (.ok ())⟩

variable {bucket : String} {dir : List Char} {before after : Holdings}
  {exchanges : List (Exchange SyncService)}

/-- Either all batches are deleted, or those before one that is not. -/
theorem Bucket.Deletion.clears {plan : List (List Key)}
    {outcome : Except Stop (Except StoreError Unit)}
    (deletion : Deletion bucket plan exchanges outcome)
    (follows : FollowsCleanly bucket before exchanges after) :
    (exchanges = plan.map (deletes bucket) ∧ outcome = .ok (.ok ()) ∧
      after = before.without plan.flatten) ∨
    ∃ deleted batch left, plan = deleted ++ batch :: left ∧ outcome ≠ .ok (.ok ()) ∧
      exchanges = deleted.map (deletes bucket) ++ [⟨.delete bucket batch, outcome⟩] ∧
        after = before.without deleted.flatten := by
  induction deletion generalizing before with
  | finished =>
      cases follows
      exact .inl ⟨rfl, rfl, (Holdings.without_nil _).symm⟩
  | stopped batch rest reason =>
      cases follows with
      | cons effect clean later =>
          cases later
          exact .inr ⟨[], batch, rest, rfl, nofun, rfl, (clean nofun).trans before.without_nil.symm⟩
  | refused batch rest cause =>
      cases follows with
      | cons effect clean later =>
          cases later
          exact .inr ⟨[], batch, rest, rfl, nofun, rfl, (clean nofun).trans before.without_nil.symm⟩
  | @deleted batch rest exchanges outcome later ih =>
      cases follows with
      | cons effect clean following =>
          obtain rfl := effect.trans (if_pos rfl)
          rcases ih following with ⟨rfl, rfl, rfl⟩ | ⟨deleted, next, left, rfl, failed, rfl, rfl⟩
          · exact .inl ⟨rfl, rfl, (before.without_append _ _).symm⟩
          · exact .inr ⟨batch :: deleted, next, left, rfl, failed, rfl,
              (before.without_append _ _).symm⟩

/-- How a directory is cleared of the keys that are listed in it, and what is in the
bucket then. -/
inductive Clearance (bucket : String) (dir : List Char) (before : Holdings) :
    List (Exchange SyncService) → Except Stop (Except ReleaseError Nat) → Holdings → Prop
  | unlisted {reply : Except Stop (Except StoreError Listing)}
      {outcome : Except Stop (Except ReleaseError Nat)} (ends : EndsRemoval reply outcome) :
      Clearance bucket dir before [⟨.list bucket (Key.directory dir) none, reply⟩] outcome before
  | emptied {listing : Listing} {plan : List (List Key)} {after : Holdings}
      (lists : before.Lists (Key.directory dir) (listing.objects.map (·.key)))
      (batched : Batched (listing.objects.map (·.key)) plan)
      (gone : ∀ key, Key.directory dir <+: key → after key = none)
      (kept : ∀ key, ¬Key.directory dir <+: key → after key = before key) :
      Clearance bucket dir before
        (⟨.list bucket (Key.directory dir) none, .ok (.ok listing)⟩ :: plan.map (deletes bucket))
        (.ok (.ok listing.objects.length)) after
  | interrupted {listing : Listing} {deleted left : List (List Key)} {batch : List Key}
      {reply : Except Stop (Except StoreError Unit)}
      {outcome : Except Stop (Except ReleaseError Nat)}
      (lists : before.Lists (Key.directory dir) (listing.objects.map (·.key)))
      (batched : Batched (listing.objects.map (·.key)) (deleted ++ batch :: left))
      (ends : EndsRemoval reply outcome) :
      Clearance bucket dir before
        (⟨.list bucket (Key.directory dir) none, .ok (.ok listing)⟩ ::
          (deleted.map (deletes bucket) ++ [⟨.delete bucket batch, reply⟩]))
        outcome (before.without deleted.flatten)

theorem Bucket.Removal.clearance {removed : Except Stop (Except StoreError Nat)}
    (removal : Removal bucket dir exchanges removed)
    (follows : FollowsCleanly bucket before exchanges after)
    (listsOnce : ∀ e ∈ exchanges, e.ListsOnce) :
    Clearance bucket dir before exchanges
      (removed.map fun result => result.mapError ReleaseError.store) after := by
  cases removal with
  | stopped reason =>
      cases follows with
      | cons effect clean later =>
          cases later
          rw [clean nofun]
          exact .unlisted (.stopped reason)
  | unlisted cause =>
      cases follows with
      | cons effect clean later =>
          cases later
          rw [clean nofun]
          exact .unlisted (.refused cause)
  | @listed listing deleting result deletion =>
      cases follows with
      | cons effect clean later =>
          obtain ⟨rfl, complete⟩ := effect
          have lists := (complete rfl).lists (listsOnce _ List.mem_cons_self)
          have batched := batched_batches (listing.objects.map (·.key))
          rcases deletion.clears later with
            ⟨rfl, rfl, rfl⟩ | ⟨deleted, batch, left, split, failed, rfl, rfl⟩
          · rw [flatten_batches]
            exact .emptied lists batched (fun _ => lists.without_of_prefix)
              fun _ => lists.without_of_not_prefix
          · rw [split] at batched
            refine .interrupted lists batched ?_
            rcases result with reason | (cause | _)
            · exact .stopped reason
            · exact .refused cause
            · exact absurd rfl failed

/-- Removing a directory lists its keys and deletes them in batches.  If all batches are
deleted, the keys are counted and gone, and nothing else has changed.  If one is refused,
it is the last call, and exactly the keys of the batches before it are gone.  Where the
directory holds nothing, the listing is the only call. -/
theorem Synchronizer.deleteDirectory_by_batches {s : Synchronizer}
    {outcome : Except Stop (Except ReleaseError Nat)}
    (trace : (s.deleteDirectory dir).Trace exchanges outcome)
    (follows : FollowsCleanly s.bucket before exchanges after)
    (listsOnce : ∀ e ∈ exchanges, e.ListsOnce) :
    Clearance s.bucket dir before exchanges outcome after ∧
      ((∀ key, Key.directory dir <+: key → before key = none) → exchanges.length = 1) := by
  obtain ⟨removed, removal, ended⟩ := trace_deleteDirectory_iff.mp trace
  have clearance := removal.clearance follows listsOnce
  rw [← ended] at clearance
  refine ⟨clearance, fun vacant => ?_⟩
  cases clearance with
  | unlisted => rfl
  | emptied lists batched => simp [batched.eq_nil (lists.eq_nil vacant)]
  | interrupted lists batched => simpa using batched.eq_nil (lists.eq_nil vacant)

/-! ## One key too many for a batch -/

section Crowd

/-- The keys of numbered objects in a directory. -/
def crowdKey (i : Nat) : Key :=
  Key.directory ['d'] ++ Text.Numeral.render i

/-- The keys of a batch that is full. -/
def crowd : List Key :=
  (List.range 1000).map crowdKey

/-- A bucket with a full batch and one object more. -/
def crowded : Holdings :=
  fun key => if (crowd ++ [crowdKey 1000]).contains key then some ⟨[], "text/plain"⟩ else none

/-- The listing of the bucket. -/
def crowdedListing : Listing :=
  ⟨(crowd ++ [crowdKey 1000]).map fun key => ⟨key, 0⟩, []⟩

/-- The calls by which the full batch is deleted, and the last object is not. -/
def crowdedClearing : List (Exchange SyncService) :=
  [⟨.list "assets" (Key.directory ['d']) none, .ok (.ok crowdedListing)⟩, deletes "assets" crowd,
    ⟨.delete "assets" [crowdKey 1000], .ok (.error (.delete 1 "down"))⟩]

theorem keys_crowdedListing : crowdedListing.objects.map (·.key) = crowd ++ [crowdKey 1000] := by
  rw [crowdedListing, List.map_map]
  exact List.map_id _

theorem nodup_crowd : (crowd ++ [crowdKey 1000]).Nodup := by
  have range : crowd ++ [crowdKey 1000] = (List.range 1001).map crowdKey := by
    rw [List.range_succ, List.map_append]
    rfl
  rw [range]
  exact List.nodup_range.map fun i j same =>
    Text.Numeral.render_injective (List.append_cancel_left same)

theorem complete_crowdedListing : crowdedListing.Complete crowded (Key.directory ['d']) none := by
  have inside : ∀ key ∈ crowd ++ [crowdKey 1000], Key.directory ['d'] <+: key := by
    intro key member
    rcases List.mem_append.mp member with full | last
    · obtain ⟨i, -, rfl⟩ := List.mem_map.mp full
      exact List.prefix_append _ _
    · rw [List.mem_singleton.mp last]
      exact List.prefix_append _ _
  have present (key : Key) : crowded key ≠ none ↔ key ∈ crowd ++ [crowdKey 1000] := by
    rw [crowded, ← List.contains_iff_mem, ite_ne_right_iff]
    exact and_iff_left nofun
  refine ⟨fun key => ?_, fun dir => by simp [crowdedListing]⟩
  rw [keys_crowdedListing, present]
  exact ⟨fun member => ⟨member, inside key member, Objects.directory?_none⟩, And.left⟩

theorem crowdedClearing_trace : (Synchronizer.soleWorker.deleteDirectory ['d']).Trace
    crowdedClearing (.ok (.error (.store (.delete 1 "down")))) := by
  have full : crowd.length = 1000 := by rw [crowd, List.length_map, List.length_range]
  have deletion : Bucket.Deletion "assets" (batches (crowdedListing.objects.map (·.key)))
      (crowdedClearing.drop 1) (.ok (.error (.delete 1 "down"))) := by
    rw [keys_crowdedListing, batches_append full, batches_of_le (List.cons_ne_nil _ _) (by decide)]
    exact .deleted crowd (.refused [crowdKey 1000] [] _)
  exact Synchronizer.trace_deleteDirectory_iff.mpr ⟨_, .listed crowdedListing deletion, rfl⟩

theorem crowdedClearing_follows :
    FollowsCleanly "assets" crowded crowdedClearing (crowded.without crowd) := by
  refine .cons ⟨rfl, fun _ => complete_crowdedListing⟩ (fun _ => rfl) ?_
  refine .cons (if_pos rfl).symm (fun failed => absurd rfl failed) ?_
  exact .cons (.inl rfl) (fun _ => rfl) (.nil _)

theorem crowdedClearing_listsOnce : ∀ e ∈ crowdedClearing, e.ListsOnce := by
  have once : (crowdedListing.objects.map (·.key)).Nodup := by
    rw [keys_crowdedListing]
    exact nodup_crowd
  simp [crowdedClearing, deletes, Exchange.ListsOnce, once]

/-- The first thousand objects are gone, and the last one is left. -/
theorem crowdedClearing_by_batches :
    (Synchronizer.soleWorker.deleteDirectory ['d']).Trace crowdedClearing
        (.ok (.error (.store (.delete 1 "down")))) ∧
      FollowsCleanly "assets" crowded crowdedClearing (crowded.without crowd) ∧
      (∀ e ∈ crowdedClearing, e.ListsOnce) ∧
      Clearance "assets" ['d'] crowded crowdedClearing (.ok (.error (.store (.delete 1 "down"))))
        (crowded.without crowd) :=
  ⟨crowdedClearing_trace, crowdedClearing_follows, crowdedClearing_listsOnce,
    (Synchronizer.deleteDirectory_by_batches crowdedClearing_trace crowdedClearing_follows
      crowdedClearing_listsOnce).1⟩

end Crowd

end FleetDeploy
