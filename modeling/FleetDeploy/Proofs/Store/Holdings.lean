import FleetDeploy.Proofs.Sync.Uploads
import Mathlib.Data.List.Infix

/-!
# What a bucket holds

The services are not known, but some of what they do to a bucket is: listings
are complete, a deletion that succeeds removes its keys and one that fails may
have removed some of them, an upload that succeeds is stored and one that fails
or is abandoned may have been.  A list of exchanges leads from what a bucket
holds before it to what the bucket holds after it.
-/

namespace FleetDeploy

/-- The object that a bucket holds under each key. -/
abbrev Holdings :=
  Key → Option StoredObject

/-- The bucket without some keys. -/
def Holdings.without (held : Holdings) (keys : List Key) : Holdings :=
  fun key => if keys.contains key then none else held key

theorem Holdings.without_apply (held : Holdings) (keys : List Key) (key : Key) :
    held.without keys key = if key ∈ keys then none else held key := by
  simp [without]

theorem Holdings.without_nil (held : Holdings) : held.without [] = held := by
  funext key
  simp [without_apply]

theorem Holdings.without_append (held : Holdings) (first rest : List Key) :
    held.without (first ++ rest) = (held.without first).without rest := by
  funext key
  by_cases inFirst : key ∈ first <;> by_cases inRest : key ∈ rest <;>
    simp [without_apply, inFirst, inRest]

/-- The bucket once an upload is stored. -/
def Holdings.put (held : Holdings) (upload : Upload) : Holdings :=
  fun key => if key = upload.key then some ⟨upload.body, upload.contentType⟩ else held key

theorem Holdings.put_ne_none (held : Holdings) (upload : Upload) :
    held.put upload upload.key ≠ none := by
  rw [put, if_pos rfl]
  exact Option.some_ne_none _

/-- A listing that tells exactly the keys under a stem, those that hold the
delimiter by their directories. -/
structure Listing.Complete (listing : Listing) (held : Holdings) (stem : Key)
    (delimiter : Option (List Char)) : Prop where
  mem_objects_iff : ∀ key, key ∈ listing.objects.map (·.key) ↔
    held key ≠ none ∧ stem <+: key ∧ Objects.directory? stem delimiter key = none
  mem_directories_iff : ∀ dir, dir ∈ listing.directories ↔
    ∃ key, held key ≠ none ∧ Objects.directory? stem delimiter key = some dir

/-- Without a delimiter no key is told by a directory. -/
@[simp]
theorem Objects.directory?_none {stem key : Key} : directory? stem none key = none := by
  rw [directory?]
  cases Key.below? stem key <;> rfl

/-- Where nothing is held under a stem, the empty listing is complete. -/
theorem Listing.complete_of_vacant {held : Holdings} {stem : Key}
    (vacant : ∀ key, stem <+: key → held key = none) : Complete ⟨[], []⟩ held stem none := by
  constructor
  · intro key
    simp only [List.map_nil, List.not_mem_nil, false_iff]
    rintro ⟨some, inside, -⟩
    exact some (vacant key inside)
  · intro dir
    simp

/-- Where a single object is held under a stem, the listing of it is complete. -/
theorem Listing.complete_of_single {held : Holdings} {stem : Key} {entry : ListedObject}
    (present : held entry.key ≠ none) (inside : stem <+: entry.key)
    (single : ∀ key, stem <+: key → key ≠ entry.key → held key = none) :
    Complete ⟨[entry], []⟩ held stem none := by
  constructor
  · intro key
    rw [List.map_singleton, List.mem_singleton]
    constructor
    · rintro rfl
      exact ⟨present, inside, Objects.directory?_none⟩
    · rintro ⟨some, below, -⟩
      by_contra other
      exact some (single key below other)
  · intro dir
    simp

namespace Exchange

/-- The keys whose objects an exchange may change. -/
def touched : Exchange SyncService → List Key
  | ⟨.delete _ keys, _⟩ => keys
  | ⟨.startUpload _ upload, _⟩ => [upload.key]
  | ⟨.awaitUpload _ upload, _⟩ => [upload.key]
  | ⟨.abandonUpload _ upload, _⟩ => [upload.key]
  | _ => []

theorem touched_of_delete {e : Exchange SyncService} {b : String} {keys : List Key}
    (deletes : e.call = .delete b keys) : e.touched = keys := by
  obtain ⟨call, reply⟩ := e
  cases deletes
  rfl

theorem touched_of_upload? {e : Exchange SyncService} {upload : Upload}
    (uploads : e.upload? = some upload) : e.touched = [upload.key] := by
  obtain ⟨call, reply⟩ := e
  cases call with
  | startUpload | awaitUpload | abandonUpload =>
      cases uploads
      rfl
  | _ => cases uploads

/-- What an exchange can do to a bucket. -/
def Effect (bucket : String) (before after : Holdings) : Exchange SyncService → Prop
  | ⟨.list b stem delimiter, .ok (.ok listing)⟩ =>
    after = before ∧ (b = bucket → listing.Complete before stem delimiter)
  | ⟨.delete b keys, .ok (.ok ())⟩ =>
    after = if b = bucket then before.without keys else before
  | ⟨.delete b keys, _⟩ =>
    after = before ∨ b = bucket ∧ ∃ gone, gone ⊆ keys ∧ after = before.without gone
  | ⟨.startUpload _ upload, .error _⟩ =>
    after = before ∨ upload.bucket = bucket ∧ after = before.put upload
  | ⟨.awaitUpload _ upload, .ok (.ok ())⟩ =>
    after = if upload.bucket = bucket then before.put upload else before
  | ⟨.awaitUpload _ upload, _⟩ =>
    after = before ∨ upload.bucket = bucket ∧ after = before.put upload
  | ⟨.abandonUpload _ upload, _⟩ =>
    after = before ∨ upload.bucket = bucket ∧ after = before.put upload
  | _ => after = before

end Exchange

/-- What exchanges can do to a bucket one after another. -/
inductive Follows (bucket : String) : Holdings → List (Exchange SyncService) → Holdings → Prop
  | nil (held : Holdings) : Follows bucket held [] held
  | cons {before between after : Holdings} {e : Exchange SyncService}
      {rest : List (Exchange SyncService)} (effect : e.Effect bucket before between)
      (later : Follows bucket between rest after) : Follows bucket before (e :: rest) after

variable {bucket : String} {before after : Holdings} {exchanges : List (Exchange SyncService)}

theorem follows_append_iff {rest : List (Exchange SyncService)} :
    Follows bucket before (exchanges ++ rest) after ↔
      ∃ between, Follows bucket before exchanges between ∧ Follows bucket between rest after := by
  constructor
  · intro follows
    induction exchanges generalizing before with
    | nil => exact ⟨before, .nil before, follows⟩
    | cons e exchanges ih =>
        cases follows with
        | cons effect later =>
            obtain ⟨between, first, last⟩ := ih later
            exact ⟨between, .cons effect first, last⟩
  · rintro ⟨between, first, last⟩
    induction first with
    | nil held => exact last
    | cons effect later ih => exact .cons effect (ih last)

/-- What an exchange may do to a bucket, whatever its reply: nothing, or it removes
some of the keys that it deletes, or it stores the upload that it is a part of. -/
inductive Exchange.MayDo (e : Exchange SyncService) (before : Holdings) : Holdings → Prop
  | nothing : MayDo e before before
  | removed {b : String} {keys gone : List Key} (deletes : e.call = .delete b keys)
      (within : gone ⊆ keys) : MayDo e before (before.without gone)
  | stored {upload : Upload} (uploads : e.upload? = some upload) :
      MayDo e before (before.put upload)

theorem Exchange.Effect.mayDo {e : Exchange SyncService} (effect : e.Effect bucket before after) :
    e.MayDo before after := by
  have unsure {upload : Upload} (uploads : e.upload? = some upload)
      (either : after = before ∨ upload.bucket = bucket ∧ after = before.put upload) :
      e.MayDo before after := by
    rcases either with rfl | ⟨-, rfl⟩
    · exact .nothing
    · exact .stored uploads
  have partly {b : String} {keys : List Key} (deletes : e.call = .delete b keys)
      (either : after = before ∨
        b = bucket ∧ ∃ gone, gone ⊆ keys ∧ after = before.without gone) :
      e.MayDo before after := by
    rcases either with rfl | ⟨-, gone, within, rfl⟩
    · exact .nothing
    · exact .removed deletes within
  obtain ⟨call, reply⟩ := e
  cases call with
  | list b stem delimiter =>
      rcases reply with reason | (cause | listing)
      · exact effect ▸ .nothing
      · exact effect ▸ .nothing
      · exact effect.1 ▸ .nothing
  | delete b keys =>
      rcases reply with reason | (cause | _)
      · exact partly rfl effect
      · exact partly rfl effect
      · rw [effect.trans rfl]
        split
        · exact .removed rfl (List.Subset.refl keys)
        · exact .nothing
  | startUpload w upload =>
      cases reply with
      | error reason => exact unsure rfl effect
      | ok => exact effect ▸ .nothing
  | awaitUpload w upload =>
      rcases reply with reason | (cause | _)
      · exact unsure rfl effect
      · exact unsure rfl effect
      · rw [effect.trans rfl]
        split
        · exact .stored rfl
        · exact .nothing
  | abandonUpload w upload => exact unsure rfl effect
  | _ => exact effect ▸ .nothing

/-- An exchange leaves the keys alone that it does not touch. -/
theorem Exchange.MayDo.eq_of_notMem {e : Exchange SyncService} {key : Key}
    (does : e.MayDo before after) (untouched : key ∉ e.touched) : after key = before key := by
  cases does with
  | nothing => rfl
  | removed deletes within =>
      rw [touched_of_delete deletes] at untouched
      rw [Holdings.without_apply, if_neg fun member => untouched (within member)]
  | stored uploads =>
      rw [touched_of_upload? uploads, List.mem_singleton] at untouched
      exact if_neg untouched

/-- What exchanges may do to a bucket one after another, whatever their replies. -/
inductive MayLead : Holdings → List (Exchange SyncService) → Holdings → Prop
  | nil (held : Holdings) : MayLead held [] held
  | cons {before between after : Holdings} {e : Exchange SyncService}
      {rest : List (Exchange SyncService)} (does : e.MayDo before between)
      (later : MayLead between rest after) : MayLead before (e :: rest) after

/-- What an exchange may do below a stem it may do wherever the same is held there. -/
theorem Exchange.MayDo.exists_same {e : Exchange SyncService} {stem : Key} {start : Holdings}
    (does : e.MayDo before after) (same : ∀ key, stem <+: key → start key = before key) :
    ∃ ended, e.MayDo start ended ∧ ∀ key, stem <+: key → ended key = after key := by
  cases does with
  | nothing => exact ⟨start, .nothing, same⟩
  | removed deletes within =>
      refine ⟨_, .removed deletes within, fun key inside => ?_⟩
      rw [Holdings.without_apply, Holdings.without_apply, same key inside]
  | stored uploads =>
      refine ⟨_, .stored uploads, fun key inside => ?_⟩
      rw [Holdings.put, Holdings.put, same key inside]

/-- Where only the exchanges of one of several parties touch keys below a stem, they may
lead to the same below it on their own. -/
theorem MayLead.exists_alone {ι : Type} [DecidableEq ι] {i : ι} {stem : Key} {start : Holdings}
    {merged : List (ι × Exchange SyncService)}
    (leads : MayLead before (merged.map (·.2)) after)
    (apart : ∀ j e, (j, e) ∈ merged → j ≠ i → ∀ key ∈ e.touched, ¬stem <+: key)
    (same : ∀ key, stem <+: key → start key = before key) :
    ∃ alone, MayLead start ((merged.filter (·.1 = i)).map (·.2)) alone ∧
      ∀ key, stem <+: key → alone key = after key := by
  induction merged generalizing before start with
  | nil =>
      cases leads
      exact ⟨start, .nil start, same⟩
  | cons step rest ih =>
      obtain ⟨j, e⟩ := step
      cases leads with
      | @cons _ between _ _ _ does later =>
          have apartLater : ∀ j e, (j, e) ∈ rest → j ≠ i → ∀ key ∈ e.touched, ¬stem <+: key :=
            fun j e member => apart j e (List.mem_cons_of_mem _ member)
          by_cases own : j = i
          · obtain ⟨ended, doesAlone, agrees⟩ := does.exists_same same
            obtain ⟨alone, leadsAlone, ends⟩ := ih later apartLater agrees
            have kept : ((j, e) :: rest).filter (·.1 = i) = (j, e) :: rest.filter (·.1 = i) :=
              List.filter_cons_of_pos (decide_eq_true own)
            rw [kept]
            exact ⟨alone, .cons doesAlone leadsAlone, ends⟩
          · have untouched (key : Key) (inside : stem <+: key) : start key = between key := by
              rw [same key inside, does.eq_of_notMem fun touched =>
                apart j e List.mem_cons_self own key touched inside]
            have dropped : ((j, e) :: rest).filter (·.1 = i) = rest.filter (·.1 = i) :=
              List.filter_cons_of_neg (by simpa using own)
            rw [dropped]
            exact ih later apartLater untouched

/-- Exchanges leave the keys alone that none of them touches. -/
theorem Follows.eq_of_notMem {key : Key} (follows : Follows bucket before exchanges after)
    (untouched : ∀ e ∈ exchanges, key ∉ e.touched) : after key = before key := by
  induction follows with
  | nil held => rfl
  | cons effect later ih =>
      rw [List.forall_mem_cons] at untouched
      rw [ih untouched.2, effect.mayDo.eq_of_notMem untouched.1]

/-- Exchanges that touch no key outside a stem leave all else as it was. -/
theorem Follows.eq_of_not_prefix {stem key : Key}
    (follows : Follows bucket before exchanges after)
    (within : ∀ e ∈ exchanges, ∀ k ∈ e.touched, stem <+: k) (outside : ¬stem <+: key) :
    after key = before key :=
  follows.eq_of_notMem fun e member touched => outside (within e member key touched)

/-- As long as nothing is uploaded, an object stays as it was or is gone. -/
theorem Follows.eq_or_eq_none (follows : Follows bucket before exchanges after)
    (idle : ∀ e ∈ exchanges, e.upload? = none) (key : Key) :
    after key = before key ∨ after key = none := by
  induction follows with
  | nil => exact .inl rfl
  | cons effect later ih =>
      rw [List.forall_mem_cons] at idle
      rcases ih idle.2 with same | gone
      · rw [same]
        cases effect.mayDo with
        | nothing => exact .inl rfl
        | @removed b keys gone deletes within =>
            rw [Holdings.without_apply]
            exact (ite_eq_or_eq _ _ _).symm
        | stored uploads => cases idle.1.symm.trans uploads
      · exact .inr gone

/-- A listing of a bucket that tells only keys under its stem, or another exchange. -/
def Exchange.ListsInside (bucket : String) : Exchange SyncService → Prop
  | ⟨.list b stem _, .ok (.ok listing)⟩ =>
    b = bucket → ∀ key ∈ listing.objects.map (·.key), stem <+: key
  | _ => True

theorem Exchange.Effect.listsInside {e : Exchange SyncService}
    (effect : e.Effect bucket before after) : e.ListsInside bucket := by
  obtain ⟨call, reply⟩ := e
  cases call with
  | list b stem delimiter =>
      rcases reply with reason | (cause | listing)
      · trivial
      · trivial
      · intro here key member
        exact (((effect.2 here).mem_objects_iff key).mp member).2.1
  | _ => trivial

/-- Complete listings tell only keys under their stems. -/
theorem Follows.listsInside (follows : Follows bucket before exchanges after) :
    ∀ e ∈ exchanges, e.ListsInside bucket := by
  induction follows with
  | nil => exact nofun
  | cons effect later ih => exact List.forall_mem_cons.mpr ⟨effect.listsInside, ih⟩

/-- What is held stays held as long as nothing is deleted. -/
theorem Follows.ne_none {key : Key} (follows : Follows bucket before exchanges after)
    (undeleted : ∀ e ∈ exchanges, ∀ b keys, e.call ≠ .delete b keys)
    (held : before key ≠ none) : after key ≠ none := by
  induction follows with
  | nil => exact held
  | cons effect later ih =>
      rw [List.forall_mem_cons] at undeleted
      apply ih undeleted.2
      cases effect.mayDo with
      | nothing => exact held
      | removed deletes => exact absurd deletes (undeleted.1 _ _)
      | @stored upload => by_cases same : key = upload.key <;> simp [Holdings.put, same, held]

/-- An upload that is stored is held as long as nothing is deleted. -/
theorem Follows.ne_none_of_stored {w : Nat} {upload : Upload}
    (follows : Follows bucket before exchanges after)
    (undeleted : ∀ e ∈ exchanges, ∀ b keys, e.call ≠ .delete b keys)
    (stored : ⟨.awaitUpload w upload, .ok (.ok ())⟩ ∈ exchanges) (here : upload.bucket = bucket) :
    after upload.key ≠ none := by
  obtain ⟨first, rest, rfl⟩ := List.append_of_mem stored
  obtain ⟨between, -, last⟩ := follows_append_iff.mp follows
  rw [List.forall_mem_append, List.forall_mem_cons] at undeleted
  cases last with
  | cons effect later =>
      apply later.ne_none undeleted.2.2
      rw [effect.trans (if_pos here), Holdings.put, if_pos rfl]
      exact nofun

end FleetDeploy
