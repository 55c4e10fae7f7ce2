import FleetDeploy.Local.Tree
import FleetDeploy.Rehearsal.ContentTypes
import FleetDeploy.Rehearsal.Script
import FleetDeploy.Sync.Bucket
import FleetDeploy.Text.Search

/-!
# An object store and a local tree in memory

The store keeps the objects of buckets, and the tree has the local files.  An
upload that was started is done at a time that its rule tells.  Of the workers
that ask for a turn the first one that need not wait gets it, and where all have
to wait, time passes until the first of them is done.
-/

namespace FleetDeploy.Rehearsal

/-- How a listing behaves: a fixed page may stand for the answer, and a limit may
cut it. -/
structure ListAct where
  act : Act StoreError
  page : Option Listing
  limit : Option Nat
  deriving Repr

/-- How uploads behave whose keys contain a text: what they change in the tree,
beside what an act tells. -/
structure UploadRule where
  part : List Char
  act : Act StoreError
  removeFile : Option Path
  makeDirectory : Option Path
  deriving Repr

/-- The acts of the calls to come, and the rules for all uploads. -/
structure StorageScript where
  list : List ListAct
  delete : List (Act StoreError)
  connect : List (Act StoreError)
  uploads : List UploadRule
  deriving Repr

/-- The store and the tree, with the uploads under way: the worker of each and
when it is done.  `base` is where relative local paths begin. -/
structure Storage where
  clock : Clock
  buckets : OrderedMap String Objects
  tree : Tree
  base : Path
  script : StorageScript
  underWay : List (Nat × Nat)
  cancelAt : Option Nat
  deriving Repr

namespace Storage

/-- An empty store, and a tree with one directory. -/
def empty (base : Path) : Storage :=
  ⟨.zero, .empty, Tree.add .empty base .directory, base, ⟨[], [], [], []⟩, [], none⟩

/-- The objects of a bucket. -/
def objects (s : Storage) (bucket : String) : Objects :=
  (s.buckets.get? bucket).getD .empty

/-- Set the objects of a bucket. -/
def setObjects (s : Storage) (bucket : String) (objects : Objects) : Storage :=
  { s with buckets := s.buckets.insert bucket objects }

/-- Store an object. -/
def store (s : Storage) (upload : Upload) : Storage :=
  s.setObjects upload.bucket
    ((s.objects upload.bucket).insert upload.key ⟨upload.body, upload.contentType⟩)

/-- The tree with some entries in it and nothing else. -/
def withFiles (s : Storage) (files : List (Path × TreeEntry)) : Storage :=
  let bare : Tree := Tree.add .empty s.base .directory
  { s with tree := files.foldl (fun t (path, entry) => Tree.add t (s.base.join path) entry) bare }

/-- The files below a root. -/
def walk (s : Storage) (root : Path) : Option (List LocalFile) :=
  (s.tree.walk? root).map fun found =>
    found.map fun names => ⟨names.foldl Path.join root, [Path.slash].intercalate names⟩

/-- The answer to a listing. -/
def listing (s : Storage) (a : ListAct) (bucket : String) (stem : Key)
    (delimiter : Option (List Char)) : Listing :=
  match a.page, a.limit with
  | some page, _ => page
  | none, none => (s.objects bucket).listing stem delimiter
  | none, some limit =>
    let full := (s.objects bucket).listing stem delimiter
    ⟨full.objects.take limit, full.directories.take limit⟩

/-- The rule for an upload. -/
def rule (s : Storage) (upload : Upload) : UploadRule :=
  (s.script.uploads.find? fun r => Text.contains r.part upload.key).getD
    ⟨[], .free, none, none⟩

/-- Change the tree as a rule tells. -/
def disturb (s : Storage) (r : UploadRule) : Storage :=
  let tree := r.removeFile.elim s.tree fun path => s.tree.removeFile (s.base.join path)
  let tree := r.makeDirectory.elim tree fun path => tree.makeDirectory (s.base.join path)
  { s with tree }

/-- When the upload of a worker is done. -/
def doneAt (s : Storage) (worker : Nat) : Nat :=
  ((s.underWay.find? (·.1 = worker)).map (·.2)).getD s.clock.now

/-- Forget the upload of a worker. -/
def forget (s : Storage) (worker : Nat) : Storage :=
  { s with underWay := s.underWay.filter (·.1 ≠ worker) }

/-- Whether the caller has cancelled at a time. -/
def cancelledAt (s : Storage) (now : Nat) : Bool :=
  s.cancelAt.any (· ≤ now)

/-- When the first of some workers need not wait any more. -/
def nextTime (s : Storage) (workers : List Nat) : Nat :=
  let times := workers.map s.doneAt ++ s.cancelAt.toList
  max s.clock.now ((times.min?).getD 0)

/-- Finish an upload. -/
def finish (s : Storage) (worker : Nat) (upload : Upload) :
    Except Stop (Except StoreError Unit) × Storage :=
  let r := s.rule upload
  let act : Act StoreError := { r.act with delayMs := s.doneAt worker - s.clock.now }
  match act.start s.clock with
  | (.error stop, clock) => (.error stop, { s.forget worker with clock })
  | (.ok (), clock) =>
    let s := { (s.forget worker).disturb r with clock }
    match act.refusal with
    | some e => (.ok (.error e), s)
    | none => (.ok (.ok ()), s.store upload)

/-- Give the next turn. -/
def giveTurn (s : Storage) (workers : List Nat) (hurry : Bool) : Turn × Storage :=
  if hurry then (⟨0, s.cancelledAt s.clock.now⟩, s)
  else
    let now := s.nextTime workers
    let pick := if s.cancelledAt now then 0 else workers.findIdx fun w => s.doneAt w ≤ now
    (⟨pick, s.cancelledAt now⟩, { s with clock := { s.clock with now } })

/-- Answer a call. -/
def answer : (c : SyncCall) → Storage → Except Stop (SyncService.Reply c) × Storage
  | .list bucket stem delimiter, s =>
    let a := s.script.list.headD ⟨.free, none, none⟩
    let script := { s.script with list := s.script.list.tail }
    a.act.play s.clock (fun clock => { s with clock, script })
      fun s => (s.listing a bucket stem delimiter, s)
  | .delete bucket keys, s =>
    if batchLimit < keys.length then (.ok (.error (.batchTooLarge keys.length)), s)
    else
      let script := { s.script with delete := s.script.delete.tail }
      (s.script.delete.headD .free).play s.clock (fun clock => { s with clock, script })
        fun s => ((), s.setObjects bucket ((s.objects bucket).delete keys))
  | .startUpload worker upload, s =>
    let done := s.clock.now + (s.rule upload).act.delayMs
    (.ok (), { s.forget worker with underWay := (worker, done) :: (s.forget worker).underWay })
  | .awaitUpload worker upload, s => s.finish worker upload
  | .abandonUpload worker _, s => (.ok (), s.forget worker)
  | .walk root, s => (.ok (s.walk root), s)
  | .openFile path, s => (.ok (s.tree.at? path).isSome, s)
  | .readFile path, s => (.ok (s.tree.read? path), s)
  | .turn workers hurry, s =>
    let (turn, s) := s.giveTurn workers hurry
    (.ok turn, s)
  | .isCancelled, s => (.ok (s.cancelledAt s.clock.now), s)
  | .startTimer ms, s => (.ok (), { s with clock := s.clock.limit ms })
  | .stopTimer, s => (.ok (), { s with clock := s.clock.unlimit })

/-- Connect to a bucket. -/
def connect (s : Storage) : Except Stop (Except StoreError Unit) × Storage :=
  let script := { s.script with connect := s.script.connect.tail }
  (s.script.connect.headD .free).play s.clock (fun clock => { s with clock, script })
    fun s => ((), s)

/-- Put the uploads that were started one after another in the order of their
keys. -/
def sortStarts : List SyncCall → List SyncCall
  | calls => flush (calls.foldr gather ([], []))
where
  /-- Take a call in front of a run of uploads and what follows it. -/
  gather : SyncCall → List (Nat × Upload) × List SyncCall → List (Nat × Upload) × List SyncCall
    | .startUpload worker upload, (run, rest) => ((worker, upload) :: run, rest)
    | c, (run, rest) => ([], c :: flush (run, rest))
  /-- A run of uploads in the order of their keys, and what follows it. -/
  flush : List (Nat × Upload) × List SyncCall → List SyncCall
    | (run, rest) =>
      (run.mergeSort fun a b => !(b.2.key < a.2.key)).map (fun (w, u) => .startUpload w u) ++ rest

end Storage

end FleetDeploy.Rehearsal
