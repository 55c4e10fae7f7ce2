import FleetDeploy.Content.Extension
import FleetDeploy.Content.Sniff
import FleetDeploy.Release.Error
import FleetDeploy.Sync.Service

/-!
# The pool of upload workers

A fixed number of workers share a queue of files.  A worker goes through the
phases of one file after another: it opens the file, reads it, and uploads it.
At each of its turns it first looks whether the work is called off, which the
caller does by cancelling and the first failure does for all.  A worker that
panics is noticed only when it is joined, which is a turn of its own.

One turn takes one worker from one phase to the next.  Who has the next turn is
told by the services, so every interleaving is a sequence of their replies.
-/

namespace FleetDeploy

/-- Where a worker is. -/
inductive Phase
  | idle
  | opening (file : LocalFile)
  | reading (file : LocalFile)
  | uploading (upload : Upload)
  | panicked
  | finished
  deriving DecidableEq, Repr

/-- How many turns a phase may still take, not counting the files of the queue. -/
def Phase.rank : Phase → Nat
  | .idle => 1
  | .opening _ => 4
  | .reading _ => 3
  | .uploading _ => 2
  | .panicked => 1
  | .finished => 0

/-- Workers in the middle of an upload to a directory of a bucket.  `types` are the
types registered for extensions, and `watched` says whether the caller can cancel. -/
structure Pool where
  types : ContentTypes
  bucket : String
  dest : List Char
  watched : Bool
  queue : List LocalFile
  workers : List Phase
  cancelled : Bool
  failure : Option ReleaseError
  uploaded : Nat

namespace Pool

/-- The pool before its first turn: no more workers than files, but one at least. -/
def start (types : ContentTypes) (bucket : String) (dest : List Char) (watched : Bool)
    (workers : Nat) (files : List LocalFile) : Pool where
  types := types
  bucket := bucket
  dest := dest
  watched := watched
  queue := files
  workers := List.replicate (min (max workers 1) files.length) .idle
  cancelled := false
  failure := none
  uploaded := 0

/-- The turns that are left at most. -/
def work (pool : Pool) : Nat :=
  4 * pool.queue.length + (pool.workers.map Phase.rank).foldr (· + ·) 0

/-- Whether the work is called off. -/
def isCalledOff (pool : Pool) : Bool :=
  pool.cancelled || pool.failure.isSome

/-- The workers that have not finished. -/
def unfinished (pool : Pool) : List Nat :=
  (List.range pool.workers.length).filter fun w => pool.workers[w]? ≠ some .finished

/-- Take a worker to a phase. -/
def move (pool : Pool) (w : Nat) (phase : Phase) : Pool :=
  { pool with workers := pool.workers.set w phase }

/-- Finish a worker by a failure, which is kept if it is the first. -/
def fail (pool : Pool) (w : Nat) (e : ReleaseError) : Pool :=
  { pool.move w .finished with failure := pool.failure.or (some e) }

/-- The content type of a file: by its extension, or else by its content. -/
def contentType (pool : Pool) (file : LocalFile) (body : List UInt8) : String :=
  (pool.types.ofPath? file.path).getD (Content.sniff body)

/-- The object that a file becomes. -/
def upload (pool : Pool) (file : LocalFile) (body : List UInt8) : Upload :=
  ⟨pool.bucket, Key.ofFile pool.dest file.relative, body, pool.contentType file body⟩

/-- Take the next file from the queue, or finish. -/
def takeFile (pool : Pool) (w : Nat) : Pool :=
  match pool.queue with
  | [] => pool.move w .finished
  | file :: rest => { pool.move w (.opening file) with queue := rest }

/-- Open a file. -/
def openFile (pool : Pool) (w : Nat) (file : LocalFile) : Program SyncService Pool := do
  match ← (SyncService.ask (.openFile file.path)).attempt with
  | .ok true => return pool.move w (.reading file)
  | .ok false => return pool.fail w (.file file.path)
  | .error _ => return pool.move w .panicked

/-- Read a file, and start to upload it. -/
def readFile (pool : Pool) (w : Nat) (file : LocalFile) : Program SyncService Pool := do
  match ← (SyncService.ask (.readFile file.path)).attempt with
  | .ok (some body) =>
    let upload := pool.upload file body
    match ← (SyncService.ask (.startUpload w upload)).attempt with
    | .ok () => return pool.move w (.uploading upload)
    | .error _ => return pool.move w .panicked
  | .ok none => return pool.fail w (.file file.path)
  | .error _ => return pool.move w .panicked

/-- Take the result of an upload. -/
def finishUpload (pool : Pool) (w : Nat) (upload : Upload) : Program SyncService Pool := do
  match ← (SyncService.ask (.awaitUpload w upload)).attempt with
  | .ok (.ok ()) => return { pool.move w .idle with uploaded := pool.uploaded + 1 }
  | .ok (.error cause) => return pool.fail w (.store cause)
  | .error _ => return pool.move w .panicked

/-- Finish a worker whose work is called off. -/
def giveUp (pool : Pool) (w : Nat) : Phase → Program SyncService Pool
  | .uploading upload => do
    let _ ← (SyncService.ask (.abandonUpload w upload)).attempt
    return pool.move w .finished
  | .panicked => return pool.fail w (.panicked none)
  | _ => return pool.move w .finished

/-- Go on with a worker. -/
def advance (pool : Pool) (w : Nat) : Phase → Program SyncService Pool
  | .idle => return pool.takeFile w
  | .opening file => pool.openFile w file
  | .reading file => pool.readFile w file
  | .uploading upload => pool.finishUpload w upload
  | .panicked => return pool.fail w (.panicked none)
  | .finished => return pool

/-- The turn of a worker. -/
def turn (pool : Pool) (w : Nat) : Program SyncService Pool :=
  let phase := pool.workers.getD w .finished
  if pool.isCalledOff then pool.giveUp w phase else pool.advance w phase

/-- Ask who is next.  Where no answer comes, it is the first worker. -/
def nextTurn (pool : Pool) : Program SyncService Turn := do
  match ← (SyncService.ask (.turn pool.unfinished pool.isCalledOff)).attempt with
  | .ok t => return t
  | .error _ => return ⟨0, false⟩

/-- The pool once it is known whether the caller has cancelled. -/
def notice (pool : Pool) (t : Turn) : Pool :=
  { pool with cancelled := pool.cancelled || (pool.watched && t.cancelled) }

/-- Take turns until every worker has finished, but not more than a bound. -/
def takeTurns : Nat → Pool → Program SyncService Pool
  | 0, pool => return pool
  | bound + 1, pool => do
    match pool.unfinished with
    | [] => return pool
    | first :: others =>
      let t ← pool.nextTurn
      let w := (first :: others).getD (t.pick % (others.length + 1)) first
      let pool ← (pool.notice t).turn w
      takeTurns bound pool

/-- Take turns until every worker has finished. -/
def drain (pool : Pool) : Program SyncService Pool :=
  takeTurns pool.work pool

end Pool

end FleetDeploy
