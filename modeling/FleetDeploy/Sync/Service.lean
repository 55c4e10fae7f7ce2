import FleetDeploy.Local.Path
import FleetDeploy.Program.Basic
import FleetDeploy.Store.Error
import FleetDeploy.Store.Objects

/-!
# The services of synchronisation

Synchronising a directory needs the object store, the local files, and whoever
runs the workers and keeps the time.  All of them are reached by calls.

An upload is three calls: it is started, and then it is either awaited or
abandoned.  Only an upload that is awaited takes effect.
-/

namespace FleetDeploy

/-- An object to write. -/
structure Upload where
  bucket : String
  key : Key
  body : List UInt8
  contentType : String
  deriving DecidableEq, Repr

/-- A file below a local root. -/
structure LocalFile where
  path : Path
  relative : Path
  deriving DecidableEq, Repr

/-- Who goes next: a place among the workers, counted around, and whether the
caller has cancelled by now. -/
structure Turn where
  pick : Nat
  cancelled : Bool
  deriving DecidableEq, Repr

/-- A call that synchronisation makes. -/
inductive SyncCall
  | list (bucket : String) (stem : Key) (delimiter : Option (List Char))
  | delete (bucket : String) (keys : List Key)
  | startUpload (worker : Nat) (upload : Upload)
  | awaitUpload (worker : Nat) (upload : Upload)
  | abandonUpload (worker : Nat) (upload : Upload)
  | walk (root : Path)
  | openFile (path : Path)
  | readFile (path : Path)
  | turn (workers : List Nat) (hurry : Bool)
  | isCancelled
  | startTimer (ms : Nat)
  | stopTimer
  deriving DecidableEq, Repr

/-- The services of synchronisation.  A walk and a reading fail without a reason,
and so does opening a file. -/
abbrev SyncService : Interface where
  Call := SyncCall
  Reply
    | .list _ _ _ => Except StoreError Listing
    | .delete _ _ => Except StoreError Unit
    | .startUpload _ _ => Unit
    | .awaitUpload _ _ => Except StoreError Unit
    | .abandonUpload _ _ => Unit
    | .walk _ => Option (List LocalFile)
    | .openFile _ => Bool
    | .readFile _ => Option (List UInt8)
    | .turn _ _ => Turn
    | .isCancelled => Bool
    | .startTimer _ => Unit
    | .stopTimer => Unit

namespace SyncService

/-- Make a call. -/
abbrev ask (c : SyncCall) : Program SyncService (SyncService.Reply c) :=
  Program.perform (I := SyncService) c

end SyncService

end FleetDeploy
