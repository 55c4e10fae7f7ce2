import FleetDeploy.Local.Path
import FleetDeploy.Text.Blank
import FleetDeploy.Text.Numeral

/-!
# Object keys

The layout of an app's files in its bucket.  Below the storage root each app has
a directory, in it each release has a directory named by its number, and in that
each synchronised asset has one named by its place among the release's assets:

    <root>/<app>/<version>/<place>/<path of the file>

A key is a list of characters, and a directory is the prefix that its keys have
in common, with the slash at its end.
-/

namespace FleetDeploy

/-- The key of an object. -/
abbrev Key :=
  List Char

namespace Key

/-- A text without the slashes at its end. -/
def trimSlashes (text : List Char) : List Char :=
  Text.trimEnd (· = '/') text

/-- The directory of an app, with its slash. -/
def appRoot (root app : List Char) : Key :=
  trimSlashes root ++ '/' :: app ++ ['/']

/-- The directory of a release, without its slash. -/
def versionRoot (root app : List Char) (version : UInt64) : Key :=
  appRoot root app ++ Text.Numeral.render version.toNat

/-- The directory of an asset of a release, with its slash. -/
def staticDest (versionRoot : Key) (place : Nat) : Key :=
  trimSlashes versionRoot ++ '/' :: Text.Numeral.render place ++ ['/']

/-- Write a backslash as a slash. -/
def forward (c : Char) : Char :=
  if c = '\\' then '/' else c

/-- The prefix of the keys in a directory: slashes forward, and one at the end. -/
def directory (dir : List Char) : Key :=
  let forwarded := dir.map forward
  if forwarded.getLast? = some '/' then forwarded else forwarded ++ ['/']

/-- The text of a relative path inside a key: its names, divided by slashes. -/
def relative (path : Path) : Key :=
  ['/'].intercalate (path.names.map fun name => (Text.Utf8.decodeLenient name).map forward)

/-- The key of a file at a relative path below a directory. -/
def ofFile (dest : List Char) (path : Path) : Key :=
  directory dest ++ relative path

/-- The rest of a key below a prefix. -/
def below? (stem key : List Char) : Option (List Char) :=
  if stem.isPrefixOf key then some (key.drop stem.length) else none

/-- The release that a key below an app's directory belongs to, if the name of
its directory is a number. -/
def parseVersion (appRoot key : List Char) : Option UInt64 := do
  let rest ← below? appRoot key
  (Text.Numeral.parse (rest.takeWhile (· ≠ '/'))).toOption

end Key

end FleetDeploy
