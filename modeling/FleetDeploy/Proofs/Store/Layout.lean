import FleetDeploy.Proofs.Store.Key

/-!
# Keys are read in one way

A key is put together from the directory of an app, two numbers and the path of a file,
with slashes between them.  A number has no slash in it and is the only one with its
digits, so each part can be read off again, from the front to the back.
-/

namespace FleetDeploy.Key

variable {root app : List Char}

/-- Below the directory of an asset a key is the path of its file. -/
theorem ofFile_eq_iff_relative_eq {dest : List Char} {path other : Path} :
    ofFile dest path = ofFile dest other ↔ relative path = relative other := by
  rw [ofFile, ofFile, List.append_cancel_left_eq]

theorem directory_versionRoot_prefix_ofFile (version : UInt64) (place : Nat) (path : Path) :
    directory (versionRoot root app version) <+:
      ofFile (staticDest (versionRoot root app version) place) path :=
  (directory_versionRoot_prefix_staticDest place).trans (directory_prefix_ofFile _ path)

/-- The same key is the same release, the same place and the same path. -/
theorem ofFile_staticDest_eq_iff {v w : UInt64} {i j : Nat} {path other : Path} :
    ofFile (staticDest (versionRoot root app v) i) path =
        ofFile (staticDest (versionRoot root app w) j) other ↔
      v = w ∧ i = j ∧ relative path = relative other := by
  constructor
  · intro same
    have release : v = w := by
      apply eq_of_directory_versionRoot_prefix (directory_versionRoot_prefix_ofFile v i path)
      rw [same]
      exact directory_versionRoot_prefix_ofFile w j other
    subst release
    have place : i = j := by
      apply eq_of_directory_staticDest_prefix (directory_prefix_ofFile _ path)
      rw [same]
      exact directory_prefix_ofFile _ other
    subst place
    exact ⟨rfl, rfl, ofFile_eq_iff_relative_eq.mp same⟩
  · rintro ⟨rfl, rfl, same⟩
    exact ofFile_eq_iff_relative_eq.mpr same

/-- What stands in the directory of a release is read as the release's. -/
theorem parseVersion_of_directory_prefix (plainRoot : '\\' ∉ root) (plainApp : '\\' ∉ app)
    {version : UInt64} {key : Key} (inside : directory (versionRoot root app version) <+: key) :
    parseVersion (appRoot root app) key = some version := by
  obtain ⟨rest, rfl⟩ := inside
  rw [directory_versionRoot_of_plain plainRoot plainApp, List.append_assoc]
  exact parseVersion_versionRoot_append rest

/-- The key of a file says its release, its place among the assets and its path, each in
one way only.  No key is in the directories of two releases, and the release is read off
each key of its files, as it is off any text that goes on behind its directory. -/
theorem layout_readable (plainRoot : '\\' ∉ root) (plainApp : '\\' ∉ app) :
    (∀ (v w : UInt64) (i j : Nat) (path other : Path),
        ofFile (staticDest (versionRoot root app v) i) path =
            ofFile (staticDest (versionRoot root app w) j) other ↔
          v = w ∧ i = j ∧ relative path = relative other) ∧
      (∀ (v w : UInt64) (key : Key), directory (versionRoot root app v) <+: key →
        directory (versionRoot root app w) <+: key → v = w) ∧
      (∀ (v : UInt64) (i : Nat) (path : Path),
        parseVersion (appRoot root app) (ofFile (staticDest (versionRoot root app v) i) path) =
          some v) ∧
      ∀ (v : UInt64) (rest : List Char),
        parseVersion (appRoot root app) (versionRoot root app v ++ '/' :: rest) = some v := by
  refine ⟨fun v w i j path other => ofFile_staticDest_eq_iff, fun v w key first second => ?_,
    fun v i path => ?_, fun v rest => parseVersion_versionRoot_append rest⟩
  · exact eq_of_directory_versionRoot_prefix first second
  · apply parseVersion_of_directory_prefix plainRoot plainApp
    exact directory_versionRoot_prefix_ofFile v i path

/-- Slashes at the end of the root, and a path with a dot and a step up in it. -/
theorem site_readable :
    let key := ofFile (staticDest (versionRoot "fly/statics//".toList "web".toList 42) 1)
      (.ofString "./css/../7/site.css")
    '\\' ∉ "fly/statics//".toList ∧ '\\' ∉ "web".toList ∧
      key = "fly/statics/web/42/1/css/7/site.css".toList ∧
      parseVersion (appRoot "fly/statics//".toList "web".toList) key = some 42 := by
  have plainRoot : '\\' ∉ "fly/statics//".toList := by decide
  have plainApp : '\\' ∉ "web".toList := by decide
  have readable := layout_readable plainRoot plainApp
  exact ⟨plainRoot, plainApp, by decide +kernel, readable.2.2.1 42 1 _⟩

end FleetDeploy.Key
