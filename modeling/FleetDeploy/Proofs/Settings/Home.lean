import FleetDeploy.Proofs.Text.Utf8
import FleetDeploy.Proofs.Yaml.Decode
import FleetDeploy.Settings.Home

/-!
# Saved settings

The file of settings holds what was saved, whatever the texts look like, so reading it
leaves only the check of the settings to be passed.
-/

namespace FleetDeploy

namespace Settings

open Yaml (text_itemNode count_itemNode)

/-- The keys of the file are plain words. -/
theorem isKey_of_mem_keys {key : String} (member : key ∈ fileRecord.keys) :
    Yaml.Layout.IsKey key := by
  have all : fileRecord.keys.all Yaml.Layout.isKey = true := by decide
  exact Yaml.Layout.isKey_iff.mp (List.all_eq_true.mp all key member)

theorem nodup_keys : fileRecord.keys.Nodup := by
  decide

/-- Settings are built from the fields that are written for them. -/
theorem reads_fileFields (s : Settings) : fileRecord.Reads s.fileFields s := by
  refine .seq (.seq (.seq (.seq (.seq (.seq (.seq (.seq (.map ?hostname _) ?url) ?root) ?provider)
    ?versions) ?workers) ?cleanup) ?lease) ?key
  case hostname => exact .withDefault (text_itemNode · _)
  case url => exact .withDefault (text_itemNode · _)
  case root => exact .withDefault (text_itemNode · _)
  case provider => exact .withDefault (text_itemNode · _)
  case versions => exact .withDefault (count_itemNode · _)
  case workers => exact .withDefault (count_itemNode · _)
  case cleanup => exact .withDefault (count_itemNode · _)
  case lease => exact .withDefault (count_itemNode · _)
  case key => exact .withDefault (text_itemNode · _)

/-- The file that is written for settings holds these settings. -/
theorem read_fileContents (s : Settings) :
    ConfigFile.read fileRecord.decoder s.fileContents = .ok s := by
  have reads := s.reads_fileFields
  have once := nodup_keys
  rw [reads.named] at once
  have keys : ∀ field ∈ s.fileFields, Yaml.Layout.IsKey field.1 := by
    intro field member
    apply isKey_of_mem_keys
    rw [reads.named]
    exact List.mem_map_of_mem member
  rw [ConfigFile.read, fileContents, Text.Utf8.decode?_encode]
  simp only [reads.read?_record keys once]

/-- Of written settings only the check remains. -/
theorem ofFileContents_fileContents (s : Settings) :
    ofFileContents s.fileContents = s.check.map fun _ => s := by
  rw [ofFileContents, read_fileContents]
  rfl

/-! ## The check -/

/-- Whatever goes wrong, a setting is to blame. -/
def BlamesSetting {α : Type} (outcome : Except ConfigError α) : Prop :=
  ∀ e, outcome = .error e → ∃ field reason, e = .invalidSetting field reason

section

variable {α β : Type}

theorem blamesSetting_ok (a : α) : BlamesSetting (.ok a) :=
  nofun

theorem blamesSetting_invalidSetting (field reason : String) :
    BlamesSetting (.error (.invalidSetting field reason) : Except ConfigError α) := by
  rintro _ ⟨⟩
  exact ⟨field, reason, rfl⟩

theorem BlamesSetting.ite {p : Prop} [Decidable p] {first other : Except ConfigError α}
    (blames : BlamesSetting first) (otherwise : BlamesSetting other) :
    BlamesSetting (if p then first else other) := by
  split_ifs
  · exact blames
  · exact otherwise

theorem BlamesSetting.bind {first : Except ConfigError α} {next : α → Except ConfigError β}
    (blames : BlamesSetting first) (others : ∀ a, BlamesSetting (next a)) :
    BlamesSetting (first >>= next) := by
  cases first with
  | error e =>
      rintro _ ⟨⟩
      exact blames e rfl
  | ok a => exact others a

end

theorem blamesSetting_checkCount (field : String) (count : UInt64) :
    BlamesSetting (checkCount field count) :=
  (blamesSetting_invalidSetting field _).ite (blamesSetting_ok ())

theorem blamesSetting_checkText (field : String) (trimmed : List Char) :
    BlamesSetting (checkText field trimmed) :=
  (blamesSetting_invalidSetting field _).ite (blamesSetting_ok ())

theorem blamesSetting_sealKeyBytes (s : Settings) : BlamesSetting s.sealKeyBytes := by
  rw [sealKeyBytes]
  split
  next => exact blamesSetting_invalidSetting _ _
  next bytes _ => exact (blamesSetting_ok bytes).ite (blamesSetting_invalidSetting _ _)

/-- The check blames a setting, whichever rule is broken. -/
theorem blamesSetting_check (s : Settings) : BlamesSetting s.check := by
  apply (blamesSetting_checkCount _ _).bind
  intro _
  apply (blamesSetting_checkCount _ _).bind
  intro _
  apply (blamesSetting_checkCount _ _).bind
  intro _
  apply (blamesSetting_checkText _ _).bind
  intro _
  apply (blamesSetting_checkText _ _).bind
  intro _
  exact s.blamesSetting_sealKeyBytes.bind fun _ => blamesSetting_ok ()

end Settings

namespace Home

/-! ## Saving and loading -/

/-- Settings are saved unless a directory stands in their place. -/
theorem save_eq_ok_iff {s : Settings} {home saved : Home} :
    home.save s = (.ok (), saved) ↔
      home.slot ≠ .directory ∧
        saved = ⟨some (home.directory.getD Permissions.privateDirectory),
          .file s.fileContents Permissions.privateFile, false⟩ := by
  obtain ⟨directory, slot, temporary⟩ := home
  cases slot <;> simp [save, eq_comm]

theorem load_of_slot {home : Home} {contents : List UInt8} {permissions : Permissions}
    (slot : home.slot = .file contents permissions) :
    home.load = Settings.ofFileContents contents := by
  rw [load, slot]

/-- Saved settings are loaded again if they pass their check, and refused as the check
refuses them if they do not. -/
theorem load_of_save {s : Settings} {home saved : Home} (done : home.save s = (.ok (), saved)) :
    (s.check = .ok () → saved.load = .ok s) ∧
      (∀ e, s.check = .error e → saved.load = .error e) ∧
      saved.load ≠ .error .parsing := by
  obtain ⟨-, rfl⟩ := save_eq_ok_iff.mp done
  rw [load_of_slot rfl, Settings.ofFileContents_fileContents]
  cases checked : s.check with
  | ok => exact ⟨fun _ => rfl, nofun, nofun⟩
  | error e =>
      obtain ⟨field, reason, rfl⟩ := s.blamesSetting_check e checked
      refine ⟨nofun, ?_, nofun⟩
      rintro _ ⟨⟩
      rfl

/-- Settings that look like structure, or like other data, or hold what does not show. -/
def awkwardSettings (keepVersions : UInt64) : Settings where
  storageHostname := " 0x1F: null"
  proxyUrl := "- 'it''s' \"\\\" # \x00\r\u2028\uFEFF\n"
  storageRoot := "~"
  provider := ""
  keepVersions
  uploadWorkers := 18446744073709551615
  cleanupTimeoutSecs := 8
  leaseTtlSecs := 0
  sealKey := "\n 3afdb665d93f741adc98a6cfecb36f1e02403a095e8efa921fd2321857011f42\n\n"

theorem load_awkwardSettings :
    (∃ saved, empty.save (awkwardSettings 7) = (.ok (), saved) ∧
        saved.load = .ok (awkwardSettings 7)) ∧
      ∃ saved, empty.save (awkwardSettings 0) = (.ok (), saved) ∧
        saved.load = .error (.invalidSetting "keep_versions" "must be at least 1") :=
  ⟨⟨_, rfl, (load_of_save (show empty.save (awkwardSettings 7) = (.ok (), _) from rfl)).1
      (by decide)⟩,
    ⟨_, rfl, (load_of_save (show empty.save (awkwardSettings 0) = (.ok (), _) from rfl)).2.1 _
      rfl⟩⟩

end Home

end FleetDeploy
