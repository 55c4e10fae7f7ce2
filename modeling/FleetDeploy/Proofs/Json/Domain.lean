import FleetDeploy.Proofs.Json.Document
import FleetDeploy.Proofs.Json.Form
import FleetDeploy.Proofs.Credential.Scope
import FleetDeploy.Proofs.Order.Map
import FleetDeploy.Machine.Basic
import FleetDeploy.Provision.Resource

/-!
# Reading domain types back

Each domain type is read back from the value that it is encoded as.  The records among
them are read from each form that they may be given in: an object with their fields, in
any order and beside other keys, or an array of the fields in the declared order.  A record
within a record may be in either form too, whatever the form of the outer one.
-/

namespace FleetDeploy

namespace Json

/-! ## Leaves -/

theorem size_natural (n : UInt64) : size (.number (.natural n)) = .ok n := by
  rw [size, natural, if_pos n.toNat_lt]

theorem word32_natural (n : UInt32) : word32 (.number (.natural n.toUInt64)) = .ok n := by
  have small : n.toUInt64.toNat < UInt32.size := by
    rw [UInt32.toNat_toUInt64]
    exact n.toNat_lt
  rw [word32, natural, if_pos small]
  simp only [Except.map, UInt32.toUInt32_toUInt64]

/-- A text map is read from the object of its entries. -/
theorem textMap_mapToJson (m : TextMap) : textMap (MachineConfig.mapToJson m) = .ok m := by
  have written : MachineConfig.mapToJson m =
      .object (m.entries.map fun entry => (entry.1, .string entry.2)) := rfl
  have sorted : (m.entries.map fun entry => (entry.1, Value.string entry.2)).mergeSort
      (fun a b => a.1 ≤ b.1) = m.entries.map fun entry => (entry.1, .string entry.2) := by
    apply List.mergeSort_of_pairwise
    rw [List.pairwise_map]
    exact m.ascending.imp fun less => decide_eq_true (Std.le_of_lt less)
  rw [written, textMap, sorted, except_bind_eq_ok]
  refine ⟨m.entries, except_mapM_of_forall₂ ?_, congrArg Except.ok m.ofList_entries⟩
  exact List.forall₂_map_left_iff.mpr (List.forall₂_same.mpr fun _ _ => rfl)

/-! ## Values in documents -/

/-- The value can be written in a document. -/
def Writable (v : Value) : Prop :=
  ∃ raw, Written v raw

namespace Writable

@[simp]
theorem string (s : String) : Writable (.string s) :=
  ⟨_, .string s⟩

@[simp]
theorem number (n : UInt64) : Writable (.number (.natural n)) :=
  ⟨_, .number n⟩

theorem array {items : List Value} (each : ∀ item ∈ items, Writable item) :
    Writable (.array items) := by
  have inside : ∃ raws, WrittenItems items raws := by
    induction items with
    | nil => exact ⟨_, .nil⟩
    | cons item items ih =>
        rw [List.forall_mem_cons] at each
        obtain ⟨raw, first⟩ := each.1
        obtain ⟨raws, others⟩ := ih each.2
        exact ⟨_, .cons first others⟩
  obtain ⟨raws, inside⟩ := inside
  exact ⟨_, .array inside⟩

theorem object {fields : List (String × Value)} (each : ∀ field ∈ fields, Writable field.2) :
    Writable (.object fields) := by
  have inside : ∃ members, WrittenFields fields members := by
    induction fields with
    | nil => exact ⟨_, .nil⟩
    | cons field fields ih =>
        rw [List.forall_mem_cons] at each
        obtain ⟨raw, first⟩ := each.1
        obtain ⟨members, others⟩ := ih each.2
        exact ⟨_, .cons field.1 first others⟩
  obtain ⟨members, inside⟩ := inside
  exact ⟨_, .object inside⟩

@[simp]
theorem texts (texts : List String) : Writable (.array (texts.map .string)) :=
  ⟨_, .array (WrittenItems.texts texts)⟩

@[simp]
theorem textMap (m : TextMap) : Writable (MachineConfig.mapToJson m) := by
  apply object
  intro field member
  obtain ⟨entry, -, rfl⟩ := List.mem_map.mp member
  exact string entry.2

end Writable

/-! ## Encodings that decoding undoes -/

/-- What a type is encoded as can be written in a document and is one of the forms of the
value.  The value is read back from what it is encoded as, and from each of its forms. -/
structure Undoes {α : Type} (decode : Decoder α) (encode : α → Value)
    (form : α → Value → Prop) : Prop where
  document (a : α) : Value.parse? (Text.Utf8.encode (encode a).print) = some (encode a)
  encoded (a : α) : decode (encode a) = .ok a
  own (a : α) : form a (encode a)
  read (a : α) (v : Value) : form a v → decode v = .ok a

namespace Undoes

variable {α : Type} {decode : Decoder α} {encode : α → Value} {form : α → Value → Prop}

theorem of_form (writable : ∀ a, Writable (encode a)) (own : ∀ a, form a (encode a))
    (read : ∀ {a v}, form a v → decode v = .ok a) : Undoes decode encode form where
  document a := by
    obtain ⟨raw, written⟩ := writable a
    exact written.value_parse?
  encoded a := read (own a)
  own := own
  read _ _ := read

/-- What each item of a list is encoded as is one of its forms. -/
theorem own_items (undoes : Undoes decode encode form) (xs : List α) :
    List.Forall₂ form xs (xs.map encode) :=
  List.forall₂_map_right_iff.mpr (List.forall₂_same.mpr fun a _ => undoes.own a)

theorem read_items (undoes : Undoes decode encode form) {xs : List α} {items : List Value}
    (forms : List.Forall₂ form xs items) : list decode (.array items) = .ok xs :=
  list_of_forall₂ (forms.flip.imp fun v a => undoes.read a v)

/-- A record whose fields have one value each is read back from all its forms. -/
theorem of_reads {r : Record α} {name : String} {fields : α → Fields}
    (object : ∀ a, encode a = .object (fields a).present) (writable : ∀ a, Writable (encode a))
    (once : ∀ a, (fields a).keys.Nodup) (reads : ∀ a, r.Reads (fields a) a) :
    Undoes (r.decoder name) encode fun a => Form (fields a) := by
  apply of_form writable
  · intro a
    rw [object]
    exact .written (fields a)
  · intro a v
    exact (reads a).decoder_of_form (once a)

end Undoes

end Json

open Json.Record (Reads)

/-! ## Assets and configurations -/

namespace StaticAsset

/-- The fields of an asset. -/
def fields (asset : StaticAsset) : Json.Fields :=
  [("guest_path", some (.string asset.guestPath)), ("url_prefix", some (.string asset.urlPath)),
    ("bucket", asset.bucket.map .string), ("index_document", asset.indexDocument.map .string)]

/-- The forms of an asset. -/
def Form (asset : StaticAsset) : Json.Value → Prop :=
  Json.Form asset.fields

theorem reads (asset : StaticAsset) : record.Reads asset.fields asset := by
  refine .seq (.seq (.seq (.map ?path _) ?url) ?bucket) ?document
  case path => exact .required rfl
  case url => exact .required rfl
  case bucket => exact .optional fun _ => ⟨nofun, rfl⟩
  case document => exact .optional fun _ => ⟨nofun, rfl⟩

theorem writable (asset : StaticAsset) : Json.Writable asset.toJson := by
  obtain ⟨path, url, bucket, document⟩ := asset
  apply Json.Writable.object
  cases bucket <;> cases document <;> simp [present]

theorem undoes : Json.Undoes ofJson toJson Form := by
  apply Json.Undoes.of_reads ?_ writable ?_ reads
  · rintro ⟨path, url, bucket, document⟩
    cases bucket <;> cases document <;> rfl
  · intro asset
    simp [Json.Fields.keys, fields]

end StaticAsset

namespace AppConfig

/-- The fields of a configuration with its assets in some form. -/
def fields (config : AppConfig) (statics : List Json.Value) : Json.Fields :=
  [("app_name", some (.string config.appName)),
    ("primary_region", some (.string config.primaryRegion)), ("statics", some (.array statics)),
    ("processes", some (.array (config.processes.map .string)))]

/-- The forms of a configuration, in which each asset has a form of its own. -/
inductive Form (config : AppConfig) : Json.Value → Prop
  | intro {statics : List Json.Value} {v : Json.Value}
      (inner : List.Forall₂ StaticAsset.Form config.statics statics)
      (outer : Json.Form (config.fields statics) v) : Form config v

theorem reads {config : AppConfig} {statics : List Json.Value}
    (inner : List.Forall₂ StaticAsset.Form config.statics statics) :
    record.Reads (config.fields statics) config := by
  refine .seq (.seq (.seq (.map ?name _) ?region) ?statics) ?processes
  case name => exact .required rfl
  case region => exact .withDefault rfl
  case statics => exact .withDefault (StaticAsset.undoes.read_items inner)
  case processes => exact .withDefault (Json.list_map fun _ _ => rfl)

theorem writable (config : AppConfig) : Json.Writable config.toJson := by
  have statics : Json.Writable (.array (config.statics.map StaticAsset.toJson)) := by
    apply Json.Writable.array
    simp [StaticAsset.writable]
  apply Json.Writable.object
  simp [statics]

theorem undoes : Json.Undoes ofJson toJson Form := by
  apply Json.Undoes.of_form writable
  · intro config
    exact .intro (StaticAsset.undoes.own_items config.statics) (.written _)
  · rintro config v ⟨inner, outer⟩
    exact (reads inner).decoder_of_form (by simp [Json.Fields.keys, fields]) outer

end AppConfig

/-! ## Identities -/

namespace App

/-- The fields of an app. -/
def fields (app : App) : Json.Fields :=
  [("id", some (.string app.id)), ("name", some (.string app.name)),
    ("internal_numeric_id", some (.number (.natural app.numericId)))]

/-- The forms of an app. -/
def Form (app : App) : Json.Value → Prop :=
  Json.Form app.fields

theorem reads (app : App) : record.Reads app.fields app := by
  refine .seq (.seq (.map ?id _) ?name) ?number
  case id => exact .required rfl
  case name => exact .required rfl
  case number => exact .required (Json.word64_natural _)

theorem writable (app : App) : Json.Writable app.toJson := by
  apply Json.Writable.object
  simp

theorem undoes : Json.Undoes ofJson toJson Form :=
  .of_reads (fun _ => rfl) writable (fun app => by simp [Json.Fields.keys, fields]) reads

end App

namespace Org

/-- The fields of an organization. -/
def fields (org : Org) : Json.Fields :=
  [("slug", some (.string org.slug)), ("internal_numeric_id", some (.string org.numericId))]

/-- The forms of an organization. -/
def Form (org : Org) : Json.Value → Prop :=
  Json.Form org.fields

theorem reads (org : Org) : record.Reads org.fields org := by
  refine .seq (.map ?slug _) ?number
  case slug => exact .required rfl
  case number => exact .required rfl

theorem writable (org : Org) : Json.Writable org.toJson := by
  apply Json.Writable.object
  simp

theorem undoes : Json.Undoes ofJson toJson Form :=
  .of_reads (fun _ => rfl) writable (fun org => by simp [Json.Fields.keys, fields]) reads

end Org

/-! ## Machines -/

theorem CpuKind.ofJson_toJson (kind : CpuKind) : ofJson kind.toJson = .ok kind := by
  cases kind <;> rfl

theorem CpuKind.writable (kind : CpuKind) : Json.Writable kind.toJson :=
  .string kind.name

namespace Guest

/-- The fields of a guest. -/
def fields (guest : Guest) : Json.Fields :=
  [("cpu_kind", some guest.cpuKind.toJson),
    ("cpus", some (.number (.natural guest.cpus.toUInt64))),
    ("memory_mb", some (.number (.natural guest.memoryMb.toUInt64)))]

/-- The forms of a guest. -/
def Form (guest : Guest) : Json.Value → Prop :=
  Json.Form guest.fields

theorem reads (guest : Guest) : record.Reads guest.fields guest := by
  refine .seq (.seq (.map ?kind _) ?cpus) ?memory
  case kind => exact .withDefault (CpuKind.ofJson_toJson _)
  case cpus => exact .required (Json.word32_natural _)
  case memory => exact .required (Json.word32_natural _)

theorem writable (guest : Guest) : Json.Writable guest.toJson := by
  apply Json.Writable.object
  simp [CpuKind.writable]

theorem undoes : Json.Undoes ofJson toJson Form :=
  .of_reads (fun _ => rfl) writable (fun guest => by simp [Json.Fields.keys, fields]) reads

end Guest

namespace MachineConfig

/-- The fields of a machine configuration with its guest in some form. -/
def fields (config : MachineConfig) (guest : Json.Value) : Json.Fields :=
  [("guest", some guest), ("image", some (.string config.image)),
    ("env", some (mapToJson config.env)), ("metadata", some (mapToJson config.metadata))]

/-- The forms of a machine configuration, in which the guest has a form of its own. -/
inductive Form (config : MachineConfig) : Json.Value → Prop
  | intro {guest v : Json.Value} (inner : config.guest.Form guest)
      (outer : Json.Form (config.fields guest) v) : Form config v

theorem reads {config : MachineConfig} {guest : Json.Value} (inner : config.guest.Form guest) :
    record.Reads (config.fields guest) config := by
  refine .seq (.seq (.seq (.map ?guest _) ?image) ?env) ?metadata
  case guest => exact .withDefault (Guest.undoes.read _ _ inner)
  case image => exact .withDefault rfl
  case env => exact .withDefault (Json.textMap_mapToJson _)
  case metadata => exact .withDefault (Json.textMap_mapToJson _)

theorem writable (config : MachineConfig) : Json.Writable config.toJson := by
  apply Json.Writable.object
  simp [Guest.writable]

theorem undoes : Json.Undoes ofJson toJson Form := by
  apply Json.Undoes.of_form writable
  · intro config
    exact .intro (Guest.undoes.own config.guest) (.written _)
  · rintro config v ⟨inner, outer⟩
    exact (reads inner).decoder_of_form (by simp [Json.Fields.keys, fields]) outer

end MachineConfig

namespace Machine

/-- The fields of a machine with its configuration in some form. -/
def fields (machine : Machine) (config : Json.Value) : Json.Fields :=
  [("id", some (.string machine.id)), ("name", some (.string machine.name)),
    ("region", some (.string machine.region)), ("state", some (.string machine.state)),
    ("config", some config)]

/-- The forms of a machine, in which the configuration has a form of its own. -/
inductive Form (machine : Machine) : Json.Value → Prop
  | intro {config v : Json.Value} (inner : machine.config.Form config)
      (outer : Json.Form (machine.fields config) v) : Form machine v

theorem reads {machine : Machine} {config : Json.Value} (inner : machine.config.Form config) :
    record.Reads (machine.fields config) machine := by
  refine .seq (.seq (.seq (.seq (.map ?id _) ?name) ?region) ?state) ?config
  case id => exact .required rfl
  case name => exact .required rfl
  case region => exact .required rfl
  case state => exact .withDefault rfl
  case config => exact .withDefault (MachineConfig.undoes.read _ _ inner)

theorem writable (machine : Machine) : Json.Writable machine.toJson := by
  apply Json.Writable.object
  simp [MachineConfig.writable]

theorem undoes : Json.Undoes ofJson toJson Form := by
  apply Json.Undoes.of_form writable
  · intro machine
    exact .intro (MachineConfig.undoes.own machine.config) (.written _)
  · rintro machine v ⟨inner, outer⟩
    exact (reads inner).decoder_of_form (by simp [Json.Fields.keys, fields]) outer

end Machine

/-! ## Settings and credentials -/

namespace Settings

/-- The fields of the settings. -/
def fields (s : Settings) : Json.Fields :=
  [("storage_hostname", some (.string s.storageHostname)), ("proxy_url", some (.string s.proxyUrl)),
    ("storage_root", some (.string s.storageRoot)), ("provider", some (.string s.provider)),
    ("keep_versions", some (.number (.natural s.keepVersions))),
    ("upload_workers", some (.number (.natural s.uploadWorkers))),
    ("cleanup_timeout_secs", some (.number (.natural s.cleanupTimeoutSecs))),
    ("lease_ttl_secs", some (.number (.natural s.leaseTtlSecs))),
    ("seal_key", some (.string s.sealKey))]

/-- The forms of the settings. -/
def Form (s : Settings) : Json.Value → Prop :=
  Json.Form s.fields

theorem reads (s : Settings) : record.Reads s.fields s := by
  refine .seq (.seq (.seq (.seq (.seq (.seq (.seq (.seq (.map ?hostname _) ?proxy) ?root)
    ?provider) ?versions) ?workers) ?timeout) ?lease) ?key
  case hostname => exact .withDefault rfl
  case proxy => exact .withDefault rfl
  case root => exact .withDefault rfl
  case provider => exact .withDefault rfl
  case versions => exact .withDefault (Json.size_natural _)
  case workers => exact .withDefault (Json.size_natural _)
  case timeout => exact .withDefault (Json.word64_natural _)
  case lease => exact .withDefault (Json.word64_natural _)
  case key => exact .withDefault rfl

theorem writable (s : Settings) : Json.Writable s.toJson := by
  apply Json.Writable.object
  simp

theorem undoes : Json.Undoes ofJson toJson Form :=
  .of_reads (fun _ => rfl) writable (fun s => by simp [Json.Fields.keys, fields]) reads

end Settings

theorem Action.writable (action : Action) : Json.Writable action.toJson :=
  .string action.name

namespace AccessScope

/-- The fields of a scope. -/
def fields (scope : AccessScope) : Json.Fields :=
  [("action", some scope.action.toJson), ("org_id", some (.number (.natural scope.orgId))),
    ("app_id", some (.number (.natural scope.appId))),
    ("allowed_hosts", some (.array (scope.allowedHosts.map .string)))]

/-- The forms of a scope. -/
def Form (scope : AccessScope) : Json.Value → Prop :=
  Json.Form scope.fields

theorem reads (scope : AccessScope) : record.Reads scope.fields scope := by
  refine .seq (.seq (.seq (.map ?action _) ?org) ?app) ?hosts
  case action => exact .required (Action.ofJson_toJson _)
  case org => exact .required (Json.word64_natural _)
  case app => exact .required (Json.word64_natural _)
  case hosts => exact .required (Json.list_map fun _ _ => rfl)

theorem writable (scope : AccessScope) : Json.Writable scope.toJson := by
  apply Json.Writable.object
  simp [Action.writable]

theorem undoes : Json.Undoes ofJson toJson Form :=
  .of_reads (fun _ => rfl) writable (fun scope => by simp [Json.Fields.keys, fields]) reads

end AccessScope

/-- A credential has one form only, its text. -/
theorem SealedCredential.undoes :
    Json.Undoes ofJson toJson fun credential v => v = credential.toJson := by
  apply Json.Undoes.of_form
  · intro credential
    exact .string credential.text
  · intro credential
    rfl
  · rintro credential v rfl
    rfl

/-- Each domain type is read back from the document that it is written as, and from each of
its forms.  The record types may be given as objects with further keys or as arrays of their
fields, at each level on its own. -/
theorem domain_types_read_back :
    Json.Undoes AppConfig.ofJson AppConfig.toJson AppConfig.Form ∧
      Json.Undoes StaticAsset.ofJson StaticAsset.toJson StaticAsset.Form ∧
      Json.Undoes App.ofJson App.toJson App.Form ∧
      Json.Undoes Org.ofJson Org.toJson Org.Form ∧
      Json.Undoes Guest.ofJson Guest.toJson Guest.Form ∧
      Json.Undoes MachineConfig.ofJson MachineConfig.toJson MachineConfig.Form ∧
      Json.Undoes Machine.ofJson Machine.toJson Machine.Form ∧
      Json.Undoes Settings.ofJson Settings.toJson Settings.Form ∧
      Json.Undoes AccessScope.ofJson AccessScope.toJson AccessScope.Form ∧
      Json.Undoes SealedCredential.ofJson SealedCredential.toJson
        fun credential v => v = credential.toJson :=
  ⟨AppConfig.undoes, StaticAsset.undoes, App.undoes, Org.undoes, Guest.undoes,
    MachineConfig.undoes, Machine.undoes, Settings.undoes, AccessScope.undoes,
    SealedCredential.undoes⟩

/-- A machine as an array, its configuration as an object with a key that names no field, and
the guest in it as an array again. -/
theorem nested_machine_read_back :
    Machine.ofJson (.array [.string "m1", .string "web", .string "ord", .string "started",
        .object [("image", .string "app:1"),
          ("guest", .array [.string "shared", .number (.natural 1), .number (.natural 256)]),
          ("unknown", .array [.null]), ("env", .object []), ("metadata", .object [])]]) =
      .ok ⟨"m1", "web", "ord", "started", ⟨.smallest, "app:1", .empty, .empty⟩⟩ := by
  obtain ⟨-, -, -, -, -, -, machines, -⟩ := domain_types_read_back
  apply machines.read
  refine .intro (.intro .array (.object ?_)) .array
  simp only [MachineConfig.fields, Json.Fields.keys, List.map_cons, List.map_nil]
  exact .swap _ _ _

end FleetDeploy
