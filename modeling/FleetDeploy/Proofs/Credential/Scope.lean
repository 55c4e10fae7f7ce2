import FleetDeploy.Credential.Scope
import FleetDeploy.Proofs.Json.Document
import FleetDeploy.Proofs.Json.Record

/-!
# What a scope permits

A scope is read from the document that it is written as.  Hosts are compared without
the port of the requested host and without regard to the case of ASCII letters; an
allowed host keeps whatever it was given, so one with a colon in it can be asked for
only under a further port.
-/

namespace FleetDeploy

/-! ## Scopes as documents -/

theorem Action.ofJson_toJson (action : Action) : ofJson action.toJson = .ok action := by
  cases action <;> rfl

namespace AccessScope

theorem checked_record : record.Checked :=
  ((((Json.Record.checked_required _ _).map _).seq (Json.Record.checked_required _ _)).seq
    (Json.Record.checked_required _ _)).seq (Json.Record.checked_required _ _)

/-- A scope is read from its document. -/
theorem ofJson_toJson (scope : AccessScope) : ofJson scope.toJson = .ok scope := by
  rw [ofJson, toJson, checked_record.decoder_object]
  have hosts : Json.list Json.text (.array (scope.allowedHosts.map .string)) =
      .ok scope.allowedHosts := Json.list_map fun _ _ => rfl
  refine Json.Record.build_seq (Json.Record.build_seq (Json.Record.build_seq
    (Json.Record.build_map (Json.Record.build_required rfl ?action) _)
    (Json.Record.build_required rfl ?org)) (Json.Record.build_required rfl ?app))
    (Json.Record.build_required rfl ?hosts)
  case action => exact Action.ofJson_toJson scope.action
  case org => exact Json.word64_natural scope.orgId
  case app => exact Json.word64_natural scope.appId
  case hosts => exact hosts

/-- The document of a scope in its written form. -/
theorem written_toJson (scope : AccessScope) :
    ∃ members, Json.Written scope.toJson (.object members) ∧
      Json.Value.knownFields? (record.keys.map (·.1)) members = some
        [("action", scope.action.toJson), ("org_id", .number (.natural scope.orgId)),
          ("app_id", .number (.natural scope.appId)),
          ("allowed_hosts", .array (scope.allowedHosts.map .string))] := by
  have fields : Json.WrittenFields
      [("action", scope.action.toJson), ("org_id", .number (.natural scope.orgId)),
        ("app_id", .number (.natural scope.appId)),
        ("allowed_hosts", .array (scope.allowedHosts.map .string))] _ :=
    .cons _ (.string _) (.cons _ (.number _) (.cons _ (.number _)
      (.cons _ (.array (Json.WrittenItems.texts _)) .nil)))
  refine ⟨_, .object fields, fields.knownFields? ?_ ?_⟩
  · have keys : record.keys.map (·.1) = ["action", "org_id", "app_id", "allowed_hosts"] := rfl
    simp [keys]
  · simp

/-! ## Hosts -/

theorem dropPort_of_notMem {host : List Char} (plain : ':' ∉ host) : dropPort host = host :=
  if_neg plain

/-- The port begins at the last colon. -/
theorem dropPort_append (name : List Char) {port : List Char} (plain : ':' ∉ port) :
    dropPort (name ++ ':' :: port) = name := by
  have reversed : (name ++ ':' :: port).reverse = port.reverse ++ ':' :: name.reverse := by simp
  have behind : ∀ c ∈ port.reverse, decide (c ≠ ':') = true := by
    intro c member
    apply decide_eq_true
    rintro rfl
    exact plain (List.mem_reverse.mp member)
  rw [dropPort, if_pos (by simp), reversed, List.dropWhile_append_of_pos behind,
    List.dropWhile_cons_of_neg (by simp), List.drop_one, List.tail_cons, List.reverse_reverse]

theorem exists_port {host : List Char} (colon : ':' ∈ host) :
    ∃ name port, host = name ++ ':' :: port ∧ ':' ∉ port := by
  obtain ⟨port, name, split, plain⟩ := List.eq_append_cons_of_mem (List.mem_reverse.mpr colon)
  refine ⟨name.reverse, port.reverse, ?_, by simpa using plain⟩
  rw [← List.reverse_reverse host, split]
  simp

/-- What a host is without its port. -/
theorem dropPort_eq_iff {host name : List Char} :
    dropPort host = name ↔
      (host = name ∧ ':' ∉ host) ∨ ∃ port, ':' ∉ port ∧ host = name ++ ':' :: port := by
  constructor
  · rintro rfl
    by_cases colon : ':' ∈ host
    · obtain ⟨name, port, rfl, plain⟩ := exists_port colon
      exact .inr ⟨port, plain, by rw [dropPort_append name plain]⟩
    · exact .inl ⟨(dropPort_of_notMem colon).symm, colon⟩
  · rintro (⟨rfl, plain⟩ | ⟨port, plain, rfl⟩)
    · exact dropPort_of_notMem plain
    · exact dropPort_append name plain

/-- Texts that differ only in the case of ASCII letters. -/
def SameHost (a b : List Char) : Prop :=
  a.map foldCase = b.map foldCase

theorem SameHost.length_eq {a b : List Char} (same : SameHost a b) : a.length = b.length := by
  simpa using congrArg List.length same

theorem permits_iff {scope : AccessScope} {action : Action} {host : String} :
    scope.permits action host = true ↔
      action = scope.action ∧
        ∃ allowed ∈ scope.allowedHosts, SameHost allowed.toList (dropPort host.toList) := by
  simp only [permits, Bool.and_eq_true, decide_eq_true_eq, List.any_eq_true, SameHost]

variable {orgId appId : UInt64} {bucket hostname : String}

/-- A scope for one bucket permits writing to the bucket's host, in any case of its
letters: under a port, or without one if there is no colon in it. -/
theorem permits_forBucket_iff {action : Action} {host : String} :
    (forBucket orgId appId bucket hostname).permits action host = true ↔
      action = .write ∧ ∃ name, SameHost (bucketHost bucket hostname).toList name ∧
        ((host.toList = name ∧ ':' ∉ host.toList) ∨
          ∃ port, ':' ∉ port ∧ host.toList = name ++ ':' :: port) := by
  simp only [permits_iff, forBucket, List.mem_singleton, exists_eq_left, ← dropPort_eq_iff]
  constructor
  · rintro ⟨write, same⟩
    exact ⟨write, _, same, rfl⟩
  · rintro ⟨write, -, same, rfl⟩
    exact ⟨write, same⟩

/-- A scope for one bucket permits writing to the very host that it lists exactly if no
colon is in it: the part after a colon is taken off the requested host alone. -/
theorem permits_bucketHost_iff :
    (forBucket orgId appId bucket hostname).permits .write (bucketHost bucket hostname) = true ↔
      ':' ∉ (bucketHost bucket hostname).toList := by
  rw [permits_forBucket_iff]
  constructor
  · rintro ⟨-, name, same, ⟨-, plain⟩ | ⟨port, -, longer⟩⟩
    · exact plain
    · have lengths := same.length_eq
      rw [longer, List.length_append, List.length_cons] at lengths
      omega
  · intro plain
    exact ⟨rfl, _, rfl, .inl ⟨rfl, plain⟩⟩

end AccessScope

end FleetDeploy
