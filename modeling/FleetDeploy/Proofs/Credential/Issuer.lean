import FleetDeploy.Proofs.Credential.Sealed

/-!
# What is issued

A credential is issued whenever the organization has a numeric identifier, and opened
again it gives the scope of the bucket it was issued for.  That scope permits writing
to the bucket's host and nothing else.  Whether it permits the host that it lists
hangs on the settings, which accept a storage host with a port: no request can name
the host of such a bucket exactly as it is listed and be let through.
-/

namespace FleetDeploy.Issuer

variable {issuer : Issuer} {org : Org} {app : App} {bucket : String} {secrets : Secrets}
  {orgId : UInt64} {credential : SealedCredential}

theorem issue_of_numeric (issuer : Issuer) (app : App) (bucket : String) (secrets : Secrets)
    (numeric : Text.Numeral.parse org.numericId.toList = .ok orgId) :
    issuer.issue org app bucket secrets = .ok (.ofPayload issuer.key (SealedCredential.payload
      (.forBucket orgId app.numericId bucket issuer.storageHostname) secrets)) := by
  rw [issue, numeric]

/-- What an issued credential is for. -/
theorem inspect_of_issue (issued : issuer.issue org app bucket secrets = .ok credential) :
    ∃ orgId, Text.Numeral.parse org.numericId.toList = .ok orgId ∧
      credential.inspect issuer.key =
        .ok (.forBucket orgId app.numericId bucket issuer.storageHostname) := by
  cases numeric : Text.Numeral.parse org.numericId.toList with
  | error fault =>
      rw [issue, numeric] at issued
      cases issued
  | ok orgId =>
      rw [issue_of_numeric issuer app bucket secrets numeric] at issued
      cases issued
      exact ⟨orgId, rfl, SealedCredential.inspect_ofPayload⟩

/-- A credential can be issued for any texts, and opened it gives the scope of its
bucket, which does not depend on the secrets.  The scope permits an action against a
host only if the action is writing and the host is the bucket's, in any case of its
letters and with or without a port. -/
theorem scope_of_issued (issuer : Issuer) (org : Org) (app : App) (bucket : String)
    (numeric : Text.Numeral.parse org.numericId.toList = .ok orgId) :
    let scope : AccessScope :=
      ⟨.write, orgId, app.numericId, [bucket ++ "." ++ issuer.storageHostname]⟩
    (∀ secrets, ∃ credential, issuer.issue org app bucket secrets = .ok credential ∧
      credential.inspect issuer.key = .ok scope) ∧
    ∀ (action : Action) (host : String), scope.permits action host = true ↔
      action = .write ∧ ∃ name : List Char,
        AccessScope.SameHost (bucket ++ "." ++ issuer.storageHostname).toList name ∧
          ((host.toList = name ∧ ':' ∉ host.toList) ∨
            ∃ port, ':' ∉ port ∧ host.toList = name ++ ':' :: port) := by
  refine ⟨fun secrets => ?_, fun action host => AccessScope.permits_forBucket_iff⟩
  exact ⟨_, issue_of_numeric issuer app bucket secrets numeric,
    SealedCredential.inspect_ofPayload⟩

/-- Quotes, backslashes, control characters and the greatest number there is. -/
theorem scope_of_issued_awkward :
    Text.Numeral.parse "18446744073709551615".toList = .ok 18446744073709551615 ∧
      ∃ credential,
        issue ⟨List.replicate 32 7, "fly\"\x7d.dev:9000"⟩ ⟨"acme", "18446744073709551615"⟩
            ⟨"id", "web", 0⟩ "\\\"],\x00é" ⟨"\",\"scope\":null,", "\n\t𝄞"⟩ = .ok credential ∧
          credential.inspect (List.replicate 32 7) = .ok
            ⟨.write, 18446744073709551615, 0, ["\\\"],\x00é.fly\"\x7d.dev:9000"]⟩ :=
  ⟨by decide, (scope_of_issued ⟨List.replicate 32 7, "fly\"\x7d.dev:9000"⟩
    ⟨"acme", "18446744073709551615"⟩ ⟨"id", "web", 0⟩ "\\\"],\x00é" (by decide)).1
    ⟨"\",\"scope\":null,", "\n\t𝄞"⟩⟩

/-! ## The issuer of the settings -/

/-- Settings that are accepted have a seal key. -/
theorem ofSettings_of_check {s : Settings} (accepted : s.check = .ok ()) :
    ∃ key, ofSettings s = .ok ⟨key, s.storageHostname⟩ := by
  simp only [Settings.check, except_bind_eq_ok] at accepted
  obtain ⟨-, -, -, -, -, -, -, -, -, -, key, hex, -⟩ := accepted
  exact ⟨key, by rw [ofSettings, hex]⟩

/-- Under accepted settings a credential permits the very host that it was issued for
exactly if no colon is in that host. -/
theorem permits_own_host_iff {s : Settings} (accepted : s.check = .ok ()) (org : Org) (app : App)
    (bucket : String) (secrets : Secrets)
    (numeric : Text.Numeral.parse org.numericId.toList = .ok orgId) :
    ∃ issuer credential scope, ofSettings s = .ok issuer ∧
      issuer.issue org app bucket secrets = .ok credential ∧
      credential.inspect issuer.key = .ok scope ∧
      (scope.permits .write (bucket ++ "." ++ s.storageHostname) = true ↔
        ':' ∉ (bucket ++ "." ++ s.storageHostname).toList) := by
  obtain ⟨key, made⟩ := ofSettings_of_check accepted
  exact ⟨_, _, _, made, issue_of_numeric _ app bucket secrets numeric,
    SealedCredential.inspect_ofPayload, AccessScope.permits_bucketHost_iff⟩

theorem permits_own_host_standard :
    Settings.standard.check = .ok () ∧ Text.Numeral.parse "4211".toList = .ok 4211 ∧
      ∃ issuer credential scope, ofSettings .standard = .ok issuer ∧
        issuer.issue ⟨"acme", "4211"⟩ ⟨"id", "web", 77⟩ "web-statics" ⟨"a", "b"⟩ =
          .ok credential ∧
        credential.inspect issuer.key = .ok scope ∧
        (scope.permits .write "web-statics.fly.storage.tigris.dev" = true ↔
          ':' ∉ "web-statics.fly.storage.tigris.dev".toList) := by
  have accepted : Settings.standard.check = .ok () := by decide
  have numeric : Text.Numeral.parse "4211".toList = .ok 4211 := by decide
  exact ⟨accepted, numeric, permits_own_host_iff accepted ⟨"acme", "4211"⟩ ⟨"id", "web", 77⟩
    "web-statics" ⟨"a", "b"⟩ numeric⟩

/-- A storage host with a port is accepted, and no bucket of it can be asked for by
the host that its credential lists. -/
theorem refuses_own_host_with_port :
    let s : Settings := { Settings.standard with storageHostname := "localhost:9000" }
    s.check = .ok () ∧ ∃ issuer credential scope, ofSettings s = .ok issuer ∧
      issuer.issue ⟨"acme", "4211"⟩ ⟨"id", "web", 77⟩ "web-statics" ⟨"a", "b"⟩ =
        .ok credential ∧
      credential.inspect issuer.key = .ok scope ∧
      scope.permits .write "web-statics.localhost:9000" = false := by
  have accepted : Settings.check
      { Settings.standard with storageHostname := "localhost:9000" } = .ok () := by decide
  have numeric : Text.Numeral.parse (Org.mk "acme" "4211").numericId.toList = .ok 4211 := by
    decide
  obtain ⟨key, made⟩ := ofSettings_of_check accepted
  refine ⟨accepted, _, _, _, made,
    issue_of_numeric _ ⟨"id", "web", 77⟩ "web-statics" ⟨"a", "b"⟩ numeric,
    SealedCredential.inspect_ofPayload, ?_⟩
  change (AccessScope.forBucket 4211 77 "web-statics" "localhost:9000").permits .write
    "web-statics.localhost:9000" = false
  decide

end FleetDeploy.Issuer
