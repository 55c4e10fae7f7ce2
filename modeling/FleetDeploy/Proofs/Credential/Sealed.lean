import FleetDeploy.Credential.Sealed
import FleetDeploy.Proofs.Credential.Scope
import FleetDeploy.Proofs.Crypto.Gcm
import FleetDeploy.Proofs.Text.Base64Url

/-!
# Opening undoes sealing

An issued credential is opened again with the key it was sealed under, layer by layer:
base64, envelope, cipher and document.  What comes out is the scope that went in, for
any texts in it and in the secrets beside it.
-/

namespace FleetDeploy

namespace SealedCredential

variable {key : List UInt8} {scope : AccessScope} {secrets : Secrets}

theorem length_nonce (key payload : List UInt8) : (nonce key payload).length = nonceLength := by
  rw [nonce, List.length_take, Crypto.length_hmacSha256]
  rfl

/-- An envelope holds its version, its nonce and the ciphertext, in this order. -/
theorem openEnvelope_envelope {nonce : List UInt8} (length : nonce.length = nonceLength)
    (payload : List UInt8) : openEnvelope key (envelope key nonce payload) = .ok payload := by
  have long : ¬(nonce ++ Crypto.Gcm.encrypt key nonce payload).length ≤ nonceLength := by
    rw [List.length_append, length, Crypto.Gcm.length_encrypt]
    omega
  rw [envelope, List.cons_append, openEnvelope, if_neg (not_not_intro rfl), if_neg long,
    ← length, List.take_left, List.drop_left, Crypto.Gcm.decrypt?_encrypt]

/-- The scope in a payload is found beside the secrets, whatever these are. -/
theorem scopeOfPayload?_payload : scopeOfPayload? (payload scope secrets) = some scope := by
  obtain ⟨members, written, known⟩ := scope.written_toJson
  have document : Json.Written (.object [("scope", scope.toJson), ("processor", .object
      [("access_key", .string secrets.access), ("secret_key", .string secrets.secret)])]) _ :=
    .object (.cons _ written (.cons _
      (.object (.cons _ (.string _) (.cons _ (.string _) .nil))) .nil))
  have read : scopeOfRaw? (.object members) = some scope := by
    rw [scopeOfRaw?, known]
    exact congrArg Except.toOption scope.ofJson_toJson
  rw [scopeOfPayload?, payload, document.parse?]
  simp only [Option.bind_eq_bind, Option.bind_some, Json.Value.knownMembers?, Json.Raw.text?_body]
  simpa using read

/-- A sealed payload is opened by the key that it was sealed under. -/
theorem inspect_ofPayload :
    inspect (ofPayload key (payload scope secrets)) key = .ok scope := by
  have opened : openEnvelope key
      (envelope key (nonce key (payload scope secrets)) (payload scope secrets)) =
        .ok (payload scope secrets) := openEnvelope_envelope (length_nonce _ _) _
  rw [inspect, ofPayload, Text.Base64Url.encode_encodeText, Text.Base64Url.decode_encode]
  simp only [Except.mapError, bind, Except.bind, opened, scopeOfPayload?_payload]
  rfl

end SealedCredential

end FleetDeploy
