import FleetDeploy.Proofs.Credential.Sealed

/-!
# Sealing undoes opening

An envelope is opened only if it is exactly what sealing makes: the one spelling in base64
of the version, a nonce and the ciphertext of a payload under that nonce.  So an accepted
credential is known from its nonce and its payload, and no other text that a lenient reader
would take for it is accepted.

`Refused` says why each of the other texts is not.  Its cases are the layers of an envelope
from the outside to the inside.
-/

namespace FleetDeploy

namespace SealedCredential

open Text.Base64Url (encodeText spelled)

variable {key nonce payload : List UInt8} {text : String} {scope : AccessScope}

/-! ## The layers of an envelope -/

/-- A text is read as bytes only if it is their spelling. -/
theorem decode_text_eq_ok_iff {bytes : List UInt8} :
    Text.Base64Url.decode (Text.Utf8.encode text.toList) = .ok bytes ↔
      text = encodeText bytes := by
  rw [Text.Base64Url.decode_eq_ok_iff, ← Text.Base64Url.encode_encodeText,
    Text.Utf8.encode_injective.eq_iff, String.toList_inj]

/-- What is done with the bytes that a text spells. -/
theorem inspect_encodeText (key bytes : List UInt8) :
    inspect ⟨encodeText bytes⟩ key = (do
      let payload ← openEnvelope key bytes
      match scopeOfPayload? payload with
      | some scope => return scope
      | none => throw .payload) := by
  rw [inspect, decode_text_eq_ok_iff.mpr rfl]
  rfl

/-- An envelope as its version, its nonce and what follows. -/
theorem openEnvelope_parts {ciphertext : List UInt8} (length : nonce.length = nonceLength)
    (more : ciphertext ≠ []) :
    openEnvelope key (version :: (nonce ++ ciphertext)) =
      match Crypto.Gcm.decrypt? key nonce ciphertext with
      | some payload => .ok payload
      | none => .error (.malformed "authentication failed") := by
  have long : ¬(nonce ++ ciphertext).length ≤ nonceLength := by
    have positive := List.length_pos_iff.mpr more
    rw [List.length_append]
    omega
  have first : (nonce ++ ciphertext).take nonceLength = nonce := by rw [← length, List.take_left]
  have last : (nonce ++ ciphertext).drop nonceLength = ciphertext := by
    rw [← length, List.drop_left]
  cases opened : Crypto.Gcm.decrypt? key nonce ciphertext with
  | none => simp only [openEnvelope, ne_eq, not_true, if_false, long, first, last, opened]
  | some payload => simp only [openEnvelope, ne_eq, not_true, if_false, long, first, last, opened]

/-- The bytes behind the version: too few for a nonce and anything else, or both. -/
theorem exists_parts_of_lt {rest : List UInt8} (long : nonceLength < rest.length) :
    ∃ nonce ciphertext, rest = nonce ++ ciphertext ∧ nonce.length = nonceLength ∧
      ciphertext ≠ [] := by
  refine ⟨rest.take nonceLength, rest.drop nonceLength, (List.take_append_drop _ _).symm, ?_, ?_⟩
  · rw [List.length_take]
    omega
  · intro empty
    have length := congrArg List.length empty
    rw [List.length_drop, List.length_nil] at length
    omega

/-! ## Why a text is not opened -/

/-- The text that a payload is sealed as under a nonce. -/
def canonical (key nonce payload : List UInt8) : String :=
  encodeText (version :: (nonce ++ Crypto.Gcm.encrypt key nonce payload))

/-- The errors of the texts that are not opened under a key. -/
inductive Refused (key : List UInt8) : String → CredentialError → Prop
  | spelling {text : String} {fault : Text.Base64Url.Fault}
      (unread : Text.Base64Url.decode (Text.Utf8.encode text.toList) = .error fault) :
      Refused key text (.invalidBase64 fault)
  | empty : Refused key (encodeText []) (.malformed "empty envelope")
  | version {v : UInt8} (other : v ≠ version) (rest : List UInt8) :
      Refused key (encodeText (v :: rest)) (.unsupportedVersion v)
  | short {rest : List UInt8} (short : rest.length ≤ nonceLength) :
      Refused key (encodeText (SealedCredential.version :: rest))
        (.malformed ("envelope too short: " ++ toString (rest.length + 1) ++ " bytes"))
  | foreign {nonce ciphertext : List UInt8} (length : nonce.length = nonceLength)
      (more : ciphertext ≠ [])
      (unsealed : ∀ payload, ciphertext ≠ Crypto.Gcm.encrypt key nonce payload) :
      Refused key (encodeText (SealedCredential.version :: (nonce ++ ciphertext)))
        (.malformed "authentication failed")
  | payload {nonce payload : List UInt8} (length : nonce.length = nonceLength)
      (unnamed : scopeOfPayload? payload = none) :
      Refused key (canonical key nonce payload) .payload

theorem encrypt_ne_nil (key nonce payload : List UInt8) :
    Crypto.Gcm.encrypt key nonce payload ≠ [] := by
  intro empty
  have length := congrArg List.length empty
  rw [Crypto.Gcm.length_encrypt, List.length_nil] at length
  omega

/-- A canonical text is opened to the scope that its payload names. -/
theorem inspect_canonical (length : nonce.length = nonceLength) :
    inspect ⟨canonical key nonce payload⟩ key =
      match scopeOfPayload? payload with
      | some scope => .ok scope
      | none => .error .payload := by
  rw [canonical, inspect_encodeText, openEnvelope_parts length (encrypt_ne_nil key nonce payload),
    Crypto.Gcm.decrypt?_encrypt]
  simp only [bind, Except.bind]
  cases scopeOfPayload? payload <;> rfl

theorem Refused.inspect_eq {error : CredentialError} (refused : Refused key text error) :
    inspect ⟨text⟩ key = .error error := by
  cases refused with
  | spelling unread =>
      rw [inspect, unread]
      rfl
  | empty =>
      rw [inspect_encodeText]
      rfl
  | version other rest =>
      rw [inspect_encodeText, openEnvelope, if_pos other]
      rfl
  | short short =>
      rw [inspect_encodeText, openEnvelope, if_neg (not_not_intro rfl), if_pos short]
      rfl
  | @foreign nonce ciphertext length more unsealed =>
      have unopened : Crypto.Gcm.decrypt? key nonce ciphertext = none := by
        rw [Option.eq_none_iff_forall_ne_some]
        intro payload opened
        exact unsealed payload (Crypto.Gcm.decrypt?_eq_some_iff.mp opened)
      rw [inspect_encodeText, openEnvelope_parts length more, unopened]
      rfl
  | payload length unnamed => rw [inspect_canonical length, unnamed]

/-- Each text is canonical for a payload that names a scope, or there is a layer that it
lacks. -/
theorem canonical_or_refused (key : List UInt8) (text : String) :
    (∃ nonce payload scope, nonce.length = nonceLength ∧ text = canonical key nonce payload ∧
        scopeOfPayload? payload = some scope) ∨
      ∃ error, Refused key text error := by
  cases read : Text.Base64Url.decode (Text.Utf8.encode text.toList) with
  | error fault => exact .inr ⟨_, .spelling read⟩
  | ok bytes =>
      obtain rfl := decode_text_eq_ok_iff.mp read
      cases bytes with
      | nil => exact .inr ⟨_, .empty⟩
      | cons v rest =>
          by_cases same : v = version
          · subst same
            by_cases short : rest.length ≤ nonceLength
            · exact .inr ⟨_, .short short⟩
            · obtain ⟨nonce, ciphertext, rfl, length, more⟩ :=
                exists_parts_of_lt (Nat.lt_of_not_le short)
              by_cases unsealed : ∀ payload, ciphertext ≠ Crypto.Gcm.encrypt key nonce payload
              · exact .inr ⟨_, .foreign length more unsealed⟩
              · obtain ⟨payload, sealed⟩ := not_forall_not.mp unsealed
                subst sealed
                cases named : scopeOfPayload? payload with
                | none => exact .inr ⟨_, .payload length named⟩
                | some scope => exact .inl ⟨nonce, payload, scope, length, rfl, named⟩
          · exact .inr ⟨_, .version same rest⟩

theorem inspect_eq_ok_iff :
    inspect ⟨text⟩ key = .ok scope ↔
      ∃ nonce payload, nonce.length = nonceLength ∧ text = canonical key nonce payload ∧
        scopeOfPayload? payload = some scope := by
  constructor
  · intro opened
    rcases canonical_or_refused key text with ⟨nonce, payload, named, length, rfl, names⟩ |
      ⟨error, refused⟩
    · rw [inspect_canonical length, names] at opened
      cases opened
      exact ⟨nonce, payload, length, rfl, names⟩
    · rw [refused.inspect_eq] at opened
      cases opened
  · rintro ⟨nonce, payload, length, rfl, names⟩
    rw [inspect_canonical length, names]

theorem inspect_eq_error_iff {error : CredentialError} :
    inspect ⟨text⟩ key = .error error ↔ Refused key text error := by
  constructor
  · intro failed
    rcases canonical_or_refused key text with ⟨nonce, payload, named, length, rfl, names⟩ |
      ⟨other, refused⟩
    · rw [inspect_canonical length, names] at failed
      cases failed
    · have also := refused.inspect_eq
      rw [failed] at also
      cases also
      exact refused
  · exact Refused.inspect_eq

/-! ## One text for each nonce and payload -/

/-- The nonce and the payload are read off a canonical text. -/
theorem canonical_eq_iff {other otherPayload : List UInt8} (length : nonce.length = nonceLength)
    (otherLength : other.length = nonceLength) :
    canonical key nonce payload = canonical key other otherPayload ↔
      nonce = other ∧ payload = otherPayload := by
  constructor
  · intro same
    have behind := (List.cons.inj (Text.Base64Url.encodeText_injective same)).2
    obtain ⟨rfl, ciphertexts⟩ := List.append_inj behind (length.trans otherLength.symm)
    exact ⟨rfl, Crypto.Gcm.encrypt_injective key nonce ciphertexts⟩
  · rintro ⟨rfl, rfl⟩
    rfl

/-- Of the texts that spell the same bytes to a lenient reader at most one is accepted. -/
theorem eq_of_spelled_eq {other : String} {otherScope : AccessScope}
    (opened : inspect ⟨text⟩ key = .ok scope) (otherOpened : inspect ⟨other⟩ key = .ok otherScope)
    (same : spelled other.toList = spelled text.toList) : other = text := by
  obtain ⟨nonce, payload, -, rfl, -⟩ := inspect_eq_ok_iff.mp opened
  obtain ⟨otherNonce, otherPayload, -, rfl, -⟩ := inspect_eq_ok_iff.mp otherOpened
  rw [canonical, canonical, Text.Base64Url.spelled_encodeText,
    Text.Base64Url.spelled_encodeText] at same
  exact congrArg encodeText same

/-- A text is accepted for a scope exactly if it is the base64 of the version, a nonce and
the ciphertext under that nonce of a payload that names the scope.  Every other text is
refused, with the error of the outermost layer that it lacks.  Different texts are accepted
only for different nonces or payloads, and no text that a lenient reader takes for an
accepted one is accepted beside it. -/
theorem inspect_only_canonical (key : List UInt8) (text : String) :
    (∀ scope, inspect ⟨text⟩ key = .ok scope ↔
        ∃ nonce payload, nonce.length = 12 ∧
          text = encodeText (1 :: (nonce ++ Crypto.Gcm.encrypt key nonce payload)) ∧
          scopeOfPayload? payload = some scope) ∧
      (∀ error, inspect ⟨text⟩ key = .error error ↔ Refused key text error) ∧
      ((¬∃ nonce payload scope, nonce.length = 12 ∧
          text = encodeText (1 :: (nonce ++ Crypto.Gcm.encrypt key nonce payload)) ∧
          scopeOfPayload? payload = some scope) →
        ∃ error, Refused key text error) ∧
      (∀ nonce payload other otherPayload : List UInt8, nonce.length = 12 → other.length = 12 →
        (encodeText (1 :: (nonce ++ Crypto.Gcm.encrypt key nonce payload)) =
            encodeText (1 :: (other ++ Crypto.Gcm.encrypt key other otherPayload)) ↔
          nonce = other ∧ payload = otherPayload)) ∧
      ∀ scope (other : String), inspect ⟨text⟩ key = .ok scope →
        spelled other.toList = spelled text.toList → other ≠ text →
          ∃ error, Refused key other error ∧ inspect ⟨other⟩ key = .error error := by
  refine ⟨fun scope => inspect_eq_ok_iff, fun error => inspect_eq_error_iff, ?_, ?_, ?_⟩
  · intro unsealed
    exact (canonical_or_refused key text).resolve_left unsealed
  · intro nonce payload other otherPayload length otherLength
    exact canonical_eq_iff length otherLength
  · intro scope other opened same apart
    rcases canonical_or_refused key other with ⟨nonce, payload, otherScope, canonical⟩ |
      ⟨error, refused⟩
    · have otherOpened := inspect_eq_ok_iff.mpr ⟨nonce, payload, canonical⟩
      exact absurd (eq_of_spelled_eq opened otherOpened same) apart
    · exact ⟨error, refused, refused.inspect_eq⟩

/-- A credential is opened as it was sealed, and no more once padding was added to it. -/
theorem padded_only_canonical :
    let key := List.replicate 32 7
    let scope : AccessScope := ⟨.write, 4211, 77, ["web-statics.fly.storage.tigris.dev"]⟩
    let sealed := SealedCredential.payload scope ⟨"tid_123", "tsec_456"⟩
    let text := canonical key (List.replicate 12 0) sealed
    inspect ⟨text⟩ key = .ok scope ∧ spelled (text ++ "=").toList = spelled text.toList ∧
      text ++ "=" ≠ text ∧
      ∃ error, Refused key (text ++ "=") error ∧ inspect ⟨text ++ "="⟩ key = .error error := by
  intro key scope sealed text
  have settled := inspect_only_canonical key text
  have opened : inspect ⟨text⟩ key = .ok scope :=
    (settled.1 scope).mpr ⟨List.replicate 12 0, sealed, rfl, rfl, scopeOfPayload?_payload⟩
  have pad : List.filterMap Text.Base64Url.looseValue? "=".toList = [] := by decide
  have same : spelled (text ++ "=").toList = spelled text.toList := by
    rw [spelled, String.toList_append, List.filterMap_append, pad, List.append_nil, spelled]
  have longer : text ++ "=" ≠ text := by
    intro equal
    have lengths := congrArg String.length equal
    rw [String.length_append] at lengths
    exact absurd lengths (by simp)
  exact ⟨opened, same, longer, settled.2.2.2.2 scope (text ++ "=") opened same longer⟩

end SealedCredential

end FleetDeploy
