import RAGuardian.Foundation.Dictionary
import RAGuardian.Settings.Slug
import Mathlib.Data.List.Basic

/-! # The store of the connectors' credentials

Secrets are kept encrypted under references. A reference that is created names one
version of a secret, which is never changed. -/

namespace RAGuardian.Ingestion

/-! ## Encryption -/

/-- HMAC with SHA-256. -/
structure Hmac where
  /-- `hmac.new(key, message, hashlib.sha256).digest()` -/
  digest : List UInt8 → List UInt8 → List UInt8
  length_digest : ∀ key message, (digest key message).length = 32

/-- An encrypted secret. -/
structure Payload where
  nonce : List UInt8
  ciphertext : List UInt8
  tag : List UInt8
deriving DecidableEq, Repr

/-- `value.encode("utf-8")` -/
def encode (value : String) : List UInt8 :=
  value.toByteArray.data.toList

/-- `raw.decode("utf-8")` -/
def decode (raw : List UInt8) : Option String :=
  String.fromUTF8? ⟨raw.toArray⟩

/-- `counter.to_bytes(8, "big")` -/
def counterBytes (counter : Nat) : List UInt8 :=
  (List.range 8).reverse.map fun place => UInt8.ofNat (counter / 256 ^ place)

section

variable (hmac : Hmac) (key : List UInt8)

/-- `_keystream`: as many digests of 32 bytes as the length asks for. -/
def keystream (nonce : List UInt8) (length : Nat) : List UInt8 :=
  ((List.range ((length + 31) / 32)).flatMap fun counter =>
    hmac.digest key (nonce ++ counterBytes counter)).take length

/-- `_encrypt` -/
def encrypt (nonce : List UInt8) (value : String) : Payload :=
  let raw := encode value
  let ciphertext := List.zipWith (· ^^^ ·) raw (keystream hmac key nonce raw.length)
  { nonce := nonce, ciphertext := ciphertext, tag := hmac.digest key (nonce ++ ciphertext) }

/-- `_decrypt` -/
def decrypt (payload : Payload) : Except String String :=
  if payload.tag ≠ hmac.digest key (payload.nonce ++ payload.ciphertext) then
    .error "Secret authentication failed"
  else
    match decode (List.zipWith (· ^^^ ·) payload.ciphertext
        (keystream hmac key payload.nonce payload.ciphertext.length)) with
    | some value => .ok value
    | none => .error "UnicodeDecodeError"

end

theorem decode_encode (value : String) : decode (encode value) = some value := by
  have whole : (⟨value.toByteArray.data.toList.toArray⟩ : ByteArray) = value.toByteArray := by
    simp
  rw [decode, encode, whole, String.fromUTF8?, dif_pos value.isValidUTF8]
  rfl

section

variable {hmac : Hmac} {key : List UInt8}

theorem length_keystream (nonce : List UInt8) (length : Nat) :
    (keystream hmac key nonce length).length = length := by
  have digests : ∀ count, ((List.range count).flatMap fun counter =>
      hmac.digest key (nonce ++ counterBytes counter)).length = 32 * count := by
    intro count
    induction count with
    | zero => rfl
    | succ count induction =>
        rw [List.range_succ, List.flatMap_append, List.length_append, induction,
          List.flatMap_singleton, hmac.length_digest]
        omega
  rw [keystream, List.length_take, digests]
  omega

/-- The stream cancels itself. -/
theorem zipWith_xor_zipWith_xor {raw stream : List UInt8} (long : stream.length = raw.length) :
    List.zipWith (· ^^^ ·) (List.zipWith (· ^^^ ·) raw stream) stream = raw := by
  induction raw generalizing stream with
  | nil => simp
  | cons byte raw induction =>
      cases stream with
      | nil => cases long
      | cons other stream =>
          have rest := induction (Nat.succ.inj long)
          rw [List.zipWith_cons_cons, List.zipWith_cons_cons, rest, UInt8.xor_assoc,
            UInt8.xor_self, UInt8.xor_zero]

theorem decrypt_encrypt (nonce : List UInt8) (value : String) :
    decrypt hmac key (encrypt hmac key nonce value) = .ok value := by
  have long := @length_keystream hmac key nonce (encode value).length
  have same : (encrypt hmac key nonce value).ciphertext.length = (encode value).length := by
    simp only [encrypt, List.length_zipWith, long, Nat.min_self]
  rw [decrypt, if_neg (by simp [encrypt]), same]
  simp only [encrypt, zipWith_xor_zipWith_xor long, decode_encode]

end

/-! ## References -/

abbrev Secrets := Dictionary String Payload

/-- `secret_ref` -/
def secretRef (characters : Settings.Characters) (ownerId name : String) : String :=
  let clean := (if name = "" then "secret" else name).toList.map fun character =>
    if characters.isAlnum character || "._:-".toList.contains character then character else '-'
  let stripped := (clean.dropWhile (· = '-')).reverse.dropWhile (· = '-')
  ownerId ++ ":" ++ (if stripped = [] then "secret" else String.ofList stripped.reverse)

/-- The reference `create_secret` makes. -/
def versionRef (characters : Settings.Characters) (ownerId name unique : String) : String :=
  secretRef characters ownerId name ++ ":v:" ++ unique

theorem versionRef_ne_empty (characters : Settings.Characters) (ownerId name unique : String) :
    versionRef characters ownerId name unique ≠ "" := by
  intro empty
  have length := congrArg String.length empty
  simp [versionRef] at length

/-- `get_secret` -/
def getSecret (hmac : Hmac) (key : List UInt8) (secrets : Secrets) (ref : String) :
    Except String String :=
  match secrets.get? ref with
  | some payload => decrypt hmac key payload
  | none => .ok ""

/-- `delete_secret` -/
def deleteSecret (ref : String) (secrets : Secrets) : Secrets :=
  if ref = "" then secrets else secrets.erase ref

/-- The deletions of `_cleanup_data_source_secret_changes`. -/
def deleteSecrets (refs : List String) (secrets : Secrets) : Secrets :=
  refs.foldl (fun secrets ref => deleteSecret ref secrets) secrets

theorem get?_deleteSecret {secrets : Secrets} {ref other : String} :
    (deleteSecret ref secrets).get? other =
      if other = ref ∧ other ≠ "" then none else secrets.get? other := by
  rw [deleteSecret]
  split
  · rename_i empty
    rw [if_neg fun both => both.2 (both.1.trans empty)]
  · rename_i nonempty
    by_cases same : other = ref
    · rw [if_pos ⟨same, same ▸ nonempty⟩, same, Dictionary.get?_erase_self]
    · rw [if_neg fun both => same both.1, Dictionary.get?_erase_of_ne same]

theorem get?_deleteSecrets {secrets : Secrets} {refs : List String} {other : String} :
    (deleteSecrets refs secrets).get? other =
      if other ∈ refs ∧ other ≠ "" then none else secrets.get? other := by
  induction refs generalizing secrets with
  | nil => simp [deleteSecrets]
  | cons ref refs induction =>
      rw [deleteSecrets, List.foldl_cons, ← deleteSecrets, induction, get?_deleteSecret]
      by_cases empty : other = ""
      · simp [empty]
      · by_cases same : other = ref
        · simp [same, same ▸ empty]
        · simp [same]

end RAGuardian.Ingestion
