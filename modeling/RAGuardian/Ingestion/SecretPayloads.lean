import RAGuardian.Foundation.Base64
import RAGuardian.Foundation.Fallible
import RAGuardian.Ingestion.Secrets
import Mathlib.Algebra.GroupWithZero.Nat

/-! # Encrypted secrets as they are stored

`_encrypt` and `_decrypt` with the loop of their key stream and the texts of the payload. -/

namespace RAGuardian.Ingestion

/-- `sys.maxsize`: no `bytes` object is longer. -/
def maxSize : Nat := 2 ^ 63 - 1

/-- A payload as the file has it -/
structure StoredPayload where
  nonce : List Char
  ciphertext : List Char
  tag : List Char
deriving DecidableEq, Repr

inductive SecretFailure
  | overflow
  | index
  | base64 (error : Base64.Error)
  | authentication
  | unicodeDecode
deriving DecidableEq, Repr

/-- `counter.to_bytes(8, "big")`, which fails for a counter that does not fit. -/
def toBytes (counter : Nat) : Except SecretFailure (List UInt8) :=
  if counter < 256 ^ 8 then .ok (counterBytes counter) else .error .overflow

section

variable (hmac : Hmac) (key : List UInt8)

/-- The loop of `_keystream`. Every pass adds a digest of 32 bytes, so it ends. -/
def keystreamLoop (nonce : List UInt8) (length : Nat) (chunks : List (List UInt8))
    (counter : Nat) : Except SecretFailure (List (List UInt8)) :=
  if (chunks.map List.length).sum < length then
    match toBytes counter with
    | .error failure => .error failure
    | .ok counterBytes =>
        keystreamLoop nonce length (chunks ++ [hmac.digest key (nonce ++ counterBytes)])
          (counter + 1)
  else .ok chunks
termination_by length - (chunks.map List.length).sum
decreasing_by
  rw [List.map_append, List.map_singleton, List.sum_append, List.sum_singleton,
    hmac.length_digest]
  omega

/-- `_keystream` -/
def keystreamBytes (nonce : List UInt8) (length : Nat) : Except SecretFailure (List UInt8) := do
  let chunks ← keystreamLoop hmac key nonce length [] 0
  return chunks.flatten.take length

/-- `bytes(byte ^ stream[index] for index, byte in enumerate(raw))` -/
def mask : List UInt8 → List UInt8 → Except SecretFailure (List UInt8)
  | [], _ => .ok []
  | _ :: _, [] => .error .index
  | byte :: raw, other :: stream => (mask raw stream).map ((byte ^^^ other) :: ·)

/-- `_encrypt` with a drawn nonce -/
def encryptStored (nonce : List UInt8) (value : String) : Except SecretFailure StoredPayload := do
  let raw := encode value
  let stream ← keystreamBytes hmac key nonce raw.length
  let ciphertext ← mask raw stream
  let tag := hmac.digest key (nonce ++ ciphertext)
  return {
    nonce := Base64.encode nonce
    ciphertext := Base64.encode ciphertext
    tag := Base64.encode tag }

/-- `base64.b64decode` of a text of a payload -/
def decodeText (text : List Char) : Except SecretFailure (List UInt8) :=
  (Base64.decode text).mapError .base64

/-- `_decrypt` -/
def decryptStored (payload : StoredPayload) : Except SecretFailure String := do
  let nonce ← decodeText payload.nonce
  let ciphertext ← decodeText payload.ciphertext
  let tag ← decodeText payload.tag
  if tag ≠ hmac.digest key (nonce ++ ciphertext) then throw .authentication
  else do
    let stream ← keystreamBytes hmac key nonce ciphertext.length
    let raw ← mask ciphertext stream
    match decode raw with
    | some value => return value
    | none => throw .unicodeDecode

end

section

variable {hmac : Hmac} {key : List UInt8}

/-! ## The key stream -/

/-- The digests of the first counters -/
def digests (hmac : Hmac) (key nonce : List UInt8) (count : Nat) : List (List UInt8) :=
  (List.range count).map fun counter => hmac.digest key (nonce ++ counterBytes counter)

theorem length_digests (nonce : List UInt8) (count : Nat) :
    ((digests hmac key nonce count).map List.length).sum = 32 * count := by
  induction count with
  | zero => rfl
  | succ count induction =>
      rw [digests, List.range_succ, List.map_append, List.map_append, List.sum_append,
        ← digests, induction, List.map_singleton, List.map_singleton, List.sum_singleton,
        hmac.length_digest]
      omega

/-- From its first counters on, the loop goes on to as many digests as the length asks for. -/
theorem keystreamLoop_digests {nonce : List UInt8} {length : Nat} (fits : length ≤ 32 * 256 ^ 8)
    (count : Nat) (early : 32 * count < length + 32) :
    keystreamLoop hmac key nonce length (digests hmac key nonce count) count =
      .ok (digests hmac key nonce ((length + 31) / 32)) := by
  induction rest : (length + 31) / 32 - count generalizing count with
  | zero =>
      have last : count = (length + 31) / 32 := by omega
      rw [keystreamLoop, length_digests, if_neg (by omega), last]
  | succ rest induction =>
      have next : digests hmac key nonce count ++
          [hmac.digest key (nonce ++ counterBytes count)] = digests hmac key nonce (count + 1) := by
        rw [digests, digests, List.range_succ, List.map_append, List.map_singleton]
      rw [keystreamLoop, length_digests, if_pos (by omega), toBytes, if_pos (by omega)]
      dsimp only
      rw [next]
      exact induction (count + 1) (by omega) (by omega)

theorem keystream_eq (nonce : List UInt8) (length : Nat) :
    keystream hmac key nonce length =
      (digests hmac key nonce ((length + 31) / 32)).flatten.take length := by
  rw [keystream, digests, List.flatMap_def]

/-- The loop makes the stream that the counters describe. -/
theorem keystreamBytes_eq {length : Nat} (fits : length ≤ maxSize) (nonce : List UInt8) :
    keystreamBytes hmac key nonce length = .ok (keystream hmac key nonce length) := by
  have chunks : keystreamLoop hmac key nonce length [] 0 =
      .ok (digests hmac key nonce ((length + 31) / 32)) :=
    keystreamLoop_digests (fits.trans (by decide)) 0 (by omega)
  rw [keystreamBytes, chunks, keystream_eq]
  rfl

/-- A shorter stream is the beginning of a longer one. -/
theorem keystream_take (nonce : List UInt8) {shorter length : Nat} (within : shorter ≤ length) :
    keystream hmac key nonce shorter = (keystream hmac key nonce length).take shorter := by
  obtain ⟨more, count⟩ : ∃ more, (length + 31) / 32 = (shorter + 31) / 32 + more :=
    ⟨(length + 31) / 32 - (shorter + 31) / 32, by omega⟩
  have enough : shorter ≤ (digests hmac key nonce ((shorter + 31) / 32)).flatten.length := by
    rw [List.length_flatten, length_digests]
    omega
  rw [keystream_eq, keystream_eq, List.take_take, Nat.min_eq_left within, count, digests, digests,
    List.range_add, List.map_append, ← digests, List.flatten_append,
    List.take_append_of_le_length enough]

/-! ## Masking -/

theorem mask_eq {raw stream : List UInt8} (long : raw.length ≤ stream.length) :
    mask raw stream = .ok (List.zipWith (· ^^^ ·) raw stream) := by
  induction raw generalizing stream with
  | nil => simp [mask]
  | cons byte raw induction =>
      cases stream with
      | nil => cases long
      | cons other stream =>
          rw [mask, induction (Nat.le_of_succ_le_succ long)]
          rfl

@[simp] theorem decodeText_encode (bytes : List UInt8) :
    decodeText (Base64.encode bytes) = .ok bytes := by
  rw [decodeText, Base64.decode_encode]
  rfl

/-! ## Round trip -/

theorem decryptStored_encryptStored {nonce : List UInt8} {value : String}
    (fits : (encode value).length ≤ maxSize) :
    ∃ payload, encryptStored hmac key nonce value = .ok payload ∧
      decryptStored hmac key payload = .ok value := by
  have long := @length_keystream hmac key nonce (encode value).length
  let ciphertext := List.zipWith (· ^^^ ·) (encode value)
    (keystream hmac key nonce (encode value).length)
  have size : ciphertext.length = (encode value).length := by
    simp [ciphertext, long]
  refine ⟨⟨Base64.encode nonce, Base64.encode ciphertext,
    Base64.encode (hmac.digest key (nonce ++ ciphertext))⟩, ?_, ?_⟩
  · simp only [encryptStored, keystreamBytes_eq fits, mask_eq long.ge, bind, Except.bind, pure,
      Except.pure, ciphertext]
  · have stream : keystreamBytes hmac key nonce ciphertext.length =
        .ok (keystream hmac key nonce (encode value).length) := by
      rw [size]
      exact keystreamBytes_eq fits nonce
    have masked : mask ciphertext (keystream hmac key nonce (encode value).length) =
        .ok (encode value) := by
      rw [mask_eq (by rw [size, long]), zipWith_xor_zipWith_xor long]
    have valid : ¬hmac.digest key (nonce ++ ciphertext) ≠ hmac.digest key (nonce ++ ciphertext) :=
      not_not.mpr rfl
    simp only [decryptStored, decodeText_encode, bind, Except.bind, if_neg valid, stream, masked,
      decode_encode, pure, Except.pure]

/-- What decrypts is authentic. -/
theorem decryptStored_authentic {payload : StoredPayload} {value : String}
    (decrypted : decryptStored hmac key payload = .ok value) :
    ∃ nonce ciphertext tag, decodeText payload.nonce = .ok nonce ∧
      decodeText payload.ciphertext = .ok ciphertext ∧ decodeText payload.tag = .ok tag ∧
      tag = hmac.digest key (nonce ++ ciphertext) := by
  unfold decryptStored at decrypted
  obtain ⟨nonce, nonceRead, decrypted⟩ := Fallible.bind_ok decrypted
  obtain ⟨ciphertext, ciphertextRead, decrypted⟩ := Fallible.bind_ok decrypted
  obtain ⟨tag, tagRead, decrypted⟩ := Fallible.bind_ok decrypted
  refine ⟨nonce, ciphertext, tag, nonceRead, ciphertextRead, tagRead, ?_⟩
  by_contra forged
  rw [if_pos forged] at decrypted
  cases decrypted

/-- A secret that is encrypted is decrypted. The stream has the length that is asked for, and a
shorter one is its beginning. A payload with another nonce or ciphertext in it is refused, unless
its tag is the digest of these. -/
theorem secret_round_trip {nonce : List UInt8} {value : String}
    (fits : (encode value).length ≤ maxSize) :
    (∃ payload, encryptStored hmac key nonce value = .ok payload ∧
      decryptStored hmac key payload = .ok value) ∧
    (∀ length ≤ maxSize, ∃ stream, keystreamBytes hmac key nonce length = .ok stream ∧
      stream.length = length ∧
      ∀ shorter ≤ length, keystreamBytes hmac key nonce shorter = .ok (stream.take shorter)) ∧
    ∀ payload, encryptStored hmac key nonce value = .ok payload →
      ∀ altered : StoredPayload, altered.tag = payload.tag →
        (∃ failure, decryptStored hmac key altered = .error failure) ∨
        ∃ otherNonce ciphertext tag, decodeText altered.nonce = .ok otherNonce ∧
          decodeText altered.ciphertext = .ok ciphertext ∧ decodeText payload.tag = .ok tag ∧
          tag = hmac.digest key (otherNonce ++ ciphertext) := by
  refine ⟨decryptStored_encryptStored fits, ?_, ?_⟩
  · intro length within
    refine ⟨_, keystreamBytes_eq within nonce, length_keystream nonce length, ?_⟩
    intro shorter shorter_le
    rw [keystreamBytes_eq (shorter_le.trans within), keystream_take nonce shorter_le]
  · intro payload _ altered sameTag
    cases outcome : decryptStored hmac key altered with
    | error failure => exact .inl ⟨failure, rfl⟩
    | ok result => exact .inr (sameTag ▸ decryptStored_authentic outcome)

end

/-! ## A password -/

theorem Hmac.length_zeros (_ _ : List UInt8) : (List.replicate 32 (0 : UInt8)).length = 32 :=
  List.length_replicate

/-- A digest of zeros -/
def Hmac.zeros : Hmac where
  digest _ _ := List.replicate 32 0
  length_digest := length_zeros

theorem password_round_trip : ∃ payload,
    encryptStored .zeros [1] [7] "hunter2" = .ok payload ∧
      decryptStored .zeros [1] payload = .ok "hunter2" := by
  obtain ⟨decrypted, -, -⟩ := @secret_round_trip .zeros [1] [7] "hunter2" (by decide +kernel)
  exact decrypted

end RAGuardian.Ingestion
