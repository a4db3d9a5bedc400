import Mathlib.Data.List.Basic

/-! # Base64

Bytes as text in the standard alphabet, and the lenient reading of such texts, which passes over
characters that are not of the alphabet. -/

namespace RAGuardian.Base64

/-! ## Digits -/

def alphabet : List Char :=
  "ABCDEFGHIJKLMNOPQRSTUVWXYZabcdefghijklmnopqrstuvwxyz0123456789+/".toList

def digit (value : Nat) : Char :=
  alphabet.getD value 'A'

def digitValue? (character : Char) : Option Nat :=
  alphabet.idxOf? character

theorem digitValue?_digit {value : Nat} (small : value < 64) :
    digitValue? (digit value) = some value := by
  have all : ∀ value : Fin 64, digitValue? (digit value) = some value.val := by decide +kernel
  exact all ⟨value, small⟩

theorem digit_ne_pad {value : Nat} (small : value < 64) : digit value ≠ '=' := by
  have all : ∀ value : Fin 64, digit value ≠ '=' := by decide +kernel
  exact all ⟨value, small⟩

theorem digit_ascii {value : Nat} (small : value < 64) : (digit value).toNat < 128 := by
  have all : ∀ value : Fin 64, (digit value).toNat < 128 := by decide +kernel
  exact all ⟨value, small⟩

/-! ## Encoding -/

/-- `base64.b64encode(bytes)` -/
def encode : List UInt8 → List Char
  | [] => []
  | [first] =>
      [digit (first.toNat / 4), digit (first.toNat % 4 * 16), '=', '=']
  | [first, second] =>
      [digit (first.toNat / 4), digit (first.toNat % 4 * 16 + second.toNat / 16),
        digit (second.toNat % 16 * 4), '=']
  | first :: second :: third :: rest =>
      digit (first.toNat / 4) :: digit (first.toNat % 4 * 16 + second.toNat / 16) ::
        digit (second.toNat % 16 * 4 + third.toNat / 64) :: digit (third.toNat % 64) ::
        encode rest

/-! ## Decoding -/

inductive Error
  | notAscii
  | oneMoreThanAMultipleOfFour
  | incorrectPadding
deriving DecidableEq, Repr

/-- `binascii.a2b_base64`: `position` digits of a group of four are read, `held` is what no byte
has of the last one, and `pads` counts the padding since then. -/
def decodeFrom (position held pads : Nat) : List Char → Except Error (List UInt8)
  | [] =>
      if position = 0 then .ok []
      else if position = 1 then .error .oneMoreThanAMultipleOfFour
      else .error .incorrectPadding
  | character :: rest =>
      if character = '=' then
        if position < 2 then decodeFrom position held pads rest
        -- Padding that completes a group ends the text, whatever follows it.
        else if 4 ≤ position + (pads + 1) then .ok []
        else decodeFrom position held (pads + 1) rest
      else match digitValue? character with
        | none => decodeFrom position held pads rest
        | some value =>
            if position = 0 then decodeFrom 1 value 0 rest
            else if position = 1 then
              (decodeFrom 2 (value % 16) 0 rest).map (UInt8.ofNat (held * 4 + value / 16) :: ·)
            else if position = 2 then
              (decodeFrom 3 (value % 4) 0 rest).map (UInt8.ofNat (held * 16 + value / 4) :: ·)
            else (decodeFrom 0 0 0 rest).map (UInt8.ofNat (held * 64 + value) :: ·)

/-- `base64.b64decode(text)` -/
def decode (text : List Char) : Except Error (List UInt8) :=
  if text.all fun character => character.toNat < 128 then decodeFrom 0 0 0 text
  else .error .notAscii

/-! ## Round trip -/

section

variable {held pads value : Nat} {rest : List Char}

theorem decodeFrom_first (small : value < 64) :
    decodeFrom 0 held pads (digit value :: rest) = decodeFrom 1 value 0 rest := by
  rw [decodeFrom, if_neg (digit_ne_pad small), digitValue?_digit small]
  rfl

theorem decodeFrom_second (small : value < 64) : decodeFrom 1 held pads (digit value :: rest) =
    (decodeFrom 2 (value % 16) 0 rest).map (UInt8.ofNat (held * 4 + value / 16) :: ·) := by
  rw [decodeFrom, if_neg (digit_ne_pad small), digitValue?_digit small]
  rfl

theorem decodeFrom_third (small : value < 64) : decodeFrom 2 held pads (digit value :: rest) =
    (decodeFrom 3 (value % 4) 0 rest).map (UInt8.ofNat (held * 16 + value / 4) :: ·) := by
  rw [decodeFrom, if_neg (digit_ne_pad small), digitValue?_digit small]
  rfl

theorem decodeFrom_fourth (small : value < 64) : decodeFrom 3 held pads (digit value :: rest) =
    (decodeFrom 0 0 0 rest).map (UInt8.ofNat (held * 64 + value) :: ·) := by
  rw [decodeFrom, if_neg (digit_ne_pad small), digitValue?_digit small]
  rfl

end

/-- A byte is what its upper and its lower bits make. -/
theorem ofNat_of_eq (byte : UInt8) {value : Nat} (same : value = byte.toNat) :
    UInt8.ofNat value = byte := by
  rw [same, UInt8.ofNat_toNat]

theorem decodeFrom_encode (bytes : List UInt8) : decodeFrom 0 0 0 (encode bytes) = .ok bytes := by
  induction bytes using encode.induct with
  | case1 => rfl
  | case2 first =>
      have bound := first.toNat_lt
      rw [encode, decodeFrom_first (by omega), decodeFrom_second (by omega),
        ofNat_of_eq first (by omega)]
      rfl
  | case3 first second =>
      have bound := first.toNat_lt
      have bound' := second.toNat_lt
      rw [encode, decodeFrom_first (by omega), decodeFrom_second (by omega),
        decodeFrom_third (by omega), ofNat_of_eq first (by omega),
        ofNat_of_eq second (by omega)]
      rfl
  | case4 first second third rest induction =>
      have bound := first.toNat_lt
      have bound' := second.toNat_lt
      have bound'' := third.toNat_lt
      rw [encode, decodeFrom_first (by omega), decodeFrom_second (by omega),
        decodeFrom_third (by omega), decodeFrom_fourth (by omega),
        ofNat_of_eq first (by omega), ofNat_of_eq second (by omega),
        ofNat_of_eq third (by omega), induction]
      rfl

theorem encode_ascii (bytes : List UInt8) : ∀ character ∈ encode bytes, character.toNat < 128 := by
  induction bytes using encode.induct with
  | case1 => simp [encode]
  | case2 first =>
      have bound := first.toNat_lt
      simp only [encode, List.mem_cons, List.not_mem_nil, or_false]
      rintro character (rfl | rfl | rfl | rfl)
      · exact digit_ascii (by omega)
      · exact digit_ascii (by omega)
      · decide
      · decide
  | case3 first second =>
      have bound := first.toNat_lt
      have bound' := second.toNat_lt
      simp only [encode, List.mem_cons, List.not_mem_nil, or_false]
      rintro character (rfl | rfl | rfl | rfl)
      · exact digit_ascii (by omega)
      · exact digit_ascii (by omega)
      · exact digit_ascii (by omega)
      · decide
  | case4 first second third rest induction =>
      have bound := first.toNat_lt
      have bound' := second.toNat_lt
      have bound'' := third.toNat_lt
      simp only [encode, List.mem_cons]
      rintro character (rfl | rfl | rfl | rfl | later)
      · exact digit_ascii (by omega)
      · exact digit_ascii (by omega)
      · exact digit_ascii (by omega)
      · exact digit_ascii (by omega)
      · exact induction character later

/-- Bytes are read back from their text. -/
@[simp] theorem decode_encode (bytes : List UInt8) : decode (encode bytes) = .ok bytes := by
  have ascii : ((encode bytes).all fun character => character.toNat < 128) = true :=
    List.all_eq_true.mpr fun character member => decide_eq_true (encode_ascii bytes character member)
  rw [decode, if_pos ascii, decodeFrom_encode]

example : String.ofList (encode [77, 97, 110, 33]) = "TWFuIQ==" := by decide +kernel

end RAGuardian.Base64
