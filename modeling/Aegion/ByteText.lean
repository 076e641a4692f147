/-
Go strings as byte sequences, which need not be UTF-8, and the functions of `strconv`,
`encoding/hex` and `encoding/base64` on them.  These functions look at single bytes, so
they are read off the versions for text by taking each byte for a character.
-/
import Aegion.GoText

namespace Aegion

namespace Hex

def encodeDigit (n : Nat) : Char :=
  if n < 10 then Char.ofNat (48 + n) else Char.ofNat (87 + n)

def decodeDigit (c : Char) : Option Nat :=
  let n := c.toNat
  if 48 ≤ n ∧ n ≤ 57 then some (n - 48)
  else if 97 ≤ n ∧ n ≤ 102 then some (n - 87)
  else if 65 ≤ n ∧ n ≤ 70 then some (n - 55)
  else none

def encodeChars : List UInt8 → List Char
  | [] => []
  | byte :: rest =>
      encodeDigit (byte.toNat / 16) :: encodeDigit (byte.toNat % 16) ::
        encodeChars rest

/-- `hex.EncodeToString`. -/
def encode (bytes : List UInt8) : String := String.ofList (encodeChars bytes)

def decodeChars : List Char → Option (List UInt8)
  | [] => some []
  | [_] => none
  | high :: low :: rest => do
      let x ← decodeDigit high
      let y ← decodeDigit low
      let tail ← decodeChars rest
      some (UInt8.ofNat (16 * x + y) :: tail)

/-- `hex.DecodeString`, in either case. -/
def decode (s : String) : Option (List UInt8) := decodeChars s.toList

theorem decodeDigit_encodeDigit {n : Nat} (hn : n < 16) : decodeDigit (encodeDigit n) = some n := by
  decide +revert

theorem toNat_encodeDigit {n : Nat} (hn : n < 16) :
    48 ≤ (encodeDigit n).toNat ∧ (encodeDigit n).toNat ≤ 57 ∨
      97 ≤ (encodeDigit n).toNat ∧ (encodeDigit n).toNat ≤ 102 := by
  decide +revert

theorem decodeChars_encodeChars (bytes : List UInt8) :
    decodeChars (encodeChars bytes) = some bytes := by
  induction bytes with
  | nil => rfl
  | cons byte rest ih =>
      have hbyte := byte.toNat_lt
      have hhigh := decodeDigit_encodeDigit (n := byte.toNat / 16) (by omega)
      have hlow := decodeDigit_encodeDigit (n := byte.toNat % 16) (by omega)
      have hdiv : 16 * (byte.toNat / 16) + byte.toNat % 16 = byte.toNat := by omega
      rw [encodeChars, decodeChars, hhigh, hlow, ih]
      change some (UInt8.ofNat _ :: rest) = some (byte :: rest)
      rw [hdiv, UInt8.ofNat_toNat]

/-- Decoding undoes encoding. -/
theorem decode_encode (bytes : List UInt8) : decode (encode bytes) = some bytes := by
  rw [decode, encode, String.toList_ofList, decodeChars_encodeChars]

theorem range_of_mem_encode {bytes : List UInt8} {c : Char} (hc : c ∈ (encode bytes).toList) :
    48 ≤ c.toNat ∧ c.toNat ≤ 57 ∨ 97 ≤ c.toNat ∧ c.toNat ≤ 102 := by
  rw [encode, String.toList_ofList] at hc
  induction bytes with
  | nil => cases hc
  | cons byte rest ih =>
      have hbyte := byte.toNat_lt
      rw [encodeChars, List.mem_cons, List.mem_cons] at hc
      rcases hc with rfl | rfl | hc
      · exact toNat_encodeDigit (by omega)
      · exact toNat_encodeDigit (by omega)
      · exact ih hc

end Hex

namespace Go

/-- A Go string. -/
abbrev Bytes := List UInt8

section Ascii

/-- Each byte as the character with its number. -/
def latin1 (bytes : Bytes) : String :=
  String.ofList (bytes.map fun byte => Char.ofNat byte.toNat)

def IsAscii (s : String) : Prop := ∀ c ∈ s.toList, c.toNat < 128

/-- The string with these bytes, if they are UTF-8. -/
def utf8? (bytes : Bytes) : Option String := String.fromUTF8? ⟨bytes.toArray⟩

theorem bytesOf_eq_flatMap (s : String) : bytesOf s = s.toList.flatMap String.utf8EncodeChar := by
  rw [bytesOf, ← String.utf8Encode_toList, List.utf8Encode]
  simp

theorem bytesOf_of_isAscii {s : String} (hs : IsAscii s) :
    bytesOf s = s.toList.map fun c => UInt8.ofNat c.toNat := by
  rw [bytesOf_eq_flatMap]
  unfold IsAscii at hs
  generalize s.toList = chars at hs
  induction chars with
  | nil => rfl
  | cons c rest ih =>
      have hc : c.toNat ≤ 0x7f := Nat.le_of_lt_succ (hs c List.mem_cons_self)
      rw [List.flatMap_cons, List.map_cons,
        ih fun d hd => hs d (List.mem_cons_of_mem c hd), String.utf8EncodeChar]
      exact congrArg (· ++ _) (if_pos hc)

theorem toNat_ofNat_of_isAscii {c : Char} (hc : c.toNat < 128) :
    (UInt8.ofNat c.toNat).toNat = c.toNat :=
  UInt8.toNat_ofNat_of_lt' (hc.trans (by decide))

theorem latin1_bytesOf {s : String} (hs : IsAscii s) : latin1 (bytesOf s) = s := by
  refine String.toList_inj.mp ?_
  rw [bytesOf_of_isAscii hs, latin1, List.map_map, String.toList_ofList]
  refine (List.map_congr_left fun c hc => ?_).trans (List.map_id s.toList)
  rw [Function.comp_apply, toNat_ofNat_of_isAscii (hs c hc), Char.ofNat_toNat, id]

/-- A byte that is no character of an ASCII text is no byte of it. -/
theorem notMem_bytesOf {s : String} (hs : IsAscii s) {byte : UInt8}
    (hbyte : ∀ c ∈ s.toList, c.toNat ≠ byte.toNat) : byte ∉ bytesOf s := by
  rw [bytesOf_of_isAscii hs, List.mem_map]
  rintro ⟨c, hc, rfl⟩
  exact hbyte c hc (toNat_ofNat_of_isAscii (hs c hc)).symm

end Ascii

section Numbers

/-- `strconv.AppendInt` in base 10. -/
def formatInt (n : Int64) : Bytes := bytesOf n.toInt.repr

/-- `strconv.ParseInt` in base 10 with 64 bits. -/
def parseInt (bytes : Bytes) : Option Int64 := (atoi (latin1 bytes)).map Int64.ofInt

theorem isAscii_repr (n : Int) : IsAscii n.repr := by
  intro c hc
  rcases mem_repr hc with hdigit | rfl
  · exact (Char.isDigit_iff_toNat.mp hdigit).2.trans_lt (by decide)
  · decide

theorem parseInt_formatInt (n : Int64) : parseInt (formatInt n) = some n := by
  rw [parseInt, formatInt, latin1_bytesOf (isAscii_repr _),
    atoi_repr n.le_toInt n.toInt_lt, Option.map_some, Int64.ofInt_toInt]

theorem formatInt_injective : Function.Injective formatInt := by
  intro m n heq
  have hparse := parseInt_formatInt m
  rw [heq, parseInt_formatInt] at hparse
  exact (Option.some.inj hparse).symm

theorem notMem_formatInt (n : Int64) {byte : UInt8}
    (hdigit : ¬ (48 ≤ byte.toNat ∧ byte.toNat ≤ 57)) (hminus : byte.toNat ≠ 45) :
    byte ∉ formatInt n := by
  refine notMem_bytesOf (isAscii_repr _) fun c hc heq => ?_
  rcases mem_repr hc with hc | rfl
  · exact hdigit (heq ▸ Char.isDigit_iff_toNat.mp hc)
  · exact hminus heq.symm

end Numbers

section Encodings

/-- `base64.RawURLEncoding.EncodeToString`. -/
def encodeRawURL (bytes : Bytes) : Bytes := bytesOf (Base64.encodeRawURL bytes)

/-- `base64.RawURLEncoding.DecodeString`. -/
def decodeRawURL (bytes : Bytes) : Option Bytes := Base64.decodeRawURL (latin1 bytes)

/-- `hex.EncodeToString`. -/
def encodeHex (bytes : Bytes) : Bytes := bytesOf (Hex.encode bytes)

/-- `hex.DecodeString`. -/
def decodeHex (bytes : Bytes) : Option Bytes := Hex.decode (latin1 bytes)

theorem isAscii_encodeRawURL (bytes : Bytes) : IsAscii (Base64.encodeRawURL bytes) := by
  intro c hc
  rcases Base64.range_of_isDigit (Base64.mem_encodeRawURL hc) with ⟨-, hhigh⟩ | rfl
  · exact hhigh.trans_lt (by decide)
  · decide

theorem decodeRawURL_encodeRawURL (bytes : Bytes) :
    decodeRawURL (encodeRawURL bytes) = some bytes := by
  rw [decodeRawURL, encodeRawURL, latin1_bytesOf (isAscii_encodeRawURL bytes),
    Base64.decodeRawURL_encodeRawURL]

theorem notMem_encodeRawURL (bytes : Bytes) {byte : UInt8}
    (hdigit : ¬ 48 ≤ byte.toNat) (hminus : byte.toNat ≠ 45) : byte ∉ encodeRawURL bytes := by
  refine notMem_bytesOf (isAscii_encodeRawURL bytes) fun c hc heq => ?_
  rcases Base64.range_of_isDigit (Base64.mem_encodeRawURL hc) with ⟨hlow, -⟩ | rfl
  · exact hdigit (heq ▸ hlow)
  · exact hminus heq.symm

theorem isAscii_encodeHex (bytes : Bytes) : IsAscii (Hex.encode bytes) := by
  intro c hc
  have hrange := Hex.range_of_mem_encode hc
  omega

theorem decodeHex_encodeHex (bytes : Bytes) : decodeHex (encodeHex bytes) = some bytes := by
  rw [decodeHex, encodeHex, latin1_bytesOf (isAscii_encodeHex bytes), Hex.decode_encode]

theorem notMem_encodeHex (bytes : Bytes) {byte : UInt8}
    (hdigit : ¬ (48 ≤ byte.toNat ∧ byte.toNat ≤ 57))
    (hletter : ¬ (97 ≤ byte.toNat ∧ byte.toNat ≤ 102)) : byte ∉ encodeHex bytes := by
  refine notMem_bytesOf (isAscii_encodeHex bytes) fun c hc heq => ?_
  have hrange := Hex.range_of_mem_encode hc
  omega

theorem encodeHex_ne_nil {bytes : Bytes} (hbytes : bytes ≠ []) : encodeHex bytes ≠ [] := by
  intro hnil
  have hdecode := decodeHex_encodeHex bytes
  rw [hnil] at hdecode
  exact hbytes (Option.some.inj hdecode).symm

end Encodings

end Go

end Aegion
