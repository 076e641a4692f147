/-
Self-delimiting codecs.  A codec carries the proof that reading undoes writing
whatever follows, so codecs compose without further proof; the last step packs
words into bytes.
-/
import Mathlib.Data.Nat.Digits.Lemmas

namespace Aegion

universe u v

/-- Values written as words; reading returns the words that follow. -/
structure Codec (α : Type u) where
  write : α → List Nat
  read : List Nat → Option (α × List Nat)
  read_write : ∀ value rest, read (write value ++ rest) = some (value, rest)

namespace Codec

variable {α : Type u} {β : Type v}

def nat : Codec Nat where
  write n := [n]
  read
    | [] => none
    | n :: rest => some (n, rest)
  read_write _ _ := rfl

def pair (first : Codec α) (second : Codec β) : Codec (α × β) where
  write value := first.write value.1 ++ second.write value.2
  read words := (first.read words).bind fun (left, rest) =>
    (second.read rest).map fun (right, rest) => ((left, right), rest)
  read_write := by
    rintro ⟨left, right⟩ rest
    simp [List.append_assoc, first.read_write, second.read_write]

/-- Read the given number of values. -/
def readRepeated (element : Codec α) : Nat → List Nat → Option (List α × List Nat)
  | 0, words => some ([], words)
  | n + 1, words => (element.read words).bind fun (value, rest) =>
      (element.readRepeated n rest).map fun (values, rest) => (value :: values, rest)

theorem readRepeated_append (element : Codec α) (values : List α) (rest : List Nat) :
    element.readRepeated values.length (values.flatMap element.write ++ rest) =
      some (values, rest) := by
  induction values with
  | nil => rfl
  | cons value values ih =>
      simp [readRepeated, List.append_assoc, element.read_write, ih]

/-- A list, after its length. -/
def list (element : Codec α) : Codec (List α) where
  write values := values.length :: values.flatMap element.write
  read
    | [] => none
    | n :: rest => element.readRepeated n rest
  read_write values rest := element.readRepeated_append values rest

/-- Values that are written as other values. -/
def via (codec : Codec α) (encode : β → α) (decode : α → Option β)
    (hdecode : ∀ value, decode (encode value) = some value) : Codec β where
  write value := codec.write (encode value)
  read words := (codec.read words).bind fun (value, rest) =>
    (decode value).map fun value => (value, rest)
  read_write value rest := by simp [codec.read_write, hdecode]

/-- One value has a short form, a single word. -/
def abridge [DecidableEq α] (codec : Codec α) (short : α) : Codec α where
  write value := if value = short then [0] else 1 :: codec.write value
  read
    | [] => none
    | 0 :: rest => some (short, rest)
    | (_ + 1) :: rest => codec.read rest
  read_write value rest := by
    by_cases hshort : value = short
    · simp [hshort]
    · simp [hshort, codec.read_write]

def char : Codec Char :=
  nat.via Char.toNat (fun n => some (Char.ofNat n)) fun c => by simp

def string : Codec String :=
  char.list.via String.toList (fun chars => some (String.ofList chars))
    fun s => by simp

def int : Codec Int :=
  (nat.pair nat).via (fun n => (n.toNat, (-n).toNat))
    (fun (above, below) => some (above - below)) fun n => by
      simp only [Option.some.injEq]
      omega

/-- The bytes of one word: its digits and a terminator. -/
def wordBytes (n : Nat) : List UInt8 :=
  (Nat.digits 255 n).map UInt8.ofNat ++ [255]

/-- Split bytes into words; `digits` are those of the current word, reversed. -/
def readWords : List Nat → List UInt8 → List Nat
  | _, [] => []
  | digits, byte :: rest =>
      if byte = 255 then Nat.ofDigits 255 digits.reverse :: readWords [] rest
      else readWords (byte.toNat :: digits) rest

theorem readWords_digits (digits seen : List Nat) (rest : List UInt8)
    (hdigits : ∀ digit ∈ digits, digit < 255) :
    readWords seen (digits.map UInt8.ofNat ++ 255 :: rest) =
      Nat.ofDigits 255 (seen.reverse ++ digits) :: readWords [] rest := by
  induction digits generalizing seen with
  | nil => simp [readWords]
  | cons digit digits ih =>
      have hlt : digit < 255 := hdigits digit List.mem_cons_self
      have hsize : digit < UInt8.size := Nat.lt_trans hlt (by decide)
      have htoNat : (UInt8.ofNat digit).toNat = digit :=
        UInt8.toNat_ofNat_of_lt hsize
      have hbyte : UInt8.ofNat digit ≠ 255 := by
        intro heq
        have hnat := congrArg UInt8.toNat heq
        rw [htoNat] at hnat
        simp at hnat
        omega
      simp only [List.map_cons, List.cons_append, readWords, hbyte, ↓reduceIte, htoNat]
      rw [ih _ fun other hother => hdigits other (List.mem_cons_of_mem _ hother)]
      simp

/-- Bytes determine the words they were made of. -/
theorem readWords_wordBytes (words : List Nat) :
    readWords [] (words.flatMap wordBytes) = words := by
  induction words with
  | nil => rfl
  | cons n words ih =>
      have hdigits : ∀ digit ∈ Nat.digits 255 n, digit < 255 :=
        fun _ hdigit => Nat.digits_lt_base (by decide) hdigit
      simp only [List.flatMap_cons, wordBytes, List.append_assoc, List.singleton_append]
      rw [readWords_digits _ [] _ hdigits, List.reverse_nil, List.nil_append, Nat.ofDigits_digits]
      exact congrArg (n :: ·) ih

def toBytes (codec : Codec α) (value : α) : List UInt8 :=
  (codec.write value).flatMap wordBytes

def ofBytes (codec : Codec α) (bytes : List UInt8) : Option α :=
  (codec.read (readWords [] bytes)).map Prod.fst

/-- Bytes determine the value they were made of. -/
theorem ofBytes_toBytes (codec : Codec α) (value : α) :
    codec.ofBytes (codec.toBytes value) = some value := by
  have hread := codec.read_write value []
  rw [List.append_nil] at hread
  simp [ofBytes, toBytes, readWords_wordBytes, hread]

end Codec

end Aegion
