/-
The parts of Go's `strings`, `strconv` and `encoding/base64` packages that the
modelled services use.  Case mapping is parameterised by the Unicode tables,
so nothing depends on the table version beyond ASCII.
-/
import Mathlib.Algebra.Group.Int.Defs
import Mathlib.Algebra.Group.Nat.Defs
import Mathlib.Data.List.Basic
import Mathlib.Data.List.DropRight

namespace Aegion

namespace Go

/-- `unicode.IsSpace`. -/
def isSpace (c : Char) : Bool :=
  c.val = 0x20 || (0x09 ≤ c.val && c.val ≤ 0x0D) || c.val = 0x85 ||
    c.val = 0xA0 || c.val = 0x1680 || (0x2000 ≤ c.val && c.val ≤ 0x200A) ||
    c.val = 0x2028 || c.val = 0x2029 || c.val = 0x202F || c.val = 0x205F ||
    c.val = 0x3000

/-- `strings.TrimSpace`. -/
def trimSpace (s : String) : String :=
  String.ofList
    (((s.toList.dropWhile isSpace).reverse.dropWhile isSpace).reverse)

/-- `strings.TrimSpace(s) == ""`. -/
def blank (s : String) : Bool := trimSpace s = ""

/-- `strings.Split` with a one-rune separator. -/
def split (s : String) (separator : Char) : List String :=
  (s.toList.splitOn separator).map String.ofList

/-- `strings.Join`. -/
def join (parts : List String) (separator : String) : String :=
  separator.intercalate parts

/-- `strings.HasPrefix`. -/
def hasPrefix (s start : String) : Bool := start.toList.isPrefixOf s.toList

/-- `strings.TrimPrefix`. -/
def trimPrefix (s start : String) : String :=
  if hasPrefix s start then String.ofList (s.toList.drop start.toList.length)
  else s

/-- `strings.HasSuffix`. -/
def hasSuffix (s ending : String) : Bool := ending.toList.isSuffixOf s.toList

/-- `strings.TrimSuffix`. -/
def trimSuffix (s ending : String) : String :=
  if hasSuffix s ending then
    String.ofList (s.toList.take (s.toList.length - ending.toList.length))
  else s

/-- `strings.ReplaceAll` of a one-rune string by nothing. -/
def removeAll (s : String) (c : Char) : String :=
  String.ofList (s.toList.filter (· ≠ c))

/-- `uuid.UUID`; `uuid.Nil` is zero. -/
abbrev UUID := BitVec 128

/-- The non-ASCII part of Go's case tables: `unicode.ToLower` and the
representative of a rune's `unicode.SimpleFold` orbit. -/
structure CaseTables where
  lower : Char → Char
  fold : Char → Char

/-- `unicode.ToLower`. -/
def CaseTables.lowerRune (tables : CaseTables) (c : Char) : Char :=
  if c.val < 0x80 then c.toLower else tables.lower c

def CaseTables.foldRune (tables : CaseTables) (c : Char) : Char :=
  if c.val < 0x80 then c.toLower else tables.fold c

/-- `strings.ToLower`. -/
def CaseTables.toLower (tables : CaseTables) (s : String) : String :=
  String.ofList (s.toList.map tables.lowerRune)

/-- `strings.EqualFold`. -/
def CaseTables.equalFold (tables : CaseTables) (s t : String) : Bool :=
  s.toList.map tables.foldRune = t.toList.map tables.foldRune

/-- The value of a string of decimal digits. -/
def digitsValue : List Char → Option Nat
  | [] => none
  | digits =>
      if digits.all Char.isDigit then
        some (digits.foldl (fun n c => 10 * n + (c.toNat - 48)) 0)
      else none

/-- `strconv.Atoi` on a 64-bit platform; `none` is its error. -/
def atoi (s : String) : Option Int :=
  let value := match s.toList with
    | '-' :: digits => (digitsValue digits).map fun n => -(n : Int)
    | '+' :: digits => (digitsValue digits).map Int.ofNat
    | digits => (digitsValue digits).map Int.ofNat
  value.filter fun n => -2 ^ 63 ≤ n ∧ n < 2 ^ 63

/-- The UTF-8 bytes `[]byte(s)`. -/
def bytesOf (s : String) : List UInt8 := s.toByteArray.data.toList

theorem bytesOf_injective : Function.Injective bytesOf := by
  intro s t heq
  have hdata : s.toByteArray = t.toByteArray :=
    ByteArray.ext (Array.toList_inj.mp heq)
  exact String.toByteArray_inj.mp hdata

/-- Removing a leading part and putting it back. -/
theorem append_trimPrefix {s start : String}
    (hstart : hasPrefix s start = true) : start ++ trimPrefix s start = s := by
  obtain ⟨rest, hrest⟩ := List.isPrefixOf_iff_prefix.mp hstart
  apply String.toList_inj.mp
  simp [trimPrefix, hstart, ← hrest]

theorem blank_empty : blank "" = true := by decide

/-- A string without leading or trailing white space is its own trim. -/
theorem trimSpace_eq_self {s : String}
    (hspace : ∀ c ∈ s.toList, isSpace c = false) : trimSpace s = s := by
  have hdrop : ∀ chars : List Char, (∀ c ∈ chars, isSpace c = false) →
      chars.dropWhile isSpace = chars := by
    intro chars hchars
    cases chars with
    | nil => rfl
    | cons c rest => simp [hchars c List.mem_cons_self]
  unfold trimSpace
  rw [hdrop _ hspace, hdrop _ (by simpa using hspace), List.reverse_reverse, String.ofList_toList]

/-- A string is not blank if some character of it is not white space. -/
theorem not_blank_of_mem {s : String} {c : Char} (hc : c ∈ s.toList)
    (hspace : isSpace c = false) : blank s = false := by
  have hdrop : ∀ chars : List Char, c ∈ chars → c ∈ chars.dropWhile isSpace := by
    intro chars hmem
    induction chars with
    | nil => cases hmem
    | cons d rest ih =>
        by_cases hd : isSpace d = true
        · rcases List.mem_cons.mp hmem with rfl | hrest
          · rw [hspace] at hd
            cases hd
          · simpa [List.dropWhile_cons, hd] using ih hrest
        · simpa [List.dropWhile_cons, hd] using hmem
  have hkept : c ∈ (trimSpace s).toList := by
    simp only [trimSpace, String.toList_ofList, List.mem_reverse]
    exact hdrop _ (List.mem_reverse.mpr (hdrop _ hc))
  unfold blank
  rw [decide_eq_false_iff_not]
  intro hempty
  rw [hempty] at hkept
  simp at hkept

theorem isSpace_of_range {c : Char} (hlow : 48 ≤ c.toNat) (hhigh : c.toNat ≤ 122) :
    isSpace c = false := by
  have hval : c.val.toNat = c.toNat := rfl
  simp only [isSpace, Bool.or_eq_false_iff, decide_eq_false_iff_not,
    Bool.and_eq_false_iff, ← UInt32.toNat_inj, UInt32.le_iff_toNat_le, hval]
  simp
  omega

section Decimal

theorem isDigit_of_mem_repr {n : Nat} {c : Char} (hc : c ∈ n.repr.toList) : c.isDigit = true := by
  rw [Nat.toList_repr] at hc
  exact Nat.isDigit_of_mem_toDigits (by decide) (by decide) hc

/-- Decimal texts consist of digits, behind a sign if the number is negative. -/
theorem toList_repr (n : Int) : n.repr.toList =
    if 0 ≤ n then n.toNat.repr.toList else '-' :: (-n).toNat.repr.toList := by
  rw [Int.repr_eq_if]
  split
  · rfl
  · simp [String.toList_append]

theorem mem_repr {n : Int} {c : Char} (hc : c ∈ n.repr.toList) : c.isDigit = true ∨ c = '-' := by
  rw [toList_repr] at hc
  split at hc
  · exact Or.inl (isDigit_of_mem_repr hc)
  · rcases List.mem_cons.mp hc with hsign | hrest
    · exact Or.inr hsign
    · exact Or.inl (isDigit_of_mem_repr hrest)

theorem trimSpace_repr (n : Int) : trimSpace n.repr = n.repr := by
  refine trimSpace_eq_self fun c hc => ?_
  rcases mem_repr hc with hdigit | rfl
  · obtain ⟨hlow, hhigh⟩ := Char.isDigit_iff_toNat.mp hdigit
    exact isSpace_of_range hlow (hhigh.trans (by decide))
  · decide

theorem digitsValue_repr (n : Nat) : digitsValue n.repr.toList = some n := by
  have hall : n.repr.toList.all Char.isDigit = true :=
    List.all_eq_true.mpr fun c hc => isDigit_of_mem_repr hc
  have hvalue : Nat.ofDigitChars 10 n.repr.toList 0 = n := by
    rw [Nat.toList_repr]
    exact Nat.ofDigitChars_toDigits (by decide) (by decide)
  cases hdigits : n.repr.toList with
  | nil =>
      rw [Nat.toList_repr] at hdigits
      exact absurd hdigits Nat.toDigits_ne_nil
  | cons d rest =>
      rw [hdigits] at hall hvalue
      rw [digitsValue, if_pos hall]
      · exact congrArg some hvalue
      · simp

/-- Numbers in the range of `int64` are read back from their decimal text. -/
theorem atoi_repr {n : Int} (hlow : -2 ^ 63 ≤ n) (hhigh : n < 2 ^ 63) : atoi n.repr = some n := by
  have hfilter : (some n).filter (fun n => -2 ^ 63 ≤ n ∧ n < 2 ^ 63) = some n := by
    rw [Option.filter_some, if_pos (decide_eq_true ⟨hlow, hhigh⟩)]
  unfold atoi
  rw [toList_repr]
  by_cases hpos : 0 ≤ n
  · have hvalue := digitsValue_repr n.toNat
    rw [if_pos hpos]
    split
    case h_1 rest hdigits =>
      have hsign := isDigit_of_mem_repr (hdigits ▸ List.mem_cons_self)
      cases hsign
    case h_2 rest hdigits =>
      have hsign := isDigit_of_mem_repr (hdigits ▸ List.mem_cons_self)
      cases hsign
    case h_3 =>
      rw [hvalue, Option.map_some, Int.ofNat_eq_natCast, Int.toNat_of_nonneg hpos]
      exact hfilter
  · rw [if_neg hpos]
    have habs : ((-n).toNat : Int) = -n := Int.toNat_of_nonneg (by omega)
    simp only [digitsValue_repr]
    change Option.filter _ (some (-((-n).toNat : Int))) = some n
    rw [habs, Int.neg_neg]
    exact hfilter

theorem repr_injective : Function.Injective Int.repr := by
  intro m n heq
  have hlists := congrArg String.toList heq
  rw [toList_repr, toList_repr] at hlists
  have hdigits : ∀ {a b : Nat}, a.repr.toList = b.repr.toList → a = b := by
    intro a b hab
    have hvalue := digitsValue_repr a
    rw [hab, digitsValue_repr] at hvalue
    exact (Option.some.inj hvalue).symm
  have hminus : ∀ {a : Nat} {rest : List Char}, a.repr.toList ≠ '-' :: rest := by
    intro a rest hsign
    have hd := isDigit_of_mem_repr (hsign ▸ List.mem_cons_self)
    cases hd
  split at hlists
  · split at hlists
    · have := hdigits hlists
      omega
    · exact absurd hlists hminus
  · split at hlists
    · exact absurd hlists.symm hminus
    · have := hdigits (List.cons.inj hlists).2
      omega

theorem repr_ne_empty (n : Int) : n.repr ≠ "" := by
  intro hempty
  have hlist := congrArg String.toList hempty
  rw [toList_repr] at hlist
  split at hlist
  · rw [Nat.toList_repr] at hlist
    exact Nat.toDigits_ne_nil hlist
  · cases hlist

end Decimal

theorem hasPrefix_iff (s start : String) : hasPrefix s start = true ↔ start.toList <+: s.toList :=
  List.isPrefixOf_iff_prefix

theorem hasSuffix_iff (s ending : String) :
    hasSuffix s ending = true ↔ ending.toList <:+ s.toList :=
  List.isSuffixOf_iff_suffix

theorem trimSuffix_append (s ending : String) : trimSuffix (s ++ ending) ending = s := by
  have hsuffix : hasSuffix (s ++ ending) ending = true := by
    rw [hasSuffix_iff, String.toList_append]
    exact List.suffix_append _ _
  rw [trimSuffix, if_pos hsuffix, String.toList_append, List.length_append, Nat.add_sub_cancel,
    List.take_left, String.ofList_toList]

theorem trimSpace_trimSpace (s : String) : trimSpace (trimSpace s) = trimSpace s := by
  have hstart : ∀ first chars : List Char, first <+: chars.dropWhile isSpace →
      first.dropWhile isSpace = first := by
    intro first chars hfirst
    cases first with
    | nil => rfl
    | cons c rest =>
        obtain ⟨tail, htail⟩ := hfirst
        have hsame := List.dropWhile_idempotent isSpace chars
        rw [← htail] at hsame
        by_cases hc : isSpace c = true
        · have hlength := (List.dropWhile_suffix isSpace (l := rest ++ tail)).length_le
          rw [List.cons_append, List.dropWhile_cons_of_pos hc] at hsame
          rw [hsame, List.length_cons] at hlength
          omega
        · exact List.dropWhile_cons_of_neg hc
  have hkept := hstart _ s.toList (List.rdropWhile_prefix isSpace _)
  rw [List.rdropWhile] at hkept
  simp only [trimSpace, String.toList_ofList]
  rw [hkept, List.reverse_reverse, List.dropWhile_idempotent]

end Go

namespace Base64

/-- The URL-safe alphabet of RFC 4648, indexed by a sextet. -/
def encodeDigit (n : Nat) : Char :=
  if n < 26 then Char.ofNat (65 + n)
  else if n < 52 then Char.ofNat (97 + (n - 26))
  else if n < 62 then Char.ofNat (48 + (n - 52))
  else if n = 62 then '-'
  else '_'

def decodeDigit (c : Char) : Option Nat :=
  let n := c.toNat
  if 65 ≤ n ∧ n ≤ 90 then some (n - 65)
  else if 97 ≤ n ∧ n ≤ 122 then some (n - 97 + 26)
  else if 48 ≤ n ∧ n ≤ 57 then some (n - 48 + 52)
  else if c = '-' then some 62
  else if c = '_' then some 63
  else none

/-- `base64.RawURLEncoding.EncodeToString`, as a list of characters. -/
def encodeChars : List UInt8 → List Char
  | [] => []
  | [a] => [encodeDigit (a.toNat / 4), encodeDigit (a.toNat % 4 * 16)]
  | [a, b] =>
      [encodeDigit (a.toNat / 4),
        encodeDigit (a.toNat % 4 * 16 + b.toNat / 16),
        encodeDigit (b.toNat % 16 * 4)]
  | a :: b :: c :: rest =>
      encodeDigit (a.toNat / 4) ::
        encodeDigit (a.toNat % 4 * 16 + b.toNat / 16) ::
        encodeDigit (b.toNat % 16 * 4 + c.toNat / 64) ::
        encodeDigit (c.toNat % 64) :: encodeChars rest

def encodeRawURL (bytes : List UInt8) : String :=
  String.ofList (encodeChars bytes)

/-- The bytes of one quantum; trailing bits of a short quantum are ignored. -/
def decodeChars : List Char → Option (List UInt8)
  | [] => some []
  | [_] => none
  | [p, q] => do
      let x ← decodeDigit p
      let y ← decodeDigit q
      some [UInt8.ofNat (x * 4 + y / 16)]
  | [p, q, r] => do
      let x ← decodeDigit p
      let y ← decodeDigit q
      let z ← decodeDigit r
      some [UInt8.ofNat (x * 4 + y / 16), UInt8.ofNat (y % 16 * 16 + z / 4)]
  | p :: q :: r :: s :: rest => do
      let x ← decodeDigit p
      let y ← decodeDigit q
      let z ← decodeDigit r
      let w ← decodeDigit s
      let tail ← decodeChars rest
      some (UInt8.ofNat (x * 4 + y / 16) ::
        UInt8.ofNat (y % 16 * 16 + z / 4) ::
        UInt8.ofNat (z % 4 * 64 + w) :: tail)

/-- `base64.RawURLEncoding.DecodeString`, which skips line breaks. -/
def decodeRawURL (s : String) : Option (List UInt8) :=
  decodeChars (s.toList.filter fun c => c ≠ '\n' ∧ c ≠ '\r')

/-- Characters of the URL-safe alphabet. -/
def IsDigit (c : Char) : Prop := (decodeDigit c).isSome

instance (c : Char) : Decidable (IsDigit c) :=
  inferInstanceAs (Decidable ((decodeDigit c).isSome = true))

theorem decodeDigit_encodeDigit {n : Nat} (hn : n < 64) : decodeDigit (encodeDigit n) = some n := by
  have hall : ∀ k : Fin 64, decodeDigit (encodeDigit k) = some k.val := by decide
  exact hall ⟨n, hn⟩

theorem isDigit_of_mem {s : String} (hall : s.toList.all (fun c => IsDigit c) = true)
    {c : Char} (hc : c ∈ s.toList) : IsDigit c :=
  of_decide_eq_true (List.all_eq_true.mp hall c hc)

theorem encodeDigit_isDigit (n : Nat) : IsDigit (encodeDigit n) := by
  by_cases hn : n < 64
  · simp [IsDigit, decodeDigit_encodeDigit hn]
  · have hlast : encodeDigit n = '_' := by
      unfold encodeDigit
      rw [if_neg (by omega), if_neg (by omega), if_neg (by omega), if_neg (by omega)]
    rw [hlast]
    decide

theorem encodeChars_isDigit (bytes : List UInt8) : ∀ c ∈ encodeChars bytes, IsDigit c := by
  induction bytes using encodeChars.induct with
  | case1 => simp [encodeChars]
  | case2 a => simp [encodeChars, encodeDigit_isDigit]
  | case3 a b => simp [encodeChars, encodeDigit_isDigit]
  | case4 a b c rest ih =>
      simp only [encodeChars, List.mem_cons]
      rintro d (rfl | rfl | rfl | rfl | hrest)
      · exact encodeDigit_isDigit _
      · exact encodeDigit_isDigit _
      · exact encodeDigit_isDigit _
      · exact encodeDigit_isDigit _
      · exact ih d hrest

private theorem ofNat_toNat_of_eq {n : Nat} {byte : UInt8}
    (heq : n = byte.toNat) : UInt8.ofNat n = byte := by
  rw [heq, UInt8.ofNat_toNat]

theorem decodeChars_encodeChars (bytes : List UInt8) :
    decodeChars (encodeChars bytes) = some bytes := by
  induction bytes using encodeChars.induct with
  | case1 => rfl
  | case2 a =>
      have ha := a.toNat_lt
      have hx := decodeDigit_encodeDigit (n := a.toNat / 4) (by omega)
      have hy := decodeDigit_encodeDigit (n := a.toNat % 4 * 16) (by omega)
      have hbyte : UInt8.ofNat (a.toNat / 4 * 4 + a.toNat % 4 * 16 / 16) = a :=
        ofNat_toNat_of_eq (by omega)
      simp only [encodeChars, decodeChars, hx, hy, Option.bind_eq_bind, Option.bind_some, hbyte]
  | case3 a b =>
      have ha := a.toNat_lt
      have hb := b.toNat_lt
      have hx := decodeDigit_encodeDigit (n := a.toNat / 4) (by omega)
      have hy := decodeDigit_encodeDigit (n := a.toNat % 4 * 16 + b.toNat / 16) (by omega)
      have hz := decodeDigit_encodeDigit (n := b.toNat % 16 * 4) (by omega)
      have hfirst : UInt8.ofNat (a.toNat / 4 * 4 + (a.toNat % 4 * 16 + b.toNat / 16) / 16) = a :=
        ofNat_toNat_of_eq (by omega)
      have hsecond : UInt8.ofNat ((a.toNat % 4 * 16 + b.toNat / 16) % 16 * 16 +
          b.toNat % 16 * 4 / 4) = b :=
        ofNat_toNat_of_eq (by omega)
      simp only [encodeChars, decodeChars, hx, hy, hz, Option.bind_eq_bind,
        Option.bind_some, hfirst, hsecond]
  | case4 a b c rest ih =>
      have ha := a.toNat_lt
      have hb := b.toNat_lt
      have hc := c.toNat_lt
      have hx := decodeDigit_encodeDigit (n := a.toNat / 4) (by omega)
      have hy := decodeDigit_encodeDigit (n := a.toNat % 4 * 16 + b.toNat / 16) (by omega)
      have hz := decodeDigit_encodeDigit (n := b.toNat % 16 * 4 + c.toNat / 64) (by omega)
      have hw := decodeDigit_encodeDigit (n := c.toNat % 64) (by omega)
      have hfirst : UInt8.ofNat (a.toNat / 4 * 4 + (a.toNat % 4 * 16 + b.toNat / 16) / 16) = a :=
        ofNat_toNat_of_eq (by omega)
      have hsecond : UInt8.ofNat ((a.toNat % 4 * 16 + b.toNat / 16) % 16 * 16 +
          (b.toNat % 16 * 4 + c.toNat / 64) / 4) = b :=
        ofNat_toNat_of_eq (by omega)
      have hthird : UInt8.ofNat ((b.toNat % 16 * 4 + c.toNat / 64) % 4 * 64 + c.toNat % 64) = c :=
        ofNat_toNat_of_eq (by omega)
      simp only [encodeChars, decodeChars, hx, hy, hz, hw, ih,
        Option.bind_eq_bind, Option.bind_some, hfirst, hsecond, hthird]

theorem ne_of_isDigit {c d : Char} (hc : IsDigit c) (hd : ¬ IsDigit d) : c ≠ d := by
  rintro rfl
  exact hd hc

/-- Decoding undoes encoding. -/
theorem decodeRawURL_encodeRawURL (bytes : List UInt8) :
    decodeRawURL (encodeRawURL bytes) = some bytes := by
  unfold decodeRawURL encodeRawURL
  rw [String.toList_ofList, List.filter_eq_self.mpr]
  · exact decodeChars_encodeChars bytes
  · intro c hc
    have hdigit := encodeChars_isDigit bytes c hc
    simp [ne_of_isDigit hdigit (d := '\n') (by decide),
      ne_of_isDigit hdigit (d := '\r') (by decide)]

theorem encodeRawURL_injective : Function.Injective encodeRawURL := by
  intro left right heq
  have hdecode := congrArg decodeRawURL heq
  simpa [decodeRawURL_encodeRawURL] using hdecode

theorem mem_encodeRawURL {bytes : List UInt8} {c : Char}
    (hc : c ∈ (encodeRawURL bytes).toList) : IsDigit c := by
  rw [encodeRawURL, String.toList_ofList] at hc
  exact encodeChars_isDigit bytes c hc

theorem range_of_isDigit {c : Char} (hc : IsDigit c) : 48 ≤ c.toNat ∧ c.toNat ≤ 122 ∨ c = '-' := by
  simp only [IsDigit, decodeDigit] at hc
  split at hc
  · omega
  · split at hc
    · omega
    · split at hc
      · omega
      · split at hc
        · exact Or.inr ‹_›
        · split at hc
          · left
            subst c
            decide
          · cases hc

theorem isSpace_of_isDigit {c : Char} (hc : IsDigit c) : Go.isSpace c = false := by
  rcases range_of_isDigit hc with ⟨hlow, hhigh⟩ | rfl
  · exact Go.isSpace_of_range hlow hhigh
  · decide

end Base64

end Aegion
