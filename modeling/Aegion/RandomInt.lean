/-
`RandomIntN`: an integer below a bound by rejection sampling over blocks of eight random
bytes.  The limit is computed in 64-bit arithmetic; it is a multiple of the bound, so that
the accepted blocks fall evenly on the values.
-/
import Mathlib.Data.FinEnum
import Mathlib.Data.Fintype.BigOperators
import Mathlib.Data.Int.CardIntervalMod
import Mathlib.Data.Set.Card

namespace Aegion.Random

inductive Error where
  | invalidRandomBound
  | rngFailed
deriving Repr, DecidableEq

/-- What `RandomBytes(8)` returns. -/
abbrev Block := Fin 8 → UInt8

/-- The integer in the block, first byte highest. -/
def word (b : Block) : UInt64 :=
  (b 0).toUInt64 <<< 56 ||| (b 1).toUInt64 <<< 48 ||| (b 2).toUInt64 <<< 40 |||
    (b 3).toUInt64 <<< 32 ||| (b 4).toUInt64 <<< 24 ||| (b 5).toUInt64 <<< 16 |||
    (b 6).toUInt64 <<< 8 ||| (b 7).toUInt64

def maxUint64 : UInt64 := 18446744073709551615

def limit (n : Int64) : UInt64 := maxUint64 - maxUint64 % n.toUInt64

/-- The block ends the loop. -/
def Accepted (n : Int64) (b : Block) : Prop := word b < limit n

instance decidableAccepted (n : Int64) (b : Block) : Decidable (Accepted n b) :=
  inferInstanceAs (Decidable (word b < limit n))

def valueOf (n : Int64) (b : Block) : Int64 := (word b % n.toUInt64).toInt64

/-- The loop over what the calls of `RandomBytes` return; `none` as long as it waits for
another one. -/
def sample (n : Int64) : List (Except Error Block) → Option (Except Error Int64)
  | [] => none
  | .error e :: _ => some (.error e)
  | .ok b :: rest => if Accepted n b then some (.ok (valueOf n b)) else sample n rest

def randomIntN (n : Int64) (replies : List (Except Error Block)) : Option (Except Error Int64) :=
  if n ≤ 0 then some (.error .invalidRandomBound)
  else if n = 1 then some (.ok 0)
  else sample n replies

/-- The first blocks of a stream, none of which failed to come. -/
def drawn (stream : Nat → Block) (k : Nat) : List (Except Error Block) :=
  (List.range k).map fun i => .ok (stream i)

section Words

theorem toNat_byte_shift (byte : UInt8) (k : UInt64) (hk : k.toNat ≤ 56) :
    (byte.toUInt64 <<< k).toNat = 2 ^ k.toNat * byte.toNat := by
  have hbyte : byte.toNat < 2 ^ 8 := byte.toNat_lt
  have hlt : 2 ^ k.toNat * byte.toNat < 2 ^ 64 := calc
    2 ^ k.toNat * byte.toNat < 2 ^ k.toNat * 2 ^ 8 :=
      Nat.mul_lt_mul_of_pos_left hbyte (Nat.two_pow_pos _)
    _ ≤ 2 ^ 56 * 2 ^ 8 := Nat.mul_le_mul_right _ (Nat.pow_le_pow_right (by decide) hk)
    _ = 2 ^ 64 := by norm_num
  have hk64 : k.toNat % 64 = k.toNat := Nat.mod_eq_of_lt (by omega)
  rw [UInt64.toNat_shiftLeft, UInt8.toNat_toUInt64, hk64, Nat.shiftLeft_eq, Nat.mul_comm,
    Nat.mod_eq_of_lt hlt]

/-- One more byte below those that are there. -/
theorem or_byte (high k : Nat) (byte : UInt8) :
    2 ^ (k + 8) * high ||| 2 ^ k * byte.toNat = 2 ^ k * (256 * high + byte.toNat) := by
  have hlt : 2 ^ k * byte.toNat < 2 ^ (k + 8) := by
    rw [pow_add]
    exact Nat.mul_lt_mul_of_pos_left byte.toNat_lt (Nat.two_pow_pos _)
  rw [← Nat.two_pow_add_eq_or_of_lt hlt, pow_add]
  ring

theorem toNat_word (b : Block) : (word b).toNat =
    256 * (256 * (256 * (256 * (256 * (256 * (256 * (b 0).toNat + (b 1).toNat) +
      (b 2).toNat) + (b 3).toNat) + (b 4).toNat) + (b 5).toNat) + (b 6).toNat) + (b 7).toNat := by
  have hlast : (b 7).toUInt64.toNat = 2 ^ 0 * (b 7).toNat := by simp
  simp only [word, UInt64.toNat_or]
  rw [toNat_byte_shift _ 56 (by decide), toNat_byte_shift _ 48 (by decide),
    toNat_byte_shift _ 40 (by decide), toNat_byte_shift _ 32 (by decide),
    toNat_byte_shift _ 24 (by decide), toNat_byte_shift _ 16 (by decide),
    toNat_byte_shift _ 8 (by decide), hlast]
  erw [or_byte _ 48, or_byte _ 40, or_byte _ 32, or_byte _ 24, or_byte _ 16, or_byte _ 8,
    or_byte _ 0]
  rw [pow_zero, one_mul]

/-- The lowest byte of a number, and what is above it. -/
theorem byte_cancel {high high' : Nat} {byte byte' : UInt8}
    (hsum : 256 * high + byte.toNat = 256 * high' + byte'.toNat) : high = high' ∧ byte = byte' := by
  have hbyte : byte.toNat < 256 := byte.toNat_lt
  have hbyte' : byte'.toNat < 256 := byte'.toNat_lt
  exact ⟨by omega, UInt8.toNat_inj.mp (by omega)⟩

theorem word_injective : Function.Injective word := by
  intro b b' heq
  have hsum : (word b).toNat = (word b').toNat := congrArg UInt64.toNat heq
  rw [toNat_word, toNat_word] at hsum
  obtain ⟨hsum, h7⟩ := byte_cancel hsum
  obtain ⟨hsum, h6⟩ := byte_cancel hsum
  obtain ⟨hsum, h5⟩ := byte_cancel hsum
  obtain ⟨hsum, h4⟩ := byte_cancel hsum
  obtain ⟨hsum, h3⟩ := byte_cancel hsum
  obtain ⟨hsum, h2⟩ := byte_cancel hsum
  obtain ⟨hsum, h1⟩ := byte_cancel hsum
  funext i
  match i with
  | 0 => exact UInt8.toNat_inj.mp hsum
  | 1 => exact h1
  | 2 => exact h2
  | 3 => exact h3
  | 4 => exact h4
  | 5 => exact h5
  | 6 => exact h6
  | 7 => exact h7

/-- There are as many blocks as words. -/
theorem word_bijective : Function.Bijective word := by
  rw [Fintype.bijective_iff_injective_and_card]
  refine ⟨word_injective, ?_⟩
  have hbyte : Fintype.card UInt8 = 256 := FinEnum.card_eq_fintypeCard.symm
  have hword : Fintype.card UInt64 = 18446744073709551616 := FinEnum.card_eq_fintypeCard.symm
  rw [Fintype.card_fun, Fintype.card_fin, hbyte, hword]
  norm_num

/-- The blocks whose word has a property are as many as the numbers that have it. -/
theorem ncard_blocks (p : Nat → Prop) :
    {b : Block | p (word b).toNat}.ncard = {m | m < 18446744073709551616 ∧ p m}.ncard := by
  have hinjective : Function.Injective fun b : Block => (word b).toNat := fun b b' heq =>
    word_injective (UInt64.toNat_inj.mp heq)
  rw [← Set.ncard_image_of_injective _ hinjective]
  congr 1
  ext m
  constructor
  · rintro ⟨b, hb, rfl⟩
    exact ⟨(word b).toNat_lt, hb⟩
  · rintro ⟨hlt, hm⟩
    obtain ⟨b, hb⟩ := word_bijective.surjective (UInt64.ofNat m)
    have hword : (word b).toNat = m := by rw [hb, UInt64.toNat_ofNat_of_lt' hlt]
    refine ⟨b, ?_, hword⟩
    change p (word b).toNat
    rwa [hword]

end Words

section Limit

variable {n : Int64}

theorem toInt_toInt64 {x : UInt64} (hx : x.toNat < 2 ^ 63) : x.toInt64.toInt = x.toNat := by
  rw [← Int64.toInt_toBitVec, UInt64.toBitVec_toInt64, BitVec.toInt_eq_toNat_of_lt]
  · rfl
  · rw [UInt64.toNat_toBitVec]
    omega

/-- The bound as an unsigned integer. -/
theorem toNat_bound (hn : 1 ≤ n) :
    (n.toUInt64.toNat : Int) = n.toInt ∧ 1 ≤ n.toUInt64.toNat ∧ n.toUInt64.toNat < 2 ^ 63 := by
  have hone : 1 ≤ n.toInt := Int64.le_iff_toInt_le.mp hn
  have hpos : 0 ≤ n := Int64.le_iff_toInt_le.mpr (Int.le_trans (by decide) hone)
  have hclamp := Int64.toNat_toInt n
  have hbound := n.toInt_lt
  rw [Int64.toNat_toUInt64_of_le hpos]
  omega

theorem toNat_limit (n : Int64) : (limit n).toNat =
    n.toUInt64.toNat * (18446744073709551615 / n.toUInt64.toNat) := by
  have hle : maxUint64 % n.toUInt64 ≤ maxUint64 := by
    rw [UInt64.le_iff_toNat_le, UInt64.toNat_mod]
    exact Nat.mod_le _ _
  have hdiv := Nat.div_add_mod 18446744073709551615 n.toUInt64.toNat
  rw [limit, UInt64.toNat_sub_of_le _ _ hle, UInt64.toNat_mod]
  change 18446744073709551615 - 18446744073709551615 % n.toUInt64.toNat = _
  omega

/-- The limit wastes less than the bound. -/
theorem limit_add (hn : 1 ≤ n) : (limit n).toNat ≤ 18446744073709551615 ∧
    18446744073709551616 ≤ (limit n).toNat + n.toUInt64.toNat := by
  have hdiv := Nat.div_add_mod 18446744073709551615 n.toUInt64.toNat
  have hmod := Nat.mod_lt 18446744073709551615 (toNat_bound hn).2.1
  rw [toNat_limit n]
  omega

theorem toInt_valueOf (hn : 1 ≤ n) (b : Block) :
    (valueOf n b).toInt = ((word b).toNat % n.toUInt64.toNat : Nat) := by
  obtain ⟨_, hpos, hbound⟩ := toNat_bound hn
  have hlt := Nat.mod_lt (word b).toNat hpos
  rw [valueOf, toInt_toInt64, UInt64.toNat_mod]
  rw [UInt64.toNat_mod]
  omega

theorem valueOf_lt (hn : 1 ≤ n) (b : Block) : 0 ≤ valueOf n b ∧ valueOf n b < n := by
  obtain ⟨htoInt, hpos, _⟩ := toNat_bound hn
  have hlt := Nat.mod_lt (word b).toNat hpos
  rw [Int64.le_iff_toInt_le, Int64.lt_iff_toInt_lt, toInt_valueOf hn]
  exact ⟨Int.natCast_nonneg _, by omega⟩

theorem valueOf_one (b : Block) : valueOf 1 b = 0 := by
  have hvalue := toInt_valueOf (n := 1) (by decide) b
  rw [← Int64.toInt_inj, hvalue]
  change (((word b).toNat % 1 : Nat) : Int) = 0
  rw [Nat.mod_one]
  rfl

end Limit

section Counting

variable {n : Int64}

theorem ncard_below (p : Nat → Prop) [DecidablePred p] (l : Nat) :
    {m | m < l ∧ p m}.ncard = Nat.count p l := by
  rw [Nat.count_eq_card_filter_range, ← Set.ncard_coe_finset]
  congr 1
  ext m
  simp

/-- The accepted blocks of one value. -/
theorem ncard_value (hn : 1 ≤ n) {v : Int64} (hv : 0 ≤ v) (hvn : v < n) :
    {b : Block | Accepted n b ∧ valueOf n b = v}.ncard =
      18446744073709551615 / n.toUInt64.toNat := by
  obtain ⟨htoInt, hpos, hbound⟩ := toNat_bound hn
  have hv : 0 ≤ v.toInt := Int64.le_iff_toInt_le.mp hv
  have hvn : v.toInt < n.toInt := Int64.lt_iff_toInt_lt.mp hvn
  have hresidue : ∀ m, (m % n.toUInt64.toNat : Nat) = v.toInt ↔
      m ≡ v.toInt.toNat [MOD n.toUInt64.toNat] := by
    intro m
    rw [Nat.ModEq, Nat.mod_eq_of_lt (b := n.toUInt64.toNat) (a := v.toInt.toNat) (by omega)]
    omega
  have hset : {b : Block | Accepted n b ∧ valueOf n b = v} =
      {b : Block | (word b).toNat < (limit n).toNat ∧
        (word b).toNat ≡ v.toInt.toNat [MOD n.toUInt64.toNat]} := by
    ext b
    change Accepted n b ∧ valueOf n b = v ↔ _ ∧ _
    rw [Accepted, UInt64.lt_iff_toNat_lt, ← Int64.toInt_inj, toInt_valueOf hn, hresidue]
  have hbelow : {m | m < 18446744073709551616 ∧ m < (limit n).toNat ∧
        m ≡ v.toInt.toNat [MOD n.toUInt64.toNat]} =
      {m | m < (limit n).toNat ∧ m ≡ v.toInt.toNat [MOD n.toUInt64.toNat]} := by
    ext m
    have hlimit := (limit_add hn).1
    exact ⟨fun hm => hm.2, fun hm => ⟨hm.1.trans_le (by omega), hm⟩⟩
  rw [hset, ncard_blocks fun m => m < (limit n).toNat ∧
    m ≡ v.toInt.toNat [MOD n.toUInt64.toNat], hbelow, ncard_below, Nat.count_modEq_card _ hpos,
    toNat_limit n, Nat.mul_mod_right, Nat.mul_div_cancel_left _ hpos]
  rfl

theorem ncard_rejected (hn : 1 ≤ n) : {b : Block | ¬ Accepted n b}.ncard ≤ n.toUInt64.toNat := by
  have hset : {b : Block | ¬ Accepted n b} =
      {b : Block | (limit n).toNat ≤ (word b).toNat} := by
    ext b
    change ¬ Accepted n b ↔ (limit n).toNat ≤ (word b).toNat
    rw [Accepted, UInt64.lt_iff_toNat_lt, Nat.not_lt]
  have hinterval : {m | m < 18446744073709551616 ∧ (limit n).toNat ≤ m} =
      (Finset.Ico (limit n).toNat 18446744073709551616 : Set Nat) := by
    ext m
    rw [Finset.coe_Ico, Set.mem_Ico]
    exact And.comm
  have hlimit := (limit_add hn).2
  rw [hset, ncard_blocks fun m => (limit n).toNat ≤ m, hinterval, Set.ncard_coe_finset,
    Nat.card_Ico]
  omega

end Counting

section Draws

variable {n : Int64} {stream : Nat → Block} {k : Nat}

theorem sample_of_rejected (replies : List (Except Error Block))
    (hrejected : ∀ i < k, ¬ Accepted n (stream i)) :
    sample n (drawn stream k ++ replies) = sample n replies := by
  induction k generalizing replies with
  | zero => rfl
  | succ k ih =>
      rw [drawn, List.range_succ, List.map_append, List.append_assoc]
      refine (ih _ fun i hi => hrejected i (by omega)).trans ?_
      exact if_neg (hrejected k (by omega))

/-- The loop draws up to the first block below the limit. -/
theorem sample_first (hrejected : ∀ i < k, ¬ Accepted n (stream i))
    (haccepted : Accepted n (stream k)) (m : Nat) :
    sample n (drawn stream m) = if m ≤ k then none else some (.ok (valueOf n (stream k))) := by
  split
  · rename_i hle
    have hnone := sample_of_rejected (k := m) [] fun i hi => hrejected i (by omega)
    rwa [List.append_nil] at hnone
  · rename_i hlt
    obtain ⟨rest, rfl⟩ : ∃ rest, m = k + 1 + rest := ⟨m - (k + 1), by omega⟩
    rw [drawn, List.range_add, List.map_append, List.range_succ, List.map_append, List.append_assoc]
    refine (sample_of_rejected _ hrejected).trans ?_
    exact if_pos haccepted

end Draws

/-- Every value below the bound comes from equally many accepted blocks, and at most as many
blocks as the bound are rejected. -/
theorem randomIntN_unbiased (n : Int64) (hn : 1 ≤ n) :
    (∀ (stream : Nat → Block) (k : Nat), (∀ i < k, ¬ Accepted n (stream i)) →
      Accepted n (stream k) → ∀ m, k < m →
        randomIntN n (drawn stream m) = some (.ok (valueOf n (stream k)))) ∧
    (∀ b, 0 ≤ valueOf n b ∧ valueOf n b < n) ∧
    (2 ≤ n → (∃ q, 0 < q ∧ ∀ v, 0 ≤ v → v < n →
        {b : Block | Accepted n b ∧ valueOf n b = v}.ncard = q) ∧
      {b : Block | ¬ Accepted n b}.ncard ≤ n.toInt.toNat) := by
  obtain ⟨htoInt, hpos, hbound⟩ := toNat_bound hn
  refine ⟨?_, valueOf_lt hn, fun _ => ⟨⟨18446744073709551615 / n.toUInt64.toNat, ?_, ?_⟩, ?_⟩⟩
  · intro stream k hrejected haccepted m hm
    have hsample := sample_first hrejected haccepted m
    rw [if_neg (by omega)] at hsample
    have hnotle : ¬ n ≤ 0 := by
      rw [Int64.le_iff_toInt_le, Int64.toInt_zero]
      omega
    rw [randomIntN, if_neg hnotle, hsample]
    by_cases hone : n = 1
    · rw [if_pos hone, hone, valueOf_one]
    · rw [if_neg hone]
  · exact Nat.div_pos (by omega) hpos
  · exact fun v hv hvn => ncard_value hn hv hvn
  · have hrejected := ncard_rejected hn
    omega

/-- A digit of a code. -/
theorem randomIntN_unbiased_ten :
    (∀ b, 0 ≤ valueOf 10 b ∧ valueOf 10 b < 10) ∧
    randomIntN 10 (drawn (fun i _ => if i = 0 then 255 else 1) 2) =
      some (.ok (valueOf 10 fun _ => 1)) ∧
    {b : Block | ¬ Accepted 10 b}.ncard ≤ 10 := by
  obtain ⟨hfirst, hrange, hcount⟩ := randomIntN_unbiased 10 (by decide)
  refine ⟨hrange, ?_, (hcount (by decide)).2⟩
  exact hfirst (fun i _ => if i = 0 then 255 else 1) 1 (by decide) (by decide) 2 (by decide)

end Aegion.Random
