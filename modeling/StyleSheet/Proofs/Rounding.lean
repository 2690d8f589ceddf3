import Mathlib
import StyleSheet.Number

/-!
# Decimals that survive rounding

A decimal is read as the nearest double and shown with one decimal place.  The double differs from
the decimal by half a unit of its last place at most (`nearestBits_near`).  A natural below `2 ^ 53`
is a double itself, and below `2 ^ 49` the unit of the last place is at most a sixteenth, so that
half of it is less than the twentieth that the shown tenth can be off.  In both cases the text that
is shown is the decimal that was read.
-/

namespace StyleSheet.Number

/-! ### Rounded quotients -/

/-- A number that is closer to the quotient than a half is the rounded quotient. -/
lemma roundDiv_eq_of_near {m d n : Nat} (habove : 2 * m < 2 * (n * d) + d)
    (hbelow : 2 * (n * d) < 2 * m + d) : roundDiv m d = n := by
  have hd : 0 < d := by
    rcases Nat.eq_zero_or_pos d with rfl | hd
    · omega
    · exact hd
  have hdiv : d * (m / d) + m % d = m := Nat.div_add_mod m d
  have hmod : m % d < d := Nat.mod_lt m hd
  have hlow : m / d ≤ n := by
    by_contra hlt
    have hmul : (n + 1) * d ≤ m / d * d := Nat.mul_le_mul_right d (by omega)
    rw [Nat.mul_comm (m / d), Nat.add_mul] at hmul
    omega
  have hhigh : n ≤ m / d + 1 := by
    by_contra hlt
    have hmul : (m / d + 2) * d ≤ n * d := Nat.mul_le_mul_right d (by omega)
    rw [Nat.add_mul, Nat.mul_comm (m / d)] at hmul
    omega
  unfold roundDiv
  rcases Nat.eq_or_lt_of_le hlow with rfl | hlt
  · rw [Nat.mul_comm (m / d)] at habove
    have hless : 2 * (m % d) < d := by omega
    simp [hless]
  · obtain rfl : n = m / d + 1 := by omega
    rw [Nat.add_mul, Nat.mul_comm (m / d)] at hbelow
    have hmore : d < 2 * (m % d) := by omega
    have hnot : ¬ 2 * (m % d) < d := by omega
    simp [hnot, hmore.ne']

/-- A rounded quotient is off by a half at most. -/
lemma roundDiv_near (m : Nat) {d : Nat} (hd : 0 < d) :
    2 * m ≤ 2 * (roundDiv m d * d) + d ∧ 2 * (roundDiv m d * d) ≤ 2 * m + d := by
  have hdiv : d * (m / d) + m % d = m := Nat.div_add_mod m d
  have hmod : m % d < d := Nat.mod_lt m hd
  unfold roundDiv
  dsimp only
  split_ifs with h
  · rw [Nat.mul_comm (m / d)]
    simp only [Bool.or_eq_true, decide_eq_true_eq, Bool.and_eq_true, beq_iff_eq] at h
    omega
  · rw [Nat.add_mul, Nat.mul_comm (m / d)]
    simp only [Bool.or_eq_true, decide_eq_true_eq, Bool.and_eq_true, beq_iff_eq, not_or] at h
    omega

/-- A rounded quotient is at least the quotient rounded down. -/
lemma le_roundDiv (m d : Nat) : m / d ≤ roundDiv m d := by
  unfold roundDiv
  dsimp only
  split_ifs <;> omega

/-- A rounded quotient is at most one more than the quotient rounded down. -/
lemma roundDiv_le (m d : Nat) : roundDiv m d ≤ m / d + 1 := by
  unfold roundDiv
  dsimp only
  split_ifs <;> omega

/-! ### The nearest double in least units -/

/-- One is so many of the smallest units. -/
lemma unitsPerOne_eq : unitsPerOne = 2 ^ 1074 := by
  unfold unitsPerOne
  generalize 1074 = k
  rfl

/-- One is at least one unit. -/
lemma unitsPerOne_pos : 0 < unitsPerOne := by
  rw [unitsPerOne_eq]
  positivity

/-- Small powers of two are less than the units of one. -/
lemma pow_le_unitsPerOne {k : Nat} (h : k ≤ 1074) : 2 ^ k ≤ unitsPerOne := by
  rw [unitsPerOne_eq]
  gcongr
  decide

/-- The units of a bit pattern are told by its exponent and its fraction. -/
lemma unitsOfBits_fields (field : Nat) {fraction : Nat} (h : fraction < exponentBit) :
    unitsOfBits (field * exponentBit + fraction) =
      if field = 0 then fraction else (fraction + exponentBit) * 2 ^ (field - 1) := by
  have hpos : 0 < exponentBit := by decide
  have hfield : (field * exponentBit + fraction) / exponentBit = field := by
    rw [Nat.mul_comm, Nat.mul_add_div hpos, Nat.div_eq_of_lt h, Nat.add_zero]
  have hfraction : (field * exponentBit + fraction) % exponentBit = fraction := by
    rw [Nat.mul_comm, Nat.mul_add_mod, Nat.mod_eq_of_lt h]
  simp only [unitsOfBits, hfield, hfraction, Nat.pow_eq]

/-- A significand and an exponent are encoded by a sum.  This holds for doubles without a leading
bit, too, and for a significand that is rounded up to the next power of two. -/
lemma unitsOfBits_encoded {shift significand : Nat} (hle : significand ≤ 2 ^ 53)
    (hge : shift = 0 ∨ 2 ^ 52 ≤ significand) :
    unitsOfBits (shift * exponentBit + significand) = significand * 2 ^ shift := by
  have hbit : exponentBit = 2 ^ 52 := by decide
  rcases Nat.lt_or_ge significand (2 ^ 52) with hsmall | hlarge
  · obtain rfl : shift = 0 := by omega
    rw [unitsOfBits_fields 0 (by omega), if_pos rfl, pow_zero, mul_one]
  rcases Nat.eq_or_lt_of_le hle with rfl | hless
  · have hsum : shift * exponentBit + 2 ^ 53 = (shift + 2) * exponentBit + 0 := by
      rw [Nat.add_mul]
      omega
    rw [hsum, unitsOfBits_fields _ (by omega), if_neg (by omega), hbit]
    have hexponent : shift + 2 - 1 = shift + 1 := by omega
    rw [hexponent]
    ring
  · have hsum : shift * exponentBit + significand =
        (shift + 1) * exponentBit + (significand - exponentBit) := by
      rw [Nat.add_mul]
      omega
    rw [hsum, unitsOfBits_fields _ (by omega), if_neg (by omega), Nat.sub_add_cancel (by omega)]
    rfl

/-- The binary logarithm of the unit in the last place of the nearest double, in least units. -/
def scale (n d : Nat) : Nat := (n * unitsPerOne / d).log2 - 52

/-- The significand of the nearest double. -/
def significand (n d : Nat) : Nat := roundDiv (n * unitsPerOne) (d * 2 ^ scale n d)

/-- The nearest bit pattern holds the scale and the significand, and is at most that of infinity. -/
lemma nearestBits_eq (n d : Nat) :
    nearestBits n d = min infinityBits (scale n d * exponentBit + significand n d) := rfl

/-- The significand has 53 bits, or is the power of two after them. -/
lemma significand_le (n d : Nat) : significand n d ≤ 2 ^ 53 := by
  have hle := roundDiv_le (n * unitsPerOne) (d * 2 ^ scale n d)
  have hlt : n * unitsPerOne / d / 2 ^ scale n d < 2 ^ 53 := by
    rw [Nat.div_lt_iff_lt_mul (by positivity), ← pow_add]
    refine lt_of_lt_of_le Nat.lt_log2_self (Nat.pow_le_pow_right (by decide) ?_)
    unfold scale
    omega
  rw [← Nat.div_div_eq_div_mul] at hle
  unfold significand
  omega

/-- Only a double without a leading bit has fewer. -/
lemma le_significand (n d : Nat) : scale n d = 0 ∨ 2 ^ 52 ≤ significand n d := by
  rcases Nat.eq_zero_or_pos (scale n d) with h | h
  · exact .inl h
  · right
    have hlog : (n * unitsPerOne / d).log2 = 52 + scale n d := by
      unfold scale at h ⊢
      omega
    have hne : n * unitsPerOne / d ≠ 0 := by
      intro hzero
      rw [hzero, Nat.log2_zero] at hlog
      omega
    have hpow : 2 ^ 52 * 2 ^ scale n d ≤ n * unitsPerOne / d := by
      rw [← pow_add, ← hlog]
      exact Nat.log2_self_le hne
    have hle := le_roundDiv (n * unitsPerOne) (d * 2 ^ scale n d)
    rw [← Nat.div_div_eq_div_mul] at hle
    exact le_trans ((Nat.le_div_iff_mul_le (by positivity)).mpr hpow) hle

/-- The scale of a quotient grows with its size. -/
lemma scale_le {n d k : Nat} (h : n < d * 2 ^ k) : scale n d ≤ k + 1021 := by
  have hlt : n * unitsPerOne / d < 2 ^ (k + 1074) := by
    refine Nat.div_lt_of_lt_mul ?_
    rw [unitsPerOne_eq, pow_add, ← mul_assoc]
    exact Nat.mul_lt_mul_of_pos_right h (by positivity)
  unfold scale
  rcases Nat.eq_zero_or_pos (n * unitsPerOne / d) with hzero | hpos
  · rw [hzero]
    simp
  · have hlog := (Nat.log2_lt hpos.ne').mpr hlt
    omega

/-- A quotient whose scale is small enough is finite. -/
lemma encoded_lt {n d : Nat} (h : scale n d ≤ 1074) :
    scale n d * exponentBit + significand n d < infinityBits := by
  have hle := significand_le n d
  simp only [exponentBit, infinityBits]
  omega

/-- The nearest bit pattern stands for the significand at its scale. -/
lemma unitsOfBits_nearestBits {n d : Nat} (h : scale n d ≤ 1074) :
    unitsOfBits (nearestBits n d) = significand n d * 2 ^ scale n d := by
  rw [nearestBits_eq, Nat.min_eq_right (encoded_lt h).le,
    unitsOfBits_encoded (significand_le n d) (le_significand n d)]

/-- The nearest double is off by half a unit of its last place at most. -/
lemma nearestBits_near {n d : Nat} (hd : 0 < d) (h : scale n d ≤ 1074) :
    2 * (n * unitsPerOne) ≤ 2 * (d * unitsOfBits (nearestBits n d)) + d * 2 ^ scale n d ∧
      2 * (d * unitsOfBits (nearestBits n d)) ≤ 2 * (n * unitsPerOne) + d * 2 ^ scale n d := by
  have hmul : d * unitsOfBits (nearestBits n d) = significand n d * (d * 2 ^ scale n d) := by
    rw [unitsOfBits_nearestBits h]
    ring
  rw [hmul]
  exact roundDiv_near (n * unitsPerOne) (by positivity)

/-- A natural with 53 bits is a double. -/
lemma unitsOfBits_nearestBits_one {n : Nat} (h : n < 2 ^ 53) :
    unitsOfBits (nearestBits n 1) = n * unitsPerOne := by
  have hscale : scale n 1 ≤ 1074 := scale_le (by omega : n < 1 * 2 ^ 53)
  have hunits : n * unitsPerOne = n * 2 ^ (1074 - scale n 1) * 2 ^ scale n 1 := by
    rw [mul_assoc, ← pow_add, Nat.sub_add_cancel hscale, unitsPerOne_eq]
  have hsignificand : significand n 1 = n * 2 ^ (1074 - scale n 1) := by
    have hpos : 0 < 2 ^ scale n 1 := by positivity
    unfold significand
    rw [one_mul]
    refine roundDiv_eq_of_near ?_ ?_ <;> rw [← hunits] <;> omega
  rw [unitsOfBits_nearestBits hscale, hsignificand, ← hunits]

/-! ### Shown numbers -/

open Float.Model in
/-- Bits below those of infinity are the bits of a double. -/
lemma toBits_ofBits {bits : Nat} (h : bits < infinityBits) :
    (Float.ofBits (UInt64.ofNat bits)).toBits.toNat = bits := by
  have hnat : (UInt64.ofNat bits).toBitVec.toNat = bits := by
    simp only [infinityBits] at h
    simp
    omega
  -- the only bits that are read back as others are those of infinities and of what is no number
  have hvalid : Format.binary64.Valid (UInt64.ofNat bits).toBitVec := by
    refine ⟨fun hexponent => ?_⟩
    exfalso
    have hfield : (UInt64.ofNat bits).toBitVec.toNat / 2 ^ 52 % 2 ^ 11 = 2047 := by
      have := congrArg BitVec.toNat hexponent
      simp only [UnpackedFloat.unpackExponent, BitVec.toNat_cast, BitVec.extractLsb_toNat,
        Nat.shiftRight_eq_div_pow] at this
      exact this
    rw [hnat] at hfield
    simp only [infinityBits] at h
    omega
  have hpack := UnpackedFloat.pack_unpack_of_valid hvalid
  change (UInt64.ofBitVec (UnpackedFloat.pack Format.binary64
    (UnpackedFloat.unpack Format.binary64 (UInt64.ofNat bits).toBitVec))).toNat = bits
  rw [hpack]
  exact hnat

/-- A finite number is shown by its tenths. -/
lemma text_nearest {n d : Nat} (h : scale n d ≤ 1074) : text (nearest n d) =
    tenthsText (roundDiv (10 * unitsOfBits (nearestBits n d)) unitsPerOne) := by
  have hlt : nearestBits n d < infinityBits := by
    rw [nearestBits_eq, Nat.min_eq_right (encoded_lt h).le]
    exact encoded_lt h
  have hsign : infinityBits < signBit := by decide
  have hmagnitude : nearestBits n d % signBit = nearestBits n d :=
    Nat.mod_eq_of_lt (hlt.trans hsign)
  simp only [text, nearest, toBits_ofBits hlt, hmagnitude]
  rw [if_neg (by omega), if_neg (by omega), if_neg (by omega), String.empty_append]

/-- A natural with 53 bits is shown with a zero as its decimal. -/
lemma text_nearest_one {n : Nat} (h : n < 2 ^ 53) : text (nearest n 1) = toString n ++ ".0" := by
  have hpos := unitsPerOne_pos
  have htenths : roundDiv (10 * (n * unitsPerOne)) unitsPerOne = 10 * n := by
    refine roundDiv_eq_of_near ?_ ?_ <;> rw [mul_assoc] <;> omega
  rw [text_nearest (scale_le (by omega : n < 1 * 2 ^ 53)), unitsOfBits_nearestBits_one h, htenths,
    tenthsText, Nat.mul_div_cancel_left n (by decide), Nat.mul_mod_right, String.append_assoc]
  rfl

/-- A number of tenths is shown as it is if the whole has 49 bits: the double is off by less than a
twentieth. -/
lemma text_nearest_ten {whole tenth : Nat} (hwhole : whole < 2 ^ 49) (htenth : tenth < 10) :
    text (nearest (10 * whole + tenth) 10) = toString whole ++ "." ++ toString tenth := by
  have hscale : scale (10 * whole + tenth) 10 ≤ 49 + 1021 := scale_le (by omega)
  have hunit : 10 * 2 ^ scale (10 * whole + tenth) 10 < unitsPerOne := by
    have hpos : 0 < 2 ^ scale (10 * whole + tenth) 10 := by positivity
    have hpow : 2 ^ (scale (10 * whole + tenth) 10 + 4) ≤ unitsPerOne :=
      pow_le_unitsPerOne (by omega)
    rw [pow_add] at hpow
    omega
  obtain ⟨habove, hbelow⟩ := nearestBits_near (by decide : 0 < 10)
    (by omega : scale (10 * whole + tenth) 10 ≤ 1074)
  have htenths : roundDiv (10 * unitsOfBits (nearestBits (10 * whole + tenth) 10)) unitsPerOne =
      10 * whole + tenth := by
    refine roundDiv_eq_of_near ?_ ?_ <;> omega
  have hdiv : (10 * whole + tenth) / 10 = whole := by omega
  have hmod : (10 * whole + tenth) % 10 = tenth := by omega
  rw [text_nearest (by omega), htenths, tenthsText, hdiv, hmod]

end StyleSheet.Number
