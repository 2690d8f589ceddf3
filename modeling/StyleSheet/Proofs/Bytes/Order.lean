import StyleSheet.Proofs.Bytes.Counting
import Mathlib.Data.Char
import Mathlib.Data.List.Lex

/-!
# The order of bytes

Texts are compared by the codes of their characters.  This module proves that comparing them by
their bytes gives the same order.  Of two characters the one with the greater code has the greater
encoding, and the two encodings differ at a byte that both of them have, so what follows the
characters never matters.

The encoding of a character is its code in base 64, with a mark on the first byte that grows with
the number of bytes.
-/

namespace StyleSheet.Text

/-! ### Numbers in bytes -/

/-- A number in `more + 1` bytes.  Each byte behind the first holds six bits, and the first one
holds all that is left. -/
def sextets (mark : Nat) : (more : Nat) → Nat → List Nat
  | 0, v => [mark + v]
  | more + 1, v => sextets mark more (v / 64) ++ [128 + v % 64]

/-- The first byte of an encoding holds the highest bits. -/
lemma exists_sextets (mark more v : Nat) :
    ∃ bs, sextets mark more v = (mark + v / 64 ^ more) :: bs := by
  induction more generalizing v with
  | zero => exact ⟨[], by simp [sextets]⟩
  | succ more ih =>
    obtain ⟨bs, hbs⟩ := ih (v / 64)
    refine ⟨bs ++ [128 + v % 64], ?_⟩
    rw [sextets, hbs, Nat.div_div_eq_div_mul, ← Nat.pow_succ', List.cons_append]

/-- Numbers in equally many bytes are ordered as their bytes are, whatever follows these. -/
lemma sextets_append_lt {v w : Nat} (h : v < w) (mark more : Nat) (as bs : List Nat) :
    sextets mark more v ++ as < sextets mark more w ++ bs := by
  induction more generalizing v w as bs with
  | zero => exact List.cons_lt_cons_iff.mpr (.inl (Nat.add_lt_add_left h mark))
  | succ more ih =>
    simp only [sextets, List.append_assoc]
    -- Either the numbers differ above the last six bits already, or these decide.
    obtain hlt | heq := Nat.lt_or_eq_of_le (Nat.div_le_div_right (c := 64) h.le)
    · exact ih hlt _ _
    · rw [heq]
      refine List.append_left_lt (List.cons_lt_cons_iff.mpr (.inl ?_))
      omega

/-! ### The encoding of a character -/

/-- The mark on the first byte of a character with the given code, and the number of bytes behind
it. -/
def byteForm (v : Nat) : Nat × Nat :=
  if v ≤ 127 then (0, 0) else if v ≤ 2047 then (192, 1) else if v ≤ 65535 then (224, 2)
  else (240, 3)

/-- The bytes of a character with the given code. -/
def encoding (v : Nat) : List Nat := sextets (byteForm v).1 (byteForm v).2 v

/-- A greater code has a greater first byte, if it needs more bytes. -/
lemma byteForm_eq_or_lt {v w : Nat} (h : v < w) : byteForm v = byteForm w ∨
    (byteForm v).1 + v / 64 ^ (byteForm v).2 < (byteForm w).1 + w / 64 ^ (byteForm w).2 := by
  unfold byteForm
  split_ifs <;> simp only [true_or, Nat.reducePow, Nat.div_one, pow_one, pow_zero] <;> omega

/-- Encodings of two values are ordered as the values, whatever follows. -/
lemma encoding_append_lt {v w : Nat} (h : v < w) (as bs : List Nat) :
    encoding v ++ as < encoding w ++ bs := by
  obtain hform | hfirst := byteForm_eq_or_lt h
  · rw [encoding, encoding, hform]
    exact sextets_append_lt h _ _ as bs
  · obtain ⟨vs, hvs⟩ := exists_sextets (byteForm v).1 (byteForm v).2 v
    obtain ⟨ws, hws⟩ := exists_sextets (byteForm w).1 (byteForm w).2 w
    rw [encoding, encoding, hvs, hws]
    exact List.cons_lt_cons_iff.mpr (.inl hfirst)

/-- The bytes of a character are its encoding. -/
lemma map_toNat_octets (c : Char) : (octets [c]).map Char.toNat = encoding c.toNat := by
  have hmax : c.toNat < 1114112 := by
    obtain h | ⟨-, h⟩ := c.valid
    · exact Nat.lt_trans h (by decide)
    · exact h
  simp only [octets, List.flatMap_singleton, List.map_map, Function.comp_def, toNat_ofUInt8,
    encoding, String.utf8EncodeChar, byteForm]
  change List.map _ (ite (c.toNat ≤ 127) _ (ite (c.toNat ≤ 2047) _ (ite (c.toNat ≤ 65535) _ _))) = _
  split_ifs
  all_goals
    simp only [Char.toNat_val, List.map_cons, List.map_nil, UInt8.toNat_ofNat', sextets,
      List.cons_append, List.nil_append, List.cons.injEq, and_true]
    omega

/-! ### The bytes of a text -/

/-- Texts are ordered as the lists of their values. -/
lemma strictMono_map_toNat : StrictMono (List.map Char.toNat) :=
  fun _ _ h => List.map_lt (fun _ _ hlt => hlt) h

/-- The bytes of two characters are ordered as the characters, whatever follows. -/
lemma octets_append_lt {c d : Char} (h : c < d) (as bs : List Char) :
    octets [c] ++ as < octets [d] ++ bs := by
  rw [← strictMono_map_toNat.lt_iff_lt, List.map_append, List.map_append, map_toNat_octets,
    map_toNat_octets]
  exact encoding_append_lt h _ _

/-- The order of the bytes is the order of the characters. -/
lemma strictMono_octets : StrictMono octets := by
  intro cs ds h
  -- The induction is on the characters that the texts have in common.
  induction h with
  | @nil d ds =>
    have hne : octets (d :: ds) ≠ [] := by
      rw [octets_cons]
      simp [octets]
    obtain ⟨b, bs, hbytes⟩ := List.exists_cons_of_ne_nil hne
    rw [hbytes]
    exact List.nil_lt_cons b bs
  | @cons c cs ds h ih =>
    rw [octets_cons, octets_cons c ds]
    exact List.append_left_lt ih
  | @rel c cs d ds h =>
    rw [octets_cons, octets_cons d]
    exact octets_append_lt h _ _

end StyleSheet.Text
