import StyleSheet.Color
import StyleSheet.Proofs.Bytes.Order
import Mathlib.Data.List.Forall2
import Mathlib.Data.String.Basic

/-!
# Looking up colour names

A word is looked up by halving the table, and only if it is not too long.  This module proves that
the answer is the one that going through all entries would give.  Halving finds what stands in a
table whose entries ascend, the table of colour names ascends in the order of bytes, and whatever is
a name in some letter case is short enough to be looked up.
-/

namespace StyleSheet.Color

open Text

/-! ### Searching by halves -/

/-- Each entry has smaller bytes than those behind it. -/
def IsAscending (table : Array String) : Prop :=
  table.toList.Pairwise fun a b => octets a.toList < octets b.toList

/-- The word stands at a place from `lo` up to `hi`. -/
def IsAmong (table : Array String) (word : String) (lo hi : Nat) : Prop :=
  ∃ i, lo ≤ i ∧ i < hi ∧ table[i]? = some word

section Search

variable {table : Array String} {entry word : String} {i j lo mid hi : Nat}

/-- Of two entries of an ascending table the earlier is less. -/
lemma IsAscending.lt (h : IsAscending table) (hentry : table[i]? = some entry)
    (hword : table[j]? = some word) (hij : i < j) : entry < word := by
  obtain ⟨hi, rfl⟩ := Array.getElem?_eq_some_iff.mp hentry
  obtain ⟨hj, rfl⟩ := Array.getElem?_eq_some_iff.mp hword
  exact strictMono_octets.lt_iff_lt.mp (List.pairwise_iff_getElem.mp h i j hi hj hij)

/-- Entries are ordered as their places are. -/
lemma IsAscending.lt_iff (h : IsAscending table) (hentry : table[i]? = some entry)
    (hword : table[j]? = some word) : entry < word ↔ i < j := by
  refine ⟨fun hlt => ?_, h.lt hentry hword⟩
  obtain hij | rfl | hji := lt_trichotomy i j
  · exact hij
  · rw [Option.some_inj.mp (hentry.symm.trans hword)] at hlt
    exact absurd hlt (lt_irrefl word)
  · exact absurd hlt (lt_asymm (h.lt hword hentry hji))

/-- Behind a smaller entry stands whatever is greater. -/
lemma IsAscending.isAmong_behind (h : IsAscending table) (hmid : table[mid]? = some entry)
    (hlt : entry < word) (hlo : lo ≤ mid) :
    IsAmong table word (mid + 1) hi ↔ IsAmong table word lo hi := by
  constructor
  · rintro ⟨i, hi, hrest⟩
    exact ⟨i, by omega, hrest⟩
  · rintro ⟨i, -, hi, hword⟩
    exact ⟨i, (h.lt_iff hmid hword).mp hlt, hi, hword⟩

/-- Before a greater entry stands whatever is smaller. -/
lemma IsAscending.isAmong_before (h : IsAscending table) (hmid : table[mid]? = some entry)
    (hlt : word < entry) (hhi : mid < hi) :
    IsAmong table word lo mid ↔ IsAmong table word lo hi := by
  constructor
  · rintro ⟨i, hlo, hi, hword⟩
    exact ⟨i, hlo, by omega, hword⟩
  · rintro ⟨i, hlo, -, hword⟩
    exact ⟨i, hlo, (h.lt_iff hword hmid).mp hlt, hword⟩

/-- Each comparison drops a part of the places where the word cannot stand. -/
lemma search_eq_true_iff (h : IsAscending table) (word : String) (lo : Nat)
    (hhi : hi ≤ table.size) : search table word lo hi = true ↔ IsAmong table word lo hi := by
  fun_induction search table word lo hi with
  | case1 lo hi hlt mid hnone =>
    -- The middle lies before `hi`, so there is an entry.
    have hsize := Array.getElem?_eq_none_iff.mp hnone
    omega
  | case2 lo hi hlt mid entry hmid heq =>
    rw [eq_of_beq heq] at hmid
    exact iff_of_true rfl ⟨mid, by omega, by omega, hmid⟩
  | case3 lo hi hlt mid entry hmid hne hless ih =>
    rw [ih hhi]
    exact h.isAmong_behind hmid hless (by omega)
  | case4 lo hi hlt mid entry hmid hne hless ih =>
    have hgreater : word < entry := by
      refine lt_of_le_of_ne (not_lt.mp hless) fun heq => hne ?_
      rw [heq, beq_self_eq_true]
    rw [ih (by omega)]
    exact h.isAmong_before hmid hgreater (by omega)
  | case5 lo hi hle =>
    refine iff_of_false Bool.false_ne_true ?_
    rintro ⟨i, hlo, hi, -⟩
    omega

/-- In a table that ascends, halving finds the entries and nothing else. -/
lemma search_eq_true_iff_mem (h : IsAscending table) (word : String) :
    search table word 0 table.size = true ↔ word ∈ table := by
  rw [search_eq_true_iff h word 0 le_rfl, Array.mem_iff_getElem?]
  constructor
  · rintro ⟨i, -, -, hword⟩
    exact ⟨i, hword⟩
  · rintro ⟨i, hword⟩
    exact ⟨i, Nat.zero_le i, (Array.getElem?_eq_some_iff.mp hword).1, hword⟩

end Search

/-! ### Letter case -/

/-- The first character is the second one or its capital letter. -/
def IsCaseOf (c d : Char) : Prop := c = d ∨ c.isUpper = true ∧ c.toNat + 32 = d.toNat

/-- The word is the name but for capital letters. -/
def Spells (word name : String) : Prop := List.Forall₂ IsCaseOf word.toList name.toList

/-- Capital letters are in the ASCII range. -/
lemma toNat_le_of_isUpper {c : Char} (h : c.isUpper = true) : c.toNat ≤ 90 :=
  UInt32.le_iff_toNat_le.mp (of_decide_eq_true h).2

/-- A small letter comes 32 places behind its capital letter. -/
lemma toNat_toLower {c : Char} (h : c.isUpper = true) : c.toLower.toNat = c.toNat + 32 := by
  have hsum : c.toNat + 32 < 2 ^ 32 :=
    Nat.lt_of_le_of_lt (Nat.add_le_add_right (toNat_le_of_isUpper h) 32) (by decide)
  have hval : c.toLower.val = c.val + 32 := congrArg Char.val (dif_pos (of_decide_eq_true h))
  rw [← Char.toNat_val, hval, UInt32.toNat_add]
  exact Nat.mod_eq_of_lt hsum

/-- Other characters have no small letter. -/
lemma toLower_of_not_isUpper {c : Char} (h : ¬ c.isUpper = true) : c.toLower = c :=
  dif_neg fun hc => h (decide_eq_true hc)

/-- Characters beyond ASCII have no small letter. -/
lemma toLower_of_not_isAscii {c : Char} (h : ¬ IsAscii c) : c.toLower = c :=
  toLower_of_not_isUpper fun hc => h (Nat.lt_of_le_of_lt (toNat_le_of_isUpper hc) (by decide))

/-- The small letter of an ASCII character is ASCII. -/
lemma isAscii_toLower {c : Char} (h : IsAscii c) : IsAscii c.toLower := by
  by_cases hc : c.isUpper = true
  · have hz := toNat_le_of_isUpper hc
    rw [IsAscii, toNat_toLower hc]
    omega
  · rwa [toLower_of_not_isUpper hc]

/-- The small letter of a character is another one exactly if the first is that one or its capital
letter. -/
lemma toLower_eq_iff {c d : Char} (hd : d.isUpper = false) : c.toLower = d ↔ IsCaseOf c d := by
  unfold IsCaseOf
  by_cases hc : c.isUpper = true
  · have hne : c ≠ d := by
      rintro rfl
      exact Bool.false_ne_true (hd.symm.trans hc)
    rw [← Char.toNat_inj, toNat_toLower hc]
    simp [hne, hc]
  · rw [toLower_of_not_isUpper hc]
    simp [hc]

/-- The small letters of a text are a text without capitals exactly if they are so one by one. -/
lemma map_toLower_eq_iff {cs ds : List Char} (hds : ∀ d ∈ ds, d.isUpper = false) :
    cs.map Char.toLower = ds ↔ List.Forall₂ IsCaseOf cs ds := by
  induction ds generalizing cs with
  | nil => simp
  | cons d ds ih =>
    have htail : ∀ e ∈ ds, e.isUpper = false := fun e he => hds e (List.mem_cons_of_mem d he)
    cases cs with
    | nil => simp
    | cons c cs =>
      rw [List.map_cons, List.cons.injEq, List.forall₂_cons, ih htail,
        toLower_eq_iff (hds d List.mem_cons_self)]

/-- A word in lower case is a name without capitals exactly if it is the name but for capital
letters. -/
lemma lower_eq_iff {word name : String} (hname : ∀ c ∈ name.toList, c.isUpper = false) :
    lower word = name ↔ Spells word name := by
  rw [Spells, ← map_toLower_eq_iff hname, lower, ← String.toList_inj, String.toList_ofList]

/-- Lowering the characters lowers the bytes, since those of a character outside of ASCII are no
letters. -/
lemma octets_map_toLower (cs : List Char) :
    octets (cs.map Char.toLower) = (octets cs).map Char.toLower := by
  induction cs with
  | nil => rfl
  | cons c cs ih =>
    by_cases hc : IsAscii c
    · rw [List.map_cons, octets_cons_of_isAscii (isAscii_toLower hc), octets_cons_of_isAscii hc, ih,
        List.map_cons]
    · have hbytes : (octets [c]).map Char.toLower = octets [c] := by
        have hsame : ∀ b ∈ octets [c], b.toLower = id b :=
          fun b hb => toLower_of_not_isAscii (not_isAscii_of_mem_octets hc b hb)
        rw [List.map_congr_left hsame, List.map_id]
      rw [List.map_cons, toLower_of_not_isAscii hc, octets_cons, octets_cons c cs, ih,
        List.map_append, hbytes]

/-- A word in lower case has as many bytes as the word. -/
lemma utf8ByteSize_lower (word : String) : (lower word).utf8ByteSize = word.utf8ByteSize := by
  rw [← byteLength_toList, ← byteLength_toList, ← length_octets, ← length_octets, lower,
    String.toList_ofList, octets_map_toLower, List.length_map]

/-! ### The table -/

/-- The table of colour names ascends. -/
lemma isAscending_names : IsAscending names := by
  -- It is enough to compare neighbours, and by characters, which are faster to evaluate than bytes.
  have hchain : names.toList.IsChain (· < ·) := by decide +kernel
  exact hchain.pairwise.imp fun h => strictMono_octets h

/-- No colour name has capital letters. -/
lemma isUpper_eq_false_of_mem_names {name : String} (h : name ∈ names) :
    ∀ c ∈ name.toList, c.isUpper = false := by
  have hall : (names.toList.all fun n => n.toList.all fun c => !c.isUpper) = true := by
    decide +kernel
  simp only [List.all_eq_true, Bool.not_eq_true'] at hall
  exact hall name h.val

/-- No colour name is longer than the limit. -/
lemma utf8ByteSize_le_maxLength {name : String} (h : name ∈ names) :
    name.utf8ByteSize ≤ maxLength := by
  have hall : ∀ n ∈ names.toList, n.utf8ByteSize ≤ maxLength := by decide +kernel
  exact hall name h.val

/-- A word in lower case is a colour name exactly if the word is one but for capital letters. -/
lemma lower_mem_names_iff (word : String) :
    lower word ∈ names ↔ ∃ name ∈ names, Spells word name := by
  constructor
  · intro h
    exact ⟨lower word, h, (lower_eq_iff (isUpper_eq_false_of_mem_names h)).mp rfl⟩
  · rintro ⟨name, hname, hspells⟩
    rwa [(lower_eq_iff (isUpper_eq_false_of_mem_names hname)).mpr hspells]

/-- No word is left out that the search would find. -/
lemma isName_eq_search (word : String) :
    isName word = search names (lower word) 0 names.size := by
  by_cases hfound : search names (lower word) 0 names.size = true
  · have hmem := (search_eq_true_iff_mem isAscending_names _).mp hfound
    have hsize : word.utf8ByteSize ≤ maxLength :=
      utf8ByteSize_lower word ▸ utf8ByteSize_le_maxLength hmem
    simp [isName, hsize]
  · simp [isName, hfound]

/-- A word names a colour exactly if the table has it in lower case, which is to say that it is one
of the names in some letter case.  The limit on the length changes no answer, and halving the table,
which ascends in the order of bytes, finds every key that is in it and no other. -/
theorem isName_iff_lower_mem_names (word : String) :
    (isName word = true ↔ lower word ∈ names) ∧
      (isName word = true ↔ ∃ name ∈ names, Spells word name) ∧
      isName word = search names (lower word) 0 names.size ∧
      IsAscending names ∧ ∀ key, search names key 0 names.size = true ↔ key ∈ names := by
  have hsearch := search_eq_true_iff_mem isAscending_names
  have hname : isName word = true ↔ lower word ∈ names := by
    rw [isName_eq_search]
    exact hsearch (lower word)
  exact ⟨hname, hname.trans (lower_mem_names_iff word), isName_eq_search word, isAscending_names,
    hsearch⟩

end StyleSheet.Color
