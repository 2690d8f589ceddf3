import Mathlib.Data.List.Sort
import StyleSheet.Proofs.Scanning.Lossless
import StyleSheet.Proofs.Tree

/-!
# The places of a tree

Where the parts of a sheet stand in its source: each span runs from the start of some token to the
end of one (`Span.FitsIn`), and the parts of a node stand inside of it one after another
(`Span.Holds`).  A tree of which all this is true is placed on the tokens (`Expr.Placed`,
`Stmt.Placed`).

The tokens of a text have an order, so two spans that are cut from different stretches of tokens do
not overlap.  All else follows from this: what is read from one stretch comes before what is read
from the next, and a span from the first token of a stretch to the last one covers all that is read
from it.
-/

namespace StyleSheet

/-! ### Spans on tokens -/

namespace Span

/-- The first span stops before the second one starts. -/
def Before (s t : Span) : Prop := s.stop ≤ t.start

/-- The first span lies inside of the second one. -/
def Inside (s t : Span) : Prop := t.start ≤ s.start ∧ s.stop ≤ t.stop

/-- The span is not empty, and it runs from the start of one of the tokens to the end of one. -/
structure FitsIn (ts : List Token) (s : Span) : Prop where
  start_lt_stop : s.start < s.stop
  start_mem : ∃ t ∈ ts, t.span.start = s.start
  stop_mem : ∃ t ∈ ts, t.span.stop = s.stop

/-- The parts lie inside of the span, one after another. -/
structure Holds (s : Span) (parts : List Span) : Prop where
  ordered : parts.Pairwise Before
  inside : ∀ p ∈ parts, p.Inside s

/-- The spans fit in the tokens, one after another. -/
structure Arranged (ts : List Token) (parts : List Span) : Prop where
  ordered : parts.Pairwise Before
  fitsIn : ∀ p ∈ parts, p.FitsIn ts

end Span

/-- No token is empty, and each stops before the later ones start. -/
structure Token.Ordered (ts : List Token) : Prop where
  start_lt_stop : ∀ t ∈ ts, t.span.start < t.span.stop
  pairwise : ts.Pairwise fun t u => t.span.Before u.span

namespace Token.Ordered

variable {t : Token} {ts us : List Token}

/-- The first part of ordered tokens is ordered. -/
lemma left (h : Ordered (ts ++ us)) : Ordered ts :=
  ⟨fun t ht => h.start_lt_stop t (List.mem_append_left us ht),
    (List.pairwise_append.mp h.pairwise).1⟩

/-- The last part of ordered tokens is ordered. -/
lemma right (h : Ordered (ts ++ us)) : Ordered us :=
  ⟨fun t ht => h.start_lt_stop t (List.mem_append_right ts ht),
    (List.pairwise_append.mp h.pairwise).2.1⟩

/-- Tokens of the first part stand before those of the last one. -/
lemma before (h : Ordered (ts ++ us)) {u : Token} (ht : t ∈ ts) (hu : u ∈ us) :
    t.span.Before u.span :=
  (List.pairwise_append.mp h.pairwise).2.2 t ht u hu

/-- Ordered tokens stay so when the first one is dropped. -/
lemma tail (h : Ordered (t :: ts)) : Ordered ts :=
  ⟨fun u hu => h.start_lt_stop u (List.mem_cons_of_mem t hu), (List.pairwise_cons.mp h.pairwise).2⟩

/-- The first token stands before all others. -/
lemma head_before (h : Ordered (t :: ts)) {u : Token} (hu : u ∈ ts) : t.span.Before u.span :=
  (List.pairwise_cons.mp h.pairwise).1 u hu

/-- Each of the tokens fits in them. -/
lemma fitsIn (h : Ordered ts) (ht : t ∈ ts) : t.span.FitsIn ts :=
  ⟨h.start_lt_stop t ht, ⟨t, ht, rfl⟩, ⟨t, ht, rfl⟩⟩

end Token.Ordered

namespace Span

variable {s p q : Span} {t : Token} {ts us : List Token} {ps qs : List Span}

/-- A span that fits in some tokens fits in more of them. -/
lemma FitsIn.mono (h : s.FitsIn ts) (hts : ts ⊆ us) : s.FitsIn us := by
  obtain ⟨t, ht, hstart⟩ := h.start_mem
  obtain ⟨u, hu, hstop⟩ := h.stop_mem
  exact ⟨h.start_lt_stop, ⟨t, hts ht, hstart⟩, ⟨u, hts hu, hstop⟩⟩

/-- The smallest span that covers two others starts and stops where one of them does. -/
lemma FitsIn.merge (hp : p.FitsIn ts) (hq : q.FitsIn ts) : (p.merge q).FitsIn ts := by
  have hp' := hp.start_lt_stop
  refine ⟨?_, ?_, ?_⟩
  · simp only [Span.merge]
    omega
  · rcases Nat.le_total p.start q.start with h | h
    · simp only [Span.merge, Nat.min_eq_left h]
      exact hp.start_mem
    · simp only [Span.merge, Nat.min_eq_right h]
      exact hq.start_mem
  · rcases Nat.le_total p.stop q.stop with h | h
    · simp only [Span.merge, Nat.max_eq_right h]
      exact hq.stop_mem
    · simp only [Span.merge, Nat.max_eq_left h]
      exact hp.stop_mem

/-- A span in the first part of ordered tokens stands before one in the last part. -/
lemma FitsIn.before (h : Token.Ordered (ts ++ us)) (hp : p.FitsIn ts) (hq : q.FitsIn us) :
    p.Before q := by
  obtain ⟨t, ht, hstop⟩ := hp.stop_mem
  obtain ⟨u, hu, hstart⟩ := hq.start_mem
  have hbefore := h.before ht hu
  unfold Before at hbefore ⊢
  omega

/-- A span lies inside of its merge with another one behind it. -/
lemma inside_merge_left (s t : Span) : s.Inside (s.merge t) := by
  simp only [Inside, merge]
  omega

/-- A span lies inside of its merge with another one before it. -/
lemma inside_merge_right (s t : Span) : t.Inside (s.merge t) := by
  simp only [Inside, merge]
  omega

/-- No spans are arranged in any tokens. -/
lemma arranged_nil : Arranged ts [] := ⟨.nil, fun _ hp => absurd hp List.not_mem_nil⟩

/-- A single span that fits is arranged. -/
lemma arranged_singleton (h : p.FitsIn ts) : Arranged ts [p] :=
  ⟨List.pairwise_singleton _ _, List.forall_mem_singleton.mpr h⟩

/-- Spans that are arranged in some tokens are so in more of them. -/
lemma Arranged.mono (h : Arranged ts ps) (hts : ts ⊆ us) : Arranged us ps :=
  ⟨h.ordered, fun p hp => (h.fitsIn p hp).mono hts⟩

/-- What fits in a first stretch of tokens comes before what fits in a second one. -/
lemma Arranged.append (ho : Token.Ordered (ts ++ us)) (hp : Arranged ts ps)
    (hq : Arranged us qs) : Arranged (ts ++ us) (ps ++ qs) := by
  refine ⟨List.pairwise_append.mpr ⟨hp.ordered, hq.ordered, fun p hmem q hmem' => ?_⟩, ?_⟩
  · exact FitsIn.before ho (hp.fitsIn p hmem) (hq.fitsIn q hmem')
  · exact List.forall_mem_append.mpr
      ⟨fun p hmem => (hp.fitsIn p hmem).mono (List.subset_append_left ts us),
        fun q hmem => (hq.fitsIn q hmem).mono (List.subset_append_right ts us)⟩

end Span

/-! ### Stretches of tokens -/

namespace Token

/-- The span of the last of some tokens, or another one if there are none. -/
def spanAfter (before : Span) : List Token → Span
  | [] => before
  | t :: ts => spanAfter t.span ts

@[simp] lemma spanAfter_nil (before : Span) : spanAfter before [] = before := rfl

@[simp] lemma spanAfter_cons (before : Span) (t : Token) (ts : List Token) :
    spanAfter before (t :: ts) = spanAfter t.span ts := rfl

/-- The last span of two parts is that of the last part, or of the first if the last is empty. -/
@[simp] lemma spanAfter_append (before : Span) (ts us : List Token) :
    spanAfter before (ts ++ us) = spanAfter (spanAfter before ts) us := by
  induction ts generalizing before with
  | nil => rfl
  | cons t ts ih => exact ih t.span

/-- The span from a token to the last of those that follow. -/
def hull (t : Token) (ts : List Token) : Span := t.span.merge (spanAfter t.span ts)

variable {t : Token} {ts : List Token}

/-- The span behind at least one token is that of one of the tokens. -/
lemma exists_mem_spanAfter (t : Token) (ts : List Token) :
    ∃ u ∈ t :: ts, u.span = spanAfter t.span ts := by
  induction ts generalizing t with
  | nil => exact ⟨t, List.mem_cons_self, rfl⟩
  | cons a ts ih =>
    obtain ⟨u, hu, hspan⟩ := ih a
    exact ⟨u, List.mem_cons_of_mem t hu, hspan⟩

/-- No token ends behind the last one. -/
lemma Ordered.stop_le_spanAfter (h : Ordered (t :: ts)) :
    ∀ u ∈ t :: ts, u.span.stop ≤ (spanAfter t.span ts).stop := by
  induction ts generalizing t with
  | nil => exact List.forall_mem_singleton.mpr le_rfl
  | cons a ts ih =>
    have hlast := ih h.tail
    refine List.forall_mem_cons.mpr ⟨?_, hlast⟩
    have hbefore := h.head_before (u := a) List.mem_cons_self
    have ha := h.tail.start_lt_stop a List.mem_cons_self
    have hstop := hlast a List.mem_cons_self
    unfold Span.Before at hbefore
    change t.span.stop ≤ (spanAfter a.span ts).stop
    omega

/-- No token starts before the first one. -/
lemma Ordered.start_le (h : Ordered (t :: ts)) : ∀ u ∈ t :: ts, t.span.start ≤ u.span.start := by
  refine List.forall_mem_cons.mpr ⟨le_rfl, fun u hu => ?_⟩
  have hbefore := h.head_before hu
  have ht := h.start_lt_stop t List.mem_cons_self
  unfold Span.Before at hbefore
  omega

/-- The hull of ordered tokens fits in them. -/
lemma Ordered.fitsIn_hull (h : Ordered (t :: ts)) : (hull t ts).FitsIn (t :: ts) := by
  obtain ⟨u, hu, hspan⟩ := exists_mem_spanAfter t ts
  rw [hull, ← hspan]
  exact (h.fitsIn List.mem_cons_self).merge (h.fitsIn hu)

/-- What fits in the tokens lies between the first and the last of them. -/
lemma Ordered.inside_hull (h : Ordered (t :: ts)) {p : Span} (hp : p.FitsIn (t :: ts)) :
    p.Inside (hull t ts) := by
  obtain ⟨u, hu, hstart⟩ := hp.start_mem
  obtain ⟨v, hv, hstop⟩ := hp.stop_mem
  have hfirst := h.start_le u hu
  have hlast := h.stop_le_spanAfter v hv
  simp only [Span.Inside, hull, Span.merge]
  omega

/-- A span that ends with the tokens is the same up to the last stretch of them. -/
lemma Ordered.merge_hull {u : Token} {us : List Token} (h : Ordered (t :: (ts ++ u :: us))) :
    t.span.merge (hull u us) = hull t (ts ++ u :: us) := by
  have hstart := h.start_le u (List.mem_cons_of_mem t (List.mem_append_right ts List.mem_cons_self))
  have hstop := h.tail.right.stop_le_spanAfter u List.mem_cons_self
  simp only [hull, Span.merge, spanAfter_append, spanAfter_cons, Span.mk.injEq]
  omega

/-- The hull of ordered tokens holds all spans that are arranged in them. -/
lemma Ordered.holds_hull (h : Ordered (t :: ts)) {parts : List Span}
    (hparts : Span.Arranged (t :: ts) parts) : (hull t ts).Holds parts :=
  ⟨hparts.ordered, fun p hp => h.inside_hull (hparts.fitsIn p hp)⟩

/-- Tokens that tile a text are in order, up to the end of the input. -/
lemma Tiles.exists_ordered {offset : Nat} {cs : List Char} {gaps : List (List Char)}
    (h : Tiles offset cs gaps ts) :
    ∃ init last, ts = init ++ [last] ∧ Ordered init ∧ ∀ t ∈ init, offset ≤ t.span.start := by
  induction h with
  | ending hgap =>
    exact ⟨[], _, rfl, ⟨fun t ht => absurd ht List.not_mem_nil, .nil⟩,
      fun t ht => absurd ht List.not_mem_nil⟩
  | @token offset gap after gaps t ts hgap hspan htext hkind h ih =>
    obtain ⟨init, last, rfl, hinit, hfrom⟩ := ih
    obtain ⟨c, text, hchars⟩ : ∃ c text, t.text.toList = c :: text :=
      List.exists_cons_of_ne_nil fun hnil => htext (String.toList_eq_nil_iff.mp hnil)
    obtain ⟨n, hlength, -⟩ := Text.exists_byteLength_cons c text
    rw [hchars, hlength] at hspan hfrom
    refine ⟨t :: init, last, rfl, ⟨List.forall_mem_cons.mpr ⟨?_, hinit.start_lt_stop⟩,
      List.pairwise_cons.mpr ⟨fun u hu => ?_, hinit.pairwise⟩⟩,
      List.forall_mem_cons.mpr ⟨?_, fun u hu => ?_⟩⟩
    · simp only [hspan]
      omega
    · have hu := hfrom u hu
      simp only [Span.Before, hspan]
      omega
    · simp only [hspan]
      omega
    · have hu := hfrom u hu
      omega

/-- The tokens of a text that can be scanned are in order. -/
lemma ordered_tokenize {table : Keyword.Table} {source : String} {span : Span}
    (hsize : source.utf8ByteSize ≤ Span.maxOffset)
    (h : (tokenize table source).ending = .ok span) : Ordered (tokenize table source).tokens := by
  have hall : (tokenize table source).all =
      .ok ((tokenize table source).tokens ++ [.endOfInput span]) := by
    rw [Tokenization.all, h]
    rfl
  have hfits : (Scanner.ofText source).offset + Text.byteLength (Scanner.ofText source).rest ≤
      Span.maxOffset := by
    simpa only [Scanner.ofText, Text.byteLength_toList, Nat.zero_add] using hsize
  obtain ⟨gaps, hgaps⟩ := Scanner.exists_tiles table (Scanner.ofText source) hfits hall
  obtain ⟨init, last, htokens, hinit, -⟩ := hgaps.exists_ordered
  obtain ⟨rfl, -⟩ := List.append_inj' htokens rfl
  exact hinit

end Token

/-! ### Placed trees -/

/-- The spans of the expression fit in the tokens, and operands lie inside of it in order. -/
def Expr.Placed (ts : List Token) : Expr → Prop
  | var _ span | number _ _ span | text _ span | color _ span | bool _ span => span.FitsIn ts
  | negate operand span => operand.Placed ts ∧ span.FitsIn ts ∧ span.Holds [operand.span]
  | binary _ left right span =>
    left.Placed ts ∧ right.Placed ts ∧ span.FitsIn ts ∧ span.Holds [left.span, right.span]
  | selector token => token.span.FitsIn ts

namespace Stmt

/-- The statements of a body, put back into the order of the source. -/
def inSourceOrder (rules children : List Stmt) : List Stmt :=
  (rules ++ children).mergeSort fun s t => s.span.start ≤ t.span.start

/-- The spans of the statement fit in the tokens, and its parts lie inside of it in order.  The
rules and the children of a ruleset are the statements of one body, which is found again when they
are sorted. -/
inductive Placed (ts : List Token) : Stmt → Prop
  | assign {target : Ident} {value : Expr} {isGlobal isDefault : Bool} {span : Span}
    (htarget : target.span.FitsIn ts) (hvalue : value.Placed ts) (hspan : span.FitsIn ts)
    (hparts : span.Holds [target.span, value.span]) :
    Placed ts (.assign target value isGlobal isDefault span)
  | ruleset {header : List Token} {rules children : List Stmt} {span : Span}
    (hheader : ∀ t ∈ header, t.span.FitsIn ts) (hrules : ∀ s ∈ rules, Placed ts s)
    (hchildren : ∀ s ∈ children, Placed ts s) (hspan : span.FitsIn ts)
    (hrest : (inSourceOrder rules children).filter (!·.isRuleset) = rules)
    (hnested : (inSourceOrder rules children).filter (·.isRuleset) = children)
    (hparts : span.Holds
      (header.map Token.span ++ (inSourceOrder rules children).map Stmt.span)) :
    Placed ts (.ruleset header rules children span)
  | declare {property : Token} {values : List Expr} {important : Bool} {span : Span}
    (hproperty : property.span.FitsIn ts) (hvalues : ∀ e ∈ values, e.Placed ts)
    (hspan : span.FitsIn ts) (hparts : span.Holds (property.span :: values.map Expr.span)) :
    Placed ts (.declare property values important span)
  | mixin {name : String} {params : List Ident} {body : Block Stmt} {span : Span}
    (hparams : ∀ i ∈ params, i.span.FitsIn ts) (hbody : ∀ s ∈ body.statements, Placed ts s)
    (hblock : body.span.FitsIn ts) (hstatements : body.span.Holds (body.statements.map Stmt.span))
    (hspan : span.FitsIn ts) (hparts : span.Holds (params.map Ident.span ++ [body.span])) :
    Placed ts (.mixin name params body span)
  | expand {name : String} {args : List Expr} {span : Span} (hargs : ∀ e ∈ args, e.Placed ts)
    (hspan : span.FitsIn ts) (hparts : span.Holds (args.map Expr.span)) :
    Placed ts (.expand name args span)
  | importFile {path : String} {span : Span} (hspan : span.FitsIn ts) :
    Placed ts (.importFile path span)
  | extend {target : List Token} {span : Span} (htarget : ∀ t ∈ target, t.span.FitsIn ts)
    (hspan : span.FitsIn ts) (hparts : span.Holds (target.map Token.span)) :
    Placed ts (.extend target span)
  | branch {condition : Expr} {yes : Block Stmt} {no : Option (Block Stmt)} {span : Span}
    (hcondition : condition.Placed ts) (hyes : ∀ s ∈ yes.statements, Placed ts s)
    (hblock : yes.span.FitsIn ts) (hstatements : yes.span.Holds (yes.statements.map Stmt.span))
    (hno : ∀ b ∈ no, ∀ s ∈ b.statements, Placed ts s) (hblocks : ∀ b ∈ no, b.span.FitsIn ts)
    (hothers : ∀ b ∈ no, b.span.Holds (b.statements.map Stmt.span)) (hspan : span.FitsIn ts)
    (hparts : span.Holds ([condition.span, yes.span] ++ no.toList.map Block.span)) :
    Placed ts (.branch condition yes no span)
  | expr {value : Expr} (hvalue : value.Placed ts) : Placed ts (.expr value)

end Stmt

/-- The block fits in the tokens, and its statements lie inside of it in order. -/
structure Block.Placed (ts : List Token) (b : Block Stmt) : Prop where
  fitsIn : b.span.FitsIn ts
  placed : ∀ s ∈ b.statements, s.Placed ts
  holds : b.span.Holds (b.statements.map Stmt.span)

variable {ts us : List Token}

/-- A placed expression fits in its tokens. -/
lemma Expr.Placed.fitsIn {e : Expr} (h : e.Placed ts) : e.span.FitsIn ts := by
  cases e with
  | negate => exact h.2.1
  | binary => exact h.2.2.1
  | _ => exact h

/-- An expression that is placed in some tokens is so in more of them. -/
lemma Expr.Placed.mono {e : Expr} (h : e.Placed ts) (hts : ts ⊆ us) : e.Placed us := by
  induction e with
  | negate operand span ih => exact ⟨ih h.1, h.2.1.mono hts, h.2.2⟩
  | binary op left right span ihleft ihright =>
    exact ⟨ihleft h.1, ihright h.2.1, h.2.2.1.mono hts, h.2.2.2⟩
  | _ => exact Span.FitsIn.mono h hts

namespace Stmt

/-- A placed statement fits in its tokens. -/
lemma Placed.fitsIn {s : Stmt} (h : s.Placed ts) : s.span.FitsIn ts := by
  cases h with
  | expr hvalue => exact hvalue.fitsIn
  | _ => assumption

/-- A statement that is placed in some tokens is so in more of them. -/
lemma Placed.mono {s : Stmt} (h : s.Placed ts) (hts : ts ⊆ us) : s.Placed us := by
  induction h with
  | assign htarget hvalue hspan hparts =>
    exact .assign (htarget.mono hts) (hvalue.mono hts) (hspan.mono hts) hparts
  | ruleset hheader _ _ hspan hrest hnested hparts ihrules ihchildren =>
    exact .ruleset (fun t ht => (hheader t ht).mono hts) ihrules ihchildren (hspan.mono hts) hrest
      hnested hparts
  | declare hproperty hvalues hspan hparts =>
    exact .declare (hproperty.mono hts) (fun e he => (hvalues e he).mono hts) (hspan.mono hts)
      hparts
  | mixin hparams _ hblock hstatements hspan hparts ihbody =>
    exact .mixin (fun i hi => (hparams i hi).mono hts) ihbody (hblock.mono hts) hstatements
      (hspan.mono hts) hparts
  | expand hargs hspan hparts =>
    exact .expand (fun e he => (hargs e he).mono hts) (hspan.mono hts) hparts
  | importFile hspan => exact .importFile (hspan.mono hts)
  | extend htarget hspan hparts =>
    exact .extend (fun t ht => (htarget t ht).mono hts) (hspan.mono hts) hparts
  | branch hcondition _ hblock hstatements _ hblocks hothers hspan hparts ihyes ihno =>
    exact .branch (hcondition.mono hts) ihyes (hblock.mono hts) hstatements ihno
      (fun b hb => (hblocks b hb).mono hts) hothers (hspan.mono hts) hparts
  | expr hvalue => exact .expr (hvalue.mono hts)

/-- Statements that stand one after another are found again from those that are rulesets and those
that are not. -/
lemma inSourceOrder_filter {body : List Stmt} (hbody : ∀ s ∈ body, s.Placed ts)
    (hordered : (body.map Stmt.span).Pairwise Span.Before) :
    inSourceOrder (body.filter (!·.isRuleset)) (body.filter (·.isRuleset)) = body := by
  have hsorted : body.Pairwise fun s t => s.span.start < t.span.start := by
    refine (List.pairwise_map.mp hordered).imp_of_mem fun {s t} hs _ hst => ?_
    have hne := (hbody s hs).fitsIn.start_lt_stop
    unfold Span.Before at hst
    omega
  have hnodup : (body.map (·.span.start)).Nodup := List.pairwise_map.mpr (hsorted.imp Nat.ne_of_lt)
  have hperm : (inSourceOrder (body.filter (!·.isRuleset)) (body.filter (·.isRuleset))).Perm body :=
    (List.mergeSort_perm _ _).trans
      (List.perm_append_comm.trans (List.filter_append_perm (·.isRuleset) body))
  have hsort : (inSourceOrder (body.filter (!·.isRuleset)) (body.filter (·.isRuleset))).Pairwise
      fun s t => decide (s.span.start ≤ t.span.start) = true := by
    refine List.pairwise_mergeSort (fun s t u hst htu => ?_) (fun s t => ?_) _
    · simp only [decide_eq_true_eq] at hst htu ⊢
      omega
    · simp only [Bool.or_eq_true, decide_eq_true_eq]
      omega
  have hle : body.Pairwise fun s t => decide (s.span.start ≤ t.span.start) = true :=
    hsorted.imp fun hst => decide_eq_true (Nat.le_of_lt hst)
  refine hperm.eq_of_pairwise (fun s t hs ht hst hts => ?_) hsort hle
  have hstart := Nat.le_antisymm (of_decide_eq_true hst) (of_decide_eq_true hts)
  exact List.inj_on_of_nodup_map hnodup (hperm.mem_iff.mp hs) ht hstart

end Stmt

/-- A block that is placed in some tokens is so in more of them. -/
lemma Block.Placed.mono {b : Block Stmt} (h : b.Placed ts) (hts : ts ⊆ us) : b.Placed us :=
  ⟨h.fitsIn.mono hts, fun s hs => (h.placed s hs).mono hts, h.holds⟩

end StyleSheet
