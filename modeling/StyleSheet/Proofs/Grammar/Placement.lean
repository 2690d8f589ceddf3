import Mathlib
import StyleSheet.Proofs.Grammar.Streaming
import StyleSheet.Proofs.Spans.Placement

/-!
# Trees are placed on the tokens they are read from

A place is the list of the tokens that have been taken up to there, so what is read between two
places stands on the tokens that the second has more than the first (`On`).  One stretch follows
another, and the argument is put together along the grammar (`placedTrees`).  The span of a
statement runs from its first token to the one read last, and this covers all that was read in
between.

Whether a semicolon or a comma stands between two items does not matter, so lists of items are
treated alike: the items stand on the tokens in turn, with tokens between them that belong to none
(`InTurn`).
-/

namespace StyleSheet.Sheet

open Token (Ordered spanAfter hull)

/-! ### Items in turn -/

section Turns

variable {α : Type} {item : List Token → α → Prop} {ts : List Token} {as : List α}

/-- Items that stand on the tokens in turn; tokens between them belong to none. -/
inductive InTurn (item : List Token → α → Prop) : List Token → List α → Prop
  | nil {ts : List Token} : InTurn item ts []
  | cons {us vs : List Token} {a : α} {as : List α} (first : item us a)
    (others : InTurn item vs as) : InTurn item (us ++ vs) (a :: as)
  | skip {us vs : List Token} {as : List α} (others : InTurn item vs as) :
    InTurn item (us ++ vs) as

/-- A single item stands on all of the tokens. -/
lemma InTurn.single {a : α} (h : item ts a) : InTurn item ts [a] := by
  simpa using InTurn.cons h (InTurn.nil : InTurn item [] [])

/-- Items on two stretches of tokens stand on both together. -/
lemma InTurn.append {us : List Token} {bs : List α} (h : InTurn item ts as)
    (h' : InTurn item us bs) : InTurn item (ts ++ us) (as ++ bs) := by
  induction h with
  | nil => exact .skip h'
  | cons first others ih =>
    rw [List.append_assoc]
    exact .cons first ih
  | skip others ih =>
    rw [List.append_assoc]
    exact .skip ih

/-- More tokens may follow. -/
lemma InTurn.append_right (h : InTurn item ts as) (us : List Token) :
    InTurn item (ts ++ us) as := by
  simpa using h.append (InTurn.nil : InTurn item us [])

/-- One more token may stand in front. -/
lemma InTurn.behind (t : Token) (h : InTurn item ts as) : InTurn item (t :: ts) as :=
  @InTurn.skip α item [t] ts as h

/-- What is made of the items stands where they do. -/
lemma InTurn.map {β : Type} {item' : List Token → β → Prop} {f : α → β}
    (hitem : ∀ us a, item us a → item' us (f a)) (h : InTurn item ts as) :
    InTurn item' ts (as.map f) := by
  induction h with
  | nil => exact .nil
  | cons first others ih => exact .cons (hitem _ _ first) ih
  | skip others ih => exact .skip ih

/-- What holds of each item on its own tokens holds on all of them. -/
lemma InTurn.forall_mem {P : List Token → α → Prop}
    (hmono : ∀ us vs a, us ⊆ vs → P us a → P vs a)
    (h : InTurn (fun us a => Ordered us → P us a) ts as) (ho : Ordered ts) : ∀ a ∈ as, P ts a := by
  induction h with
  | nil => exact fun a ha => absurd ha List.not_mem_nil
  | @cons us vs a as first others ih =>
    refine List.forall_mem_cons.mpr ⟨?_, fun b hb => ?_⟩
    · exact hmono us _ a (List.subset_append_left us vs) (first ho.left)
    · exact hmono vs _ b (List.subset_append_right us vs) (ih ho.right b hb)
  | @skip us vs as others ih =>
    exact fun b hb => hmono vs _ b (List.subset_append_right us vs) (ih ho.right b hb)

/-- The span fits in the tokens, if they are in order. -/
def SpanOn (ts : List Token) (s : Span) : Prop := Ordered ts → s.FitsIn ts

/-- A token is where it is. -/
lemma spanOn_token (t : Token) : SpanOn [t] t.span := fun ho => ho.fitsIn List.mem_cons_self

/-- Spans that fit in their own tokens are in order. -/
lemma InTurn.arranged {parts : List Span} (h : InTurn SpanOn ts parts) (ho : Ordered ts) :
    Span.Arranged ts parts := by
  induction h with
  | nil => exact Span.arranged_nil
  | cons first others ih =>
    exact Span.Arranged.append ho (Span.arranged_singleton (first ho.left)) (ih ho.right)
  | skip others ih => exact (ih ho.right).mono (List.subset_append_right _ _)

end Turns

/-! ### Expressions -/

/-- The expression is placed on the tokens, if they are in order. -/
def ExprOn (ts : List Token) (e : Expr) : Prop := Ordered ts → e.Placed ts

section Expressions

variable {t : Token} {ts us : List Token}

/-- An expression of one token has the span of the token. -/
lemma exprOn_atom {e : Expr} (h : atom? t = some e) : ExprOn [t] e := by
  intro ho
  have ht := ho.fitsIn (t := t) List.mem_cons_self
  unfold atom? at h
  split at h
  case h_2 =>
    obtain ⟨n, -, rfl⟩ := Option.map_eq_some_iff.mp h
    exact ht
  case h_7 =>
    obtain ⟨-, hselector⟩ := Option.ite_none_right_eq_some.mp h
    cases hselector
    exact ht
  all_goals
    cases h
    exact ht

/-- A sign stands before what it negates. -/
lemma exprOn_negate {operand : Expr} (h : ExprOn ts operand) :
    ExprOn (t :: ts) (.negate operand (t.span.merge operand.span)) := by
  intro ho
  have hoperand := (h ho.tail).mono (List.subset_cons_self t ts)
  refine ⟨hoperand, (ho.fitsIn List.mem_cons_self).merge hoperand.fitsIn, ?_⟩
  exact ⟨List.pairwise_singleton _ _, List.forall_mem_singleton.mpr (Span.inside_merge_right _ _)⟩

/-- The operator stands on a token between the operands. -/
lemma exprOn_binary (op : Operator) (sign : Token) {left right : Expr}
    (hleft : ExprOn ts left) (hright : ExprOn us right) :
    ExprOn (ts ++ sign :: us) (.binary op left right (left.span.merge right.span)) := by
  intro ho
  have hleft := hleft ho.left
  have hright := (hright ho.right.tail).mono (List.subset_cons_self sign us)
  have hbefore := Span.FitsIn.before ho hleft.fitsIn hright.fitsIn
  have hleft := hleft.mono (List.subset_append_left ts (sign :: us))
  have hright := hright.mono (List.subset_append_right ts (sign :: us))
  refine ⟨hleft, hright, hleft.fitsIn.merge hright.fitsIn, ?_, ?_⟩
  · exact List.pairwise_pair.mpr hbefore
  · exact List.forall_mem_cons.mpr ⟨Span.inside_merge_left _ _,
      List.forall_mem_singleton.mpr (Span.inside_merge_right _ _)⟩

/-- More tokens may stand on both sides of an expression. -/
lemma ExprOn.between {e : Expr} (h : ExprOn ts e) (before after : List Token) :
    ExprOn (before ++ (ts ++ after)) e := fun ho =>
  (h ho.right.left).mono fun _ hu => List.mem_append_right _ (List.mem_append_left _ hu)

/-- An expression covers what it is placed on. -/
lemma ExprOn.spanOn {e : Expr} (h : ExprOn ts e) : SpanOn ts e.span :=
  fun ho => (h ho).fitsIn

/-- Expressions that stand in turn are placed on all the tokens. -/
lemma InTurn.placed_expr {es : List Expr} (h : InTurn ExprOn ts es) (ho : Ordered ts) :
    ∀ e ∈ es, e.Placed ts :=
  InTurn.forall_mem (fun _ _ _ hsub he => Expr.Placed.mono he hsub) h ho

end Expressions

/-! ### Statements -/

/-- The statement is placed on the tokens, if they are in order. -/
def StmtOn (ts : List Token) (s : Stmt) : Prop := Ordered ts → s.Placed ts

/-- The block is placed on the tokens, if they are in order. -/
def BlockOn (ts : List Token) (b : Block Stmt) : Prop := Ordered ts → b.Placed ts

/-- The tokens are those of a block, from its opening brace to the last one. -/
def BlockHull (ts : List Token) (b : Block Stmt) : Prop :=
  ∃ opener is, ts = opener :: is ∧ b.span = hull opener is ∧ BlockOn ts b

/-- The token is the only one. -/
def IsOnly (ts : List Token) (t : Token) : Prop := ts = [t]

/-- The name stands on the tokens, if they are in order. -/
def IdentOn (ts : List Token) (ident : Ident) : Prop := SpanOn ts ident.span

section Statements

variable {t : Token} {ts us : List Token}

/-- A statement covers what it is placed on. -/
lemma StmtOn.spanOn {s : Stmt} (h : StmtOn ts s) : SpanOn ts s.span := fun ho => (h ho).fitsIn

/-- A block covers what it is placed on. -/
lemma BlockOn.spanOn {b : Block Stmt} (h : BlockOn ts b) : SpanOn ts b.span :=
  fun ho => (h ho).fitsIn

/-- More tokens may stand in front of a block. -/
lemma BlockOn.append_left {b : Block Stmt} (h : BlockOn ts b) (us : List Token) :
    BlockOn (us ++ ts) b :=
  fun ho => (h ho.right).mono (List.subset_append_right us ts)

/-- More tokens may follow a block. -/
lemma BlockOn.append_right {b : Block Stmt} (h : BlockOn ts b) (us : List Token) :
    BlockOn (ts ++ us) b :=
  fun ho => (h ho.left).mono (List.subset_append_left ts us)

/-- A condition that follows is a block of its own, with the span of the condition. -/
lemma StmtOn.blockOn {s : Stmt} (h : StmtOn ts s) : BlockOn ts ⟨[s], s.span⟩ := fun ho =>
  ⟨(h ho).fitsIn, List.forall_mem_singleton.mpr (h ho),
    ⟨List.pairwise_singleton _ _, List.forall_mem_singleton.mpr ⟨le_rfl, le_rfl⟩⟩⟩

/-- More tokens may follow a statement. -/
lemma StmtOn.append_right {s : Stmt} (h : StmtOn ts s) (us : List Token) : StmtOn (ts ++ us) s :=
  fun ho => (h ho.left).mono (List.subset_append_left ts us)

/-- Statements that stand in turn are placed on all the tokens. -/
lemma InTurn.placed_stmt {body : List Stmt} (h : InTurn StmtOn ts body) (ho : Ordered ts) :
    ∀ s ∈ body, s.Placed ts :=
  InTurn.forall_mem (fun _ _ _ hsub hs => Stmt.Placed.mono hs hsub) h ho

/-- A parameter stands on its token. -/
lemma identOn_token {ident : Ident} (h : IsParameter t ident) : IdentOn [t] ident := by
  obtain ⟨-, rfl⟩ := h
  exact spanOn_token t

/-- A token is the only one on a stretch of one. -/
lemma IsOnly.of_eq {u : Token} (h : u = t) : IsOnly [t] u := congrArg (fun v => [v]) h.symm

/-- A token covers itself. -/
lemma IsOnly.spanOn (h : IsOnly ts t) : SpanOn ts t.span := by
  subst h
  exact spanOn_token t

/-- The target of an assignment is its first token, and the value follows. -/
lemma stmtOn_assign (name : Token) {value : Expr} (isGlobal isDefault : Bool)
    (hvalue : InTurn ExprOn ts [value]) :
    StmtOn (name :: ts) (.assign ⟨name.text, name.span⟩ value isGlobal isDefault
      (hull name ts)) := by
  intro ho
  have hparts : InTurn SpanOn ([name] ++ ts) [name.span, value.span] :=
    .cons (spanOn_token name) (hvalue.map fun _ _ he => he.spanOn)
  exact .assign (ho.fitsIn List.mem_cons_self)
    ((hvalue.behind name).placed_expr ho value List.mem_cons_self) ho.fitsIn_hull
    (ho.holds_hull (hparts.arranged ho))

/-- The property is the first token of a declaration, and the values follow. -/
lemma stmtOn_declare (property : Token) {values : List Expr} (important : Bool)
    (hvalues : InTurn ExprOn ts values) :
    StmtOn (property :: ts) (.declare property values important (hull property ts)) := by
  intro ho
  have hparts : InTurn SpanOn ([property] ++ ts) (property.span :: values.map Expr.span) :=
    .cons (spanOn_token property) (hvalues.map fun _ _ he => he.spanOn)
  exact .declare (ho.fitsIn List.mem_cons_self) ((hvalues.behind property).placed_expr ho)
    ho.fitsIn_hull (ho.holds_hull (hparts.arranged ho))

/-- The arguments stand behind the name of a mixin. -/
lemma stmtOn_expand (start : Token) (name : String) {args : List Expr}
    (hargs : InTurn ExprOn ts args) :
    StmtOn (start :: ts) (.expand name args (hull start ts)) := by
  intro ho
  have hvalues := hargs.behind start
  exact .expand (hvalues.placed_expr ho) ho.fitsIn_hull
    (ho.holds_hull ((hvalues.map fun _ _ he => he.spanOn).arranged ho))

/-- The target stands behind the keyword. -/
lemma stmtOn_extend (start : Token) {target : List Token} (htarget : InTurn IsOnly ts target) :
    StmtOn (start :: ts) (.extend target (hull start ts)) := by
  intro ho
  have hspans : InTurn SpanOn (start :: ts) (target.map Token.span) :=
    (htarget.map fun _ _ ht => ht.spanOn).behind start
  exact .extend (List.forall_mem_map.mp (hspans.arranged ho).fitsIn) ho.fitsIn_hull
    (ho.holds_hull (hspans.arranged ho))

/-- A block runs from its opening brace to the last of its tokens. -/
lemma blockHull_of_inTurn (opener : Token) {body : List Stmt} (hbody : InTurn StmtOn ts body) :
    BlockHull (opener :: ts) ⟨body, hull opener ts⟩ := by
  refine ⟨opener, ts, rfl, rfl, fun ho => ?_⟩
  have hstatements := hbody.behind opener
  exact ⟨ho.fitsIn_hull, hstatements.placed_stmt ho,
    ho.holds_hull ((hstatements.map fun _ _ hs => hs.spanOn).arranged ho)⟩

/-- The parameters of a mixin stand before its body, and it ends with the body. -/
lemma stmtOn_mixin (start : Token) (name : String) {params : List Ident} {body : Block Stmt}
    (hparams : InTurn IdentOn ts params) (hbody : BlockHull us body) :
    StmtOn (start :: (ts ++ us)) (.mixin name params body (start.span.merge body.span)) := by
  obtain ⟨opener, is, rfl, hspan, hbody⟩ := hbody
  intro ho
  have hidents : InTurn SpanOn ts (params.map Ident.span) := hparams.map fun _ _ hi => hi
  have hparts : InTurn SpanOn (start :: (ts ++ opener :: is))
      (params.map Ident.span ++ [body.span]) :=
    (hidents.append (.single hbody.spanOn)).behind start
  have hplaced := hbody.append_left (start :: ts) ho
  have harranged := hparts.arranged ho
  rw [hspan, ho.merge_hull]
  exact .mixin (List.forall_mem_map.mp (List.forall_mem_append.mp harranged.fitsIn).1)
    hplaced.placed hplaced.fitsIn hplaced.holds ho.fitsIn_hull (ho.holds_hull harranged)

/-- The condition, the block and what is done otherwise follow each other. -/
lemma stmtOn_branch (start : Token) {vs : List Token} {condition : Expr} {yes : Block Stmt}
    {no : Option (Block Stmt)} (hcondition : ExprOn ts condition) (hyes : BlockOn us yes)
    (hno : ∀ b ∈ no, BlockOn vs b) :
    StmtOn (start :: (ts ++ (us ++ vs)))
      (.branch condition yes no (hull start (ts ++ (us ++ vs)))) := by
  intro ho
  have hothers : InTurn SpanOn vs (no.toList.map Block.span) := by
    cases no with
    | none => exact .nil
    | some b => exact .single (hno b rfl).spanOn
  have hparts : InTurn SpanOn (start :: (ts ++ (us ++ vs)))
      ([condition.span, yes.span] ++ no.toList.map Block.span) :=
    InTurn.behind start (.cons hcondition.spanOn (.cons hyes.spanOn hothers))
  have hyes := (hyes.append_right vs).append_left (start :: ts) ho
  have hno : ∀ b ∈ no, b.Placed (start :: (ts ++ (us ++ vs))) := fun b hb =>
    ((hno b hb).append_left us).append_left (start :: ts) ho
  exact .branch (hcondition.between [start] (us ++ vs) ho) hyes.placed hyes.fitsIn
    hyes.holds (fun b hb => (hno b hb).placed) (fun b hb => (hno b hb).fitsIn)
    (fun b hb => (hno b hb).holds) ho.fitsIn_hull (ho.holds_hull (hparts.arranged ho))

/-- The rules and the children of a ruleset come from one body behind the header. -/
lemma stmtOn_ruleset (first : Token) {header : List Token} {body : Block Stmt}
    (hheader : InTurn IsOnly ts header) (hbody : BlockOn us body) :
    StmtOn (first :: (ts ++ us))
      (.ruleset (first :: header) (body.statements.filter (!·.isRuleset))
        (body.statements.filter (·.isRuleset)) (hull first (ts ++ us))) := by
  intro ho
  have hplaced := hbody ho.tail.right
  have horder := Stmt.inSourceOrder_filter hplaced.placed hplaced.holds.ordered
  have hspans : InTurn SpanOn ([first] ++ ts) ((first :: header).map Token.span) :=
    .cons (spanOn_token first) (hheader.map fun _ _ ht => ht.spanOn)
  have hbodies : Span.Arranged us (body.statements.map Stmt.span) :=
    ⟨hplaced.holds.ordered, List.forall_mem_map.mpr fun s hs => (hplaced.placed s hs).fitsIn⟩
  have ho' : Ordered (([first] ++ ts) ++ us) := ho
  have hparts : Span.Arranged (first :: (ts ++ us))
      ((first :: header).map Token.span ++ body.statements.map Stmt.span) :=
    (hspans.arranged ho'.left).append ho' hbodies
  have hstatements : ∀ s ∈ body.statements, s.Placed (first :: (ts ++ us)) := fun s hs =>
    (hplaced.placed s hs).mono (List.subset_append_right ([first] ++ ts) us)
  refine .ruleset ?_ (fun s hs => hstatements s (List.mem_of_mem_filter hs))
    (fun s hs => hstatements s (List.mem_of_mem_filter hs)) ho.fitsIn_hull ?_ ?_ ?_
  · exact List.forall_mem_map.mp (List.forall_mem_append.mp hparts.fitsIn).1
  · rw [horder]
  · rw [horder]
  · rw [horder]
    exact ho.holds_hull hparts

end Statements

/-! ### Stretches between places -/

/-- Places are the tokens up to there, and each token is one place. -/
def takenTrack (before : Span) : Track (List Token) :=
  .single (fun _ _ => True) (fun used t => used ++ [t])
    (fun used span => span = spanAfter before used)

@[simp] lemma takenTrack_next (before : Span) (i : List Token) (t : Token) :
    (takenTrack before).next i t = i ++ [t] := rfl

/-- What is read between two places is good for the tokens between them. -/
def On {α β : Type} (item : List Token → α → Prop) (i j : List Token) (a : α) (_ : β) : Prop :=
  ∃ us, j = i ++ us ∧ item us a

section Stretches

variable {α β : Type} {before : Span} {item : List Token → α → Prop} {i j : List Token}
  {rel : List Token → List Token → α → β → Prop} {as : List α} {bs : List β}

/-- One token and what is made of it. -/
lemma on_of_one (item : List Token → α → Prop) {made : Token → α → Prop}
    (hmade : ∀ t a, made t a → item [t] a) {a b : α} (h : (takenTrack before).One made i j a b) :
    On item i j a b := by
  obtain ⟨-, ha, -⟩ := h
  exact ⟨_, rfl, hmade _ _ ha⟩

/-- Items one after another stand in turn. -/
lemma on_of_many (hrel : ∀ {i j a b}, rel i j a b → On item i j a b)
    (h : Track.Many rel i j as bs) : On (InTurn item) i j as bs := by
  induction h with
  | nil => exact ⟨[], (List.append_nil _).symm, .nil⟩
  | cons first _ ih =>
    obtain ⟨us, rfl, hfirst⟩ := hrel first
    obtain ⟨vs, rfl, hothers⟩ := ih
    exact ⟨us ++ vs, List.append_assoc _ _ _, .cons hfirst hothers⟩

/-- Items with commas between them stand in turn. -/
lemma on_of_separated (hrel : ∀ {i j a b}, rel i j a b → On item i j a b)
    (h : (takenTrack before).Separated rel i j as bs) : On (InTurn item) i j as bs := by
  induction h with
  | nil => exact ⟨[], (List.append_nil _).symm, .nil⟩
  | last only =>
    obtain ⟨us, rfl, honly⟩ := hrel only
    exact ⟨us, rfl, .single honly⟩
  | @cons _ _ _ _ _ _ _ comma _ first _ _ _ ih =>
    obtain ⟨us, rfl, hfirst⟩ := hrel first
    obtain ⟨vs, rfl, hothers⟩ := ih
    refine ⟨us ++ ([comma] ++ vs), ?_, .cons hfirst (.skip hothers)⟩
    simp

/-- Items between parentheses stand in turn. -/
lemma on_of_parenthesized (hrel : ∀ {i j a b}, rel i j a b → On item i j a b)
    (h : (takenTrack before).Parenthesized rel i j as bs) : On (InTurn item) i j as bs := by
  cases h with
  | absent => exact ⟨[], (List.append_nil _).symm, .nil⟩
  | @present _ _ _ opener _ closer _ _ _ items =>
    obtain ⟨us, rfl, hitems⟩ := on_of_separated hrel items
    refine ⟨[opener] ++ (us ++ [closer]), ?_, .skip (hitems.append_right _)⟩
    simp

/-- The end of a statement is a stretch. -/
lemma exists_of_end (h : (takenTrack before).End i j) : ∃ us, j = i ++ us := by
  cases h with
  | semicolon => exact ⟨_, rfl⟩
  | absent => exact ⟨[], (List.append_nil _).symm⟩

/-- A token that can be left out is a stretch. -/
lemma exists_of_marked {kind : Token.Kind} {marked : Bool}
    (h : (takenTrack before).Marked kind i j marked) : ∃ us, j = i ++ us := by
  cases h with
  | absent => exact ⟨[], (List.append_nil _).symm⟩
  | present => exact ⟨_, rfl⟩

variable {stmt : List Token → List Token → Stmt → Stmt → Prop}
  (hstmt : ∀ {i j s s'}, stmt i j s s' → On StmtOn i j s s')

include hstmt

/-- Statements stand in turn. -/
lemma on_of_statements {body body' : List Stmt}
    (h : (takenTrack before).Statements stmt i j body body') :
    On (InTurn StmtOn) i j body body' := by
  induction h with
  | nil => exact ⟨[], (List.append_nil _).symm, .nil⟩
  | @semicolon _ _ t _ _ _ _ _ _ ih =>
    obtain ⟨us, rfl, hothers⟩ := ih
    exact ⟨[t] ++ us, List.append_assoc _ _ _, .skip hothers⟩
  | cons first _ ih =>
    obtain ⟨us, rfl, hfirst⟩ := hstmt first
    obtain ⟨vs, rfl, hothers⟩ := ih
    exact ⟨us ++ vs, List.append_assoc _ _ _, .cons hfirst hothers⟩

/-- Statements between braces are a block. -/
lemma on_of_braced {body body' : Block Stmt} (h : (takenTrack before).Braced stmt i j body body') :
    On BlockHull i j body body' := by
  obtain ⟨-, -, hbody, hlast⟩ := h
  obtain ⟨hinside, -, -⟩ := hbody
  obtain ⟨us, rfl, hstatements⟩ := on_of_statements hstmt hinside
  rename_i opener _ _ _ closer _
  obtain ⟨-, hlast⟩ := hlast
  refine ⟨opener :: (us ++ [closer]), by simp, ?_⟩
  have hblock := blockHull_of_inTurn opener (hstatements.append_right [closer])
  rw [hlast]
  simpa [hull, takenTrack, Track.single] using hblock

/-- What follows a block of `@if` is a block. -/
lemma on_of_otherwise {no no' : Option (Block Stmt)}
    (h : (takenTrack before).Otherwise stmt i j no no') :
    On (fun us no => ∀ b ∈ no, BlockOn us b) i j no no' := by
  cases h with
  | absent => exact ⟨[], (List.append_nil _).symm, nofun⟩
  | @block _ t _ _ _ _ _ hblock =>
    obtain ⟨us, rfl, -, -, -, -, hbody⟩ := on_of_braced hstmt hblock
    refine ⟨[t] ++ us, List.append_assoc _ _ _, ?_⟩
    rintro _ ⟨⟩
    exact hbody.append_left [t]
  | @chained _ t _ _ _ _ _ _ _ _ _ hnext =>
    obtain ⟨us, rfl, hon⟩ := hstmt hnext
    refine ⟨[t] ++ us, List.append_assoc _ _ _, ?_⟩
    rintro _ ⟨⟩
    exact hon.blockOn.append_left [t]

end Stretches

/-- A statement runs from its first token to the one read last; tokens that end it may follow. -/
lemma on_of_hull {before last last' : Span} {i l m : List Token} {t : Token} {ts : List Token}
    (make : Span → Stmt) (h : StmtOn (t :: ts) (make (hull t ts))) (hl : l = i ++ t :: ts)
    (hlast : (takenTrack before).Last l last last') (hm : ∃ es, m = l ++ es) (s : Stmt) :
    On StmtOn i m (make (t.span.merge last)) s := by
  obtain ⟨-, hlast⟩ := hlast
  obtain ⟨es, rfl⟩ := hm
  subst hl
  refine ⟨t :: (ts ++ es), by simp, ?_⟩
  rw [show last = spanAfter before (i ++ t :: ts) from hlast, Token.spanAfter_append,
    Token.spanAfter_cons]
  exact h.append_right es

/-- Trees are placed on the tokens between two places. -/
def placedTrees (before : Span) : (takenTrack before).Trees where
  Operand := On ExprOn
  Value := On ExprOn
  Statement := On StmtOn
  atom _ he _ := ⟨_, rfl, exprOn_atom he⟩
  negate := by
    rintro i j t _ e _ - - ⟨us, rfl, he⟩
    exact ⟨t :: us, List.append_assoc _ _ _, exprOn_negate he⟩
  enclosed := by
    rintro i j o _ c _ e _ - - ⟨us, rfl, he⟩ - -
    exact ⟨[o] ++ (us ++ [c]), by simp, he.between [o] [c]⟩
  operand h := h
  binary := by
    rintro i j l t _ op e _ r _ ⟨us, rfl, he⟩ - - ⟨vs, rfl, hr⟩
    exact ⟨us ++ t :: vs, by simp, exprOn_binary op t he hr⟩
  assign := by
    rintro i j l m name _ colon _ e _ flags last _ - - - - ⟨vs, rfl, he⟩ hflags hlast hend
    obtain ⟨fs, rfl, -⟩ := on_of_many (on_of_one (fun _ _ => True) fun _ _ _ => trivial) hflags
    have hvalue : InTurn ExprOn ([colon] ++ (vs ++ fs)) [e] := .skip (.cons he .nil)
    exact on_of_hull (.assign _ _ _ _) (stmtOn_assign name _ _ hvalue) (by simp) hlast
      (exists_of_end hend) _
  declare := by
    rintro i j l m n property _ colon _ e _ es _ important last _ - - - - ⟨vs, rfl, he⟩ hes
      hmarked hlast hend
    obtain ⟨ws, rfl, hothers⟩ := on_of_many id hes
    obtain ⟨is, rfl⟩ := exists_of_marked hmarked
    have hvalues : InTurn ExprOn ([colon] ++ (vs ++ (ws ++ is))) (e :: es) :=
      .skip (.cons he (hothers.append_right is))
    exact on_of_hull (.declare _ _ _) (stmtOn_declare property _ hvalues) (by simp) hlast
      (exists_of_end hend) _
  importFile := by
    rintro i j start _ path _ - - - - hend
    have hcore : StmtOn [start, path] (.importFile (unquoted path.text) (hull start [path])) :=
      fun ho => .importFile ho.fitsIn_hull
    have hlast : (takenTrack before).Last (i ++ [start, path]) path.span path.span := ⟨rfl, by simp⟩
    exact on_of_hull (.importFile _) hcore rfl hlast (by simpa using exists_of_end hend) _
  mixin := by
    rintro i j l m start _ name _ params _ body _ - - hname hparams hbody
    obtain ⟨ns, rfl, -⟩ := on_of_one (fun _ _ => True) (fun _ _ _ => trivial) hname
    obtain ⟨ps, rfl, hps⟩ :=
      on_of_parenthesized (on_of_one IdentOn fun _ _ => identOn_token) hparams
    obtain ⟨us, rfl, hblock⟩ := on_of_braced id hbody
    have hnamed : InTurn IdentOn (ns ++ ps) params := .skip hps
    exact ⟨start :: ((ns ++ ps) ++ us), by simp, stmtOn_mixin start name hnamed hblock⟩
  expand := by
    rintro i j l m start _ name _ args _ last _ - - hname hargs hlast hend
    obtain ⟨ns, rfl, -⟩ := on_of_one (fun _ _ => True) (fun _ _ _ => trivial) hname
    obtain ⟨ps, rfl, hps⟩ := on_of_parenthesized id hargs
    have hnamed : InTurn ExprOn (ns ++ ps) args := .skip hps
    exact on_of_hull (.expand _ _) (stmtOn_expand start name hnamed) (by simp) hlast
      (exists_of_end hend) _
  extend := by
    rintro i j l start _ target _ last _ - - htarget - hlast hend
    obtain ⟨us, rfl, hus⟩ := on_of_many (on_of_one IsOnly fun _ _ ht => .of_eq ht.2) htarget
    exact on_of_hull (.extend _) (stmtOn_extend start hus) (by simp) hlast
      (exists_of_end hend) _
  branch := by
    rintro i j l m start _ e _ yes _ no _ last _ - - ⟨us, rfl, he⟩ hyes hno hlast
    obtain ⟨vs, rfl, -, -, -, -, hvs⟩ := on_of_braced id hyes
    obtain ⟨ws, rfl, hws⟩ := on_of_otherwise id hno
    exact on_of_hull (.branch _ _ _) (stmtOn_branch start he hvs hws) (by simp) hlast
      ⟨[], by simp⟩ _
  ruleset := by
    rintro i j l first _ header _ body _ last _ - - hheader hbody hlast
    obtain ⟨us, rfl, hus⟩ := on_of_many (on_of_one IsOnly fun _ _ ht => .of_eq ht.2) hheader
    obtain ⟨vs, rfl, -, -, -, -, hvs⟩ := on_of_braced id hbody
    exact on_of_hull (.ruleset _ _ _) (stmtOn_ruleset first hus hvs) (by simp) hlast
      ⟨[], by simp⟩ _
  expr := by
    rintro i j l t _ e _ - - ⟨us, rfl, he⟩ hend
    obtain ⟨es, rfl⟩ := exists_of_end hend
    have hcore : StmtOn us (.expr e) := fun ho => .expr (he ho)
    exact ⟨us ++ es, List.append_assoc _ _ _, hcore.append_right es⟩

/-! ### Texts -/

open Window (Takes)

/-- The windows that are reached from one window, each at the tokens that have been taken up to
it. -/
def travelled {σ : Type} [Window σ] (s : σ) : Survey σ (List Token) where
  Tok _ _ := True
  next used t := used ++ [t]
  Last used span := span = spanAfter (Window.before s) used
  At used c := Takes s used c ∧ Window.before c = spanAfter (Window.before s) used
  Fail _ _ := True
  current _ := trivial
  last h := h.2
  advance := by
    rintro used c c' ⟨hused, -⟩ hne - hnext
    refine ⟨hused.step hne hnext, ?_⟩
    rw [Window.before_of_advance hnext, Token.spanAfter_append]
    rfl
  scan _ _ _ := trivial
  unexpected _ _ := trivial
  expectedExpression _ := trivial
  invalid _ _ _ := trivial
  unclosed _ _ _ := trivial

/-- Every part of a sheet stands on tokens of the source, inside of what it is a part of and in
order with the other parts. -/
theorem placed_of_ofText (table : Keyword.Table) (source : String) (sheet : Sheet)
    (hsize : source.utf8ByteSize < 2 ^ 32) (h : ofText table source = .ok sheet) :
    (∀ s ∈ sheet, s.Placed (Token.tokenize table source).tokens) ∧
      (sheet.map Stmt.span).Pairwise Span.Before := by
  obtain ⟨s, t, hs, ht⟩ := ofText_eq_ok.mp h
  have hat : (travelled s).At [] s := ⟨.refl s, rfl⟩
  have hends :=
    (travelled s).ends_statementsUpTo (placedTrees (Window.before s)) (Window.size s + 1) hat
  rw [ht] at hends
  cases hends with
  | ok hat _ _ hgood =>
    obtain ⟨⟨sheet', hsheet⟩, -⟩ := hgood
    obtain ⟨used, rfl, hturn⟩ := on_of_statements id hsheet
    have hend := Window.isAtEnd_iff.mp (isAtEnd_of_statementsUpTo ht)
    obtain ⟨span, hending, hall⟩ := Stream.tokens_of_takes_eof hs hat.1 hend
    have ho : Ordered (Token.tokenize table source).tokens :=
      Token.ordered_tokenize (Nat.le_of_lt_succ hsize) hending
    rw [← hall] at ho ⊢
    exact ⟨hturn.placed_stmt ho, ((hturn.map fun _ _ hs => hs.spanOn).arranged ho).ordered⟩

/-- A ruleset between a declaration and a condition, which has another one as its alternative. -/
def splitText : String :=
  "A\x7bx:a;B\x7by:-b c\x7d@if $c\x7b\x7d@else @if $d\x7bz:e\x7d\x7d"

/-- Its tree: of the body, the declaration and the condition are rules, and the ruleset between them
is a child. -/
def splitSheet : Sheet :=
  [.ruleset [⟨.typeSelector, "A", ⟨0, 1⟩⟩]
    [.declare ⟨.property, "x", ⟨2, 3⟩⟩ [.text "a" ⟨4, 5⟩] false ⟨2, 5⟩,
      .branch (.var "$c" ⟨19, 21⟩) ⟨[], ⟨21, 23⟩⟩
        (some ⟨[.branch (.var "$d" ⟨33, 35⟩)
          ⟨[.declare ⟨.property, "z", ⟨36, 37⟩⟩ [.text "e" ⟨38, 39⟩] false
            ⟨36, 39⟩], ⟨35, 40⟩⟩ none ⟨29, 40⟩], ⟨29, 40⟩⟩) ⟨15, 40⟩]
    [.ruleset [⟨.typeSelector, "B", ⟨6, 7⟩⟩]
      [.declare ⟨.property, "y", ⟨8, 9⟩⟩
        [.negate (.text "b" ⟨11, 12⟩) ⟨10, 12⟩,
          .text "c" ⟨13, 14⟩] false ⟨8, 14⟩] [] ⟨6, 15⟩] ⟨0, 41⟩]

/-- The text is read as the tree, all of which is placed on the tokens. -/
theorem placed_of_ofText_splitText :
    splitText.utf8ByteSize < 2 ^ 32 ∧ ofText .builtin splitText = .ok splitSheet ∧
      (∀ s ∈ splitSheet, s.Placed (Token.tokenize .builtin splitText).tokens) ∧
        (splitSheet.map Stmt.span).Pairwise Span.Before := by
  have hsize : splitText.utf8ByteSize < 2 ^ 32 := by decide +kernel
  have hread : ofText .builtin splitText = .ok splitSheet := by
    let first : Stream := ⟨.builtin, ⟨0, 0⟩, ⟨.typeSelector, "A", ⟨0, 1⟩⟩,
      ⟨.leftBrace, "\x7b", ⟨1, 2⟩⟩, ⟨2, some .leftBrace, splitText.toList.drop 2⟩⟩
    let last : Stream := ⟨.builtin, ⟨40, 41⟩, .endOfInput ⟨41, 41⟩, .endOfInput ⟨41, 41⟩,
      ⟨41, some .eof, []⟩⟩
    have hfirst : Stream.ofText .builtin splitText = .ok first := by cbv
    have hlast : statementsUpTo (Window.size first + 1) none first = .ok splitSheet last := by cbv
    exact ofText_eq_ok.mpr ⟨first, last, hfirst, hlast⟩
  exact ⟨hsize, hread, placed_of_ofText .builtin splitText splitSheet hsize hread⟩

end StyleSheet.Sheet
