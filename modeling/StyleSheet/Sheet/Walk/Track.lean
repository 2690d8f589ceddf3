import StyleSheet.Sheet.Grammar

/-!
# Tracks

What is read from an input lies between two places of it.  A track says which tokens stand at a
place and which place is behind them.  It follows two inputs at once, so that a property of what
is read and a relation between two readings are treated alike.

The parts of the grammar are put together along a track, each between the place where it starts
and the place where it ends.  What trees stand for is a parameter: `Trees` lists what has to be
shown of each kind of tree.
-/

namespace StyleSheet

namespace Token.Kind

/-- The kinds that open or close something. -/
def isBracket : Kind → Bool
  | leftBrace | rightBrace | leftParen | rightParen => true
  | _ => false

/-- The kinds of names of mixins. -/
def isMixinName : Kind → Bool
  | string | color | typeSelector | property => true
  | _ => false

end Token.Kind

namespace Sheet

/-! ### What single tokens stand for -/

/-- The expression that one token stands for. -/
def atom? (t : Token) : Option Expr :=
  match t.kind with
  | .variableName => some (.var t.text t.span)
  | .number => (splitNumber? t.text).map fun n => .number n.1 n.2 t.span
  | .string => some (.text t.text t.span)
  | .color => some (.color t.text t.span)
  | .litTrue => some (.bool true t.span)
  | .litFalse => some (.bool false t.span)
  | kind => if kind.isSelector then some (.selector t) else none

/-- The token that a flag is written as. -/
def Flag.kind : Flag → Token.Kind
  | globally => .keyword .bangGlobal
  | byDefault => .keyword .bangDefault

/-- The token is the name of a mixin. -/
def IsNamed (t : Token) (name : String) : Prop := t.kind.isMixinName = true ∧ name = t.text

/-- The token is a parameter of a mixin. -/
def IsParameter (t : Token) (param : Ident) : Prop :=
  t.kind = .variableName ∧ param = ⟨t.text, t.span⟩

/-- The token is one of those that the header of a ruleset goes on with. -/
def InHeader (t u : Token) : Prop := (t.kind.isSelector = true ∨ t.kind = .comma) ∧ u = t

/-- The token is one of those that `@extend` is followed by. -/
def InTarget (t u : Token) : Prop := (t.kind.isSelector = true ∨ t.kind = .string) ∧ u = t

/-! ### Places -/

/-- Places among the tokens of two inputs. -/
structure Track (ι : Type) where
  /-- The tokens that stand at the place. -/
  Tok : ι → Token → Token → Prop
  /-- The place behind the token of the first input. -/
  next : ι → Token → ι
  /-- The spans of the tokens before the place. -/
  Last : ι → Span → Span → Prop

namespace Track

variable {ι α β : Type} (k : Track ι)

/-! ### Parts of the grammar -/

/-- One token, and what is made of it. -/
inductive One (made : Token → α → Prop) : ι → ι → α → α → Prop
  | mk {i : ι} {t t' : Token} {a b : α} (ht : k.Tok i t t') (ha : made t a) (hb : made t' b) :
    One made i (k.next i t) a b

/-- Any number of items. -/
inductive Many (item : ι → ι → α → β → Prop) : ι → ι → List α → List β → Prop
  | nil {i : ι} : Many item i i [] []
  | cons {i j l : ι} {a : α} {b : β} {as : List α} {bs : List β} (first : item i j a b)
    (others : Many item j l as bs) : Many item i l (a :: as) (b :: bs)

/-- A token that can be left out, and whether it is there. -/
inductive Marked (kind : Token.Kind) : ι → ι → Bool → Prop
  | absent {i : ι} : Marked kind i i false
  | present {i : ι} {t t' : Token} (ht : k.Tok i t t') (hkind : t.kind = kind) :
    Marked kind i (k.next i t) true

/-- The end of a statement: a semicolon, or nothing before a brace and at the end of the input. -/
inductive End : ι → ι → Prop
  | semicolon {i : ι} {t t' : Token} (ht : k.Tok i t t') (hkind : t.kind = .semicolon) :
    End i (k.next i t)
  | absent {i : ι} {t t' : Token} (ht : k.Tok i t t')
    (hkind : t.kind = .rightBrace ∨ t.kind = .eof) : End i i

/-- Items with commas between them; a comma can follow the last. -/
inductive Separated (item : ι → ι → α → β → Prop) : ι → ι → List α → List β → Prop
  | nil {i : ι} : Separated item i i [] []
  | last {i j : ι} {a : α} {b : β} (only : item i j a b) : Separated item i j [a] [b]
  | cons {i j l : ι} {a : α} {b : β} {as : List α} {bs : List β} {t t' : Token}
    (first : item i j a b) (ht : k.Tok j t t') (hkind : t.kind = .comma)
    (others : Separated item (k.next j t) l as bs) : Separated item i l (a :: as) (b :: bs)

/-- Separated items between parentheses, or nothing at all. -/
inductive Parenthesized (item : ι → ι → α → β → Prop) : ι → ι → List α → List β → Prop
  | absent {i : ι} : Parenthesized item i i [] []
  | present {i j : ι} {as : List α} {bs : List β} {o o' c c' : Token} (ho : k.Tok i o o')
    (hopen : o.kind = .leftParen) (items : k.Separated item (k.next i o) j as bs)
    (hc : k.Tok j c c') (hclose : c.kind = .rightParen) :
    Parenthesized item i (k.next j c) as bs

/-- Statements and lone semicolons. -/
inductive Statements (stmt : ι → ι → Stmt → Stmt → Prop) : ι → ι → List Stmt → List Stmt → Prop
  | nil {i : ι} : Statements stmt i i [] []
  | semicolon {i j : ι} {t t' : Token} {as bs : List Stmt} (ht : k.Tok i t t')
    (hkind : t.kind = .semicolon) (others : Statements stmt (k.next i t) j as bs) :
    Statements stmt i j as bs
  | cons {i j l : ι} {a b : Stmt} {as bs : List Stmt} (first : stmt i j a b)
    (others : Statements stmt j l as bs) : Statements stmt i l (a :: as) (b :: bs)

/-- A statement or a lone semicolon. -/
inductive Item (stmt : ι → ι → Stmt → Stmt → Prop) : ι → ι → Option Stmt → Option Stmt → Prop
  | semicolon {i : ι} {t t' : Token} (ht : k.Tok i t t') (hkind : t.kind = .semicolon) :
    Item stmt i (k.next i t) none none
  | statement {i j : ι} {a b : Stmt} (h : stmt i j a b) : Item stmt i j (some a) (some b)

/-- Statements behind an opening brace, up to the closing one and with it. -/
inductive Body (stmt : ι → ι → Stmt → Stmt → Prop) : ι → ι → List Stmt → List Stmt → Prop
  | mk {i j : ι} {as bs : List Stmt} {c c' : Token} (inside : k.Statements stmt i j as bs)
    (hc : k.Tok j c c') (hclose : c.kind = .rightBrace) : Body stmt i (k.next j c) as bs

/-- Statements between braces. -/
inductive Braced (stmt : ι → ι → Stmt → Stmt → Prop) : ι → ι → Block Stmt → Block Stmt → Prop
  | mk {i j : ι} {as bs : List Stmt} {o o' : Token} {last last' : Span} (ho : k.Tok i o o')
    (hopen : o.kind = .leftBrace) (body : k.Body stmt (k.next i o) j as bs)
    (hlast : k.Last j last last') :
    Braced stmt i j ⟨as, o.span.merge last⟩ ⟨bs, o'.span.merge last'⟩

/-- What follows a block of `@if`. -/
inductive Otherwise (stmt : ι → ι → Stmt → Stmt → Prop) :
    ι → ι → Option (Block Stmt) → Option (Block Stmt) → Prop
  | absent {i : ι} : Otherwise stmt i i none none
  | block {i j : ι} {t t' : Token} {b b' : Block Stmt} (ht : k.Tok i t t')
    (hkind : t.kind = .keyword .atElse) (hblock : k.Braced stmt (k.next i t) j b b') :
    Otherwise stmt i j (some b) (some b')
  | chained {i j : ι} {t t' u u' : Token} {s s' : Stmt} (ht : k.Tok i t t')
    (hkind : t.kind = .keyword .atElse) (hu : k.Tok (k.next i t) u u')
    (hukind : u.kind = .keyword .atIf) (hstmt : stmt (k.next i t) j s s') :
    Otherwise stmt i j (some ⟨[s], s.span⟩) (some ⟨[s'], s'.span⟩)

/-! ### Brackets -/

/-- Each bracket between the places is closed between them. -/
inductive Balanced : ι → ι → Prop
  | refl {i : ι} : Balanced i i
  | plain {i : ι} {t t' : Token} (ht : k.Tok i t t') (hkind : t.kind.isBracket = false) :
    Balanced i (k.next i t)
  | wrap {i j : ι} {d : Delimiter} {o o' c c' : Token} (ho : k.Tok i o o')
    (hopen : o.kind = d.opener) (inside : Balanced (k.next i o) j) (hc : k.Tok j c c')
    (hclose : c.kind = d.closer) : Balanced i (k.next j c)
  | trans {i j l : ι} (first : Balanced i j) (second : Balanced j l) : Balanced i l

/-- The innermost bracket that is open at the place `i` stands at the place `base`. -/
inductive Opened (d : Delimiter) (base i : ι) : Span → Span → Prop
  | mk {o o' : Token} (ho : k.Tok base o o') (hopen : o.kind = d.opener)
    (inside : k.Balanced (k.next base o) i) : Opened d base i o.span o'.span

/-! ### Trees -/

/-- What trees stand for along a track, with one rule for each way to make a tree. -/
structure Trees where
  /-- An operand between two places. -/
  Operand : ι → ι → Expr → Expr → Prop
  /-- An expression between two places. -/
  Value : ι → ι → Expr → Expr → Prop
  /-- A statement between two places. -/
  Statement : ι → ι → Stmt → Stmt → Prop
  atom : ∀ {i t t' e e'}, k.Tok i t t' → atom? t = some e → atom? t' = some e' →
    Operand i (k.next i t) e e'
  negate : ∀ {i j t t' e e'}, k.Tok i t t' → t.kind = .minus → Operand (k.next i t) j e e' →
    Operand i j (.negate e (t.span.merge e.span)) (.negate e' (t'.span.merge e'.span))
  enclosed : ∀ {i j o o' c c' e e'}, k.Tok i o o' → o.kind = .leftParen →
    Value (k.next i o) j e e' → k.Tok j c c' → c.kind = .rightParen →
    Operand i (k.next j c) e e'
  operand : ∀ {i j e e'}, Operand i j e e' → Value i j e e'
  binary : ∀ {i j l t t' op e e' r r'}, Value i j e e' → k.Tok j t t' →
    Operator.ofKind? t.kind = some op → Value (k.next j t) l r r' →
    Value i l (.binary op e r (e.span.merge r.span)) (.binary op e' r' (e'.span.merge r'.span))
  assign : ∀ {i j l m name name' colon colon' e e' flags last last'}, k.Tok i name name' →
    name.kind = .variableName → k.Tok (k.next i name) colon colon' → colon.kind = .colon →
    Value (k.next (k.next i name) colon) j e e' →
    Many (k.One fun t f => t.kind = Flag.kind f) j l flags flags → k.Last l last last' →
    k.End l m → Statement i m
      (.assign ⟨name.text, name.span⟩ e (flags.contains .globally) (flags.contains .byDefault)
        (name.span.merge last))
      (.assign ⟨name'.text, name'.span⟩ e' (flags.contains .globally)
        (flags.contains .byDefault) (name'.span.merge last'))
  declare : ∀ {i j l m n property property' colon colon' e e' es es' important last last'},
    k.Tok i property property' → property.kind = .property →
    k.Tok (k.next i property) colon colon' → colon.kind = .colon →
    Value (k.next (k.next i property) colon) j e e' → Many Value j l es es' →
    k.Marked (.keyword .bangImportant) l m important → k.Last m last last' → k.End m n →
    Statement i n (.declare property (e :: es) important (property.span.merge last))
      (.declare property' (e' :: es') important (property'.span.merge last'))
  importFile : ∀ {i j start start' path path'}, k.Tok i start start' →
    start.kind = .keyword .atImport → k.Tok (k.next i start) path path' → path.kind = .string →
    k.End (k.next (k.next i start) path) j →
    Statement i j (.importFile (unquoted path.text) (start.span.merge path.span))
      (.importFile (unquoted path'.text) (start'.span.merge path'.span))
  mixin : ∀ {i j l m start start' name name' params params' body body'}, k.Tok i start start' →
    start.kind = .keyword .atMixin →
    k.One IsNamed (k.next i start) j name name' →
    k.Parenthesized (k.One IsParameter) j l params params' →
    k.Braced Statement l m body body' →
    Statement i m (.mixin name params body (start.span.merge body.span))
      (.mixin name' params' body' (start'.span.merge body'.span))
  expand : ∀ {i j l m start start' name name' args args' last last'}, k.Tok i start start' →
    start.kind = .keyword .atInclude →
    k.One IsNamed (k.next i start) j name name' →
    k.Parenthesized Value j l args args' → k.Last l last last' → k.End l m →
    Statement i m (.expand name args (start.span.merge last))
      (.expand name' args' (start'.span.merge last'))
  extend : ∀ {i j l start start' target target' last last'}, k.Tok i start start' →
    start.kind = .keyword .atExtend →
    Many (k.One InTarget) (k.next i start) j target target' → target ≠ [] →
    k.Last j last last' → k.End j l →
    Statement i l (.extend target (start.span.merge last))
      (.extend target' (start'.span.merge last'))
  branch : ∀ {i j l m start start' e e' yes yes' no no' last last'}, k.Tok i start start' →
    start.kind = .keyword .atIf → Value (k.next i start) j e e' →
    k.Braced Statement j l yes yes' → k.Otherwise Statement l m no no' → k.Last m last last' →
    Statement i m (.branch e yes no (start.span.merge last))
      (.branch e' yes' no' (start'.span.merge last'))
  ruleset : ∀ {i j l first first' header header' body body' last last'}, k.Tok i first first' →
    first.kind.isSimpleSelector = true →
    Many (k.One InHeader) (k.next i first) j header header' →
    k.Braced Statement j l body body' → k.Last l last last' →
    Statement i l
      (.ruleset (first :: header) (body.statements.filter (!·.isRuleset))
        (body.statements.filter (·.isRuleset)) (first.span.merge last))
      (.ruleset (first' :: header') (body'.statements.filter (!·.isRuleset))
        (body'.statements.filter (·.isRuleset)) (first'.span.merge last'))
  expr : ∀ {i j l t t' e e'}, k.Tok i t t' → t.kind.isSimpleSelector = false →
    Value i j e e' → k.End j l → Statement i l (.expr e) (.expr e')

/-- Trees of which nothing is said. -/
def Trees.blind : k.Trees where
  Operand _ _ _ _ := True
  Value _ _ _ _ := True
  Statement _ _ _ _ := True
  atom _ _ _ := trivial
  negate _ _ _ := trivial
  enclosed _ _ _ _ _ := trivial
  operand _ := trivial
  binary _ _ _ _ := trivial
  assign _ _ _ _ _ _ _ _ := trivial
  declare _ _ _ _ _ _ _ _ _ := trivial
  importFile _ _ _ _ _ := trivial
  mixin _ _ _ _ _ := trivial
  expand _ _ _ _ _ _ := trivial
  extend _ _ _ _ _ _ := trivial
  branch _ _ _ _ _ _ := trivial
  ruleset _ _ _ _ _ := trivial
  expr _ _ _ _ := trivial

end Track

end Sheet

end StyleSheet
