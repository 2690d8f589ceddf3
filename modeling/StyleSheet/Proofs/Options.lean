import StyleSheet.Proofs.Aliases

/-!
# Options as they are written

Arguments say something if they are options one after another (`Lists`).  Of each option the forms
it can be written in are known (`Written`): a path or a directory stands behind its mark or is the
next argument, whatever that looks like, and an alias ends at the first equals sign.

The first argument tells the form, so the arguments are read from left to right without a choice:
reading one written option adds what it says and goes on behind it (`add_of_written`), and what is
read was written (`exists_lists_of_add`).  The options are then a matter of lists, and the table of
keywords holds the aliases with the last one in front (`ofArgs_iff_lists`).
-/

namespace StyleSheet

/-- A word means a keyword exactly if it is the spelling of it. -/
lemma Keyword.ofSpelling?_eq_some_iff {word : String} {k : Keyword} :
    ofSpelling? word = some k ↔ k.spelling = word := by
  constructor
  · intro h
    have hfound := List.find?_some (p := fun k : Keyword => k.spelling == word) h
    exact beq_iff_eq.mp hfound
  · rintro rfl
    cases k <;> decide

namespace Keyword.Table

/-- A word is marked exactly if it starts with one of the two marks. -/
lemma isMarked_iff {word : String} :
    isMarked word = true ↔ word.toList.head? = some '@' ∨ word.toList.head? = some '!' := by
  unfold isMarked
  cases word.toList with
  | nil => simp
  | cons c cs => simp

/-- A marked word means the keyword that was inserted for it. -/
lemma lookup_insert_self {word : String} (h : isMarked word = true) (t : Table) (k : Keyword) :
    (t.insert word k).lookup word = some k := by
  rw [insert, if_pos h, lookup, List.lookup_cons_self]

/-- No insertion gives a meaning to a word that is not marked. -/
lemma lookup_insert_of_not_marked {word : String} (h : isMarked word = false) (t : Table)
    (other : String) (k : Keyword) : (t.insert other k).lookup word = t.lookup word := by
  by_cases hother : word = other
  · subst hother
    rw [insert, h]
    rfl
  · exact lookup_insert_of_ne hother k

/-- After all aliases a word with a mark has the meaning of its last alias.  A word without a mark
has no alias. -/
lemma lookup_foldl_insert (aliases : List (String × Keyword)) (t : Table) (word : String) :
    (aliases.foldl (fun t a => t.insert a.1 a.2) t).lookup word =
      (if isMarked word then aliases.reverse.lookup word else none).or (t.lookup word) := by
  induction aliases using List.reverseRecOn with
  | nil => simp
  | append_singleton before last ih =>
    obtain ⟨other, k⟩ := last
    rw [List.foldl_concat, List.reverse_concat]
    by_cases hmarked : isMarked word = true
    · rw [if_pos hmarked] at ih ⊢
      by_cases hother : word = other
      · subst hother
        rw [lookup_insert_self hmarked, List.lookup_cons_self]
        rfl
      · rw [lookup_insert_of_ne hother, ih, List.lookup_cons, beq_false_of_ne hother]
    · rw [lookup_insert_of_not_marked (Bool.eq_false_iff.mpr hmarked), ih, if_neg hmarked,
        if_neg hmarked]

end Keyword.Table

namespace Build.Options

/-- What one option says. -/
inductive Item where
  | output (path : String)
  | includeDir (dir : String)
  | spelling (word : String) (k : Keyword)

namespace Item

def path? : Item → Option String
  | output path => some path
  | _ => none

def dir? : Item → Option String
  | includeDir dir => some dir
  | _ => none

def alias? : Item → Option (String × Keyword)
  | spelling word k => some (word, k)
  | _ => none

end Item

/-- An option as it is written in one or two arguments. -/
inductive Written : Item → List String → Prop
  | outputNext (path : String) : Written (.output path) ["-o", path]
  | outputJoined (path : String) : Written (.output path) ["-o=" ++ path]
  | includeNext (dir : String) : Written (.includeDir dir) ["-I", dir]
  | includeJoined {dir : String} (h : dir ≠ "") : Written (.includeDir dir) ["-I" ++ dir]
  | spelling {word : String} (h : '=' ∉ word.toList) (k : Keyword) :
    Written (.spelling word k) ["--keyword=" ++ (word ++ "=" ++ k.spelling)]

/-- The arguments are options, one written after another. -/
inductive Lists : List String → List Item → Prop
  | nil : Lists [] []
  | cons {item : Item} {args rest : List String} {items : List Item} (h : Written item args)
    (hrest : Lists rest items) : Lists (args ++ rest) (item :: items)

/-! ### What an argument says -/

/-- What follows a start is what is left of the text behind it. -/
lemma after?_eq_some_iff {start text rest : String} :
    after? start text = some rest ↔ text = start ++ rest := by
  unfold after?
  constructor
  · intro h
    split at h
    · rename_i hprefix
      obtain ⟨more, hmore⟩ := List.isPrefixOf_iff_prefix.mp hprefix
      rw [← hmore, List.drop_left] at h
      obtain rfl := Option.some.inj h
      rw [← String.ofList_toList (s := text), ← hmore, String.ofList_append, String.ofList_toList]
    · cases h
  · rintro rfl
    have hprefix : start.toList.isPrefixOf (start ++ rest).toList = true := by
      rw [String.toList_append]
      exact List.isPrefixOf_iff_prefix.mpr (List.prefix_append _ _)
    rw [if_pos hprefix, String.toList_append, List.drop_left, String.ofList_toList]

/-- An alias is what stands before the first equals sign. -/
lemma aliasOf_eq_ok_iff {pair word : String} {k : Keyword} :
    aliasOf pair = .ok (word, k) ↔ '=' ∉ word.toList ∧ pair = word ++ "=" ++ k.spelling := by
  constructor
  · intro h
    unfold aliasOf at h
    rw [List.span_eq_takeWhile_dropWhile] at h
    cases hrest : pair.toList.dropWhile (· != '=') with
    | nil =>
      rw [hrest] at h
      cases h
    | cons c right =>
      rw [hrest] at h
      dsimp only at h
      split at h
      · rename_i k' hk
        obtain ⟨rfl, rfl⟩ := Prod.mk.inj (Except.ok.inj h)
        -- the rest starts with the equals sign that the word stops at
        have hc : c = '=' := by
          have hhead := List.head?_dropWhile_not (· != '=') pair.toList
          rw [hrest] at hhead
          simpa using hhead
        have hpair : pair.toList = pair.toList.takeWhile (· != '=') ++ c :: right := by
          rw [← hrest, List.takeWhile_append_dropWhile]
        constructor
        · rw [String.toList_ofList]
          intro hmem
          exact absurd (List.mem_takeWhile_imp hmem) (by decide)
        · apply String.toList_inj.mp
          rw [Keyword.ofSpelling?_eq_some_iff.mp hk]
          simpa [hc] using hpair
      · cases h
  · rintro ⟨hword, rfl⟩
    -- the first equals sign is the one behind the word, whatever the spelling holds
    have hstop : ∀ c ∈ word.toList, (c != '=') = true := by
      intro c hc
      exact bne_iff_ne.mpr fun heq => hword (heq ▸ hc)
    have hspan : (word ++ "=" ++ k.spelling).toList.span (· != '=') =
        (word.toList, '=' :: k.spelling.toList) := by
      have hlist : (word ++ "=" ++ k.spelling).toList =
          word.toList ++ '=' :: k.spelling.toList := by
        simp
      rw [List.span_eq_takeWhile_dropWhile, hlist, List.takeWhile_append_of_pos hstop,
        List.dropWhile_append_of_pos hstop]
      simp
    rw [aliasOf, hspan]
    simp only [String.ofList_toList, Keyword.ofSpelling?_eq_some_iff.mpr rfl]

/-- How an argument with a flag is written. -/
def Flag.Form (arg : String) : Flag → Prop
  | .outputNext => arg = "-o"
  | .output path => arg = "-o=" ++ path
  | .includeNext => arg = "-I"
  | .includeDir dir => dir ≠ "" ∧ arg = "-I" ++ dir
  | .keyword pair => arg = "--keyword=" ++ pair
  | .unknown => True

/-- Each argument has the form of the flag that it is read as. -/
lemma Flag.form_ofArg (arg : String) : (ofArg arg).Form arg := by
  unfold ofArg
  split
  · assumption
  split
  · exact after?_eq_some_iff.mp (by assumption)
  split
  · assumption
  split
  · rename_i hinclude _ dir hdir
    have harg := after?_eq_some_iff.mp hdir
    refine ⟨?_, harg⟩
    rintro rfl
    exact hinclude harg
  split
  · exact after?_eq_some_iff.mp (by assumption)
  · trivial

/-- The form of an argument tells its flag. -/
lemma Flag.ofArg_of_form {arg : String} {flag : Flag} (hflag : flag ≠ .unknown)
    (h : flag.Form arg) : ofArg arg = flag := by
  have hne {start text rest : String} (hdiffer : ¬ start.toList <+: text.toList ++ rest.toList) :
      after? start (text ++ rest) = none := by
    rw [after?, if_neg]
    rwa [List.isPrefixOf_iff_prefix, String.toList_append]
  have hother {text rest word : String} (hdiffer : word.toList ≠ text.toList ++ rest.toList) :
      text ++ rest ≠ word := by
    rintro rfl
    exact hdiffer String.toList_append
  cases flag with
  | outputNext =>
    obtain rfl := h
    rfl
  | output path =>
    obtain rfl := h
    rw [ofArg, if_neg (hother (by simp)), after?_eq_some_iff.mpr rfl]
  | includeNext =>
    obtain rfl := h
    rfl
  | includeDir dir =>
    obtain ⟨hdir, rfl⟩ := h
    rw [ofArg, if_neg (hother (by simp)), hne (by simp)]
    dsimp only
    rw [if_neg (hother (by simpa using hdir)), after?_eq_some_iff.mpr rfl]
  | keyword pair =>
    obtain rfl := h
    rw [ofArg, if_neg (hother (by simp)), hne (by simp)]
    dsimp only
    rw [if_neg (hother (by simp)), hne (by simp), after?_eq_some_iff.mpr rfl]
  | unknown => exact absurd rfl hflag

/-! ### Reading written options -/

/-- The options with what one more says. -/
def adding (o : Options) : Item → Options
  | .output path => o.withOutput path
  | .includeDir dir => o.withInclude dir
  | .spelling word k => o.withAlias word k

/-- A written option is read as what it says, whatever follows it. -/
lemma add_of_written {item : Item} {args : List String} (h : Written item args) (o : Options)
    (rest : List String) : o.add (args ++ rest) = (o.adding item).add rest := by
  cases h with
  | outputNext path => rfl
  | outputJoined path =>
    have hflag : Flag.ofArg ("-o=" ++ path) = .output path := Flag.ofArg_of_form nofun rfl
    rw [List.singleton_append, add.eq_def]
    dsimp only
    rw [hflag]
    rfl
  | includeNext dir => rfl
  | @includeJoined dir hdir =>
    have hflag : Flag.ofArg ("-I" ++ dir) = .includeDir dir := Flag.ofArg_of_form nofun ⟨hdir, rfl⟩
    rw [List.singleton_append, add.eq_def]
    dsimp only
    rw [hflag]
    rfl
  | @spelling word hword k =>
    have hflag : Flag.ofArg ("--keyword=" ++ (word ++ "=" ++ k.spelling)) =
        .keyword (word ++ "=" ++ k.spelling) := Flag.ofArg_of_form nofun rfl
    rw [List.singleton_append, add.eq_def]
    dsimp only
    rw [hflag]
    dsimp only
    rw [aliasOf_eq_ok_iff.mpr ⟨hword, rfl⟩]
    rfl

/-- Options that are written one after another are read in this order. -/
lemma add_of_lists {args : List String} {items : List Item} (h : Lists args items) (o : Options) :
    o.add args = .ok (items.foldl adding o) := by
  induction h generalizing o with
  | nil => rfl
  | cons h _ ih => rw [add_of_written h, ih, List.foldl_cons]

/-- What is read was written as options, one after another. -/
lemma exists_lists_of_add {o o' : Options} {args : List String} (h : o.add args = .ok o') :
    ∃ items, Lists args items := by
  have hform {arg : String} {flag : Flag} (hflag : Flag.ofArg arg = flag) : flag.Form arg :=
    hflag ▸ Flag.form_ofArg arg
  fun_induction add o args with
  | case1 o => exact ⟨[], .nil⟩
  | case2 o arg hflag path rest ih =>
    obtain rfl : arg = "-o" := hform hflag
    obtain ⟨items, hitems⟩ := ih h
    exact ⟨_, .cons (.outputNext path) hitems⟩
  | case3 => cases h
  | case4 o arg rest path hflag ih =>
    obtain rfl : arg = "-o=" ++ path := hform hflag
    obtain ⟨items, hitems⟩ := ih h
    exact ⟨_, .cons (.outputJoined path) hitems⟩
  | case5 o arg hflag dir rest ih =>
    obtain rfl : arg = "-I" := hform hflag
    obtain ⟨items, hitems⟩ := ih h
    exact ⟨_, .cons (.includeNext dir) hitems⟩
  | case6 => cases h
  | case7 o arg rest dir hflag ih =>
    obtain ⟨hdir, rfl⟩ : dir ≠ "" ∧ arg = "-I" ++ dir := hform hflag
    obtain ⟨items, hitems⟩ := ih h
    exact ⟨_, .cons (.includeJoined hdir) hitems⟩
  | case8 o arg rest pair hflag word k halias ih =>
    obtain rfl : arg = "--keyword=" ++ pair := hform hflag
    obtain ⟨hword, rfl⟩ := aliasOf_eq_ok_iff.mp halias
    obtain ⟨items, hitems⟩ := ih h
    exact ⟨_, .cons (.spelling hword k) hitems⟩
  | case9 => cases h
  | case10 => cases h

/-! ### What the options are -/

/-- The last output counts, and directories and aliases are kept in order. -/
lemma foldl_adding (items : List Item) (o : Options) :
    items.foldl adding o = ⟨o.aliases ++ items.filterMap Item.alias?,
      o.includes ++ items.filterMap Item.dir?,
      (o.output.toList ++ items.filterMap Item.path?).getLast?⟩ := by
  induction items generalizing o with
  | nil =>
    obtain ⟨aliases, includes, output⟩ := o
    cases output <;> simp
  | cons item items ih =>
    rw [List.foldl_cons, ih]
    cases item with
    | output path =>
      simp [adding, withOutput, List.filterMap_cons, List.getLast?_cons, Item.alias?, Item.dir?,
        Item.path?]
    | includeDir dir =>
      simp [adding, withInclude, List.filterMap_cons, Item.alias?, Item.dir?, Item.path?]
    | spelling word k =>
      simp [adding, withAlias, List.filterMap_cons, Item.alias?, Item.dir?, Item.path?]

/-- Arguments are read as options just if they are written as options, one after another.  Then the
output is the last one that is given, the directories and the aliases are those that are given, in
order, and a word is a keyword by its last alias, if it has a mark and an alias, and else by its
built-in meaning. -/
theorem ofArgs_iff_lists (args : List String) :
    ((∃ o, ofArgs args = .ok o) ↔ ∃ items, Lists args items) ∧
    ∀ items, Lists args items → ∃ o, ofArgs args = .ok o ∧
      o.output = (items.filterMap Item.path?).getLast? ∧
      o.includes = items.filterMap Item.dir? ∧
      o.aliases = items.filterMap Item.alias? ∧
      ∀ word, o.keywords.lookup word =
        (if word.toList.head? = some '@' ∨ word.toList.head? = some '!' then
          o.aliases.reverse.lookup word else none).or (Keyword.ofSpelling? word) := by
  have hread {items : List Item} (h : Lists args items) :
      ofArgs args = .ok (items.foldl adding empty) := add_of_lists h empty
  constructor
  · constructor
    · rintro ⟨o, ho⟩
      exact exists_lists_of_add ho
    · rintro ⟨items, hitems⟩
      exact ⟨_, hread hitems⟩
  · intro items hitems
    refine ⟨_, hread hitems, ?_⟩
    rw [foldl_adding]
    refine ⟨rfl, rfl, rfl, fun word => ?_⟩
    simp only [keywords, Keyword.Table.lookup_foldl_insert, Keyword.Table.isMarked_iff]
    rfl

/-- Arguments in which a mark is taken for a path and for a directory, and a word has two
aliases. -/
def tangledArgs : List String :=
  ["-o", "-I", "-I", "-o=x", "--keyword=@use=@import", "-Ilib", "-o=a=b", "--keyword=@use=@mixin",
    "--keyword=use=@if", "--keyword=@if=@else"]

/-- Values that look like flags, and aliases that are repeated, that are not marked and that are
keywords themselves. -/
theorem ofArgs_iff_lists_tangledArgs :
    ∃ o, ofArgs tangledArgs = .ok o ∧ o.output = some "a=b" ∧ o.includes = ["-o=x", "lib"] ∧
      o.aliases = [("@use", .atImport), ("@use", .atMixin), ("use", .atIf), ("@if", .atElse)] ∧
      o.keywords.lookup "@use" = some .atMixin ∧ o.keywords.lookup "use" = none ∧
      o.keywords.lookup "@if" = some .atElse ∧ o.keywords.lookup "@else" = some .atElse := by
  have hlists := Lists.cons (.outputNext "-I") <| .cons (.includeNext "-o=x") <|
    .cons (@Written.spelling "@use" (by decide) .atImport) <|
    .cons (@Written.includeJoined "lib" (by decide)) <| .cons (.outputJoined "a=b") <|
    .cons (@Written.spelling "@use" (by decide) .atMixin) <|
    .cons (@Written.spelling "use" (by decide) .atIf) <|
    .cons (@Written.spelling "@if" (by decide) .atElse) .nil
  obtain ⟨o, hread, houtput, hincludes, haliases, hkeywords⟩ := (ofArgs_iff_lists _).2 _ hlists
  refine ⟨o, (congrArg ofArgs (by decide)).trans hread, houtput, hincludes, haliases, ?_⟩
  simp only [hkeywords, haliases]
  decide

end Build.Options

end StyleSheet
