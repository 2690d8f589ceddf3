import Mathlib
import StyleSheet.Selector

/-!
# Nested headers

The selectors of a ruleset are composed from its header and the selectors of the ruleset around it.
A header inside another one can be written as one header that stands alone (`unnest`): each group of
the inner header has the group around it in the place of every `&`, or in front of it if there is
none.  Composing under both headers in turn is the same as composing under that one, so rulesets
nested to any depth have the selectors of a single header (`descend_eq_compose_unnest`).

No `&` is left in such a header when it is composed outside of all rulesets.  Inside a ruleset the
selectors around it stand for the `&` that are left, and putting them there as tokens of their own
gives a header without any (`rooted`).
-/

namespace StyleSheet

/-! ### Splitting -/

section Splitting

variable {α : Type} {p : α → Bool}

/-- Splitting is that of the library. -/
lemma splitWhere_eq_splitOnP (p : α → Bool) (xs : List α) : splitWhere p xs = xs.splitOnP p := by
  induction xs with
  | nil => rfl
  | cons a rest ih =>
    rw [splitWhere, List.splitOnP_cons_eq_if_modifyHead, ih]
    by_cases ha : p a = true
    · rw [if_pos ha, if_pos ha]
    · rw [if_neg ha, if_neg ha]
      cases hparts : rest.splitOnP p with
      | nil => exact absurd (ih.trans hparts) (splitWhere_ne_nil p rest)
      | cons part more => rfl

/-- The parts of a list hold its elements, without the separators. -/
lemma mem_of_mem_splitWhere {xs part : List α} (h : part ∈ splitWhere p xs) {a : α}
    (ha : a ∈ part) : a ∈ xs ∧ p a = false := by
  induction xs generalizing part with
  | nil =>
    obtain rfl : part = [] := List.mem_singleton.mp h
    exact absurd ha List.not_mem_nil
  | cons b rest ih =>
    have hlater : ∀ {part}, part ∈ splitWhere p rest → a ∈ part → a ∈ b :: rest ∧ p a = false :=
      fun hpart ha => ⟨List.mem_cons_of_mem b (ih hpart ha).1, (ih hpart ha).2⟩
    rw [splitWhere] at h
    by_cases hb : p b = true
    · rw [if_pos hb] at h
      rcases List.mem_cons.mp h with rfl | h
      · exact absurd ha List.not_mem_nil
      · exact hlater h ha
    · rw [if_neg hb] at h
      cases hparts : splitWhere p rest with
      | nil => exact absurd hparts (splitWhere_ne_nil p rest)
      | cons first more =>
        rw [hparts] at h hlater
        rcases List.mem_cons.mp h with rfl | h
        · rcases List.mem_cons.mp ha with rfl | ha
          · exact ⟨List.mem_cons_self, Bool.eq_false_iff.mpr hb⟩
          · exact hlater List.mem_cons_self ha
        · exact hlater (List.mem_cons_of_mem first h) ha

end Splitting

namespace Selector

/-! ### Headers inside headers -/

def comma : Token := ⟨.comma, ",", .point 0⟩

def descendant : Token := ⟨.descendantCombinator, " ", .point 0⟩

def reference : Token := ⟨.parentReference, "&", .point 0⟩

/-- A group with the `&` that it stands for: below selectors a group without any selects
descendants. -/
def anchored (atRoot : Bool) (group : List Token) : List Token :=
  if atRoot || group.any isParentReference then group else reference :: descendant :: group

/-- A group inside another one, which takes the place of each `&`, or stands in front of it. -/
def graft (outer inner : List Token) : List Token :=
  if inner.any isParentReference then
    inner.flatMap fun t => if isParentReference t then outer else [t]
  else outer ++ descendant :: inner

/-- The header that stands for a header inside another one: for each group of the outer header all
groups of the inner one. -/
def unnest (atRoot : Bool) (outer inner : List Token) : List Token :=
  [comma].intercalate ((groups outer).flatMap fun a =>
    (groups inner).map (graft (anchored atRoot a)))

/-- One group from each of several headers, the last one varying first. -/
def choices : List (List Token) → List (List (List Token))
  | [] => [[]]
  | header :: rest => (groups header).flatMap fun group => (choices rest).map (group :: ·)

/-- A header that has given selectors as they are. -/
def literals (selectors : List String) : List Token :=
  [comma].intercalate (selectors.map fun text => [⟨.typeSelector, text, .point 0⟩])

/-- A header with the selectors around it put in place, so that it stands outside of rulesets. -/
def rooted (parents : Option (List String)) (header : List Token) : List Token :=
  match parents with
  | some parents => unnest true (literals parents) header
  | none => header

/-- The selectors below several headers, one inside the other. -/
def descend (parents : Option (List String)) (outer : List Token) (inner : List (List Token)) :
    Except Token (List String) := do
  inner.foldlM (fun selectors header => compose (some selectors) header) (← compose parents outer)

/-! ### Groups -/

variable {header group : List Token}

/-- A group of a header is not empty, and it holds tokens of the header that are no commas. -/
lemma mem_groups (h : group ∈ groups header) :
    group ≠ [] ∧ ∀ t ∈ group, t ∈ header ∧ isComma t = false := by
  rw [groups, List.mem_filter] at h
  obtain ⟨hpart, hne⟩ := h
  refine ⟨?_, fun t ht => mem_of_mem_splitWhere hpart ht⟩
  rintro rfl
  cases hne

/-- Groups with commas between them are the groups of a header. -/
lemma groups_intercalate {gs : List (List Token)}
    (h : ∀ group ∈ gs, group ≠ [] ∧ ∀ t ∈ group, isComma t = false) :
    groups ([comma].intercalate gs) = gs := by
  unfold groups
  rw [splitWhere_eq_splitOnP]
  induction gs with
  | nil => rfl
  | cons group rest ih =>
    obtain ⟨⟨hne, hcommas⟩, hrest⟩ := List.forall_mem_cons.mp h
    have hkeep : (!group.isEmpty) = true := by
      rw [Bool.not_eq_true', List.isEmpty_eq_false_iff]
      exact hne
    cases rest with
    | nil =>
      rw [List.intercalate_singleton, List.splitOnP_eq_singleton hcommas, List.filter_cons,
        if_pos hkeep]
      rfl
    | cons next rest =>
      rw [List.intercalate_cons_cons, List.append_assoc, List.singleton_append,
        List.splitOnP_append_cons_of_forall_mem hcommas comma rfl, List.filter_cons, if_pos hkeep,
        ih hrest]

/-- Commas between groups are no `&`. -/
lemma free_intercalate {gs : List (List Token)}
    (h : ∀ group ∈ gs, ∀ t ∈ group, isParentReference t = false) :
    ∀ t ∈ [comma].intercalate gs, isParentReference t = false := by
  induction gs with
  | nil => exact fun t ht => absurd ht List.not_mem_nil
  | cons group rest ih =>
    obtain ⟨hgroup, hrest⟩ := List.forall_mem_cons.mp h
    cases rest with
    | nil =>
      rw [List.intercalate_singleton]
      exact hgroup
    | cons next rest =>
      rw [List.intercalate_cons_cons]
      intro t ht
      rcases List.mem_append.mp ht with ht | ht
      · rcases List.mem_append.mp ht with ht | ht
        · exact hgroup t ht
        · obtain rfl : t = comma := List.mem_singleton.mp ht
          rfl
      · exact ih hrest t ht

/-- Where no token refers to the parent, each single one does not. -/
lemma eq_false_of_not_any (h : ¬ group.any isParentReference = true) :
    ∀ t ∈ group, isParentReference t = false :=
  fun t ht => Bool.eq_false_iff.mpr fun htrue => h (List.any_eq_true.mpr ⟨t, ht, htrue⟩)

/-! ### Texts of groups -/

/-- Groups are rendered token by token. -/
lemma render_append (parent : String) (xs ys : List Token) :
    render parent (xs ++ ys) = render parent xs ++ render parent ys := by
  rw [render, List.map_append, String.join_append]
  rfl

/-- The first token is rendered first. -/
lemma render_cons (parent : String) (t : Token) (xs : List Token) :
    render parent (t :: xs) = tokenText parent t ++ render parent xs := by
  rw [render, List.map_cons, String.join_cons]
  rfl

/-- A reference to the parent is rendered as the parent. -/
lemma tokenText_of_isParentReference {t : Token} (h : isParentReference t = true)
    (parent : String) : tokenText parent t = parent := by
  have hkind : t.kind = .parentReference := of_decide_eq_true h
  rw [tokenText, hkind]

/-- Any other token is rendered the same whatever the parent is. -/
lemma tokenText_eq {t : Token} (h : isParentReference t = false) (parent parent' : String) :
    tokenText parent t = tokenText parent' t := by
  have hkind : t.kind ≠ .parentReference := of_decide_eq_false h
  unfold tokenText
  split
  case h_3 heq => exact absurd heq hkind
  all_goals rfl

/-- Only an `&` shows what is around a group. -/
lemma render_eq (h : ∀ t ∈ group, isParentReference t = false) (parent parent' : String) :
    render parent group = render parent' group := by
  rw [render, render]
  congr 1
  exact List.map_congr_left fun t ht => tokenText_eq (h t ht) parent parent'

/-- Putting a selector in the place of each reference renders as the selector rendered first. -/
lemma render_flatMap (parent : String) (outer inner : List Token) :
    render parent (inner.flatMap fun t => if isParentReference t then outer else [t]) =
      render (render parent outer) inner := by
  induction inner with
  | nil => rfl
  | cons t rest ih =>
    rw [List.flatMap_cons, render_append, ih, render_cons]
    by_cases ht : isParentReference t = true
    · rw [if_pos ht, tokenText_of_isParentReference ht]
    · rw [if_neg ht, render_cons,
        tokenText_eq (Bool.eq_false_iff.mpr ht) parent (render parent outer)]
      congr 1
      exact String.append_empty

/-- A group inside another one has the text that it has below the text of the other one. -/
lemma render_graft (parent : String) (outer inner : List Token) :
    render parent (graft outer inner) = under (render parent outer) inner := by
  unfold graft under
  by_cases h : inner.any isParentReference = true
  · rw [if_pos h, if_pos h, render_flatMap]
  · have htext : render (render parent outer) inner = render parent inner :=
      render_eq (eq_false_of_not_any h) _ _
    rw [if_neg h, if_neg h, render_append, render_cons, htext, ← String.append_assoc]
    rfl

/-- A group that refers to its parent is anchored as it is. -/
lemma anchored_of_any (h : group.any isParentReference = true) : anchored false group = group := by
  rw [anchored, Bool.false_or, if_pos h]

/-- Any other group is anchored below a reference. -/
lemma anchored_of_not_any (h : ¬ group.any isParentReference = true) :
    anchored false group = reference :: descendant :: group := by
  rw [anchored, Bool.false_or, if_neg h]

/-- An anchored group refers to its parent. -/
lemma any_anchored (group : List Token) : (anchored false group).any isParentReference = true := by
  by_cases h : group.any isParentReference = true
  · rw [anchored_of_any h, h]
  · rw [anchored_of_not_any h]
    rfl

/-- Below a selector, a group has the text of the group with the `&` that it stands for. -/
lemma render_anchored (parent : String) (group : List Token) :
    render parent (anchored false group) = under parent group := by
  unfold under
  by_cases h : group.any isParentReference = true
  · rw [anchored_of_any h, if_pos h]
  · rw [anchored_of_not_any h, if_neg h, render_cons, render_cons, ← String.append_assoc]
    rfl

/-- A graft on a group that refers to its parent does so too. -/
lemma any_graft {outer : List Token} (h : outer.any isParentReference = true)
    (inner : List Token) : (graft outer inner).any isParentReference = true := by
  unfold graft
  by_cases hinner : inner.any isParentReference = true
  · obtain ⟨t, ht, hreference⟩ := List.any_eq_true.mp hinner
    rw [if_pos hinner, List.any_flatMap, List.any_eq_true]
    refine ⟨t, ht, ?_⟩
    rw [if_pos hreference, h]
  · rw [if_neg hinner, List.any_append, h, Bool.true_or]

/-- Below a selector, a group inside another one is the inner group below the outer one. -/
lemma under_graft (parent : String) (outer inner : List Token) :
    under parent (graft (anchored false outer) inner) = under (under parent outer) inner := by
  rw [under, if_pos (any_graft (any_anchored outer) inner), render_graft, render_anchored]

/-! ### Two headers -/

/-- The tokens of a graft come from both groups, with a combinator in between and no reference of
the inner one. -/
lemma mem_graft {outer inner : List Token} {t : Token} (h : t ∈ graft outer inner) :
    t ∈ outer ∨ t = descendant ∨ t ∈ inner ∧ isParentReference t = false := by
  unfold graft at h
  by_cases hinner : inner.any isParentReference = true
  · rw [if_pos hinner] at h
    obtain ⟨u, hu, htu⟩ := List.mem_flatMap.mp h
    by_cases hreference : isParentReference u = true
    · rw [if_pos hreference] at htu
      exact .inl htu
    · rw [if_neg hreference] at htu
      obtain rfl : t = u := List.mem_singleton.mp htu
      exact .inr (.inr ⟨hu, Bool.eq_false_iff.mpr hreference⟩)
  · rw [if_neg hinner] at h
    rcases List.mem_append.mp h with h | h
    · exact .inl h
    · rcases List.mem_cons.mp h with h | h
      · exact .inr (.inl h)
      · exact .inr (.inr ⟨h, eq_false_of_not_any hinner t h⟩)

/-- The tokens of an anchored group are those of the group, a reference and a combinator. -/
lemma mem_anchored {atRoot : Bool} {t : Token} (h : t ∈ anchored atRoot group) :
    t ∈ group ∨ t = reference ∨ t = descendant := by
  unfold anchored at h
  by_cases hgroup : (atRoot || group.any isParentReference) = true
  · rw [if_pos hgroup] at h
    exact .inl h
  · rw [if_neg hgroup] at h
    rcases List.mem_cons.mp h with h | h
    · exact .inr (.inl h)
    · rcases List.mem_cons.mp h with h | h
      · exact .inr (.inr h)
      · exact .inl h

/-- A graft on a group is not empty. -/
lemma graft_ne_nil {outer : List Token} (houter : outer ≠ []) (inner : List Token) :
    graft outer inner ≠ [] := by
  unfold graft
  by_cases h : inner.any isParentReference = true
  · rw [if_pos h]
    intro hnil
    obtain ⟨t, ht, hreference⟩ := List.any_eq_true.mp h
    have houterNil := List.flatMap_eq_nil_iff.mp hnil t ht
    rw [if_pos hreference] at houterNil
    exact houter houterNil
  · rw [if_neg h]
    exact List.append_ne_nil_of_left_ne_nil houter _

/-- An anchored group is not empty. -/
lemma anchored_ne_nil (h : group ≠ []) (atRoot : Bool) : anchored atRoot group ≠ [] := by
  unfold anchored
  by_cases hgroup : (atRoot || group.any isParentReference) = true
  · rw [if_pos hgroup]
    exact h
  · rw [if_neg hgroup]
    exact List.cons_ne_nil _ _

/-- The groups of a header inside another one: for each outer group all inner groups. -/
lemma groups_unnest (atRoot : Bool) (outer inner : List Token) :
    groups (unnest atRoot outer inner) =
      (groups outer).flatMap fun a => (groups inner).map (graft (anchored atRoot a)) := by
  apply groups_intercalate
  intro group hgroup
  obtain ⟨a, ha, hgroup⟩ := List.mem_flatMap.mp hgroup
  obtain ⟨b, hb, rfl⟩ := List.mem_map.mp hgroup
  obtain ⟨hane, hacommas⟩ := mem_groups ha
  obtain ⟨-, hbcommas⟩ := mem_groups hb
  refine ⟨graft_ne_nil (anchored_ne_nil hane atRoot) b, fun t ht => ?_⟩
  rcases mem_graft ht with ht | rfl | ⟨ht, -⟩
  · rcases mem_anchored ht with ht | rfl | rfl
    · exact (hacommas t ht).2
    · rfl
    · rfl
  · rfl
  · exact (hbcommas t ht).2

/-- A header inside one without `&`, outside of rulesets, has no `&` either. -/
lemma free_unnest {outer : List Token} (h : ∀ t ∈ outer, isParentReference t = false)
    (inner : List Token) : ∀ t ∈ unnest true outer inner, isParentReference t = false := by
  apply free_intercalate
  intro group hgroup t ht
  obtain ⟨a, ha, hgroup⟩ := List.mem_flatMap.mp hgroup
  obtain ⟨b, hb, rfl⟩ := List.mem_map.mp hgroup
  rcases mem_graft ht with ht | rfl | ⟨-, hfree⟩
  · exact h t ((mem_groups ha).2 t ht).1
  · rfl
  · exact hfree

/-- A header without references and without parents is composed of its groups. -/
lemma compose_none (h : ∀ t ∈ header, isParentReference t = false) :
    compose none header = .ok ((groups header).map (render "")) := by
  have hfind : header.find? isParentReference = none :=
    List.find?_eq_none.mpr fun t ht => Bool.eq_false_iff.mp (h t ht)
  rw [compose, hfind]

/-- Composing under two headers in turn. -/
lemma compose_compose (parents : Option (List String)) (outer : List Token)
    (hroot : parents = none → ∀ t ∈ outer, isParentReference t = false) (inner : List Token) :
    (compose parents outer >>= fun selectors => compose (some selectors) inner) =
      compose parents (unnest parents.isNone outer inner) := by
  cases parents with
  | some parents =>
    have hgroups (parent : String) :
        ((groups outer).map (under parent)).flatMap (fun s => (groups inner).map (under s)) =
          (groups (unnest false outer inner)).map (under parent) := by
      rw [groups_unnest, List.map_flatMap, List.flatMap_map]
      simp only [List.map_map, Function.comp_def, under_graft]
    show Except.ok _ = Except.ok _
    rw [List.flatMap_assoc]
    simp only [hgroups]
    rfl
  | none =>
    have hgroups :
        ((groups outer).map (render "")).flatMap (fun s => (groups inner).map (under s)) =
          (groups (unnest true outer inner)).map (render "") := by
      rw [groups_unnest, List.map_flatMap, List.flatMap_map]
      simp only [List.map_map, Function.comp_def, render_graft]
      rfl
    rw [Option.isNone_none, compose_none (hroot rfl), compose_none (free_unnest (hroot rfl) inner),
      ← hgroups]
    rfl

/-! ### Headers to any depth -/

/-- The header that stands for several headers, one inside the other, has no `&` outside of
rulesets. -/
lemma free_foldl_unnest {outer : List Token} (h : ∀ t ∈ outer, isParentReference t = false)
    (inner : List (List Token)) :
    ∀ t ∈ inner.foldl (unnest true) outer, isParentReference t = false := by
  induction inner generalizing outer with
  | nil => exact h
  | cons header rest ih => exact ih (free_unnest h header)

/-- Descending composes the outer header and goes on below its selectors. -/
lemma descend_cons (parents : Option (List String)) (outer header : List Token)
    (rest : List (List Token)) :
    descend parents outer (header :: rest) =
      (compose parents outer >>= fun selectors => descend (some selectors) header rest) := by
  unfold descend
  cases compose parents outer <;> rfl

/-- Composing under headers one inside the other, as composing under one header. -/
lemma descend_eq_compose (parents : Option (List String)) (outer : List Token)
    (hroot : parents = none → ∀ t ∈ outer, isParentReference t = false)
    (inner : List (List Token)) :
    descend parents outer inner = compose parents (inner.foldl (unnest parents.isNone) outer) := by
  induction inner generalizing outer with
  | nil => exact bind_pure (compose parents outer)
  | cons header rest ih =>
    have hroot' : parents = none →
        ∀ t ∈ unnest parents.isNone outer header, isParentReference t = false := by
      rintro rfl
      exact free_unnest (hroot rfl) header
    calc descend parents outer (header :: rest)
        = descend parents (unnest parents.isNone outer header) rest := by
          rw [descend, descend, ← compose_compose parents outer hroot header]
          cases compose parents outer <;> rfl
      _ = compose parents ((header :: rest).foldl (unnest parents.isNone) outer) :=
          ih (unnest parents.isNone outer header) hroot'

/-- Literal selectors refer to no parent. -/
lemma free_literals (selectors : List String) :
    ∀ t ∈ literals selectors, isParentReference t = false := by
  apply free_intercalate
  intro group hgroup t ht
  obtain ⟨text, -, rfl⟩ := List.mem_map.mp hgroup
  obtain rfl := List.mem_singleton.mp ht
  rfl

/-- Literal selectors are composed as they are. -/
lemma compose_literals (selectors : List String) :
    compose none (literals selectors) = .ok selectors := by
  have hgroups : groups (literals selectors) =
      selectors.map fun text => [⟨.typeSelector, text, .point 0⟩] := by
    apply groups_intercalate
    intro group hgroup
    obtain ⟨text, -, rfl⟩ := List.mem_map.mp hgroup
    refine ⟨List.cons_ne_nil _ _, fun t ht => ?_⟩
    obtain rfl := List.mem_singleton.mp ht
    rfl
  rw [compose_none (free_literals selectors), hgroups, List.map_map]
  congr 1
  refine (List.map_congr_left fun text _ => ?_).trans (List.map_id selectors)
  exact (render_cons "" _ []).trans String.append_empty

/-- The selectors around a header can be put in place before it is composed. -/
lemma compose_rooted (parents : Option (List String)) (header : List Token) :
    compose none (rooted parents header) = compose parents header := by
  cases parents with
  | none => rfl
  | some parents =>
    have hlaw := compose_compose none (literals parents) (fun _ => free_literals parents) header
    rw [compose_literals] at hlaw
    exact hlaw.symm

/-- A rooted header refers to no parent. -/
lemma free_rooted {parents : Option (List String)}
    (hroot : parents = none → ∀ t ∈ header, isParentReference t = false) :
    ∀ t ∈ rooted parents header, isParentReference t = false := by
  cases parents with
  | none => exact hroot rfl
  | some parents => exact free_unnest (free_literals parents) header

/-! ### Order and number -/

/-- Headers one inside the other, below given selectors: each selector first with all choices of one
group from each header. -/
lemma descend_eq_choices (parents : Option (List String)) (outer : List Token) {first : List String}
    (hfirst : compose parents outer = .ok first) (inner : List (List Token)) :
    descend parents outer inner =
      .ok (first.flatMap fun s => (choices inner).map fun gs => gs.foldl under s) := by
  induction inner generalizing parents outer first with
  | nil =>
    rw [descend, hfirst]
    show Except.ok first = _
    congr 1
    exact (List.flatMap_singleton' first).symm
  | cons header rest ih =>
    rw [descend_cons, hfirst]
    show descend (some first) header rest = _
    rw [ih (some first) header rfl, List.flatMap_assoc]
    simp only [choices, List.flatMap_map, List.map_flatMap, List.map_map, Function.comp_def,
      List.foldl_cons]

/-- Lists of one length for each member add up to a product. -/
lemma length_flatMap_of_length {α β : Type} {f : α → List β} {n : Nat} (hf : ∀ a, (f a).length = n)
    (xs : List α) : (xs.flatMap f).length = xs.length * n := by
  induction xs with
  | nil => exact (Nat.zero_mul n).symm
  | cons a rest ih =>
    rw [List.flatMap_cons, List.length_append, hf, ih, List.length_cons, Nat.succ_mul, Nat.add_comm]

/-- There are as many choices as the product of the groups of all headers. -/
lemma length_choices (headers : List (List Token)) :
    (choices headers).length = (headers.map fun header => (groups header).length).prod := by
  induction headers with
  | nil => rfl
  | cons header rest ih =>
    rw [choices, length_flatMap_of_length (fun group => List.length_map (group :: ·)), ih,
      List.map_cons, List.prod_cons]

/-- Composing a header below parents gives one selector for each parent and each group. -/
lemma exists_compose (parents : Option (List String))
    (hroot : parents = none → ∀ t ∈ header, isParentReference t = false) :
    ∃ first, compose parents header = .ok first ∧
      first.length = parents.elim 1 List.length * (groups header).length := by
  cases parents with
  | none =>
    refine ⟨_, compose_none (hroot rfl), ?_⟩
    rw [List.length_map]
    exact (Nat.one_mul _).symm
  | some parents =>
    exact ⟨_, rfl, length_flatMap_of_length (fun parent => List.length_map (under parent)) parents⟩

/-- **Un-nesting.**  A header inside another one has the selectors of one header, `unnest`, whose
groups are the inner groups put into the outer ones; so have headers nested to any depth.  With the
selectors around it in place that header has no `&`.  There is one selector for each selector around
the headers and each choice of a group from each of them, the innermost group varying first. -/
theorem descend_eq_compose_unnest (parents : Option (List String)) (outer : List Token)
    (hroot : parents = none → ∀ t ∈ outer, isParentReference t = false)
    (inner : List (List Token)) :
    (∀ header : List Token,
      groups (unnest parents.isNone outer header) =
        ((groups outer).flatMap fun a =>
          (groups header).map (graft (anchored parents.isNone a))) ∧
      (compose parents outer >>= fun selectors => compose (some selectors) header) =
        compose parents (unnest parents.isNone outer header)) ∧
    descend parents outer inner = compose parents (inner.foldl (unnest parents.isNone) outer) ∧
    descend parents outer inner =
      compose none (inner.foldl (unnest true) (rooted parents outer)) ∧
    (∀ t ∈ inner.foldl (unnest true) (rooted parents outer), isParentReference t = false) ∧
    ∃ first selectors,
      compose parents outer = .ok first ∧
      descend parents outer inner = .ok selectors ∧
      selectors = (first.flatMap fun s => (choices inner).map fun gs => gs.foldl under s) ∧
      selectors.length = parents.elim 1 List.length *
        ((outer :: inner).map fun header => (groups header).length).prod := by
  have hfree : ∀ t ∈ rooted parents outer, isParentReference t = false := free_rooted hroot
  have hrooted : descend parents outer inner = descend none (rooted parents outer) inner := by
    rw [descend, descend, compose_rooted]
  obtain ⟨first, hfirst, hlength⟩ := exists_compose parents hroot
  refine ⟨fun header => ⟨groups_unnest _ outer header, compose_compose parents outer hroot header⟩,
    descend_eq_compose parents outer hroot inner, ?_, free_foldl_unnest hfree inner, first, _,
    hfirst, descend_eq_choices parents outer hfirst inner, rfl, ?_⟩
  · exact hrooted.trans (descend_eq_compose none (rooted parents outer) (fun _ => hfree) inner)
  · rw [length_flatMap_of_length fun s => List.length_map _, length_choices, hlength, Nat.mul_assoc]
    rfl

/-- `.card,, .panel` -/
def cards : List Token :=
  [⟨.classSelector, ".card", .point 0⟩, comma, comma, ⟨.classSelector, ".panel", .point 0⟩]

/-- `& > &, Label` -/
def twins : List Token :=
  [reference, ⟨.childCombinator, ">", .point 0⟩, reference, comma,
    ⟨.typeSelector, "Label", .point 0⟩]

/-- Two groups below two groups, one of which refers to its parent twice. -/
theorem descend_eq_compose_unnest_cards :
    (∀ t ∈ cards, isParentReference t = false) ∧
    compose none (unnest true cards twins) =
      .ok [".card > .card", ".card Label", ".panel > .panel", ".panel Label"] ∧
    compose (some ["#top"]) (unnest false cards twins) =
      .ok ["#top .card > #top .card", "#top .card Label",
        "#top .panel > #top .panel", "#top .panel Label"] := by
  have hfree : ∀ t ∈ cards, isParentReference t = false := by decide
  have hroot := (descend_eq_compose_unnest none cards (fun _ => hfree) [twins]).2.1
  have hbelow := (descend_eq_compose_unnest (some ["#top"]) cards nofun [twins]).2.1
  exact ⟨hfree, hroot.symm.trans (by decide +kernel), hbelow.symm.trans (by decide +kernel)⟩

end Selector

end StyleSheet
