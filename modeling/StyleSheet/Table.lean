/-!
# Tables

Finite maps from names to things.
-/

namespace StyleSheet

/-- A finite map from names, as a list of entries with different names. -/
structure Table (α : Type) where
  entries : List (String × α)

namespace Table

variable {α : Type}

def empty : Table α := ⟨[]⟩

def get? (t : Table α) (name : String) : Option α := t.entries.lookup name

/-- Binds a name, in place of any earlier binding of it. -/
def insert (t : Table α) (name : String) (a : α) : Table α :=
  ⟨(name, a) :: t.entries.filter (fun e => e.1 != name)⟩

def erase (t : Table α) (name : String) : Table α :=
  ⟨t.entries.filter (fun e => e.1 != name)⟩

def ofList (entries : List (String × α)) : Table α :=
  entries.foldl (fun t e => t.insert e.1 e.2) empty

def values (t : Table α) : List α := t.entries.map Prod.snd

/-- Taking the entries of one name away does not change what another name means. -/
theorem lookup_filter_ne (entries : List (String × α)) {name other : String} (h : other ≠ name) :
    (entries.filter (fun e => e.1 != name)).lookup other = entries.lookup other := by
  induction entries with
  | nil => rfl
  | cons e entries ih =>
    obtain ⟨key, a⟩ := e
    by_cases hkey : key = name
    · subst hkey
      simp [List.lookup_cons, beq_false_of_ne h, ih]
    · rw [List.filter_cons_of_pos (by simpa using hkey)]
      simp only [List.lookup_cons, ih]

/-- A binding is seen under its own name and leaves every other name alone. -/
theorem get?_insert (t : Table α) (name other : String) (a : α) :
    (t.insert name a).get? other = if other = name then some a else t.get? other := by
  by_cases h : other = name
  · simp [get?, insert, h]
  · simp [get?, insert, h, List.lookup_cons, beq_false_of_ne h, lookup_filter_ne t.entries h]

/-- A value that is found is an entry. -/
theorem mem_entries_of_get? {t : Table α} {key : String} {a : α} (h : t.get? key = some a) :
    (key, a) ∈ t.entries := by
  obtain ⟨before, after, hentries, -⟩ := List.lookup_eq_some_iff.mp h
  rw [hentries]
  exact List.mem_append_right _ List.mem_cons_self

/-- What is found is one of the values. -/
theorem mem_values_of_get? {t : Table α} {key : String} {a : α} (h : t.get? key = some a) :
    a ∈ t.values :=
  List.mem_map.mpr ⟨(key, a), mem_entries_of_get? h, rfl⟩

/-- A value after an insertion is the new one or was there before. -/
theorem mem_values_insert {t : Table α} {name : String} {a b : α}
    (h : b ∈ (t.insert name a).values) : b = a ∨ b ∈ t.values := by
  obtain ⟨entry, hentry, rfl⟩ := List.mem_map.mp h
  rcases List.mem_cons.mp hentry with rfl | hentry
  · exact .inl rfl
  · exact .inr (List.mem_map.mpr ⟨entry, (List.mem_filter.mp hentry).1, rfl⟩)

/-- A value that is left after an erasure was there before. -/
theorem mem_values_erase {t : Table α} {name : String} {a : α} (h : a ∈ (t.erase name).values) :
    a ∈ t.values := by
  obtain ⟨entry, hentry, rfl⟩ := List.mem_map.mp h
  exact List.mem_map.mpr ⟨entry, (List.mem_filter.mp hentry).1, rfl⟩

end Table

end StyleSheet
