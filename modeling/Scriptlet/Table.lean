/-!
Tables from names to values, in the order in which the names were first entered.

No name occurs twice: `insert` replaces the value of a name that is there and appends a new name at
the end.  A table serves as the record of a function's variables and as the function table of a
program.  Everything is stated through `find?`: what `insert` does to every look-up, and that
`size` counts the names that are found.

Two tables with the same look-ups can be different, as they may have entries in different orders.  The
order is that of the first insertion, and shows only where names are listed.
-/

namespace Scriptlet

/-- A finite map from names, without duplicates. -/
structure Table (α : Type) where
  entries : List (String × α)
  nodup : (entries.map Prod.fst).Nodup

namespace Table

variable {α : Type}

/-- The names with their values replaced: `name` has `value` wherever it occurs. -/
def replaceIn (name : String) (value : α) : List (String × α) → List (String × α)
  | [] => [(name, value)]
  | (n, v) :: rest => if n = name then (n, value) :: rest else (n, v) :: replaceIn name value rest

/-- The value of the first entry for `name`. -/
def findIn (name : String) : List (String × α) → Option α
  | [] => none
  | (n, v) :: rest => if n = name then some v else findIn name rest

/-- The names after an entry: unchanged if the name was there, else with the name at the end. -/
theorem map_fst_replaceIn (name : String) (value : α) (entries : List (String × α)) :
    (replaceIn name value entries).map Prod.fst =
      if name ∈ entries.map Prod.fst then entries.map Prod.fst
      else entries.map Prod.fst ++ [name] := by
  induction entries with
  | nil => simp [replaceIn]
  | cons e rest ih =>
    obtain ⟨n, v⟩ := e
    by_cases h : n = name
    · simp [replaceIn, h]
    · have h' : ¬ name = n := fun e => h e.symm
      simp only [replaceIn, h, if_false, List.map_cons, ih, List.mem_cons, h', false_or]
      split <;> simp

theorem nodup_replaceIn (name : String) (value : α) {entries : List (String × α)}
    (h : (entries.map Prod.fst).Nodup) : ((replaceIn name value entries).map Prod.fst).Nodup := by
  rw [map_fst_replaceIn]
  split
  · exact h
  · next hn =>
    refine List.nodup_append.2 ⟨h, by simp, ?_⟩
    intro a ha b hb hab
    simp only [List.mem_singleton] at hb
    exact hn (hb ▸ hab ▸ ha)

/-- The table without names. -/
def empty : Table α := ⟨[], by simp⟩

instance : Inhabited (Table α) := ⟨empty⟩

/-- The value of a name. -/
def find? (t : Table α) (name : String) : Option α := findIn name t.entries

/-- The table in which `name` has `value` and every other name what it had. -/
def insert (t : Table α) (name : String) (value : α) : Table α :=
  ⟨replaceIn name value t.entries, nodup_replaceIn name value t.nodup⟩

/-- The names in the order of their first entry. -/
def names (t : Table α) : List String := t.entries.map Prod.fst

/-- How many names there are. -/
def size (t : Table α) : Nat := t.entries.length

/-! ## The laws -/

theorem findIn_replaceIn (name other : String) (value : α) (entries : List (String × α)) :
    findIn other (replaceIn name value entries) =
      if other = name then some value else findIn other entries := by
  induction entries with
  | nil => simp only [replaceIn, findIn, eq_comm]
  | cons e rest ih =>
    obtain ⟨n, v⟩ := e
    by_cases h : n = name
    · -- the entry is replaced in place
      by_cases ho : other = name
      · simp [replaceIn, findIn, h, ho]
      · have ho' : ¬ name = other := fun e => ho e.symm
        simp [replaceIn, findIn, h, ho, ho']
    · -- the entry is passed over
      simp only [replaceIn, h, if_false, findIn, ih]
      by_cases hn : n = other
      · simp [← hn, h]
      · simp [hn]

/-- A look-up after an entry. -/
@[simp] theorem find?_insert (t : Table α) (name other : String) (value : α) :
    (t.insert name value).find? other = if other = name then some value else t.find? other :=
  findIn_replaceIn name other value t.entries

theorem findIn_eq_none_iff {name : String} {entries : List (String × α)} :
    findIn name entries = none ↔ name ∉ entries.map Prod.fst := by
  induction entries with
  | nil => simp [findIn]
  | cons e rest ih =>
    obtain ⟨n, v⟩ := e
    by_cases h : n = name
    · simp [findIn, h]
    · have h' : ¬ name = n := fun e => h e.symm
      simp [findIn, h, h', ih]

/-- A name is found exactly if it is among the names. -/
theorem find?_eq_none_iff {t : Table α} {name : String} : t.find? name = none ↔ name ∉ t.names :=
  findIn_eq_none_iff

theorem findIn_of_mem {name : String} {value : α} {entries : List (String × α)}
    (h : (entries.map Prod.fst).Nodup) (hmem : (name, value) ∈ entries) :
    findIn name entries = some value := by
  induction entries with
  | nil => cases hmem
  | cons e rest ih =>
    obtain ⟨n, v⟩ := e
    rw [List.map_cons, List.nodup_cons] at h
    rcases List.mem_cons.1 hmem with heq | hrest
    · cases heq
      simp [findIn]
    · have hne : ¬ n = name := fun heq => h.1 (List.mem_map.2 ⟨(name, value), hrest, heq.symm⟩)
      rw [findIn, if_neg hne]
      exact ih h.2 hrest

/-- Every entry is found under its name. -/
theorem find?_of_mem {t : Table α} {entry : String × α} (h : entry ∈ t.entries) :
    t.find? entry.1 = some entry.2 :=
  findIn_of_mem t.nodup h

/-- The size is the number of names. -/
theorem size_eq (t : Table α) : t.size = t.names.length := by simp [size, names]

end Table
end Scriptlet
