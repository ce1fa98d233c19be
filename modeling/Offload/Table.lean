namespace Offload

/-- A table from names to values, in order of first insertion. No name comes twice. -/
structure Table (α : Type) where
  entries : List (String × α)
  distinct : (entries.map Prod.fst).Nodup
  deriving DecidableEq

namespace Table

variable {α : Type}

def empty : Table α :=
  ⟨[], List.nodup_nil⟩

def keys (table : Table α) : List String :=
  table.entries.map Prod.fst

/-- The value of the first entry with a name. -/
def lookupEntry (name : String) : List (String × α) → Option α
  | [] => none
  | entry :: rest => if entry.1 = name then some entry.2 else lookupEntry name rest

def find? (table : Table α) (name : String) : Option α :=
  lookupEntry name table.entries

def contains (table : Table α) (name : String) : Bool :=
  table.keys.contains name

def isEmpty (table : Table α) : Bool :=
  table.entries.isEmpty

/-- Replaces the value of a name that is present and keeps its place; a new name goes to the end. -/
def insertEntry (name : String) (value : α) : List (String × α) → List (String × α)
  | [] => [(name, value)]
  | entry :: rest =>
    if entry.1 = name then (name, value) :: rest else entry :: insertEntry name value rest

theorem keys_insertEntry (name : String) (value : α) (entries : List (String × α)) :
    (insertEntry name value entries).map Prod.fst =
      if name ∈ entries.map Prod.fst then entries.map Prod.fst
      else entries.map Prod.fst ++ [name] := by
  induction entries with
  | nil => simp [insertEntry]
  | cons entry rest ih =>
    by_cases same : entry.1 = name
    · simp [insertEntry, same]
    · have other : name ≠ entry.1 := fun eq => same eq.symm
      simp only [insertEntry, same, if_false, List.map_cons, ih, List.mem_cons, other, false_or]
      split <;> rfl

theorem distinct_insertEntry (name : String) (value : α) {entries : List (String × α)}
    (distinct : (entries.map Prod.fst).Nodup) :
    ((insertEntry name value entries).map Prod.fst).Nodup := by
  rw [keys_insertEntry]
  split
  next => exact distinct
  next new =>
    refine List.nodup_append.mpr ⟨distinct, by simp, ?_⟩
    intro a ha b hb eq
    have hb : b = name := by simpa using hb
    exact new (hb ▸ eq ▸ ha)

def insert (table : Table α) (name : String) (value : α) : Table α :=
  ⟨insertEntry name value table.entries, distinct_insertEntry name value table.distinct⟩

def erase (table : Table α) (name : String) : Table α :=
  ⟨table.entries.filter fun entry => entry.1 != name,
    table.distinct.sublist (List.filter_sublist.map Prod.fst)⟩

/-- Stores the entries of a list one after another, so the last value of a name stays. -/
def ofList (entries : List (String × α)) : Table α :=
  entries.foldl (fun table entry => table.insert entry.1 entry.2) empty

/-- Do the two tables give the same value to every name, in whatever order? -/
def agrees [DecidableEq α] (a b : Table α) : Bool :=
  a.keys.length == b.keys.length && a.entries.all fun entry => b.find? entry.1 == some entry.2

@[ext]
theorem ext {a b : Table α} (h : a.entries = b.entries) : a = b := by
  cases a
  cases b
  cases h
  rfl

theorem contains_iff {table : Table α} {name : String} :
    table.contains name = true ↔ name ∈ table.keys :=
  List.contains_iff_mem

theorem insertEntry_new {name : String} (value : α) {entries : List (String × α)}
    (new : name ∉ entries.map Prod.fst) :
    insertEntry name value entries = entries ++ [(name, value)] := by
  induction entries with
  | nil => rfl
  | cons entry rest ih =>
    have other : ¬entry.1 = name := fun eq => new (by simp [eq])
    have absent : name ∉ rest.map Prod.fst := fun mem => new (List.mem_cons_of_mem _ mem)
    rw [insertEntry, if_neg other, ih absent, List.cons_append]

theorem entries_insert_new {table : Table α} {name : String} (new : name ∉ table.keys)
    (value : α) : (table.insert name value).entries = table.entries ++ [(name, value)] :=
  insertEntry_new value new

theorem keys_insert (table : Table α) (name : String) (value : α) :
    (table.insert name value).keys =
      if name ∈ table.keys then table.keys else table.keys ++ [name] :=
  keys_insertEntry name value table.entries

theorem lookupEntry_eq_some_iff {name : String} {value : α} {entries : List (String × α)}
    (distinct : (entries.map Prod.fst).Nodup) :
    lookupEntry name entries = some value ↔ (name, value) ∈ entries := by
  induction entries with
  | nil => simp [lookupEntry]
  | cons entry rest ih =>
    obtain ⟨first, others⟩ := List.nodup_cons.mp distinct
    by_cases here : entry.1 = name
    · have later : (name, value) ∉ rest := fun mem =>
        first (here ▸ List.mem_map_of_mem (f := Prod.fst) mem)
      simp [lookupEntry, here, later, Prod.ext_iff, eq_comm]
    · have other : (name, value) ≠ entry := fun eq => here (eq ▸ rfl)
      simp [lookupEntry, here, other, ih others]

theorem find?_eq_some_iff {table : Table α} {name : String} {value : α} :
    table.find? name = some value ↔ (name, value) ∈ table.entries :=
  lookupEntry_eq_some_iff table.distinct

theorem find?_insert (table : Table α) (name other : String) (value : α) :
    (table.insert name value).find? other =
      if name = other then some value else table.find? other := by
  simp only [find?, insert]
  induction table.entries with
  | nil => rfl
  | cons entry rest ih =>
    by_cases first : entry.1 = name
    · by_cases same : name = other <;> simp [insertEntry, lookupEntry, first, same]
    · by_cases here : entry.1 = other
      · have differs : ¬name = other := fun eq => first (here.trans eq.symm)
        rw [insertEntry, if_neg first, lookupEntry, if_pos here, if_neg differs, lookupEntry,
          if_pos here]
      · simpa [insertEntry, lookupEntry, first, here] using ih

theorem find?_erase (table : Table α) (name other : String) :
    (table.erase name).find? other = if name = other then none else table.find? other := by
  simp only [find?, erase]
  induction table.entries with
  | nil => simp [lookupEntry]
  | cons entry rest ih =>
    by_cases first : entry.1 = name
    · by_cases same : name = other
      · simpa [lookupEntry, first, same] using ih
      · simpa [lookupEntry, first, same] using ih
    · by_cases here : entry.1 = other
      · have differs : ¬name = other := fun eq => first (here.trans eq.symm)
        rw [List.filter_cons_of_pos (by simpa using first), lookupEntry, if_pos here,
          if_neg differs, lookupEntry, if_pos here]
      · simpa [lookupEntry, first, here] using ih

theorem erase_missing {table : Table α} {name : String} (missing : table.find? name = none) :
    table.erase name = table := by
  apply ext
  refine List.filter_eq_self.mpr ?_
  intro entry mem
  have other : entry.1 ≠ name := by
    rintro rfl
    rw [find?_eq_some_iff.mpr mem] at missing
    cases missing
  simpa using other

end Table

end Offload
