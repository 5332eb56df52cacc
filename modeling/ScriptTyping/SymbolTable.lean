import ScriptTyping.Ty

/-!
# Symbol tables

A symbol table gives each declared name its current type. Names keep the place of their first
definition: defining a name again changes its type only.

The main facts are stated on two views of a table, `names` and `lookup`:

* `names_define`, `lookup_define`: a definition appends the name if it is new, and decides what is
  found for this name and no other;
* `names_poison`, `lookup_poison`: poisoning keeps the names, and turns what is found for a
  declared name into `Ty.error`;
* `lookup_ext`: the two views determine the table.
-/

namespace ScriptTyping

/-- Declared names with their types, in the order of first definition, each name once. -/
structure SymbolTable where
  entries : List (String × Ty)
  nodup : (entries.map Prod.fst).Nodup
  deriving DecidableEq

namespace SymbolTable

def empty : SymbolTable := ⟨[], List.nodup_nil⟩

instance : Inhabited SymbolTable := ⟨empty⟩

/-- The declared names, in the order of first definition. -/
def names (table : SymbolTable) : List String := table.entries.map Prod.fst

def size (table : SymbolTable) : Nat := table.entries.length

def isEmpty (table : SymbolTable) : Bool := table.entries.isEmpty

def lookup (table : SymbolTable) (name : String) : Option Ty := table.entries.lookup name

def contains (table : SymbolTable) (name : String) : Bool := (table.lookup name).isSome

/-- Gives `name` the type `ty` wherever it occurs, and leaves the other names alone. -/
def overwriteEntries (name : String) (ty : Ty) (entries : List (String × Ty)) :
    List (String × Ty) :=
  entries.map fun entry => if entry.1 = name then (name, ty) else entry

theorem map_fst_overwriteEntries (name : String) (ty : Ty) (entries : List (String × Ty)) :
    (overwriteEntries name ty entries).map Prod.fst = entries.map Prod.fst := by
  simp only [overwriteEntries, List.map_map]
  apply List.map_congr_left
  intro entry _
  by_cases h : entry.1 = name <;> simp [h]

theorem lookup_cons_eq_ite (name key : String) (ty : Ty) (entries : List (String × Ty)) :
    ((key, ty) :: entries).lookup name = if name = key then some ty else entries.lookup name := by
  by_cases h : name = key
  · simp [h]
  · simp [List.lookup_cons, beq_false_of_ne h, h]

theorem lookup_overwriteEntries (name other : String) (ty : Ty) (entries : List (String × Ty)) :
    (overwriteEntries name ty entries).lookup other =
      if other = name then (entries.lookup other).map fun _ => ty else entries.lookup other := by
  induction entries with
  | nil => simp [overwriteEntries]
  | cons entry rest ih =>
    obtain ⟨key, current⟩ := entry
    simp only [overwriteEntries] at ih
    simp only [overwriteEntries, List.map_cons]
    by_cases hkey : key = name <;> by_cases hother : other = name <;>
      by_cases hsame : other = key <;> simp_all [lookup_cons_eq_ite]

theorem lookup_isSome_iff {name : String} {entries : List (String × Ty)} :
    (entries.lookup name).isSome = true ↔ name ∈ entries.map Prod.fst := by
  induction entries with
  | nil => simp
  | cons entry rest ih =>
    obtain ⟨key, current⟩ := entry
    rw [lookup_cons_eq_ite]
    by_cases h : name = key
    · simp [h]
    · rw [if_neg h, ih]
      simp [h]

theorem lookup_eq_none_iff {name : String} {entries : List (String × Ty)} :
    entries.lookup name = none ↔ name ∉ entries.map Prod.fst := by
  rw [← lookup_isSome_iff, Bool.not_eq_true, Option.isSome_eq_false_iff, Option.isNone_iff_eq_none]

/-- Changes the type of a declared name; a table that lacks the name is left as it is. -/
def overwrite (table : SymbolTable) (name : String) (ty : Ty) : SymbolTable where
  entries := overwriteEntries name ty table.entries
  nodup := by
    rw [map_fst_overwriteEntries]
    exact table.nodup

/-- Makes a declared name unusable: from here on its type is `Ty.error`. -/
def poison (table : SymbolTable) (name : String) : SymbolTable :=
  table.overwrite name .error

/-- Gives `name` the type `ty`. A name seen for the first time goes to the end. -/
def define (table : SymbolTable) (name : String) (ty : Ty) : SymbolTable :=
  if h : table.contains name then
    table.overwrite name ty
  else
    { entries := table.entries ++ [(name, ty)]
      nodup := by
        have fresh : name ∉ table.entries.map Prod.fst :=
          fun mem => h (lookup_isSome_iff.mpr mem)
        rw [List.map_append, List.nodup_append]
        refine ⟨table.nodup, by simp, fun key mem last hlast same => fresh ?_⟩
        simp only [List.map_cons, List.map_nil, List.mem_singleton] at hlast
        exact hlast ▸ same ▸ mem }

/-- Defines the pairs from left to right. -/
def ofList (entries : List (String × Ty)) : SymbolTable :=
  entries.foldl (fun table entry => table.define entry.1 entry.2) empty

/-! ## Names and lookups after a change -/

theorem contains_iff {table : SymbolTable} {name : String} :
    table.contains name = true ↔ name ∈ table.names :=
  lookup_isSome_iff

@[simp] theorem names_overwrite (table : SymbolTable) (name : String) (ty : Ty) :
    (table.overwrite name ty).names = table.names :=
  map_fst_overwriteEntries name ty table.entries

/-- Overwriting changes the type of the one name, provided that the table knows it. -/
theorem lookup_overwrite (table : SymbolTable) (name other : String) (ty : Ty) :
    (table.overwrite name ty).lookup other =
      if other = name then (table.lookup other).map fun _ => ty else table.lookup other :=
  lookup_overwriteEntries name other ty table.entries

/-- A definition keeps the place of a known name and appends an unknown one. -/
theorem names_define (table : SymbolTable) (name : String) (ty : Ty) :
    (table.define name ty).names =
      if table.contains name then table.names else table.names ++ [name] := by
  unfold define
  split
  · simp
  · simp [names]

/-- After a definition the name has the type defined, and every other name what it had. -/
theorem lookup_define (table : SymbolTable) (name other : String) (ty : Ty) :
    (table.define name ty).lookup other = if other = name then some ty else table.lookup other := by
  unfold define
  split
  case isTrue h =>
    rw [lookup_overwrite]
    split
    case isTrue same =>
      subst same
      obtain ⟨current, found⟩ := Option.isSome_iff_exists.mp h
      simp [found]
    case isFalse => rfl
  case isFalse h =>
    have missing : table.entries.lookup name = none :=
      lookup_eq_none_iff.mpr fun mem => h (lookup_isSome_iff.mpr mem)
    by_cases same : other = name
    · subst same
      simp [lookup, List.lookup_append, missing]
    · simp [lookup, List.lookup_append, lookup_cons_eq_ite, same]

@[simp] theorem names_poison (table : SymbolTable) (name : String) :
    (table.poison name).names = table.names :=
  names_overwrite table name .error

/-- Poisoning makes `Ty.error` of the type of a known name, and leaves an unknown one unknown. -/
theorem lookup_poison (table : SymbolTable) (name other : String) :
    (table.poison name).lookup other =
      if other = name then (table.lookup other).map fun _ => .error else table.lookup other :=
  lookup_overwrite table name other .error

/-- A table is determined by its names, in order, and by what it finds for them. -/
theorem lookup_ext {a b : SymbolTable} (hnames : a.names = b.names)
    (hlookup : ∀ name, a.lookup name = b.lookup name) : a = b := by
  obtain ⟨as, ha⟩ := a
  obtain ⟨bs, hb⟩ := b
  simp only [names, lookup, mk.injEq] at *
  induction as generalizing bs with
  | nil => cases bs <;> simp_all
  | cons entry rest ih =>
    obtain ⟨key, ty⟩ := entry
    cases bs with
    | nil => simp at hnames
    | cons entry' rest' =>
      obtain ⟨key', ty'⟩ := entry'
      simp only [List.map_cons, List.cons.injEq] at hnames
      obtain ⟨rfl, hrest⟩ := hnames
      simp only [List.map_cons, List.nodup_cons] at ha hb
      have here := hlookup key
      simp only [List.lookup_cons_self, Option.some.injEq] at here
      subst here
      refine congrArg _ (ih ha.2 rest' hb.2 hrest fun name => ?_)
      by_cases same : name = key
      · subst same
        rw [lookup_eq_none_iff.mpr ha.1, lookup_eq_none_iff.mpr hb.1]
      · have there := hlookup name
        simpa [lookup_cons_eq_ite, same] using there

end SymbolTable

end ScriptTyping
