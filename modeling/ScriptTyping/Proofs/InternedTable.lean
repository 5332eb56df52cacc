import Mathlib.Data.List.Induction
import Mathlib.Data.List.Nodup
import ScriptTyping.SymbolTable

/-!
# Symbol tables over a string interner

A table can keep its names in a string interner and its types in a hash map keyed by the symbols of
the interner. The two parts have to stay in step: a symbol without a type would be a hole in the
iteration, and two names with one symbol would share a type.

* **`SymbolTable.names_ofList`**, **`SymbolTable.lookup_ofList`**, **`SymbolTable.ofList_entries`**:
  a table is an insertion-ordered map of the definitions that made it.
* **`Interner`**, **`Interner.Lawful`**: interners, and what is asked of one.
* **`InternedTable.Represents`**: the two parts are in step, and stand for a `SymbolTable`. A
  definition keeps this (`Represents.define`), and so does any number of them
  (`represents_ofList`).
* **`InternedTable.ofList_ordered`**: an interned table is an insertion-ordered map too.
-/

namespace ScriptTyping

/-! ## A table from a list of definitions -/

namespace SymbolTable

theorem ofList_concat (definitions : List (String × Ty)) (name : String) (ty : Ty) :
    ofList (definitions ++ [(name, ty)]) = (ofList definitions).define name ty := by
  simp [ofList]

theorem size_define (table : SymbolTable) (name : String) (ty : Ty) :
    (table.define name ty).size = if table.contains name then table.size else table.size + 1 := by
  have hsize : ∀ table : SymbolTable, table.size = table.names.length := by
    simp [size, names]
  rw [hsize, hsize, names_define]
  split <;> simp

/-- Each defined name is there once, at the place of its first definition. -/
theorem names_ofList (definitions : List (String × Ty)) :
    (ofList definitions).names = (definitions.map Prod.fst).eraseDups := by
  induction definitions using List.reverseRecOn with
  | nil => rfl
  | append_singleton definitions last ih =>
    obtain ⟨name, ty⟩ := last
    have hcontains : (ofList definitions).contains name = true
        ↔ name ∈ definitions.map Prod.fst := by
      rw [contains_iff, ih, List.mem_eraseDups]
    rw [ofList_concat, names_define, ih, List.map_append, List.eraseDups_append]
    by_cases hdefined : name ∈ definitions.map Prod.fst
    · rw [if_pos (hcontains.mpr hdefined)]
      simp [List.removeAll, hdefined]
    · rw [if_neg (hcontains.not.mpr hdefined)]
      simp [List.removeAll, List.eraseDups_cons, hdefined]

/-- The last definition of a name decides its type. -/
theorem lookup_ofList (definitions : List (String × Ty)) (name : String) :
    (ofList definitions).lookup name = definitions.reverse.lookup name := by
  induction definitions using List.reverseRecOn with
  | nil => rfl
  | append_singleton definitions last ih =>
    rw [ofList_concat, lookup_define, ih, List.reverse_append, List.reverse_singleton,
      List.singleton_append, lookup_cons_eq_ite]

/-- Where no name is listed twice, looking a name up finds the pair that is listed. -/
theorem lookup_eq_some_iff_mem {entries : List (String × Ty)} (h : (entries.map Prod.fst).Nodup)
    {name : String} {ty : Ty} : entries.lookup name = some ty ↔ (name, ty) ∈ entries := by
  induction entries with
  | nil => simp
  | cons entry rest ih =>
    obtain ⟨key, current⟩ := entry
    obtain ⟨hkey, hrest⟩ := List.nodup_cons.mp h
    rw [lookup_cons_eq_ite]
    by_cases hname : name = key
    · -- a second entry for the key would repeat it
      subst hname
      have hnot : (name, ty) ∉ rest := fun hmem => hkey (List.mem_map.mpr ⟨(name, ty), hmem, rfl⟩)
      simp [hnot, eq_comm]
    · simp [hname, ih hrest]

theorem mem_entries_iff {table : SymbolTable} {name : String} {ty : Ty} :
    (name, ty) ∈ table.entries ↔ table.lookup name = some ty :=
  (lookup_eq_some_iff_mem table.nodup).symm

/-- The entries can be read back from the two views `names` and `lookup`. -/
theorem filterMap_names (table : SymbolTable) :
    table.names.filterMap (fun name => (table.lookup name).map (name, ·)) = table.entries := by
  rw [names, List.filterMap_map]
  calc table.entries.filterMap ((fun name => (table.lookup name).map (name, ·)) ∘ Prod.fst)
      = table.entries.filterMap some := by
        refine List.filterMap_congr fun entry hentry => ?_
        have hfound : table.lookup entry.1 = some entry.2 := mem_entries_iff.mp hentry
        simp [hfound]
    _ = table.entries := List.filterMap_some

theorem eraseDups_eq_self {names : List String} (h : names.Nodup) : names.eraseDups = names := by
  induction names with
  | nil => rfl
  | cons name rest ih =>
    obtain ⟨hname, hrest⟩ := List.nodup_cons.mp h
    have hfilter : rest.filter (!· == name) = rest := by
      refine List.filter_eq_self.mpr fun other hother => ?_
      have hne : other ≠ name := fun hsame => hname (hsame ▸ hother)
      simp [hne]
    rw [List.eraseDups_cons, hfilter, ih hrest]

/-- Defining the entries of a table in their order gives the table back. -/
theorem ofList_entries (table : SymbolTable) : ofList table.entries = table := by
  refine lookup_ext ?_ fun name => ?_
  · rw [names_ofList]
    exact eraseDups_eq_self table.nodup
  · have hreverse : (table.entries.reverse.map Prod.fst).Nodup := by
      rw [List.map_reverse, List.nodup_reverse]
      exact table.nodup
    refine Option.ext fun ty => ?_
    rw [lookup_ofList, lookup_eq_some_iff_mem hreverse, List.mem_reverse, mem_entries_iff]

end SymbolTable

/-! ## Interners -/

/-- The part of a string interner that a table uses. -/
structure Interner (State Symbol : Type) where
  empty : State
  /-- The symbol of a string, which is interned if it is new. -/
  intern : State → String → Symbol × State
  /-- The symbol of an interned string. -/
  get? : State → String → Option Symbol
  /-- The symbols with their strings. -/
  entries : State → List (Symbol × String)

variable {State Symbol : Type}

/-- Equal strings have one symbol, a string not seen before has a symbol of its own, and the strings
are listed in the order in which they were interned. -/
structure Interner.Lawful (interner : Interner State Symbol) : Prop where
  entries_empty : interner.entries interner.empty = []
  get?_eq_some_iff : ∀ state name symbol,
    interner.get? state name = some symbol ↔ (symbol, name) ∈ interner.entries state
  intern_of_some : ∀ state name symbol, interner.get? state name = some symbol →
    (interner.intern state name).1 = symbol
      ∧ interner.entries (interner.intern state name).2 = interner.entries state
  intern_of_none : ∀ state name, interner.get? state name = none →
    (interner.intern state name).1 ∉ (interner.entries state).map Prod.fst
      ∧ interner.entries (interner.intern state name).2
        = interner.entries state ++ [((interner.intern state name).1, name)]

namespace Interner.Lawful

variable {interner : Interner State Symbol}

/-- A lawful interner has no symbol for exactly those strings that it does not list. -/
theorem get?_eq_none_iff (hlawful : interner.Lawful) (state : State) (name : String) :
    interner.get? state name = none ↔ name ∉ (interner.entries state).map Prod.snd := by
  rw [Option.eq_none_iff_forall_ne_some]
  simp [hlawful.get?_eq_some_iff]

/-- Interning a string adds it, with the symbol that is returned, and nothing else. -/
theorem mem_entries_intern_iff (hlawful : interner.Lawful) (state : State) (name : String)
    (entry : Symbol × String) :
    entry ∈ interner.entries (interner.intern state name).2 ↔
      entry ∈ interner.entries state ∨ entry = ((interner.intern state name).1, name) := by
  cases hget : interner.get? state name with
  | some symbol =>
    obtain ⟨hsymbol, hentries⟩ := hlawful.intern_of_some state name symbol hget
    rw [hentries, hsymbol]
    have hmem := (hlawful.get?_eq_some_iff state name symbol).mp hget
    exact ⟨.inl, fun h => h.elim id (· ▸ hmem)⟩
  | none =>
    rw [(hlawful.intern_of_none state name hget).2]
    simp

end Interner.Lawful

/-! ## Interned tables -/

/-- Names in an interner, and types by the symbols of the names. -/
structure InternedTable (State Symbol : Type) [BEq Symbol] [Hashable Symbol] where
  names : State
  types : Std.HashMap Symbol Ty

namespace InternedTable

variable [DecidableEq Symbol] [Hashable Symbol] (interner : Interner State Symbol)

def empty : InternedTable State Symbol := ⟨interner.empty, ∅⟩

/-- Gives `name` the type `ty`, and returns the type it had. -/
def define (table : InternedTable State Symbol) (name : String) (ty : Ty) :
    Option Ty × InternedTable State Symbol :=
  let (symbol, names) := interner.intern table.names name
  (table.types[symbol]?, ⟨names, table.types.insert symbol ty⟩)

def lookup (table : InternedTable State Symbol) (name : String) : Option Ty := do
  let symbol ← interner.get? table.names name
  table.types[symbol]?

def contains (table : InternedTable State Symbol) (name : String) : Bool :=
  (table.lookup interner name).isSome

def size (table : InternedTable State Symbol) : Nat := table.types.size

def isEmpty (table : InternedTable State Symbol) : Bool := table.types.isEmpty

/-- The names with their types, as the interner lists the names. -/
def iter (table : InternedTable State Symbol) : List (String × Ty) :=
  (interner.entries table.names).filterMap fun (symbol, name) =>
    table.types[symbol]?.map fun ty => (name, ty)

/-- Defines the pairs from left to right. -/
def ofList (definitions : List (String × Ty)) : InternedTable State Symbol :=
  definitions.foldl (fun table entry => (table.define interner entry.1 entry.2).2) (empty interner)

/-! ## What an interned table stands for -/

/-- The interner and the map are in step, and hold the names and types of `table`. -/
structure Represents (interned : InternedTable State Symbol) (table : SymbolTable) : Prop where
  names_eq : (interner.entries interned.names).map Prod.snd = table.names
  injective : ∀ symbol name other, (symbol, name) ∈ interner.entries interned.names →
    (symbol, other) ∈ interner.entries interned.names → name = other
  types_eq : ∀ symbol name, (symbol, name) ∈ interner.entries interned.names →
    interned.types[symbol]? = table.lookup name
  unused : ∀ symbol, symbol ∉ (interner.entries interned.names).map Prod.fst →
    interned.types[symbol]? = none
  size_eq : interned.types.size = table.size

variable {interner} {interned : InternedTable State Symbol} {table : SymbolTable}

theorem represents_empty (hlawful : interner.Lawful) :
    Represents interner (empty interner) SymbolTable.empty where
  names_eq := by simp [empty, hlawful.entries_empty, SymbolTable.names, SymbolTable.empty]
  injective := by simp [empty, hlawful.entries_empty]
  types_eq := by simp [empty, hlawful.entries_empty]
  unused := by simp [empty]
  size_eq := by simp [empty, SymbolTable.size, SymbolTable.empty]

namespace Represents

theorem get?_eq_none_iff (h : Represents interner interned table) (hlawful : interner.Lawful)
    (name : String) : interner.get? interned.names name = none ↔ table.lookup name = none := by
  rw [hlawful.get?_eq_none_iff, h.names_eq]
  exact SymbolTable.lookup_eq_none_iff.symm

/-- An interned table finds what the table that it stands for finds. -/
theorem lookup_eq (h : Represents interner interned table) (hlawful : interner.Lawful)
    (name : String) : interned.lookup interner name = table.lookup name := by
  unfold lookup
  cases hget : interner.get? interned.names name with
  | some symbol =>
    exact h.types_eq symbol name ((hlawful.get?_eq_some_iff _ name symbol).mp hget)
  | none => exact ((h.get?_eq_none_iff hlawful name).mp hget).symm

theorem contains_eq (h : Represents interner interned table) (hlawful : interner.Lawful)
    (name : String) : interned.contains interner name = table.contains name := by
  rw [contains, SymbolTable.contains, h.lookup_eq hlawful]

/-- Before a definition, the symbol that the name is about to have carries the type that the name
had. A fresh symbol carries none. -/
theorem types_intern (h : Represents interner interned table) (hlawful : interner.Lawful)
    (name : String) :
    interned.types[(interner.intern interned.names name).1]? = table.lookup name := by
  cases hget : interner.get? interned.names name with
  | some symbol =>
    rw [(hlawful.intern_of_some _ name symbol hget).1]
    exact h.types_eq symbol name ((hlawful.get?_eq_some_iff _ name symbol).mp hget)
  | none =>
    rw [h.unused _ (hlawful.intern_of_none _ name hget).1,
      (h.get?_eq_none_iff hlawful name).mp hget]

/-- Interning a name has the effect on the listed strings that a definition has on the names of the
table. -/
theorem names_intern (h : Represents interner interned table) (hlawful : interner.Lawful)
    (name : String) (ty : Ty) :
    (interner.entries (interner.intern interned.names name).2).map Prod.snd
      = (table.define name ty).names := by
  rw [SymbolTable.names_define, SymbolTable.contains]
  cases hget : interner.get? interned.names name with
  | some symbol =>
    have hdeclared : table.lookup name ≠ none := fun hnone =>
      Option.some_ne_none symbol (hget.symm.trans ((h.get?_eq_none_iff hlawful name).mpr hnone))
    rw [if_pos (Option.isSome_iff_ne_none.mpr hdeclared),
      (hlawful.intern_of_some _ name symbol hget).2, h.names_eq]
  | none =>
    rw [(h.get?_eq_none_iff hlawful name).mp hget, if_neg (by simp),
      (hlawful.intern_of_none _ name hget).2, List.map_append, h.names_eq]
    rfl

/-- Interning keeps the symbols of different strings apart. -/
theorem injective_intern (h : Represents interner interned table) (hlawful : interner.Lawful)
    (name : String) (symbol : Symbol) (left right : String)
    (hleft : (symbol, left) ∈ interner.entries (interner.intern interned.names name).2)
    (hright : (symbol, right) ∈ interner.entries (interner.intern interned.names name).2) :
    left = right := by
  cases hget : interner.get? interned.names name with
  | some known =>
    rw [(hlawful.intern_of_some _ name known hget).2] at hleft hright
    exact h.injective symbol left right hleft hright
  | none =>
    obtain ⟨hfresh, hentries⟩ := hlawful.intern_of_none _ name hget
    have hused : ∀ other, (symbol, other) ∈ interner.entries interned.names →
        symbol ≠ (interner.intern interned.names name).1 :=
      fun other hmem hsame => hfresh (hsame ▸ List.mem_map.mpr ⟨(symbol, other), hmem, rfl⟩)
    rw [hentries, List.mem_append, List.mem_singleton, Prod.mk.injEq] at hleft hright
    -- the fresh symbol belongs to the new name only
    obtain hleft | ⟨hsymbol, hleft⟩ := hleft <;> obtain hright | ⟨hsymbol', hright⟩ := hright
    · exact h.injective symbol left right hleft hright
    · exact absurd hsymbol' (hused left hleft)
    · exact absurd hsymbol (hused right hright)
    · rw [hleft, hright]

/-- A definition keeps the interner and the map in step. -/
theorem define (h : Represents interner interned table) (hlawful : interner.Lawful)
    (name : String) (ty : Ty) :
    Represents interner (interned.define interner name ty).2 (table.define name ty) := by
  have hself : ((interner.intern interned.names name).1, name)
      ∈ interner.entries (interner.intern interned.names name).2 :=
    (hlawful.mem_entries_intern_iff _ name _).mpr (.inr rfl)
  refine ⟨h.names_intern hlawful name ty, h.injective_intern hlawful name,
    ?types_eq, ?unused, ?size_eq⟩
  case types_eq =>
    intro symbol other hmem
    show (interned.types.insert (interner.intern interned.names name).1 ty)[symbol]? = _
    rw [Std.HashMap.getElem?_insert, SymbolTable.lookup_define]
    by_cases hother : other = name
    · -- a name has one symbol
      subst hother
      have hsymbol : (interner.intern interned.names other).1 = symbol :=
        Option.some.inj (((hlawful.get?_eq_some_iff _ _ _).mpr hself).symm.trans
          ((hlawful.get?_eq_some_iff _ _ _).mpr hmem))
      rw [if_pos (beq_iff_eq.mpr hsymbol), if_pos rfl]
    · -- a symbol has one name
      have hsymbol : (interner.intern interned.names name).1 ≠ symbol := fun hsame =>
        hother (h.injective_intern hlawful name symbol other name hmem (hsame ▸ hself))
      have hbefore : (symbol, other) ∈ interner.entries interned.names := by
        refine ((hlawful.mem_entries_intern_iff _ name _).mp hmem).resolve_right fun hsame => ?_
        exact hother (Prod.mk.inj hsame).2
      rw [if_neg (by simpa using hsymbol), if_neg hother]
      exact h.types_eq symbol other hbefore
  case unused =>
    intro symbol hunused
    show (interned.types.insert (interner.intern interned.names name).1 ty)[symbol]? = none
    have hsymbol : (interner.intern interned.names name).1 ≠ symbol := fun hsame =>
      hunused (hsame ▸ List.mem_map.mpr ⟨_, hself, rfl⟩)
    have hbefore : symbol ∉ (interner.entries interned.names).map Prod.fst := fun hused => by
      obtain ⟨entry, hentry, hfst⟩ := List.mem_map.mp hused
      exact hunused (List.mem_map.mpr
        ⟨entry, (hlawful.mem_entries_intern_iff _ name entry).mpr (.inl hentry), hfst⟩)
    rw [Std.HashMap.getElem?_insert, if_neg (by simpa using hsymbol), h.unused symbol hbefore]
  case size_eq =>
    show (interned.types.insert (interner.intern interned.names name).1 ty).size = _
    have hmem : (interner.intern interned.names name).1 ∈ interned.types
        ↔ table.contains name = true := by
      rw [Std.HashMap.mem_iff_isSome_getElem?, h.types_intern hlawful name, SymbolTable.contains]
    rw [Std.HashMap.size_insert, SymbolTable.size_define, h.size_eq]
    simp only [hmem]

/-- An interned table lists the entries of the table that it stands for, in their order. -/
theorem iter_eq (h : Represents interner interned table) :
    interned.iter interner = table.entries := by
  have hiter : interned.iter interner
      = (interner.entries interned.names).filterMap
          ((fun name => (table.lookup name).map (name, ·)) ∘ Prod.snd) := by
    refine List.filterMap_congr fun entry hentry => ?_
    simp [h.types_eq entry.1 entry.2 hentry]
  rw [hiter, ← List.filterMap_map, h.names_eq, table.filterMap_names]

theorem isEmpty_eq (h : Represents interner interned table) :
    interned.isEmpty = table.isEmpty := by
  rw [isEmpty, SymbolTable.isEmpty, Std.HashMap.isEmpty_eq_size_eq_zero, h.size_eq,
    SymbolTable.size]
  cases table.entries <;> rfl

end Represents

theorem ofList_concat (definitions : List (String × Ty)) (name : String) (ty : Ty) :
    ofList interner (definitions ++ [(name, ty)])
      = ((ofList interner definitions).define interner name ty).2 := by
  simp [ofList]

/-- However many definitions are made, the interner and the map stay in step. -/
theorem represents_ofList (hlawful : interner.Lawful) (definitions : List (String × Ty)) :
    Represents interner (ofList interner definitions) (SymbolTable.ofList definitions) := by
  induction definitions using List.reverseRecOn with
  | nil => exact represents_empty hlawful
  | append_singleton definitions last ih =>
    rw [ofList_concat, SymbolTable.ofList_concat]
    exact ih.define hlawful last.1 last.2

/-- Whatever the definitions, an interned table is their insertion-ordered map: it lists each name
once, at the place of its first definition and with the type of its last, its queries agree with
that list, and the list makes the table again. A table without an interner answers alike. -/
theorem ofList_ordered (hlawful : interner.Lawful) (definitions : List (String × Ty)) :
    let table := ofList interner definitions
    let rebuilt := ofList interner (table.iter interner)
    ((table.iter interner).map Prod.fst = (definitions.map Prod.fst).eraseDups
        ∧ ((table.iter interner).map Prod.fst).Nodup
        ∧ ∀ name ty, (name, ty) ∈ table.iter interner ↔ definitions.reverse.lookup name = some ty)
      ∧ (∀ name, table.lookup interner name = definitions.reverse.lookup name
        ∧ (table.lookup interner name = none ↔ name ∉ definitions.map Prod.fst)
        ∧ (table.contains interner name = true ↔ name ∈ (table.iter interner).map Prod.fst))
      ∧ (table.size = (table.iter interner).length
        ∧ table.isEmpty = (table.iter interner).isEmpty
        ∧ (interner.entries table.names).map Prod.snd = (table.iter interner).map Prod.fst)
      ∧ (∀ name ty, (table.define interner name ty).1 = table.lookup interner name
        ∧ (table.define interner name ty).2 = ofList interner (definitions ++ [(name, ty)])
        ∧ ∀ other, (table.define interner name ty).2.lookup interner other
            = if other = name then some ty else table.lookup interner other)
      ∧ (rebuilt.iter interner = table.iter interner
        ∧ rebuilt.size = table.size
        ∧ ∀ name, rebuilt.lookup interner name = table.lookup interner name)
      ∧ ((SymbolTable.ofList definitions).entries = table.iter interner
        ∧ (SymbolTable.ofList definitions).size = table.size
        ∧ (SymbolTable.ofList definitions).isEmpty = table.isEmpty
        ∧ ∀ name, (SymbolTable.ofList definitions).lookup name = table.lookup interner name
          ∧ (SymbolTable.ofList definitions).contains name = table.contains interner name) := by
  intro table rebuilt
  have htable : Represents interner table (SymbolTable.ofList definitions) :=
    represents_ofList hlawful definitions
  have hagain : SymbolTable.ofList (table.iter interner) = SymbolTable.ofList definitions := by
    rw [htable.iter_eq, SymbolTable.ofList_entries]
  have hrebuilt : Represents interner rebuilt (SymbolTable.ofList definitions) :=
    hagain ▸ represents_ofList hlawful (table.iter interner)
  have hnames : (table.iter interner).map Prod.fst = (SymbolTable.ofList definitions).names := by
    rw [htable.iter_eq]
    rfl
  refine ⟨⟨?names, ?once, ?types⟩, ?queries, ⟨?size, ?isEmpty, ?interned⟩, ?define,
    ⟨?again, ?againSize, ?againLookup⟩, ?plain⟩
  case names => rw [hnames, SymbolTable.names_ofList]
  case once =>
    rw [hnames]
    exact (SymbolTable.ofList definitions).nodup
  case types =>
    intro name ty
    rw [htable.iter_eq, SymbolTable.mem_entries_iff, SymbolTable.lookup_ofList]
  case queries =>
    intro name
    refine ⟨?_, ?_, ?_⟩
    · rw [htable.lookup_eq hlawful, SymbolTable.lookup_ofList]
    · rw [htable.lookup_eq hlawful, SymbolTable.lookup_ofList, SymbolTable.lookup_eq_none_iff,
        List.map_reverse, List.mem_reverse]
    · rw [hnames, ← SymbolTable.contains_iff, htable.contains_eq hlawful]
  case size =>
    rw [htable.iter_eq]
    exact htable.size_eq
  case isEmpty =>
    rw [htable.iter_eq]
    exact htable.isEmpty_eq
  case interned => rw [hnames, htable.names_eq]
  case define =>
    intro name ty
    refine ⟨?_, (ofList_concat definitions name ty).symm, fun other => ?_⟩
    · rw [htable.lookup_eq hlawful]
      exact htable.types_intern hlawful name
    · rw [(htable.define hlawful name ty).lookup_eq hlawful, SymbolTable.lookup_define,
        htable.lookup_eq hlawful]
  case again => rw [hrebuilt.iter_eq, htable.iter_eq]
  case againSize => exact hrebuilt.size_eq.trans htable.size_eq.symm
  case againLookup =>
    intro name
    rw [hrebuilt.lookup_eq hlawful, htable.lookup_eq hlawful]
  case plain =>
    exact ⟨htable.iter_eq.symm, htable.size_eq.symm, htable.isEmpty_eq.symm, fun name =>
      ⟨(htable.lookup_eq hlawful name).symm, (htable.contains_eq hlawful name).symm⟩⟩

end InternedTable

/-! ## An interner that numbers the strings -/

namespace Interner

/-- Numbers the strings from zero as they come. -/
def numbering : Interner { names : List String // names.Nodup } Nat where
  empty := ⟨[], List.nodup_nil⟩
  intern names name :=
    if h : name ∈ names.val then (names.val.idxOf name, names)
    else (names.val.length, ⟨names.val ++ [name], by simpa using names.property.concat h⟩)
  get? names name := if name ∈ names.val then some (names.val.idxOf name) else none
  entries names := names.val.mapIdx Prod.mk

/-- The symbol of a string is the place at which it is listed. -/
theorem mem_entries_numbering_iff (names : { names : List String // names.Nodup }) (symbol : Nat)
    (name : String) :
    (symbol, name) ∈ numbering.entries names
      ↔ ∃ h : symbol < names.val.length, names.val[symbol] = name := by
  simp [numbering, List.mem_mapIdx]

/-- Numbering the strings is lawful. -/
theorem lawful_numbering : numbering.Lawful where
  entries_empty := rfl
  get?_eq_some_iff := by
    intro names name symbol
    rw [mem_entries_numbering_iff]
    by_cases hname : name ∈ names.val
    · simp only [numbering, if_pos hname, Option.some.injEq]
      constructor
      · rintro rfl
        exact ⟨List.idxOf_lt_length_iff.mpr hname, List.getElem_idxOf _⟩
      · rintro ⟨hlt, rfl⟩
        exact names.property.idxOf_getElem symbol hlt
    · simp only [numbering, if_neg hname, reduceCtorEq, false_iff]
      rintro ⟨hlt, rfl⟩
      exact hname (List.getElem_mem hlt)
  intern_of_some := by
    intro names name symbol hget
    by_cases hname : name ∈ names.val
    · simpa [numbering, hname] using hget
    · simp [numbering, hname] at hget
  intern_of_none := by
    intro names name hget
    have hname : name ∉ names.val := by simpa [numbering] using hget
    have hentries : numbering.entries (numbering.intern names name).2
        = numbering.entries names ++ [((numbering.intern names name).1, name)] := by
      simp [numbering, hname, List.mapIdx_concat]
    refine ⟨fun hused => ?_, hentries⟩
    obtain ⟨⟨symbol, other⟩, hmem, hsymbol⟩ := List.mem_map.mp hused
    obtain ⟨hlt, -⟩ := (mem_entries_numbering_iff names symbol other).mp hmem
    have hlength : symbol = names.val.length := by simpa [numbering, hname] using hsymbol
    exact absurd hlt (hlength ▸ Nat.lt_irrefl _)

end Interner

/-- A name that is defined again keeps its place. -/
theorem InternedTable.ofList_ordered_redefined :
    (ofList Interner.numbering [("pear", .bool), ("apple", .int), ("pear", .error)]).iter
        Interner.numbering = [("pear", .error), ("apple", .int)]
      ∧ (ofList Interner.numbering [("pear", .bool), ("apple", .int), ("pear", .error)]).size = 2
      ∧ (ofList Interner.numbering [("pear", .bool), ("apple", .int), ("pear", .error)]).lookup
          Interner.numbering "plum" = none
      ∧ ((ofList Interner.numbering [("pear", .bool), ("apple", .int)]).define
          Interner.numbering "pear" .error).1 = some .bool := by
  obtain ⟨-, hlookup, ⟨hsize, -⟩, -, -, hentries, -⟩ :=
    ofList_ordered Interner.lawful_numbering [("pear", .bool), ("apple", .int), ("pear", .error)]
  obtain ⟨-, hearlier, -, hdefine, -⟩ :=
    ofList_ordered Interner.lawful_numbering [("pear", .bool), ("apple", .int)]
  have hiter : (SymbolTable.ofList [("pear", .bool), ("apple", .int), ("pear", .error)]).entries
      = [("pear", .error), ("apple", .int)] := by decide
  refine ⟨hentries.symm.trans hiter, ?_, (hlookup "plum").1.trans (by decide),
    (hdefine "pear" .error).1.trans ((hearlier "pear").1.trans (by decide))⟩
  rw [hsize, ← hentries, hiter]
  rfl

end ScriptTyping
