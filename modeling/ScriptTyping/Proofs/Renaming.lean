import Mathlib.Data.List.Forall2
import Mathlib.Data.Set.Function
import ScriptTyping.Proofs.Locality
import ScriptTyping.Proofs.Resolution

/-!
# Names up to renaming, literals up to kind

A check compares names with one another and never looks into them, and of a literal it asks the kind
only. So the outcome is the same for a script with other names, as long as different names stay
different, and with other literals of the same kinds.

* **`Expr.Variant`**, **`Stmt.Variant`**, **`Decl.Variant`**, **`Script.Variant`**: the same tree
  with its names replaced and its literals changed. Annotations are the same on both sides, so that
  the relation between two checked trees says that they were annotated alike.
* **`SymbolTable.Renamed`**: the same table with its names replaced, in the same order.
* **`Verdict.kind`**: a verdict without the names and texts in its message. The rules depend on
  names and texts in nothing else.
* **`Expr.Variant.check`**, **`Stmt.Variant.check`**, **`Decl.Variant.check`**,
  **`Script.Variant.check`**: checks keep both relations.
* **`Script.run_renamed`**: so do runs.
-/

namespace ScriptTyping

/-! ## Variants of a tree -/

section

variable (rename : String → String)

/-- The same expression with its names replaced and its literals changed. -/
inductive Expr.Variant : Expr → Expr → Prop where
  | int (info : NodeInfo) (value value' : Int) :
      Expr.Variant (.int info value) (.int info value')
  | bool (info : NodeInfo) (value value' : Bool) :
      Expr.Variant (.bool info value) (.bool info value')
  | str (info : NodeInfo) (lexeme lexeme' : String) :
      Expr.Variant (.str info lexeme) (.str info lexeme')
  | var (info : NodeInfo) (name : String) :
      Expr.Variant (.var info name) (.var info (rename name))
  | unary (info : NodeInfo) (op : UnaryOp) {operand operand' : Expr}
      (hoperand : Expr.Variant operand operand') :
      Expr.Variant (.unary info op operand) (.unary info op operand')
  | binary (info : NodeInfo) (op : BinaryOp) {left left' right right' : Expr}
      (hleft : Expr.Variant left left') (hright : Expr.Variant right right') :
      Expr.Variant (.binary info op left right) (.binary info op left' right')
  | parens (info : NodeInfo) {inner inner' : Expr} (hinner : Expr.Variant inner inner') :
      Expr.Variant (.parens info inner) (.parens info inner')

mutual

inductive Stmt.Variant : Stmt → Stmt → Prop where
  | assign (info : NodeInfo) (name : String) {value value' : Expr} (valid : Bool)
      (hvalue : Expr.Variant rename value value') :
      Stmt.Variant (.assign info name value valid) (.assign info (rename name) value' valid)
  | print (info : NodeInfo) {operand operand' : Expr}
      (hoperand : Expr.Variant rename operand operand') :
      Stmt.Variant (.print info operand) (.print info operand')
  | loop (info : NodeInfo) {condition condition' : Expr} {body body' : List Stmt}
      (hcondition : Expr.Variant rename condition condition') (hbody : Block.Variant body body') :
      Stmt.Variant (.loop info condition body) (.loop info condition' body')
  | ifThen (info : NodeInfo) {condition condition' : Expr} {thenBlock thenBlock' : List Stmt}
      (hcondition : Expr.Variant rename condition condition')
      (hthen : Block.Variant thenBlock thenBlock') :
      Stmt.Variant (.ifThen info condition thenBlock) (.ifThen info condition' thenBlock')
  | ifElse (info : NodeInfo) {condition condition' : Expr}
      {thenBlock thenBlock' elseBlock elseBlock' : List Stmt}
      (hcondition : Expr.Variant rename condition condition')
      (hthen : Block.Variant thenBlock thenBlock') (helse : Block.Variant elseBlock elseBlock') :
      Stmt.Variant (.ifElse info condition thenBlock elseBlock)
        (.ifElse info condition' thenBlock' elseBlock')

inductive Block.Variant : List Stmt → List Stmt → Prop where
  | nil : Block.Variant [] []
  | cons {stmt stmt' : Stmt} {rest rest' : List Stmt} (hstmt : Stmt.Variant stmt stmt')
      (hrest : Block.Variant rest rest') : Block.Variant (stmt :: rest) (stmt' :: rest')

end

/-- The type token is none of the names that are replaced. -/
structure Decl.Variant (decl decl' : Decl) : Prop where
  info : decl.info = decl'.info
  name : decl'.name = rename decl.name
  typeToken : decl.typeToken = decl'.typeToken
  init : Option.Rel (Expr.Variant rename) decl.init decl'.init
  valid : decl.valid = decl'.valid

structure Script.Variant (script script' : Script) : Prop where
  decls : List.Forall₂ (Decl.Variant rename) script.decls script'.decls
  stmts : Block.Variant rename script.stmts script'.stmts

end

/-! ### Annotations of variants -/

section

variable {rename : String → String}

theorem Expr.Variant.info_eq {expr expr' : Expr} (h : expr.Variant rename expr') :
    expr.info = expr'.info := by
  cases h <;> rfl

theorem Expr.Variant.withTy {expr expr' : Expr} (h : expr.Variant rename expr') (ty : Ty) :
    (expr.withTy ty).Variant rename (expr'.withTy ty) := by
  cases h with
  | int | bool | str | var => constructor
  | unary _ _ hoperand => exact .unary _ _ hoperand
  | binary _ _ hleft hright => exact .binary _ _ hleft hright
  | parens _ hinner => exact .parens _ hinner

theorem Stmt.Variant.info_eq {stmt stmt' : Stmt} (h : stmt.Variant rename stmt') :
    stmt.info = stmt'.info := by
  cases h <;> rfl

theorem Stmt.Variant.withTy {stmt stmt' : Stmt} (h : stmt.Variant rename stmt') (ty : Ty) :
    (stmt.withTy ty).Variant rename (stmt'.withTy ty) := by
  cases h with
  | assign _ _ _ hvalue => exact .assign _ _ _ hvalue
  | print _ hoperand => exact .print _ hoperand
  | loop _ hcondition hbody => exact .loop _ hcondition hbody
  | ifThen _ hcondition hthen => exact .ifThen _ hcondition hthen
  | ifElse _ hcondition hthen helse => exact .ifElse _ hcondition hthen helse

end

/-! ## Renamed tables -/

section

variable {rename : String → String} {names : List String}

/-- The same table with its names replaced, where the names come from a given list. -/
structure SymbolTable.Renamed (rename : String → String) (names : List String)
    (table table' : SymbolTable) : Prop where
  entries_eq : table'.entries = table.entries.map fun entry => (rename entry.1, entry.2)
  names_subset : table.names ⊆ names

theorem SymbolTable.renamed_empty (rename : String → String) (names : List String) :
    SymbolTable.empty.Renamed rename names .empty :=
  ⟨rfl, List.nil_subset names⟩

/-- A definition overwrites the entry of a known name and puts an unknown one at the end. -/
theorem SymbolTable.entries_define (table : SymbolTable) (name : String) (ty : Ty) :
    (table.define name ty).entries =
      if table.contains name then overwriteEntries name ty table.entries
      else table.entries ++ [(name, ty)] := by
  unfold SymbolTable.define
  split
  · rfl
  · rfl

section

variable (hinj : Set.InjOn rename {name | name ∈ names})
include hinj

/-- In renamed entries the new name is found where the old one was. This is where the renaming has
to be injective. -/
theorem SymbolTable.lookup_map_rename {name : String} (hname : name ∈ names) :
    ∀ entries : List (String × Ty), entries.map Prod.fst ⊆ names →
      (entries.map fun entry => (rename entry.1, entry.2)).lookup (rename name)
        = entries.lookup name
  | [], _ => rfl
  | (key, ty) :: rest, hkeys => by
    obtain ⟨hkey, hrest⟩ := List.cons_subset.mp hkeys
    have hsame : rename name = rename key ↔ name = key := hinj.eq_iff hname hkey
    rw [List.map_cons, lookup_cons_eq_ite, lookup_cons_eq_ite,
      SymbolTable.lookup_map_rename hname rest hrest]
    simp only [hsame]

theorem SymbolTable.overwriteEntries_map_rename {name : String} (ty : Ty) (hname : name ∈ names)
    {entries : List (String × Ty)} (hkeys : entries.map Prod.fst ⊆ names) :
    overwriteEntries (rename name) ty (entries.map fun entry => (rename entry.1, entry.2)) =
      (overwriteEntries name ty entries).map fun entry => (rename entry.1, entry.2) := by
  rw [overwriteEntries, overwriteEntries, List.map_map, List.map_map]
  refine List.map_congr_left fun entry hentry => ?_
  have hkey : entry.1 ∈ names := hkeys (List.mem_map_of_mem hentry)
  have hsame : rename entry.1 = rename name ↔ entry.1 = name := hinj.eq_iff hkey hname
  by_cases h : entry.1 = name
  · simp [h]
  · simp [h, hsame]

namespace SymbolTable.Renamed

variable {table table' : SymbolTable}

theorem lookup (h : table.Renamed rename names table') {name : String} (hname : name ∈ names) :
    table'.lookup (rename name) = table.lookup name := by
  rw [SymbolTable.lookup, h.entries_eq]
  exact lookup_map_rename hinj hname table.entries h.names_subset

theorem poison (h : table.Renamed rename names table') {name : String} (hname : name ∈ names) :
    (table.poison name).Renamed rename names (table'.poison (rename name)) where
  entries_eq := by
    show overwriteEntries (rename name) .error table'.entries = _
    rw [h.entries_eq]
    exact overwriteEntries_map_rename hinj .error hname h.names_subset
  names_subset := by
    rw [names_poison]
    exact h.names_subset

theorem define (h : table.Renamed rename names table') {name : String} (hname : name ∈ names)
    (ty : Ty) : (table.define name ty).Renamed rename names (table'.define (rename name) ty) where
  entries_eq := by
    have hcontains : table'.contains (rename name) = table.contains name := by
      rw [contains, contains, h.lookup hinj hname]
    rw [entries_define, entries_define, hcontains, h.entries_eq,
      overwriteEntries_map_rename hinj ty hname h.names_subset]
    split
    · rfl
    · rw [List.map_append, List.map_singleton]
  names_subset := by
    rw [names_define]
    split
    · exact h.names_subset
    · exact List.append_subset.mpr ⟨h.names_subset, List.cons_subset.mpr ⟨hname, List.nil_subset _⟩⟩

end SymbolTable.Renamed

end

end

/-! ## Verdicts up to names and texts -/

/-- Lists are compared by what `f` sees of them, part by part. -/
theorem map_append_eq_map_append {α β : Type} {f : α → β} {first first' second second' : List α}
    (hfirst : first.map f = first'.map f) (hsecond : second.map f = second'.map f) :
    (first ++ second).map f = (first' ++ second').map f := by
  rw [List.map_append, List.map_append, hfirst, hsecond]

/-- The type that a verdict grants, or the category of the violation. -/
def Verdict.kind (verdict : Verdict) : Except Category Ty :=
  verdict.mapError Violation.category

/-- The category of an entry and the place it points at. -/
def Entry.site (entry : Entry) : Category × Span :=
  (entry.category, entry.span)

namespace Verdict

@[simp] theorem kind_ok (t : Ty) : kind (.ok t) = .ok t := rfl

@[simp] theorem kind_error (violation : Violation) :
    kind (.error violation) = .error violation.category := rfl

theorem ty_eq_of_kind_eq {verdict verdict' : Verdict} (h : verdict.kind = verdict'.kind) :
    verdict.ty = verdict'.ty := by
  cases verdict <;> cases verdict' <;> simp_all

theorem isValid_eq_of_kind_eq {verdict verdict' : Verdict} (h : verdict.kind = verdict'.kind) :
    verdict.isValid = verdict'.isValid := by
  cases verdict <;> cases verdict' <;> simp_all

/-- Verdicts of one kind have the same category logged at the same place, under whatever text. -/
theorem sites_eq_of_kind_eq {verdict verdict' : Verdict} (h : verdict.kind = verdict'.kind)
    (text text' : String) (span : Span) :
    (verdict.entries text span).map Entry.site = (verdict'.entries text' span).map Entry.site := by
  cases verdict <;> cases verdict' <;> simp_all [Entry.site, Violation.entry]

/-- The verdict on a variable depends on its name for the message only. -/
theorem kind_ofVariable (name name' : String) (found : Option Ty) :
    (ofVariable name found).kind = (ofVariable name' found).kind := by
  cases found <;> rfl

theorem kind_ofCondition (text text' : String) (ty : Ty) :
    (ofCondition text ty).kind = (ofCondition text' ty).kind := by
  unfold ofCondition
  split <;> rfl

theorem kind_ofPrint (text text' : String) (ty : Ty) :
    (ofPrint text ty).kind = (ofPrint text' ty).kind := by
  unfold ofPrint
  split <;> rfl

theorem kind_ofAssign (name name' : String) (found : Option Ty) (value : Ty) :
    (ofAssign name found value).kind = (ofAssign name' found value).kind := by
  unfold ofAssign
  split
  · rfl
  · rfl
  · split <;> rfl

theorem kind_ofDecl (name name' token : String) (init : Option Ty) :
    (ofDecl name token init).kind = (ofDecl name' token init).kind := by
  unfold ofDecl
  split
  · rfl
  · rfl
  · split <;> rfl

end Verdict

/-! ## Checks of variants -/

section

variable {rename : String → String} {names : List String} {table table' : SymbolTable}

/-! ### Expressions -/

structure Expr.Checked.Variant (rename : String → String) (checked checked' : Expr.Checked) :
    Prop where
  expr : checked.expr.Variant rename checked'.expr
  ty : checked.ty = checked'.ty
  sites : checked.entries.map Entry.site = checked'.entries.map Entry.site

/-- Variants with verdicts of one kind are closed into variants. -/
theorem Expr.Variant.close {node node' : Expr} (h : node.Variant rename node')
    {verdict verdict' : Verdict} (hkind : verdict.kind = verdict'.kind)
    {earlier earlier' : List Entry} (hearlier : earlier.map Entry.site = earlier'.map Entry.site) :
    (node.close verdict earlier).Variant rename (node'.close verdict' earlier') where
  expr := by
    rw [Expr.close, Expr.close, Verdict.ty_eq_of_kind_eq hkind]
    exact h.withTy verdict'.ty
  ty := Verdict.ty_eq_of_kind_eq hkind
  sites := by
    have hspan : node.span = node'.span := congrArg NodeInfo.span h.info_eq
    rw [Expr.close, Expr.close, hspan]
    exact map_append_eq_map_append hearlier (Verdict.sites_eq_of_kind_eq hkind _ _ _)

/-- Checking expressions that are variants of each other, against tables renamed into each other,
gives variants again. -/
theorem Expr.Variant.check (hinj : Set.InjOn rename {name | name ∈ names})
    (htable : table.Renamed rename names table') {expr expr' : Expr}
    (h : expr.Variant rename expr') (hnames : namesIn expr.postorder ⊆ names) :
    (expr.check table).Variant rename (expr'.check table') := by
  induction h with
  | int info value value' => exact (Expr.Variant.int info value value').close rfl rfl
  | bool info value value' => exact (Expr.Variant.bool info value value').close rfl rfl
  | str info lexeme lexeme' => exact (Expr.Variant.str info lexeme lexeme').close rfl rfl
  | var info name =>
    refine (Expr.Variant.var info name).close ?_ rfl
    rw [htable.lookup hinj (hnames (List.mem_singleton.mpr rfl))]
    exact Verdict.kind_ofVariable _ _ _
  | unary info op _ ih =>
    have hoperand := ih (namesIn_append_subset.mp hnames).1
    exact (Expr.Variant.unary info op hoperand.expr).close (by rw [hoperand.ty]) hoperand.sites
  | binary info op _ _ ihl ihr =>
    obtain ⟨hleft, hright⟩ := namesIn_append_subset.mp (namesIn_append_subset.mp hnames).1
    have hleft := ihl hleft
    have hright := ihr hright
    exact (Expr.Variant.binary info op hleft.expr hright.expr).close
      (by rw [hleft.ty, hright.ty]) (map_append_eq_map_append hleft.sites hright.sites)
  | parens info _ ih =>
    have hinner := ih (namesIn_append_subset.mp hnames).1
    exact (Expr.Variant.parens info hinner.expr).close (by rw [hinner.ty]) hinner.sites

/-! ### Statements and blocks -/

/-- Related trees, a renamed table, and entries of the same categories at the same places. -/
structure Outcome.Variant {α : Type} (rel : α → α → Prop) (rename : String → String)
    (names : List String) (outcome outcome' : Outcome α) : Prop where
  node : rel outcome.node outcome'.node
  table : outcome.table.Renamed rename names outcome'.table
  sites : outcome.entries.map Entry.site = outcome'.entries.map Entry.site

theorem Stmt.Variant.close {node node' : Stmt} (h : node.Variant rename node')
    {verdict verdict' : Verdict} (hkind : verdict.kind = verdict'.kind)
    (htable : table.Renamed rename names table') {earlier earlier' : List Entry}
    (hearlier : earlier.map Entry.site = earlier'.map Entry.site) :
    (node.close verdict table earlier).Variant (Stmt.Variant rename) rename names
      (node'.close verdict' table' earlier') where
  node := by
    rw [Stmt.close, Stmt.close, Verdict.ty_eq_of_kind_eq hkind]
    exact h.withTy verdict'.ty
  table := htable
  sites := by
    have hspan : node.span = node'.span := congrArg NodeInfo.span h.info_eq
    rw [Stmt.close, Stmt.close, hspan]
    exact map_append_eq_map_append hearlier (Verdict.sites_eq_of_kind_eq hkind _ _ _)

theorem Expr.Checked.Variant.kind_ofCondition {checked checked' : Expr.Checked}
    (h : checked.Variant rename checked') :
    (Verdict.ofCondition checked.expr.text checked.ty).kind
      = (Verdict.ofCondition checked'.expr.text checked'.ty).kind := by
  rw [h.ty]
  exact Verdict.kind_ofCondition _ _ _

/-- An assignment that fails poisons its target in both tables, by the old and by the new name. -/
theorem Stmt.Variant.check_assign (hinj : Set.InjOn rename {name | name ∈ names})
    (htable : table.Renamed rename names table') (info : NodeInfo) {name : String}
    (hname : name ∈ names) {value value' : Expr}
    (hvalue : (value.check table).Variant rename (value'.check table')) (valid : Bool) :
    ((Stmt.assign info name value valid).check table).Variant (Stmt.Variant rename) rename names
      ((Stmt.assign info (rename name) value' valid).check table') := by
  let verdict := Verdict.ofAssign name (table.lookup name) (value.check table).ty
  let verdict' :=
    Verdict.ofAssign (rename name) (table'.lookup (rename name)) (value'.check table').ty
  have hkind : verdict.kind = verdict'.kind := by
    show (Verdict.ofAssign _ _ (value.check table).ty).kind = (Verdict.ofAssign _ _ _).kind
    rw [hvalue.ty, htable.lookup hinj hname]
    exact Verdict.kind_ofAssign _ _ _ _
  have hvalid : verdict.isValid = verdict'.isValid := Verdict.isValid_eq_of_kind_eq hkind
  have hnode : (Stmt.assign info name (value.check table).expr verdict.isValid).Variant rename
      (.assign info (rename name) (value'.check table').expr verdict'.isValid) := by
    rw [hvalid]
    exact .assign info name _ hvalue.expr
  refine hnode.close hkind ?_ hvalue.sites
  -- a refused assignment poisons the name in the one table and its image in the other
  show (if verdict.isValid then table else table.poison name).Renamed rename names
    (if verdict'.isValid then table' else table'.poison (rename name))
  rw [hvalid]
  split
  · exact htable
  · exact htable.poison hinj hname

mutual

theorem Stmt.Variant.check (hinj : Set.InjOn rename {name | name ∈ names})
    {table table' : SymbolTable} (htable : table.Renamed rename names table') {stmt stmt' : Stmt} :
    stmt.Variant rename stmt' → namesIn stmt.postorder ⊆ names →
      (stmt.check table).Variant (Stmt.Variant rename) rename names (stmt'.check table')
  | .assign info name valid hvalue, hnames => by
    obtain ⟨hparts, hself⟩ := namesIn_append_subset.mp hnames
    have hname : name ∈ names := hself (List.mem_singleton.mpr rfl)
    exact Stmt.Variant.check_assign hinj htable info hname (hvalue.check hinj htable hparts) valid
  | .print info hoperand, hnames => by
    have hoperand := hoperand.check hinj htable (namesIn_append_subset.mp hnames).1
    refine (Stmt.Variant.print info hoperand.expr).close ?_ htable hoperand.sites
    rw [hoperand.ty]
    exact Verdict.kind_ofPrint _ _ _
  | .loop info hcondition hbody, hnames => by
    obtain ⟨hfirst, hsecond⟩ := namesIn_append_subset.mp (namesIn_append_subset.mp hnames).1
    have hcondition := hcondition.check hinj htable hfirst
    have hbody := Block.Variant.check hinj htable hbody hsecond
    exact (Stmt.Variant.loop info hcondition.expr hbody.node).close hcondition.kind_ofCondition
      hbody.table (map_append_eq_map_append hcondition.sites hbody.sites)
  | .ifThen info hcondition hthen, hnames => by
    obtain ⟨hfirst, hsecond⟩ := namesIn_append_subset.mp (namesIn_append_subset.mp hnames).1
    have hcondition := hcondition.check hinj htable hfirst
    have hthen := Block.Variant.check hinj htable hthen hsecond
    exact (Stmt.Variant.ifThen info hcondition.expr hthen.node).close hcondition.kind_ofCondition
      hthen.table (map_append_eq_map_append hcondition.sites hthen.sites)
  | .ifElse info hcondition hthen helse, hnames => by
    obtain ⟨hfirst, hthird⟩ := namesIn_append_subset.mp (namesIn_append_subset.mp hnames).1
    obtain ⟨hfirst, hsecond⟩ := namesIn_append_subset.mp hfirst
    have hcondition := hcondition.check hinj htable hfirst
    -- the alternatives start from the tables that the first blocks leave behind
    have hthen := Block.Variant.check hinj htable hthen hsecond
    have helse := Block.Variant.check hinj hthen.table helse hthird
    have hsites := map_append_eq_map_append hcondition.sites hthen.sites
    exact (Stmt.Variant.ifElse info hcondition.expr hthen.node helse.node).close
      hcondition.kind_ofCondition helse.table (map_append_eq_map_append hsites helse.sites)

/-- Variants of a block are checked alike: each statement hands renamed tables to the next. -/
theorem Block.Variant.check (hinj : Set.InjOn rename {name | name ∈ names})
    {table table' : SymbolTable} (htable : table.Renamed rename names table')
    {block block' : List Stmt} :
    Block.Variant rename block block' → namesIn (Block.postorder block) ⊆ names →
      (Block.check table block).Variant (Block.Variant rename) rename names
        (Block.check table' block')
  | .nil, _ => ⟨.nil, htable, rfl⟩
  | .cons hstmt hrest, hnames => by
    obtain ⟨hfirst, hsecond⟩ := namesIn_append_subset.mp hnames
    have hstmt := Stmt.Variant.check hinj htable hstmt hfirst
    have hrest := Block.Variant.check hinj hstmt.table hrest hsecond
    exact ⟨.cons hstmt.node hrest.node, hrest.table,
      map_append_eq_map_append hstmt.sites hrest.sites⟩

end

/-! ### Declarations and scripts -/

/-- The initialisers of two variants of a declaration, checked. -/
theorem Decl.Variant.checkInit (hinj : Set.InjOn rename {name | name ∈ names})
    (htable : table.Renamed rename names table') {decl decl' : Decl}
    (h : decl.Variant rename decl') (hnames : namesIn decl.postorder ⊆ names) :
    Option.Rel (Expr.Checked.Variant rename) (decl.init.map (Expr.check table))
      (decl'.init.map (Expr.check table')) := by
  obtain ⟨info, name, typeToken, init, valid⟩ := decl
  obtain ⟨info', name', typeToken', init', valid'⟩ := decl'
  have hparts := (namesIn_append_subset.mp hnames).1
  cases h.init with
  | none => exact .none
  | some hinit => exact .some (hinit.check hinj htable hparts)

/-- Variants of a declaration are checked alike, and define a name and its replacement. -/
theorem Decl.Variant.check (hinj : Set.InjOn rename {name | name ∈ names})
    (htable : table.Renamed rename names table') {decl decl' : Decl}
    (h : decl.Variant rename decl') (hnames : namesIn decl.postorder ⊆ names) :
    (decl.check table).Variant (Decl.Variant rename) rename names (decl'.check table') := by
  have hinit := h.checkInit hinj htable hnames
  have hname : decl.name ∈ names := (namesIn_append_subset.mp hnames).2 (List.mem_singleton.mpr rfl)
  unfold Decl.check
  generalize decl.init.map (Expr.check table) = init at hinit ⊢
  generalize decl'.init.map (Expr.check table') = init' at hinit ⊢
  have htys : init.map Expr.Checked.ty = init'.map Expr.Checked.ty := by
    cases hinit with
    | none => rfl
    | some hchecked => exact congrArg some hchecked.ty
  have hexprs : Option.Rel (Expr.Variant rename) (init.map Expr.Checked.expr)
      (init'.map Expr.Checked.expr) := by
    cases hinit with
    | none => exact .none
    | some hchecked => exact .some hchecked.expr
  have hsites : ((init.map Expr.Checked.entries).getD []).map Entry.site
      = ((init'.map Expr.Checked.entries).getD []).map Entry.site := by
    cases hinit with
    | none => rfl
    | some hchecked => exact hchecked.sites
  have hkind : (Verdict.ofDecl decl.name decl.typeToken (init.map Expr.Checked.ty)).kind
      = (Verdict.ofDecl decl'.name decl'.typeToken (init'.map Expr.Checked.ty)).kind := by
    rw [htys, h.typeToken]
    exact Verdict.kind_ofDecl _ _ _ _
  have hty := Verdict.ty_eq_of_kind_eq hkind
  refine ⟨⟨?_, h.name, h.typeToken, hexprs, Verdict.isValid_eq_of_kind_eq hkind⟩, ?_, ?_⟩
  · show NodeInfo.mk decl.info.span _ = NodeInfo.mk decl'.info.span _
    rw [h.info, hty]
  · show SymbolTable.Renamed rename names (table.define decl.name _) (table'.define decl'.name _)
    rw [← hty, h.name]
    exact htable.define hinj hname _
  · have hspan : decl.span = decl'.span := congrArg NodeInfo.span h.info
    refine map_append_eq_map_append hsites ?_
    show (Verdict.entries _ _ decl.span).map Entry.site
      = (Verdict.entries _ _ decl'.span).map Entry.site
    rw [hspan]
    exact Verdict.sites_eq_of_kind_eq hkind _ _ _

theorem Decl.Variant.checkAll (hinj : Set.InjOn rename {name | name ∈ names})
    (htable : table.Renamed rename names table') {decls decls' : List Decl}
    (h : List.Forall₂ (Decl.Variant rename) decls decls')
    (hnames : namesIn (decls.flatMap Decl.postorder) ⊆ names) :
    (Decl.checkAll table decls).Variant (List.Forall₂ (Decl.Variant rename)) rename names
      (Decl.checkAll table' decls') := by
  induction h generalizing table table' with
  | nil => exact ⟨.nil, htable, rfl⟩
  | cons hdecl _ ih =>
    rw [List.flatMap_cons] at hnames
    obtain ⟨hfirst, hsecond⟩ := namesIn_append_subset.mp hnames
    have hdecl := hdecl.check hinj htable hfirst
    have hrest := ih hdecl.table hsecond
    exact ⟨.cons hdecl.node hrest.node, hrest.table,
      map_append_eq_map_append hdecl.sites hrest.sites⟩

/-- Variants of a script are checked alike. -/
theorem Script.Variant.check (hinj : Set.InjOn rename {name | name ∈ names})
    (htable : table.Renamed rename names table') {script script' : Script}
    (h : script.Variant rename script') (hnames : namesIn script.postorder ⊆ names) :
    (script.check table).Variant (Script.Variant rename) rename names (script'.check table') := by
  obtain ⟨hfirst, hsecond⟩ := namesIn_append_subset.mp hnames
  have hdecls := Decl.Variant.checkAll hinj htable h.decls hfirst
  have hstmts := h.stmts.check hinj hdecls.table hsecond
  exact ⟨⟨hdecls.node, hstmts.node⟩, hstmts.table,
    map_append_eq_map_append hdecls.sites hstmts.sites⟩

end

/-! ## Annotations of variants -/

section

variable {rename : String → String}

/-- What a check writes on a node. -/
def Node.annotation (node : Node) : Option Ty × Option Bool :=
  (node.ty?, node.valid?)

/-- Variants have the same annotations node by node. -/
theorem Expr.Variant.map_annotation {expr expr' : Expr} (h : expr.Variant rename expr') :
    expr.postorder.map Node.annotation = expr'.postorder.map Node.annotation := by
  induction h with
  | int | bool | str | var => rfl
  | unary info op _ ih => exact map_append_eq_map_append ih rfl
  | binary info op _ _ ihl ihr =>
    exact map_append_eq_map_append (map_append_eq_map_append ihl ihr) rfl
  | parens info _ ih => exact map_append_eq_map_append ih rfl

mutual

theorem Stmt.Variant.map_annotation {stmt stmt' : Stmt} : stmt.Variant rename stmt' →
    stmt.postorder.map Node.annotation = stmt'.postorder.map Node.annotation
  | .assign info name valid hvalue => map_append_eq_map_append hvalue.map_annotation rfl
  | .print info hoperand => map_append_eq_map_append hoperand.map_annotation rfl
  | .loop info hcondition hbody => by
    have hparts := map_append_eq_map_append hcondition.map_annotation
      (Block.Variant.map_annotation hbody)
    exact map_append_eq_map_append hparts rfl
  | .ifThen info hcondition hthen => by
    have hparts := map_append_eq_map_append hcondition.map_annotation
      (Block.Variant.map_annotation hthen)
    exact map_append_eq_map_append hparts rfl
  | .ifElse info hcondition hthen helse => by
    have hparts := map_append_eq_map_append hcondition.map_annotation
      (Block.Variant.map_annotation hthen)
    exact map_append_eq_map_append
      (map_append_eq_map_append hparts (Block.Variant.map_annotation helse)) rfl

theorem Block.Variant.map_annotation {block block' : List Stmt} :
    Block.Variant rename block block' →
    (Block.postorder block).map Node.annotation = (Block.postorder block').map Node.annotation
  | .nil => rfl
  | .cons hstmt hrest =>
    map_append_eq_map_append (Stmt.Variant.map_annotation hstmt)
      (Block.Variant.map_annotation hrest)

end

theorem Decl.Variant.map_annotation {decl decl' : Decl} (h : decl.Variant rename decl') :
    decl.postorder.map Node.annotation = decl'.postorder.map Node.annotation := by
  obtain ⟨info, name, typeToken, init, valid⟩ := decl
  obtain ⟨info', name', typeToken', init', valid'⟩ := decl'
  obtain rfl : info = info' := h.info
  obtain rfl : valid = valid' := h.valid
  cases h.init with
  | none => rfl
  | some hinit => exact map_append_eq_map_append hinit.map_annotation rfl

theorem Decl.Variant.map_annotation_flatMap {decls decls' : List Decl}
    (h : List.Forall₂ (Decl.Variant rename) decls decls') :
    (decls.flatMap Decl.postorder).map Node.annotation
      = (decls'.flatMap Decl.postorder).map Node.annotation := by
  induction h with
  | nil => rfl
  | cons hdecl _ ih =>
    rw [List.flatMap_cons, List.flatMap_cons]
    exact map_append_eq_map_append hdecl.map_annotation ih

theorem Script.Variant.map_annotation {script script' : Script}
    (h : script.Variant rename script') :
    script.postorder.map Node.annotation = script'.postorder.map Node.annotation :=
  map_append_eq_map_append (Decl.Variant.map_annotation_flatMap h.decls) h.stmts.map_annotation

end

/-! ## Runs -/

/-- **Names matter up to renaming, and literals up to kind.** Replace the names of a script so that
different names stay different, and its literals by others of the same kinds. Then a run gives every
node the same type and the same flag, ends with a log of the same categories at the same places, and
with a table of the replaced names, in the same order and with the same types. -/
theorem Script.run_renamed (options : RunOptions) {rename : String → String}
    {script script' : Script} (h : script.Variant rename script')
    (hinj : Set.InjOn rename {name | name ∈ (Tree.script script).names}) :
    (script.run options).script.Variant rename (script'.run options).script
      ∧ ((script.run options).script.postorder.map fun node => (node.ty?, node.valid?))
        = ((script'.run options).script.postorder.map fun node => (node.ty?, node.valid?))
      ∧ ∃ session session' : Session,
        (script.run options).result = .ok session ∧ (script'.run options).result = .ok session'
          ∧ (session.log.entries.map fun entry => (entry.category, entry.span))
            = (session'.log.entries.map fun entry => (entry.category, entry.span))
          ∧ session'.table.entries
            = session.table.entries.map fun entry => (rename entry.1, entry.2) := by
  have hcheck := h.check hinj (SymbolTable.renamed_empty rename _) (List.Subset.refl _)
  rw [Script.run_script, Script.run_script]
  exact ⟨hcheck.node, hcheck.node.map_annotation, script.outcome, script'.outcome,
    script.run_result options, script'.run_result options, hcheck.sites, hcheck.table.entries_eq⟩

/-- Two names change places and the literals change, but one of them is misassigned as before. -/
theorem Script.run_renamed_swapped :
    ((Script.mk [⟨{}, "x", "Int", some (.ofInt 1), false⟩, ⟨{}, "y", "Bool", none, false⟩]
          [.assign {} "x" (.ofName "y") false]).Variant
        (fun name => if name = "x" then "y" else if name = "y" then "x" else name)
        (Script.mk [⟨{}, "y", "Int", some (.ofInt 7), false⟩, ⟨{}, "x", "Bool", none, false⟩]
          [.assign {} "y" (.ofName "x") false]))
      ∧ ((Script.mk [⟨{}, "x", "Int", some (.ofInt 1), false⟩, ⟨{}, "y", "Bool", none, false⟩]
          [.assign {} "x" (.ofName "y") false]).run {}).script.postorder.map
            (fun node => (node.ty?, node.valid?))
        = ((Script.mk [⟨{}, "y", "Int", some (.ofInt 7), false⟩, ⟨{}, "x", "Bool", none, false⟩]
          [.assign {} "y" (.ofName "x") false]).run {}).script.postorder.map
            (fun node => (node.ty?, node.valid?)) := by
  have hvariant : (Script.mk [⟨{}, "x", "Int", some (.ofInt 1), false⟩,
        ⟨{}, "y", "Bool", none, false⟩] [.assign {} "x" (.ofName "y") false]).Variant
      (fun name => if name = "x" then "y" else if name = "y" then "x" else name)
      (Script.mk [⟨{}, "y", "Int", some (.ofInt 7), false⟩, ⟨{}, "x", "Bool", none, false⟩]
        [.assign {} "y" (.ofName "x") false]) := by
    refine ⟨.cons ⟨rfl, by decide, rfl, .some (.int {} 1 7), rfl⟩
      (.cons ⟨rfl, by decide, rfl, .none, rfl⟩ .nil), .cons ?_ .nil⟩
    exact .assign {} "x" false (.var {} "y")
  have hinjective : ∀ name ∈ ["x", "y", "y", "x"], ∀ other ∈ ["x", "y", "y", "x"],
      (if name = "x" then "y" else if name = "y" then "x" else name)
        = (if other = "x" then "y" else if other = "y" then "x" else other) → name = other := by
    decide
  exact ⟨hvariant, (Script.run_renamed {} hvariant
    fun name hname other hother => hinjective name hname other hother).2.1⟩

end ScriptTyping
