import ScriptTyping.Proofs.Reannotation
import ScriptTyping.Proofs.Replay

/-!
# Locality

A check asks a table only about the names that occur in the tree, and changes it only at the names
that the tree assigns or declares. Two tables that agree on the names of a tree can therefore not be
told apart by checking it, and the other names of a table are safe from it.

* **`Tree.names`**, **`Tree.writtenNames`**: the names that occur in a tree, and those among them
  that it assigns or declares.
* **`SymbolTable.AgreeOn`**: two tables find the same for some names.
* **`Expr.check_eq_of_agreeOn`**, **`Stmt.agreeOn_check`**, **`Decl.agreeOn_check`**,
  **`Tree.agreeOn_check`**: from agreeing tables a check gives the same tree and the same entries,
  and leaves agreeing tables behind. The names agreed on may be more than those of the tree, so that
  the agreement is handed on from one part of a tree to the next.
* **`Tree.lookup_check_of_not_written`**: what is found for any other name stays.
-/

namespace ScriptTyping

/-! ## The names of a tree -/

/-- The name that a node reads, assigns or declares itself. -/
def Node.name? : Node → Option String
  | .expr (.var _ name) => some name
  | .stmt (.assign _ name _ _) => some name
  | .decl d => some d.name
  | _ => none

/-- The name that a node assigns or declares itself. -/
def Node.writtenName? : Node → Option String
  | .stmt (.assign _ name _ _) => some name
  | .decl d => some d.name
  | _ => none

def namesIn (nodes : List Node) : List String :=
  nodes.filterMap Node.name?

def writtenIn (nodes : List Node) : List String :=
  nodes.filterMap Node.writtenName?

/-- The names that occur in a tree, once for each occurrence. -/
def Tree.names (tree : Tree) : List String :=
  namesIn tree.postorder

/-- The names that a tree assigns or declares, at whatever depth. -/
def Tree.writtenNames (tree : Tree) : List String :=
  writtenIn tree.postorder

@[simp] theorem namesIn_append (first second : List Node) :
    namesIn (first ++ second) = namesIn first ++ namesIn second :=
  List.filterMap_append

@[simp] theorem writtenIn_append (first second : List Node) :
    writtenIn (first ++ second) = writtenIn first ++ writtenIn second :=
  List.filterMap_append

theorem namesIn_append_subset {first second : List Node} {names : List String} :
    namesIn (first ++ second) ⊆ names ↔ namesIn first ⊆ names ∧ namesIn second ⊆ names := by
  rw [namesIn_append, List.append_subset]

theorem Node.name?_of_writtenName? {node : Node} {name : String}
    (h : node.writtenName? = some name) : node.name? = some name := by
  cases node with
  | expr e => cases e <;> cases h
  | stmt s =>
    cases s with
    | assign => exact h
    | print | loop | ifThen | ifElse => cases h
  | decl d => exact h

/-- A name that is assigned or declared occurs. -/
theorem Tree.writtenNames_subset_names (tree : Tree) : tree.writtenNames ⊆ tree.names := by
  intro name hname
  obtain ⟨node, hnode, hwritten⟩ := List.mem_filterMap.mp hname
  exact List.mem_filterMap.mpr ⟨node, hnode, Node.name?_of_writtenName? hwritten⟩

/-! ## Agreement of tables -/

/-- The tables find the same for each of the names. -/
def SymbolTable.AgreeOn (names : List String) (table table' : SymbolTable) : Prop :=
  ∀ name ∈ names, table.lookup name = table'.lookup name

instance (names : List String) (table table' : SymbolTable) :
    Decidable (table.AgreeOn names table') :=
  inferInstanceAs (Decidable (∀ name ∈ names, _))

namespace SymbolTable.AgreeOn

variable {names : List String} {table table' : SymbolTable}

theorem poison (h : table.AgreeOn names table') (name : String) :
    (table.poison name).AgreeOn names (table'.poison name) := by
  intro other hother
  rw [lookup_poison, lookup_poison, h other hother]

theorem define (h : table.AgreeOn names table') (name : String) (ty : Ty) :
    (table.define name ty).AgreeOn names (table'.define name ty) := by
  intro other hother
  rw [lookup_define, lookup_define, h other hother]

end SymbolTable.AgreeOn

/-- The same tree and the same entries, with tables that find the same for each of the names. -/
structure Outcome.AgreeOn {α : Type} (names : List String) (outcome outcome' : Outcome α) :
    Prop where
  node : outcome.node = outcome'.node
  entries : outcome.entries = outcome'.entries
  table : outcome.table.AgreeOn names outcome'.table

theorem Outcome.AgreeOn.map {α β : Type} {names : List String} {outcome outcome' : Outcome α}
    (h : outcome.AgreeOn names outcome') (f : α → β) :
    (outcome.map f).AgreeOn names (outcome'.map f) :=
  ⟨congrArg f h.node, h.entries, h.table⟩

/-! ## Checks from agreeing tables -/

section

variable {names : List String}

/-- An expression is checked in the same way against tables that agree on its names. -/
theorem Expr.check_eq_of_agreeOn {table table' : SymbolTable} (h : table.AgreeOn names table')
    (expr : Expr) (hnames : namesIn expr.postorder ⊆ names) :
    expr.check table = expr.check table' := by
  induction expr with
  | int | bool | str => rfl
  | var info name =>
    have hname : table.lookup name = table'.lookup name :=
      h name (hnames (List.mem_singleton.mpr rfl))
    rw [Expr.check, Expr.check, hname]
  | unary info op operand ih =>
    rw [Expr.check, Expr.check, ih (namesIn_append_subset.mp hnames).1]
  | binary info op left right ihl ihr =>
    obtain ⟨hleft, hright⟩ := namesIn_append_subset.mp (namesIn_append_subset.mp hnames).1
    rw [Expr.check, Expr.check, ihl hleft, ihr hright]
  | parens info inner ih =>
    rw [Expr.check, Expr.check, ih (namesIn_append_subset.mp hnames).1]

mutual

/-- A statement is checked in the same way against tables that agree on its names, and leaves such
tables behind. -/
theorem Stmt.agreeOn_check {table table' : SymbolTable} (h : table.AgreeOn names table') :
    ∀ stmt : Stmt, namesIn stmt.postorder ⊆ names →
      (stmt.check table).AgreeOn names (stmt.check table')
  | .assign info name value valid, hnames => by
    obtain ⟨hvalue, hself⟩ := namesIn_append_subset.mp hnames
    have hname : table.lookup name = table'.lookup name :=
      h name (hself (List.mem_singleton.mpr rfl))
    rw [Stmt.check, Stmt.check, value.check_eq_of_agreeOn h hvalue, hname]
    refine ⟨rfl, rfl, ?_⟩
    -- both tables are poisoned, or neither is
    dsimp only [Stmt.close]
    split
    · exact h
    · exact h.poison name
  | .print info operand, hnames => by
    rw [Stmt.check, Stmt.check,
      operand.check_eq_of_agreeOn h (namesIn_append_subset.mp hnames).1]
    exact ⟨rfl, rfl, h⟩
  | .loop info condition body, hnames => by
    obtain ⟨hcondition, hbody⟩ := namesIn_append_subset.mp (namesIn_append_subset.mp hnames).1
    obtain ⟨hnode, hentries, htable⟩ := Block.agreeOn_check h body hbody
    rw [Stmt.check, Stmt.check, condition.check_eq_of_agreeOn h hcondition, hnode, hentries]
    exact ⟨rfl, rfl, htable⟩
  | .ifThen info condition thenBlock, hnames => by
    obtain ⟨hcondition, hthen⟩ := namesIn_append_subset.mp (namesIn_append_subset.mp hnames).1
    obtain ⟨hnode, hentries, htable⟩ := Block.agreeOn_check h thenBlock hthen
    rw [Stmt.check, Stmt.check, condition.check_eq_of_agreeOn h hcondition, hnode, hentries]
    exact ⟨rfl, rfl, htable⟩
  | .ifElse info condition thenBlock elseBlock, hnames => by
    obtain ⟨hfirst, helse⟩ := namesIn_append_subset.mp (namesIn_append_subset.mp hnames).1
    obtain ⟨hcondition, hthen⟩ := namesIn_append_subset.mp hfirst
    -- the alternative starts from the tables that the first block leaves behind
    obtain ⟨hnode, hentries, hmiddle⟩ := Block.agreeOn_check h thenBlock hthen
    obtain ⟨hnode', hentries', htable⟩ := Block.agreeOn_check hmiddle elseBlock helse
    rw [Stmt.check, Stmt.check, condition.check_eq_of_agreeOn h hcondition, hnode, hentries, hnode',
      hentries']
    exact ⟨rfl, rfl, htable⟩

/-- As for statements; each statement hands tables in agreement to the next. -/
theorem Block.agreeOn_check {table table' : SymbolTable} (h : table.AgreeOn names table') :
    ∀ block : List Stmt, namesIn (Block.postorder block) ⊆ names →
      (Block.check table block).AgreeOn names (Block.check table' block)
  | [], _ => ⟨rfl, rfl, h⟩
  | stmt :: rest, hnames => by
    obtain ⟨hstmt, hrest⟩ := namesIn_append_subset.mp hnames
    obtain ⟨hnode, hentries, hmiddle⟩ := stmt.agreeOn_check h hstmt
    obtain ⟨hnode', hentries', htable⟩ := Block.agreeOn_check hmiddle rest hrest
    rw [Block.check, Block.check, hnode, hentries, hnode', hentries']
    exact ⟨rfl, rfl, htable⟩

end

/-- As for statements; both tables get the same definition. -/
theorem Decl.agreeOn_check {table table' : SymbolTable} (h : table.AgreeOn names table')
    (decl : Decl) (hnames : namesIn decl.postorder ⊆ names) :
    (decl.check table).AgreeOn names (decl.check table') := by
  have hinit : decl.init.map (Expr.check table) = decl.init.map (Expr.check table') := by
    have hparts := (namesIn_append_subset.mp hnames).1
    cases hcase : decl.init with
    | none => rfl
    | some init =>
      rw [hcase] at hparts
      exact congrArg some (init.check_eq_of_agreeOn h hparts)
  rw [Decl.check, Decl.check, hinit]
  exact ⟨rfl, rfl, h.define decl.name _⟩

theorem Decl.agreeOn_checkAll {table table' : SymbolTable} (h : table.AgreeOn names table')
    (decls : List Decl) (hnames : namesIn (decls.flatMap Decl.postorder) ⊆ names) :
    (Decl.checkAll table decls).AgreeOn names (Decl.checkAll table' decls) := by
  induction decls generalizing table table' with
  | nil => exact ⟨rfl, rfl, h⟩
  | cons decl rest ih =>
    rw [List.flatMap_cons] at hnames
    obtain ⟨hdecl, hrest⟩ := namesIn_append_subset.mp hnames
    obtain ⟨hnode, hentries, hmiddle⟩ := decl.agreeOn_check h hdecl
    obtain ⟨hnode', hentries', htable⟩ := ih hmiddle hrest
    rw [Decl.checkAll, Decl.checkAll, hnode, hentries, hnode', hentries']
    exact ⟨rfl, rfl, htable⟩

/-- A tree is checked in the same way against tables that agree on its names. -/
theorem Tree.agreeOn_check {table table' : SymbolTable} (h : table.AgreeOn names table')
    (tree : Tree) (hnames : tree.names ⊆ names) :
    (tree.check table).AgreeOn names (tree.check table') := by
  cases tree with
  | expr e =>
    rw [Tree.check, Tree.check, e.check_eq_of_agreeOn h hnames]
    exact ⟨rfl, rfl, h⟩
  | stmt s => exact (s.agreeOn_check h hnames).map Tree.stmt
  | decl d => exact (d.agreeOn_check h hnames).map Tree.decl
  | block b => exact (Block.agreeOn_check h b hnames).map Tree.block
  | script s =>
    obtain ⟨hdecls, hstmts⟩ := namesIn_append_subset.mp hnames
    obtain ⟨hnode, hentries, hmiddle⟩ := Decl.agreeOn_checkAll h s.decls hdecls
    obtain ⟨hnode', hentries', htable⟩ := Block.agreeOn_check hmiddle s.stmts hstmts
    rw [Tree.check, Tree.check, Script.check, Script.check, hnode, hentries, hnode', hentries']
    exact ⟨rfl, rfl, htable⟩

end

/-! ## Names that a tree does not write

A check is a run over the nodes of the checked tree, and closing a node changes what is found for
the name that it writes. It remains to see that the checked tree writes the names of the given
one. -/

/-- **One step.** Closing a node leaves the names alone that it does not write. -/
theorem SymbolTable.lookup_after_of_not_written {table : SymbolTable} {node : Node} {name : String}
    (h : node.writtenName? ≠ some name) : (table.after node).lookup name = table.lookup name := by
  cases node with
  | expr e => rw [SymbolTable.after_expr]
  | stmt s =>
    cases s with
    | assign info other value valid =>
      have hother : name ≠ other := fun hsame => h (congrArg some hsame.symm)
      show (if _ then table else table.poison other).lookup name = table.lookup name
      split
      · rfl
      · rw [SymbolTable.lookup_poison, if_neg hother]
    | print | loop | ifThen | ifElse => rfl
  | decl d =>
    have hother : name ≠ d.name := fun hsame => h (congrArg some hsame.symm)
    show (table.define d.name _).lookup name = table.lookup name
    rw [SymbolTable.lookup_define, if_neg hother]

/-- **A whole run.** -/
theorem Replays.lookup_of_not_written {table table' : SymbolTable} {nodes : List Node}
    {entries : List Entry} (h : Replays table nodes table' entries) {name : String}
    (hname : name ∉ writtenIn nodes) : table'.lookup name = table.lookup name := by
  rw [← h.foldl_eq]
  clear h
  induction nodes generalizing table with
  | nil => rfl
  | cons node rest ih =>
    have hnode : node.writtenName? ≠ some name := fun hwritten =>
      hname (List.mem_filterMap.mpr ⟨node, List.mem_cons_self, hwritten⟩)
    have hrest : name ∉ writtenIn rest := fun hmem =>
      hname (List.filterMap_subset _ (List.subset_cons_self node rest) hmem)
    rw [List.foldl_cons, ih hrest, SymbolTable.lookup_after_of_not_written hnode]

theorem Node.writtenName?_erase (node : Node) : node.erase.writtenName? = node.writtenName? := by
  cases node with
  | expr e => cases e <;> rfl
  | stmt s => cases s <;> rfl
  | decl d => rfl

theorem Tree.writtenNames_check (table : SymbolTable) (tree : Tree) :
    (tree.check table).node.writtenNames = tree.writtenNames :=
  Tree.filterMap_postorder_check Node.writtenName? Node.writtenName?_erase table tree

/-- A check keeps the type of every name that the tree does not write. -/
theorem Tree.lookup_check_of_not_written (table : SymbolTable) (tree : Tree) {name : String}
    (hname : name ∉ tree.writtenNames) :
    (tree.check table).table.lookup name = table.lookup name := by
  rw [← Tree.writtenNames_check table] at hname
  exact (Tree.replays_check table tree).lookup_of_not_written hname

/-! ## Locality -/

/-- **Checks are local.** Two tables that find the same for every name of a tree lead to the same
annotated tree and the same entries, and the tables left behind find the same for these names again.
A name that the tree neither assigns nor declares is found after a check as it was before, and an
expression leaves the whole table as it is. -/
theorem Tree.check_local (tree : Tree) :
    (∀ table table' : SymbolTable, table.AgreeOn tree.names table' →
      (tree.check table).node = (tree.check table').node
        ∧ (tree.check table).entries = (tree.check table').entries
        ∧ (tree.check table).table.AgreeOn tree.names (tree.check table').table)
    ∧ (∀ (table : SymbolTable) (name : String), name ∉ tree.writtenNames →
      (tree.check table).table.lookup name = table.lookup name)
    ∧ ∀ (table : SymbolTable) (e : Expr), tree = .expr e → (tree.check table).table = table := by
  refine ⟨fun table table' h => ?_, fun table name hname => ?_, ?_⟩
  · obtain ⟨hnode, hentries, htable⟩ := tree.agreeOn_check h (List.Subset.refl _)
    exact ⟨hnode, hentries, htable⟩
  · exact tree.lookup_check_of_not_written table hname
  · rintro table e rfl
    rfl

/-- Two tables that differ in `y` only. A block that poisons `x` and reads it again is checked alike
from both, and `y` keeps the type it has in each of them. -/
theorem Tree.check_local_other_name :
    ((SymbolTable.empty.define "x" .int).define "y" .int).AgreeOn
        (Tree.block [.assign {} "x" (.ofBool true) false, .print {} (.ofName "x")]).names
        ((SymbolTable.empty.define "x" .int).define "y" .bool)
      ∧ "y" ∉
        (Tree.block [.assign {} "x" (.ofBool true) false, .print {} (.ofName "x")]).writtenNames
      ∧ ((Tree.block [.assign {} "x" (.ofBool true) false, .print {} (.ofName "x")]).check
          ((SymbolTable.empty.define "x" .int).define "y" .int)).entries
        = ((Tree.block [.assign {} "x" (.ofBool true) false, .print {} (.ofName "x")]).check
          ((SymbolTable.empty.define "x" .int).define "y" .bool)).entries
      ∧ ((Tree.block [.assign {} "x" (.ofBool true) false, .print {} (.ofName "x")]).check
          ((SymbolTable.empty.define "x" .int).define "y" .bool)).table.lookup "y"
        = some .bool := by
  have hagree : ((SymbolTable.empty.define "x" .int).define "y" .int).AgreeOn
      (Tree.block [.assign {} "x" (.ofBool true) false, .print {} (.ofName "x")]).names
      ((SymbolTable.empty.define "x" .int).define "y" .bool) := by decide
  have hname : "y" ∉
      (Tree.block [.assign {} "x" (.ofBool true) false, .print {} (.ofName "x")]).writtenNames := by
    decide
  obtain ⟨hsame, hkeep, -⟩ :=
    Tree.check_local (.block [.assign {} "x" (.ofBool true) false, .print {} (.ofName "x")])
  refine ⟨hagree, hname, (hsame _ _ hagree).2.1, ?_⟩
  rw [hkeep _ _ hname]
  decide

end ScriptTyping
