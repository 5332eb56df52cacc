import ScriptTyping.Proofs.DocumentOrder
import ScriptTyping.Proofs.Readability
import ScriptTyping.Proofs.SessionGrowth

/-!
# Asking an outline by text

An outline is asked for a type by depth and text, and the first node that fits gives the answer. The
same text can stand in an initialiser, in a condition and inside a loop, and it is checked there
against different tables. This module says when the answer is nevertheless right for every node that
fits.

* **`Node.bare_eq_of_text_eq`**: the text of a canonical node tells what kind of node it is, and
  everything of it that a text can show.
* **`Node.freshTy?`**: the type that a node gets when it is checked on its own. It can be read off
  what the text shows.
* **`SymbolTable.ExtendedBy`**, **`extendedBy_foldl_after`**: as long as every node is accepted and
  no name is declared twice, what the table finds is found from then on.
* **`Tree.Settled`**: every node has the type that it would get from one and the same table.
* **`Outline.Unambiguous`**: nodes with the same text have the same type.
-/

namespace ScriptTyping

/-! ## Texts of different kinds of nodes

Statements and declarations begin with a word and a blank, and no expression does. -/

/-- An operand that is no word begins with a quote, a sign or a parenthesis. -/
theorem Expr.exists_mark {expr : Expr} (h : expr.Canonical) (hroot : expr.rootOp? = none)
    (hword : expr.isWord = false) :
    ∃ c tail, expr.chars = c :: tail ∧ isWordChar c = false ∧ c ≠ ' ' := by
  cases expr with
  | int | bool | var => cases hword
  | str info lexeme =>
    obtain ⟨body, hlexeme, -⟩ := h
    exact ⟨'\x22', _, hlexeme, rfl, by decide⟩
  | unary info op operand =>
    rw [Expr.chars_unary]
    cases op with
    | neg => exact ⟨'-', operand.chars, rfl, rfl, by decide⟩
    | not => exact ⟨'!', operand.chars, rfl, rfl, by decide⟩
  | binary => cases hroot
  | parens info inner => exact ⟨'(', _, Expr.chars_parens info inner, rfl, by decide⟩

/-- No canonical expression begins with a word and a blank, since expressions are written without
blanks outside of strings. -/
theorem Expr.chars_ne_word_append {expr : Expr} {word rest : List Char} (h : expr.Canonical)
    (hword : ∀ c ∈ word, isWordChar c = true) : expr.chars ≠ word ++ ' ' :: rest := by
  intro htext
  have hmem : expr.first ∈ expr.operands := by
    rw [Expr.operands_eq_chain]
    exact List.mem_cons_self
  obtain ⟨hfirst, hroot⟩ := Expr.canonical_of_mem_operands h hmem
  rw [Expr.chars_eq_chain] at htext
  cases hisWord : expr.first.isWord with
  | true =>
    -- then the first operand is the word, and an operator or the end follows instead of the blank
    have hblank : Closes (' ' :: rest) := ends_cons.mpr rfl
    have hstops : Stops (linkChars expr.links ++ []) := stops_linkChars_append (ends_nil _)
    rw [List.append_nil] at hstops
    obtain ⟨-, hlinks⟩ := append_inj_of_ends (Expr.isWordChar_of_mem_chars hfirst hisWord) hword
      hstops hblank.stops htext
    cases hchain : expr.links with
    | nil =>
      rw [hchain] at hlinks
      cases hlinks
    | cons link links =>
      obtain ⟨op, operand⟩ := link
      have hcloses : Closes (linkChars ((op, operand) :: links) ++ []) := by
        rwa [List.append_nil, ← hchain, hlinks]
      exact not_closes_linkChars_cons hcloses
  | false =>
    obtain ⟨c, tail, hchars, hmark, hblank⟩ := Expr.exists_mark hfirst hroot hisWord
    rw [hchars] at htext
    cases word with
    | nil => exact hblank (List.cons.inj htext).1
    | cons d word =>
      rw [(List.cons.inj htext).1, hword d List.mem_cons_self] at hmark
      cases hmark

theorem Decl.exists_toList_text (decl : Decl) :
    ∃ rest, decl.text.toList = "var".toList ++ ' ' :: rest :=
  ⟨_, decl.toList_text⟩

theorem isWordChar_of_mem_var : ∀ c ∈ "var".toList, isWordChar c = true :=
  isWordChar_of_mem_keyword (by decide : "var" ∈ keywords)

/-- Expressions and statements never have the same text. -/
theorem Expr.text_ne_stmt {expr : Expr} {stmt : Stmt} (h : expr.Canonical) (h' : stmt.Canonical) :
    expr.text ≠ stmt.text := by
  intro htext
  have hchars : expr.chars = stmt.chars := congrArg String.toList htext
  rw [Stmt.chars_eq_lead] at hchars
  exact Expr.chars_ne_word_append h (Stmt.isWordChar_of_mem_lead h') hchars

theorem Expr.text_ne_decl {expr : Expr} (decl : Decl) (h : expr.Canonical) :
    expr.text ≠ decl.text := by
  intro htext
  obtain ⟨rest, hrest⟩ := decl.exists_toList_text
  have hchars : expr.chars = decl.text.toList := congrArg String.toList htext
  exact Expr.chars_ne_word_append h isWordChar_of_mem_var (hchars.trans hrest)

/-- No statement begins with the word `var`, which is a keyword. -/
theorem Stmt.word_lead_ne_var {stmt : Stmt} (h : stmt.Canonical) : stmt.lead.word ≠ "var" := by
  cases stmt with
  | assign info name value valid =>
    rintro rfl
    exact h.1.2.2 (by decide)
  | print | loop | ifThen | ifElse =>
    simp [Stmt.lead, Stmt.Lead.word]

theorem Stmt.text_ne_decl {stmt : Stmt} (decl : Decl) (h : stmt.Canonical) :
    stmt.text ≠ decl.text := by
  intro htext
  have hblank : ∀ tail : List Char, Stops (' ' :: tail) := fun tail => ends_cons.mpr rfl
  obtain ⟨rest, hrest⟩ := decl.exists_toList_text
  have hchars : stmt.chars = decl.text.toList := congrArg String.toList htext
  rw [Stmt.chars_eq_lead, hrest] at hchars
  obtain ⟨hword, -⟩ := append_inj_of_ends (Stmt.isWordChar_of_mem_lead h) isWordChar_of_mem_var
    (hblank _) (hblank _) hchars
  exact Stmt.word_lead_ne_var h (String.toList_inj.mp hword)

/-! ## Canonical nodes -/

def Node.Canonical : Node → Prop
  | .expr e => e.Canonical
  | .stmt s => s.Canonical
  | .decl d => d.Canonical

def Script.Canonical (script : Script) : Prop :=
  (∀ decl ∈ script.decls, decl.Canonical) ∧ Block.Canonical script.stmts

instance (script : Script) : Decidable script.Canonical :=
  inferInstanceAs (Decidable (_ ∧ _))

def Node.bare : Node → Node
  | .expr e => .expr e.bare
  | .stmt s => .stmt s.bare
  | .decl d => .decl d.bare

/-- Canonical nodes with the same text are of one kind, and the same but for annotations and
spans. -/
theorem Node.bare_eq_of_text_eq {node other : Node} (h : node.Canonical) (h' : other.Canonical)
    (htext : node.text = other.text) : node.bare = other.bare := by
  cases node with
  | expr e =>
    cases other with
    | expr e' => exact congrArg Node.expr (Expr.bare_eq_of_text_eq h h' htext)
    | stmt s' => exact absurd htext (Expr.text_ne_stmt h h')
    | decl d' => exact absurd htext (Expr.text_ne_decl d' h)
  | stmt s =>
    cases other with
    | expr e' => exact absurd htext.symm (Expr.text_ne_stmt h' h)
    | stmt s' => exact congrArg Node.stmt (Stmt.bare_eq_of_text_eq h h' htext)
    | decl d' => exact absurd htext (Stmt.text_ne_decl d' h)
  | decl d =>
    cases other with
    | expr e' => exact absurd htext.symm (Expr.text_ne_decl d h')
    | stmt s' => exact absurd htext.symm (Stmt.text_ne_decl d h')
    | decl d' => exact congrArg Node.decl (Decl.bare_eq_of_text_eq h h' htext)

theorem Block.canonical_iff {block : List Stmt} :
    Block.Canonical block ↔ ∀ stmt ∈ block, stmt.Canonical := by
  induction block with
  | nil => exact iff_of_true trivial (List.forall_mem_nil _)
  | cons stmt rest ih => rw [Block.Canonical, ih, List.forall_mem_cons]

theorem Block.canonical_roots {block : List Stmt} (h : Block.Canonical block) {node : Node}
    (hnode : node ∈ block.map Node.stmt) : node.Canonical := by
  obtain ⟨stmt, hstmt, rfl⟩ := List.mem_map.mp hnode
  exact Block.canonical_iff.mp h stmt hstmt

/-- What stands directly below a canonical node is canonical. -/
theorem Node.Canonical.child {node child : Node} (h : node.Canonical)
    (hchild : child ∈ node.children) : child.Canonical := by
  cases node with
  | expr e =>
    cases e with
    | int | bool | str | var => cases hchild
    | unary info op operand =>
      obtain rfl := List.mem_singleton.mp hchild
      exact h.1
    | binary info op left right =>
      rcases List.mem_cons.mp hchild with rfl | hchild
      · exact h.1
      · obtain rfl := List.mem_singleton.mp hchild
        exact h.2.1
    | parens info inner =>
      obtain rfl := List.mem_singleton.mp hchild
      exact h
  | stmt s =>
    cases s with
    | assign info name value valid =>
      obtain rfl := List.mem_singleton.mp hchild
      exact h.2
    | print info operand =>
      obtain rfl := List.mem_singleton.mp hchild
      exact h
    | loop info condition body | ifThen info condition body =>
      rcases List.mem_cons.mp hchild with rfl | hchild
      · exact h.1
      · exact Block.canonical_roots h.2 hchild
    | ifElse info condition thenBlock elseBlock =>
      rcases List.mem_cons.mp hchild with rfl | hchild
      · exact h.1
      · rcases List.mem_append.mp hchild with hchild | hchild
        · exact Block.canonical_roots h.2.1 hchild
        · exact Block.canonical_roots h.2.2 hchild
  | decl d =>
    obtain ⟨init, hinit, rfl⟩ := List.mem_map.mp hchild
    exact h.2.2 init (Option.mem_toList.mp hinit)

/-- Every node of a tree with canonical roots is canonical. -/
theorem Tree.Contains.canonical {tree : Tree} {node : Node} (hnode : tree.Contains node)
    (h : ∀ root ∈ tree.roots, root.Canonical) : node.Canonical := by
  induction hnode with
  | root hroot => exact h _ hroot
  | child _ hchild ih => exact ih.child hchild

/-! ### Being canonical is a matter of syntax -/

@[simp] theorem Expr.rootOp?_erase (expr : Expr) : expr.erase.rootOp? = expr.rootOp? := by
  cases expr <;> rfl

/-- Whether an expression is canonical does not depend on its annotations. -/
theorem Expr.canonical_erase (expr : Expr) : expr.erase.Canonical ↔ expr.Canonical := by
  induction expr <;> simp_all [Expr.erase, Expr.Canonical]

mutual

theorem Stmt.canonical_erase : ∀ stmt : Stmt, stmt.erase.Canonical ↔ stmt.Canonical
  | .assign .. => by simp [Stmt.erase, Stmt.Canonical, Expr.canonical_erase]
  | .print .. => by simp [Stmt.erase, Stmt.Canonical, Expr.canonical_erase]
  | .loop _ _ body => by
    simp [Stmt.erase, Stmt.Canonical, Expr.canonical_erase, Block.canonical_erase body]
  | .ifThen _ _ thenBlock => by
    simp [Stmt.erase, Stmt.Canonical, Expr.canonical_erase, Block.canonical_erase thenBlock]
  | .ifElse _ _ thenBlock elseBlock => by
    simp [Stmt.erase, Stmt.Canonical, Expr.canonical_erase, Block.canonical_erase thenBlock,
      Block.canonical_erase elseBlock]

theorem Block.canonical_erase :
    ∀ block : List Stmt, Block.Canonical (Block.erase block) ↔ Block.Canonical block
  | [] => Iff.rfl
  | stmt :: rest => by
    rw [Block.erase, Block.Canonical, Block.Canonical, Stmt.canonical_erase stmt,
      Block.canonical_erase rest]

end

theorem Node.canonical_erase (node : Node) : node.erase.Canonical ↔ node.Canonical := by
  cases node with
  | expr e => exact e.canonical_erase
  | stmt s => exact s.canonical_erase
  | decl d =>
    cases hinit : d.init <;>
      simp [Node.erase, Node.Canonical, Decl.erase, Decl.Canonical, hinit, Expr.canonical_erase]

theorem Tree.canonical_of_contains_check (table : SymbolTable) (tree : Tree)
    (h : ∀ root ∈ tree.roots, root.Canonical) {node : Node}
    (hnode : (tree.check table).node.Contains node) : node.Canonical := by
  refine hnode.canonical fun root hroot => ?_
  have hmem : root.erase ∈ tree.roots.map Node.erase := by
    rw [← Tree.roots_erase, ← Tree.erase_check table tree, Tree.roots_erase]
    exact List.mem_map_of_mem hroot
  obtain ⟨given, hgiven, hsame⟩ := List.mem_map.mp hmem
  rw [← Node.canonical_erase, ← hsame, Node.canonical_erase]
  exact h given hgiven

/-! ## The type of a node on its own -/

/-- The type that the node gets when it is checked on its own. -/
def Node.freshTy? (table : SymbolTable) : Node → Option Ty
  | .expr e => (e.check table).expr.ty?
  | .stmt s => (s.check table).node.ty?
  | .decl d => (d.check table).node.ty?

/-- The type of an expression depends neither on annotations nor on spans. -/
theorem Expr.ty_check_bare (table : SymbolTable) (expr : Expr) :
    (expr.bare.check table).ty = (expr.check table).ty := by
  induction expr <;> simp_all [Expr.bare, Expr.check, Expr.close]

/-- The type of a node on its own depends neither on annotations nor on spans. -/
theorem Node.freshTy?_bare (table : SymbolTable) (node : Node) :
    node.bare.freshTy? table = node.freshTy? table := by
  cases node with
  | expr e => simp [Node.bare, Node.freshTy?, Expr.ty_check_bare]
  | stmt s =>
    cases s <;>
      simp [Node.bare, Node.freshTy?, Stmt.bare, Stmt.check, Stmt.close, Expr.ty_check_bare,
        Expr.text_bare]
  | decl d =>
    cases hinit : d.init <;>
      simp [Node.bare, Node.freshTy?, Decl.bare, Decl.check, Decl.withTy, Decl.ty?, hinit,
        Expr.ty_check_bare]

/-- Every node has the type that its verdict from this table calls for. -/
def Tree.Settled (table : SymbolTable) (tree : Tree) : Prop :=
  ∀ node, tree.Contains node → node.ty? = some (node.verdict table).ty

/-- In a settled tree the recorded type of an expression is the one that a check against the table
gives. -/
theorem Tree.Settled.recordedTy {table : SymbolTable} {tree : Tree} (h : tree.Settled table)
    {expr : Expr} (hexpr : tree.Contains (.expr expr)) :
    expr.recordedTy = (expr.check table).ty := by
  have hverdict : ∀ e : Expr, tree.Contains (.expr e) →
      e.recordedTy = ((Node.expr e).verdict table).ty :=
    fun e he => congrArg (·.getD .error) (h _ he)
  induction expr with
  | int | bool | str | var => exact hverdict _ hexpr
  | unary info op operand ih =>
    have hoperand := ih (hexpr.child List.mem_cons_self)
    rw [hverdict _ hexpr, Node.verdict, hoperand]
    rfl
  | binary info op left right ihl ihr =>
    have hleft := ihl (hexpr.child List.mem_cons_self)
    have hright := ihr (hexpr.child (List.mem_cons_of_mem _ List.mem_cons_self))
    rw [hverdict _ hexpr, Node.verdict, hleft, hright]
    rfl
  | parens info inner ih =>
    have hinner := ih (hexpr.child List.mem_cons_self)
    rw [hverdict _ hexpr, Node.verdict, hinner]
    rfl

/-- In a settled tree a node has the type that it would have on its own. -/
theorem Tree.Settled.ty?_eq {table : SymbolTable} {tree : Tree} (h : tree.Settled table)
    {node : Node} (hnode : tree.Contains node) : node.ty? = node.freshTy? table := by
  have hchild : ∀ e : Expr, .expr e ∈ node.children → e.recordedTy = (e.check table).ty :=
    fun e he => h.recordedTy (hnode.child he)
  rw [h node hnode]
  cases node with
  | expr e =>
    have hself := h.recordedTy hnode
    rw [Expr.recordedTy, show e.ty? = _ from h _ hnode, Option.getD_some] at hself
    rw [Node.freshTy?, Expr.ty?_check, hself]
  | stmt s =>
    cases s <;> simp_all [Node.children, Node.verdict, Node.freshTy?, Stmt.check, Stmt.close]
  | decl d =>
    cases hinit : d.init <;>
      simp_all [Node.children, Node.verdict, Node.freshTy?, Decl.check, Decl.withTy, Decl.ty?]

/-! ## Runs without a violation

Only declarations change the table of such a run, and a name that is declared once keeps its
type. -/

/-- What the first table finds, the second one finds as well. -/
def SymbolTable.ExtendedBy (table table' : SymbolTable) : Prop :=
  ∀ name ty, table.lookup name = some ty → table'.lookup name = some ty

/-- A node that declares a new name puts it at the end of the table, and every other node keeps the
names. -/
theorem SymbolTable.names_after {table : SymbolTable} {node : Node}
    (hnew : ∀ name ∈ node.declaredName?, name ∉ table.names) :
    (table.after node).names = table.names ++ node.declaredName?.toList := by
  cases node with
  | expr e =>
    rw [SymbolTable.after_expr]
    exact (List.append_nil _).symm
  | stmt s =>
    refine Eq.trans ?_ (List.append_nil _).symm
    cases s with
    | assign info name value valid =>
      show (if _ then table else table.poison name).names = table.names
      split
      · rfl
      · rw [SymbolTable.names_poison]
    | print | loop | ifThen | ifElse => rfl
  | decl d =>
    have hfresh : ¬ table.contains d.name = true := fun h =>
      hnew d.name rfl (SymbolTable.contains_iff.mp h)
    show (table.define d.name _).names = table.names ++ [d.name]
    rw [SymbolTable.names_define, if_neg hfresh]

/-- **One node.** -/
theorem SymbolTable.extendedBy_after {table : SymbolTable} {node : Node}
    (hvalid : (node.verdict table).isValid = true)
    (hnew : ∀ name ∈ node.declaredName?, name ∉ table.names) :
    table.ExtendedBy (table.after node) := by
  intro name ty hty
  cases node with
  | expr e => rwa [SymbolTable.after_expr]
  | stmt s =>
    cases s with
    | assign info other value valid =>
      show (if _ then table else table.poison other).lookup name = some ty
      rwa [if_pos hvalid]
    | print | loop | ifThen | ifElse => exact hty
  | decl d =>
    have hother : name ≠ d.name := by
      rintro rfl
      exact hnew d.name rfl
        (SymbolTable.contains_iff.mp (Option.isSome_iff_exists.mpr ⟨ty, hty⟩))
    show (table.define d.name _).lookup name = some ty
    rwa [SymbolTable.lookup_define, if_neg hother]

/-- **A run over nodes.** The table of every step, and the one at the start, find nothing that the
table at the end would not find. -/
theorem extendedBy_foldl_after {table : SymbolTable} {nodes : List Node}
    (hvalid : ∀ step ∈ steps table nodes, step.verdict.isValid = true)
    (hnodup : (table.names ++ nodes.filterMap Node.declaredName?).Nodup) :
    table.ExtendedBy (nodes.foldl SymbolTable.after table)
      ∧ ∀ step ∈ steps table nodes,
        step.table.ExtendedBy (nodes.foldl SymbolTable.after table) := by
  induction nodes generalizing table with
  | nil => exact ⟨fun _ _ hty => hty, List.forall_mem_nil _⟩
  | cons node rest ih =>
    rw [List.filterMap_eq_flatMap_toList, List.flatMap_cons, ← List.filterMap_eq_flatMap_toList]
      at hnodup
    have hnew : ∀ name ∈ node.declaredName?, name ∉ table.names := by
      intro name hname hold
      have hlater : name ∈ node.declaredName?.toList ++ rest.filterMap Node.declaredName? :=
        List.mem_append_left _ (Option.mem_toList.mpr hname)
      exact (List.nodup_append.mp hnodup).2.2 name hold name hlater rfl
    obtain ⟨hnode, hrest⟩ := List.forall_mem_cons.mp hvalid
    -- the names that the node declares pass from the names to come to the names of the table
    rw [← List.append_assoc, ← SymbolTable.names_after hnew] at hnodup
    obtain ⟨hend, hsteps⟩ := ih hrest hnodup
    have hstart : table.ExtendedBy (rest.foldl SymbolTable.after (table.after node)) :=
      fun name ty hty => hend name ty (SymbolTable.extendedBy_after hnode hnew name ty hty)
    exact ⟨hstart, List.forall_mem_cons.mpr ⟨hstart, hsteps⟩⟩

/-- A node that a table accepts gets the same verdict from every table that extends it. -/
theorem Node.verdict_of_extendedBy {table table' : SymbolTable} {node : Node}
    (h : table.ExtendedBy table') (hvalid : (node.verdict table).isValid = true) :
    node.verdict table' = node.verdict table := by
  obtain ⟨ty, hty⟩ := Verdict.isValid_iff.mp hvalid
  cases node with
  | expr e =>
    cases e with
    | var info name =>
      have hfound := Verdict.ofVariable_eq_ok_iff.mp hty
      rw [Node.verdict, Node.verdict, hfound, h name ty hfound]
    | int | bool | str | unary | binary | parens => rfl
  | stmt s =>
    cases s with
    | assign info name value valid =>
      obtain ⟨hfound, -⟩ := Verdict.ofAssign_eq_ok_iff.mp hty
      rw [Node.verdict, Node.verdict, hfound, h name ty hfound]
    | print | loop | ifThen | ifElse => rfl
  | decl d => rfl

/-! ## Settled trees -/

/-- Each node of a replayed run is typed by its verdict at one of the steps. -/
theorem Replays.exists_step {table table' : SymbolTable} {nodes : List Node} {entries : List Entry}
    (h : Replays table nodes table' entries) {node : Node} (hnode : node ∈ nodes) :
    ∃ step ∈ steps table nodes, step.node = node
      ∧ node.ty? = some (node.verdict step.table).ty := by
  rw [← map_node_steps table nodes] at hnode
  obtain ⟨step, hstep, rfl⟩ := List.mem_map.mp hnode
  exact ⟨step, hstep, rfl, (h.annotated step hstep).ty?⟩

/-- Expressions leave the table alone, so that all steps see the same one. -/
theorem table_of_mem_steps {table : SymbolTable} {nodes : List Node}
    (h : ∀ node ∈ nodes, ∃ e, node = .expr e) : ∀ step ∈ steps table nodes, step.table = table := by
  induction nodes with
  | nil => exact List.forall_mem_nil _
  | cons node rest ih =>
    obtain ⟨⟨e, rfl⟩, hrest⟩ := List.forall_mem_cons.mp h
    rw [steps, SymbolTable.after_expr]
    exact List.forall_mem_cons.mpr ⟨rfl, ih hrest⟩

/-- Whatever the table, all nodes of an expression are checked against it. -/
theorem Expr.settled_check (table : SymbolTable) (expr : Expr) :
    (Tree.expr (expr.check table).expr).Settled table := by
  intro node hnode
  obtain ⟨step, hstep, -, hty⟩ :=
    (expr.replays_check table).exists_step (Tree.mem_postorder_iff.mpr hnode)
  have hexprs : ∀ part ∈ (expr.check table).expr.postorder, ∃ e, part = .expr e :=
    fun part hpart => Expr.exists_eq_of_contains (Tree.mem_postorder_iff.mp hpart)
  rwa [table_of_mem_steps hexprs step hstep] at hty

/-- If nothing goes wrong and no name is declared twice, then the nodes of a tree could as well have
been checked against the table at the end. -/
theorem Tree.settled_check_of_silent (table : SymbolTable) (tree : Tree)
    (hsilent : (tree.check table).entries = [])
    (hnodup : (table.names ++ tree.declaredNames).Nodup) :
    (tree.check table).node.Settled (tree.check table).table := by
  have hrun := tree.replays_check table
  have hvalid : ∀ step ∈ steps table (tree.check table).node.postorder,
      step.verdict.isValid = true := by
    intro step hstep
    have hnone := List.flatMap_eq_nil_iff.mp (hrun.entries_eq.trans hsilent) step hstep
    exact Verdict.entries_eq_nil_iff.mp hnone
  rw [Tree.declaredNames, ← Tree.filterMap_postorder_check _ Node.declaredName?_erase table tree]
    at hnodup
  obtain ⟨-, hextended⟩ := extendedBy_foldl_after hvalid hnodup
  intro node hnode
  obtain ⟨step, hstep, rfl, hty⟩ := hrun.exists_step (Tree.mem_postorder_iff.mpr hnode)
  have hfinal := hextended step hstep
  rw [hrun.foldl_eq] at hfinal
  rw [hty, Node.verdict_of_extendedBy hfinal (hvalid step hstep)]

/-! ## Outlines -/

/-- Nodes with the same text have the same type, at whatever depths they stand. -/
def Outline.Unambiguous (outline : Outline) : Prop :=
  ∀ row ∈ outline.rows, ∀ other ∈ outline.rows, row.text = other.text → row.ty = other.ty

instance (outline : Outline) : Decidable outline.Unambiguous :=
  inferInstanceAs (Decidable (∀ row ∈ outline.rows, ∀ other ∈ outline.rows, _ → _))

/-- Every node has a type, and a query for its depth and its text is answered with this type. -/
def Outline.AnswersForEach (outline : Outline) : Prop :=
  ∀ row ∈ outline.rows, ∃ ty, row.ty = some ty ∧ outline.ty? row.depth row.text = some ty

/-- Every node at the end of some way down has a type, and a query for its depth and its text is
answered with this type. -/
def Tree.AnswersForEach (tree : Tree) : Prop :=
  ∀ (address : Address) (node : Node), tree.node? address = some node →
    ∃ ty, node.ty? = some ty ∧ tree.outline.ty? address.length node.text = some ty

/-- The outline has a row for every node, so what it answers for its rows it answers for the
nodes. -/
theorem Tree.answersForEach_of_outline {tree : Tree} (h : tree.outline.AnswersForEach) :
    tree.AnswersForEach := by
  intro address node hnode
  exact h _ (Tree.row_mem_outline hnode)

/-- In an unambiguous outline, whichever row a query comes upon first has the type asked for. -/
theorem Outline.Unambiguous.ty?_eq {outline : Outline} (h : outline.Unambiguous)
    {row : Outline.Row} (hrow : row ∈ outline.rows) : outline.ty? row.depth row.text = row.ty := by
  unfold Outline.ty? Outline.find?
  cases hfound : outline.rows.find? fun other =>
      other.depth == row.depth && other.text == row.text with
  | none =>
    have hnone := List.find?_eq_none.mp hfound row hrow
    simp at hnone
  | some first =>
    have hfits : first.depth = row.depth ∧ first.text = row.text := by
      simpa using List.find?_some hfound
    exact h first (List.mem_of_find?_eq_some hfound) row hrow hfits.2

/-- The outline of a settled tree of canonical nodes is unambiguous: the text of a node determines
the node but for annotations, and this the type. -/
theorem Tree.Settled.unambiguous {table : SymbolTable} {tree : Tree} (h : tree.Settled table)
    (hcanonical : ∀ node, tree.Contains node → node.Canonical) : tree.outline.Unambiguous := by
  intro row hrow other hother htext
  obtain ⟨node, hnode, hshows⟩ := Tree.exists_contains_of_mem_rows hrow
  obtain ⟨node', hnode', hshows'⟩ := Tree.exists_contains_of_mem_rows hother
  rw [hshows, hshows'] at htext
  have hbare := Node.bare_eq_of_text_eq (hcanonical node hnode) (hcanonical node' hnode') htext
  calc row.ty
      = node.ty? := congrArg Outline.Row.ty hshows
    _ = node.bare.freshTy? table := by rw [h.ty?_eq hnode, Node.freshTy?_bare]
    _ = node'.ty? := by rw [hbare, Node.freshTy?_bare, h.ty?_eq hnode']
    _ = other.ty := (congrArg Outline.Row.ty hshows').symm

/-- The outline of a settled tree of canonical nodes answers every query. -/
theorem Tree.Settled.answersForEach {table : SymbolTable} {tree : Tree} (h : tree.Settled table)
    (hcanonical : ∀ node, tree.Contains node → node.Canonical) : tree.outline.AnswersForEach := by
  intro row hrow
  obtain ⟨node, hnode, hshows⟩ := Tree.exists_contains_of_mem_rows hrow
  have hty : row.ty = some (node.verdict table).ty :=
    (congrArg Outline.Row.ty hshows).trans (h node hnode)
  exact ⟨_, hty, ((h.unambiguous hcanonical).ty?_eq hrow).trans hty⟩

theorem Decl.filterMap_declaredName?_postorder (decl : Decl) :
    decl.postorder.filterMap Node.declaredName? = [decl.name] := by
  unfold Decl.postorder
  cases decl.init with
  | none => rfl
  | some init =>
    have hinit : init.postorder.filterMap Node.declaredName? = [] := by
      refine List.filterMap_eq_nil_iff.mpr fun node hnode => ?_
      obtain ⟨e, rfl⟩ := Expr.exists_eq_of_contains (Tree.mem_postorder_iff.mp hnode)
      rfl
    rw [List.filterMap_append, hinit]
    rfl

theorem Tree.declaredNames_script (script : Script) :
    (Tree.script script).declaredNames = script.decls.map Decl.name := by
  have hstmts : (Block.postorder script.stmts).filterMap Node.declaredName? = [] :=
    Tree.declaredNames_block script.stmts
  rw [Tree.declaredNames, Tree.postorder, Script.postorder, List.filterMap_append, hstmts,
    List.append_nil, List.filterMap_flatMap]
  simp only [Decl.filterMap_declaredName?_postorder]
  exact List.map_eq_flatMap.symm

/-- **Queries by text are unambiguous.** Take a canonical expression, checked against any table, or
a canonical script that declares no name twice and whose run ends with an empty log. What the check
gives back is the given tree up to annotations. In its outline nodes with the same text have the
same type; so a query is answered with the type of every node that fits, and not only with that of
the first one. This goes for all rows of the outline, and for all nodes of the tree. -/
theorem outline_unambiguous :
    (∀ (table : SymbolTable) (expr : Expr), expr.Canonical →
      (expr.check table).expr.erase = expr.erase
        ∧ (Tree.expr (expr.check table).expr).outline.Unambiguous
        ∧ (Tree.expr (expr.check table).expr).outline.AnswersForEach
        ∧ (Tree.expr (expr.check table).expr).AnswersForEach)
    ∧ ∀ (options : RunOptions) (script : Script) (session : Session), script.Canonical →
      (script.decls.map Decl.name).Nodup → (script.run options).result = .ok session →
      session.log.entries = [] →
      (script.run options).script.erase = script.erase
        ∧ (Tree.script (script.run options).script).outline.Unambiguous
        ∧ (Tree.script (script.run options).script).outline.AnswersForEach
        ∧ (Tree.script (script.run options).script).AnswersForEach := by
  refine ⟨fun table expr h => ?_, fun options script session h hnodup hresult hlog => ?_⟩
  · have hroots : ∀ root ∈ (Tree.expr expr).roots, root.Canonical :=
      List.forall_mem_singleton.mpr h
    have hcanonical : ∀ node, (Tree.expr (expr.check table).expr).Contains node → node.Canonical :=
      fun node => Tree.canonical_of_contains_check table (.expr expr) hroots
    have hsettled := expr.settled_check table
    have hrows := hsettled.answersForEach hcanonical
    exact ⟨expr.erase_check table, hsettled.unambiguous hcanonical, hrows,
      Tree.answersForEach_of_outline hrows⟩
  · rw [script.run_result] at hresult
    cases hresult
    refine ⟨script.erase_run options, ?_⟩
    rw [script.run_script]
    have hroots : ∀ root ∈ (Tree.script script).roots, root.Canonical := by
      intro root hroot
      rcases List.mem_append.mp hroot with hdecl | hstmt
      · obtain ⟨decl, hmem, rfl⟩ := List.mem_map.mp hdecl
        exact h.1 decl hmem
      · exact Block.canonical_roots h.2 hstmt
    have hcanonical : ∀ node, (Tree.script (script.check .empty).node).Contains node →
        node.Canonical :=
      fun node => Tree.canonical_of_contains_check .empty (.script script) hroots
    have hsettled : (Tree.script (script.check .empty).node).Settled (script.check .empty).table :=
      Tree.settled_check_of_silent .empty (.script script) hlog
        (by rwa [Tree.declaredNames_script])
    have hrows := hsettled.answersForEach hcanonical
    exact ⟨hsettled.unambiguous hcanonical, hrows, Tree.answersForEach_of_outline hrows⟩

/-- The expression `n<9`. -/
def belowNine : Expr := .applyBinary .lt (.ofName "n") (.ofInt 9)

/-- The same expression initialises a variable, decides a loop and is printed inside it. -/
def repetitiveScript : Script where
  decls := [⟨{}, "n", "Int", some (.ofInt 1), false⟩, ⟨{}, "more", "Bool", some belowNine, false⟩]
  stmts :=
    [.loop {} belowNine
      [.print {} belowNine, .assign {} "n" (.applyBinary .add (.ofName "n") (.ofInt 1)) false]]

/-- With a poisoned `n` the expression answers for its nodes as well. The printed `n<9`, at the
end of the way through the third root and the second node below it, is answered for like the
condition. -/
theorem outline_unambiguous_repetitive :
    (Tree.expr (belowNine.check (.ofList [("n", .error)])).expr).outline.AnswersForEach
      ∧ ∃ session, (repetitiveScript.run {}).result = .ok session ∧ session.log.entries = []
        ∧ (Tree.script (repetitiveScript.run {}).script).outline.Unambiguous
        ∧ (Tree.script (repetitiveScript.run {}).script).outline.AnswersForEach
        ∧ (Tree.script (repetitiveScript.run {}).script).outline.ty? 3 "n<9" = some .bool := by
  obtain ⟨hexpr, hscript⟩ := outline_unambiguous
  have hlog : repetitiveScript.outcome.log.entries = [] := by decide
  obtain ⟨-, hunambiguous, hrows, hnodes⟩ :=
    hscript {} repetitiveScript _ (by decide) (by decide) (repetitiveScript.run_result {}) hlog
  obtain ⟨-, -, hbelowNine, -⟩ := hexpr (.ofList [("n", .error)]) belowNine (by decide)
  refine ⟨hbelowNine, _, repetitiveScript.run_result {}, hlog, hunambiguous, hrows, ?_⟩
  have hprinted : (Tree.script (repetitiveScript.run {}).script).node? [2, 1, 0]
      = some (.expr (belowNine.check (repetitiveScript.check .empty).table).expr) := by
    rw [repetitiveScript.run_script {}]
    decide
  obtain ⟨ty, hty, hanswer⟩ := hnodes [2, 1, 0] _ hprinted
  have hbool : ty = .bool := Option.some.inj (hty.symm.trans (by decide))
  rw [← hbool]
  exact hanswer

/-- A name declared twice can have two types, although nothing is wrong with the script. -/
example :
    let script : Script :=
      { decls :=
          [⟨{}, "x", "Int", none, false⟩, ⟨{}, "y", "Int", some (.ofName "x"), false⟩,
            ⟨{}, "x", "Bool", none, false⟩]
        stmts := [.print {} (.ofName "x")] }
    script.Canonical ∧ (script.check .empty).entries = []
      ∧ ¬ (Tree.script (script.check .empty).node).outline.Unambiguous := by
  decide

end ScriptTyping
