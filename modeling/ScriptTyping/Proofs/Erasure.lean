import Mathlib.Data.List.Basic
import ScriptTyping.Proofs.Nodes

/-!
# Trees without annotations

Erasing a tree clears the types and the flags that a check writes. What is left is the syntax: the
kinds of the nodes, their names and literals, and their spans. A check that gives a tree back is
about the tree it was given only if the two have the same syntax.

* **`Expr.erase_check`**, **`Stmt.erase_check`**, **`Decl.erase_check`**, **`Script.erase_check`**,
  **`Tree.erase_check`**: a check changes annotations only.
* **`Node.text_erase`**, **`Node.span_erase`**: texts and spans are matters of syntax.
* **`Tree.postorder_erase`**: the syntax of a tree holds the syntax of each of its nodes.
* **`Tree.map_postorder_check`**: what is read off the syntax of the nodes of a tree is the same
  after a check.
-/

namespace ScriptTyping

def NodeInfo.erase (info : NodeInfo) : NodeInfo :=
  { info with ty := none }

def Expr.erase : Expr → Expr
  | .int info value => .int info.erase value
  | .bool info value => .bool info.erase value
  | .str info lexeme => .str info.erase lexeme
  | .var info name => .var info.erase name
  | .unary info op operand => .unary info.erase op operand.erase
  | .binary info op left right => .binary info.erase op left.erase right.erase
  | .parens info inner => .parens info.erase inner.erase

mutual

def Stmt.erase : Stmt → Stmt
  | .assign info name value _ => .assign info.erase name value.erase false
  | .print info operand => .print info.erase operand.erase
  | .loop info condition body => .loop info.erase condition.erase (Block.erase body)
  | .ifThen info condition thenBlock =>
    .ifThen info.erase condition.erase (Block.erase thenBlock)
  | .ifElse info condition thenBlock elseBlock =>
    .ifElse info.erase condition.erase (Block.erase thenBlock) (Block.erase elseBlock)

def Block.erase : List Stmt → List Stmt
  | [] => []
  | stmt :: rest => stmt.erase :: Block.erase rest

end

def Decl.erase (decl : Decl) : Decl :=
  { decl with info := decl.info.erase, init := decl.init.map Expr.erase, valid := false }

def Script.erase (script : Script) : Script where
  decls := script.decls.map Decl.erase
  stmts := Block.erase script.stmts

def Tree.erase : Tree → Tree
  | .expr e => .expr e.erase
  | .stmt s => .stmt s.erase
  | .decl d => .decl d.erase
  | .block b => .block (Block.erase b)
  | .script s => .script s.erase

def Node.erase : Node → Node
  | .expr e => .expr e.erase
  | .stmt s => .stmt s.erase
  | .decl d => .decl d.erase

/-! ## A check changes annotations only -/

@[simp] theorem Expr.erase_withTy (ty : Ty) (expr : Expr) :
    (expr.withTy ty).erase = expr.erase := by
  cases expr <;> rfl

@[simp] theorem Stmt.erase_withTy (ty : Ty) (stmt : Stmt) :
    (stmt.withTy ty).erase = stmt.erase := by
  cases stmt <;> rfl

/-- By induction on the expression: each node is closed by writing a type on it, which erasing takes
away again. -/
theorem Expr.erase_check (table : SymbolTable) (expr : Expr) :
    (expr.check table).expr.erase = expr.erase := by
  induction expr with
  | int | bool | str | var => simp [Expr.check, Expr.close]
  | unary info op operand ih => simp [Expr.check, Expr.close, Expr.erase, ih]
  | binary info op left right ihl ihr => simp [Expr.check, Expr.close, Expr.erase, ihl, ihr]
  | parens info inner ih => simp [Expr.check, Expr.close, Expr.erase, ih]

mutual

/-- An assignment also gets its flag written anew, which erasing clears like a type. -/
theorem Stmt.erase_check (table : SymbolTable) :
    ∀ stmt : Stmt, (stmt.check table).node.erase = stmt.erase
  | .assign info name value valid => by
    simp [Stmt.check, Stmt.close, Stmt.erase, Expr.erase_check]
  | .print info operand => by simp [Stmt.check, Stmt.close, Stmt.erase, Expr.erase_check]
  | .loop info condition body => by
    simp [Stmt.check, Stmt.close, Stmt.erase, Expr.erase_check, Block.erase_check table body]
  | .ifThen info condition thenBlock => by
    simp [Stmt.check, Stmt.close, Stmt.erase, Expr.erase_check, Block.erase_check table thenBlock]
  | .ifElse info condition thenBlock elseBlock => by
    simp [Stmt.check, Stmt.close, Stmt.erase, Expr.erase_check, Block.erase_check table thenBlock,
      Block.erase_check _ elseBlock]

/-- The statements of a block are checked against different tables, but none of them is changed. -/
theorem Block.erase_check (table : SymbolTable) :
    ∀ block : List Stmt, Block.erase (Block.check table block).node = Block.erase block
  | [] => rfl
  | stmt :: rest => by
    rw [Block.check, Block.erase, Block.erase, Stmt.erase_check table stmt,
      Block.erase_check _ rest]

end

/-- A declaration keeps its name, its type token and the syntax of its initialiser. -/
theorem Decl.erase_check (table : SymbolTable) (decl : Decl) :
    (decl.check table).node.erase = decl.erase := by
  cases hinit : decl.init <;>
    simp [Decl.check, Decl.erase, Decl.withTy, NodeInfo.erase, hinit, Expr.erase_check]

/-- Declarations are given back in their order, none added and none left out. -/
theorem Decl.erase_checkAll (table : SymbolTable) (decls : List Decl) :
    (Decl.checkAll table decls).node.map Decl.erase = decls.map Decl.erase := by
  induction decls generalizing table with
  | nil => rfl
  | cons decl rest ih =>
    rw [Decl.checkAll, List.map_cons, List.map_cons, Decl.erase_check, ih]

/-- What a check gives back has the syntax of the script that it was given. -/
theorem Script.erase_check (table : SymbolTable) (script : Script) :
    (script.check table).node.erase = script.erase := by
  rw [Script.check, Script.erase, Script.erase, Decl.erase_checkAll, Block.erase_check]

/-- **A check gives back the tree that it was given,** up to annotations. -/
theorem Tree.erase_check (table : SymbolTable) (tree : Tree) :
    (tree.check table).node.erase = tree.erase := by
  cases tree with
  | expr e => exact congrArg Tree.expr (e.erase_check table)
  | stmt s => exact congrArg Tree.stmt (s.erase_check table)
  | decl d => exact congrArg Tree.decl (d.erase_check table)
  | block b => exact congrArg Tree.block (Block.erase_check table b)
  | script s => exact congrArg Tree.script (s.erase_check table)

/-! ## What does not depend on annotations -/

/-- No annotation is shown in the text of an expression. -/
@[simp] theorem Expr.text_erase (expr : Expr) : expr.erase.text = expr.text := by
  induction expr <;> simp_all [Expr.erase, Expr.text]

mutual

@[simp] theorem Stmt.text_erase : ∀ stmt : Stmt, stmt.erase.text = stmt.text
  | .assign .. => by simp [Stmt.erase, Stmt.text]
  | .print .. => by simp [Stmt.erase, Stmt.text]
  | .loop _ _ body => by simp [Stmt.erase, Stmt.text, Block.innerText_erase body]
  | .ifThen _ _ thenBlock => by simp [Stmt.erase, Stmt.text, Block.innerText_erase thenBlock]
  | .ifElse _ _ thenBlock elseBlock => by
    simp [Stmt.erase, Stmt.text, Block.innerText_erase thenBlock, Block.innerText_erase elseBlock]

@[simp] theorem Block.innerText_erase :
    ∀ block : List Stmt, Block.innerText (Block.erase block) = Block.innerText block
  | [] => rfl
  | stmt :: rest => by
    rw [Block.erase, Block.innerText, Block.innerText, Stmt.text_erase stmt,
      Block.innerText_erase rest]

end

/-- The flag of a declaration is not part of its text. -/
theorem Decl.text_erase (decl : Decl) : decl.erase.text = decl.text := by
  cases hinit : decl.init <;> simp [Decl.text, Decl.erase, hinit]

/-- The text of a node is a matter of syntax. -/
theorem Node.text_erase (node : Node) : node.erase.text = node.text := by
  cases node with
  | expr e => exact e.text_erase
  | stmt s => exact s.text_erase
  | decl d => exact d.text_erase

/-- Erasing clears the type next to the span and leaves the span. -/
theorem Node.span_erase (node : Node) : node.erase.span = node.span := by
  cases node with
  | expr e => cases e <;> rfl
  | stmt s => cases s <;> rfl
  | decl d => rfl

/-! ## The nodes of an erased tree -/

theorem Block.erase_eq_map (block : List Stmt) : Block.erase block = block.map Stmt.erase := by
  induction block with
  | nil => rfl
  | cons stmt rest ih => rw [Block.erase, ih, List.map_cons]

/-- Erasing a node erases the nodes directly below it, and adds or drops none. -/
theorem Node.children_erase (node : Node) :
    node.erase.children = node.children.map Node.erase := by
  cases node with
  | expr e => cases e <;> rfl
  | stmt s =>
    cases s <;>
      simp [Node.erase, Stmt.erase, Node.children, Block.erase_eq_map, Function.comp_def]
  | decl d => cases h : d.init <;> simp [Node.erase, Decl.erase, Node.children, h]

/-- Erasing a node erases all that stands below it, node by node. -/
theorem Node.postorder_erase (node : Node) :
    node.erase.postorder = node.postorder.map Node.erase := by
  induction node using Node.childInduction with
  | step node ih =>
    rw [Node.postorder_eq, Node.postorder_eq, Node.children_erase, List.flatMap_map,
      List.map_append, List.map_flatMap, List.map_singleton, List.flatMap_congr ih]

theorem Tree.roots_erase (tree : Tree) : tree.erase.roots = tree.roots.map Node.erase := by
  cases tree <;>
    simp [Tree.erase, Tree.roots, Script.erase, Block.erase_eq_map, Node.erase, Function.comp_def]

/-- Erasing a tree erases its nodes one by one. -/
theorem Tree.postorder_erase (tree : Tree) :
    tree.erase.postorder = tree.postorder.map Node.erase := by
  rw [Tree.postorder_eq_flatMap_roots, Tree.postorder_eq_flatMap_roots, Tree.roots_erase,
    List.flatMap_map, List.map_flatMap]
  simp only [Node.postorder_erase]

/-- What is read off the syntax of the nodes can be read off the erased tree. -/
theorem Tree.map_postorder_erase {α : Type} (view : Node → α)
    (hview : ∀ node : Node, view node.erase = view node) (tree : Tree) :
    tree.erase.postorder.map view = tree.postorder.map view := by
  rw [Tree.postorder_erase, List.map_map]
  exact List.map_congr_left fun node _ => hview node

/-- A check keeps whatever is read off the syntax of the nodes. -/
theorem Tree.map_postorder_check {α : Type} (view : Node → α)
    (hview : ∀ node : Node, view node.erase = view node) (table : SymbolTable) (tree : Tree) :
    (tree.check table).node.postorder.map view = tree.postorder.map view := by
  rw [← Tree.map_postorder_erase view hview, Tree.erase_check,
    Tree.map_postorder_erase view hview]

/-- The same for a view that some nodes do not have. -/
theorem Tree.filterMap_postorder_check {α : Type} (view : Node → Option α)
    (hview : ∀ node : Node, view node.erase = view node) (table : SymbolTable) (tree : Tree) :
    (tree.check table).node.postorder.filterMap view = tree.postorder.filterMap view := by
  have hmap := Tree.map_postorder_check view hview table tree
  simpa [List.filterMap_map] using congrArg (List.filterMap id) hmap

end ScriptTyping
