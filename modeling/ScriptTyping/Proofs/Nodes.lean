import ScriptTyping.Checking.Script
import ScriptTyping.Outline

/-!
# Nodes of a tree

Expressions, statements and declarations are the nodes of a tree; blocks only group them. This
module says what the nodes of a tree are without regard to any walk, and then ties the walks to it.

* **`Node.childInduction`**: a property that passes from the children of a node to the node holds of
  every node. All facts about nodes that do not look at their kinds are proved with it.
* **`Tree.Contains`**: the nodes of a tree are its roots and the children of its nodes.
* **`Tree.mem_postorder_iff`**: the post-order of a tree lists exactly the nodes it contains.
* **`Tree.exists_contains_of_mem_rows`**: every row of an outline shows a node that the tree
  contains.
* **`Expr.postorder_check`**, **`Stmt.postorder_check`**, **`Decl.postorder_check`**: the post-order
  of a checked node is made of the post-orders of its checked parts.
* **`Expr.exists_check_of_mem_postorder`**: the nodes of a checked expression are checked
  expressions.
-/

namespace ScriptTyping

inductive Node where
  | expr (expr : Expr)
  | stmt (stmt : Stmt)
  | decl (decl : Decl)
  deriving DecidableEq, Repr

namespace Node

def ty? : Node → Option Ty
  | .expr e => e.ty?
  | .stmt s => s.ty?
  | .decl d => d.ty?

def text : Node → String
  | .expr e => e.text
  | .stmt s => s.text
  | .decl d => d.text

def span : Node → Span
  | .expr e => e.span
  | .stmt s => s.span
  | .decl d => d.span

/-- The flag of the nodes that have one: declarations and assignments. -/
def valid? : Node → Option Bool
  | .decl d => some d.valid
  | .stmt (.assign _ _ _ valid) => some valid
  | _ => none

/-- The nodes directly below a node, in source order. -/
def children : Node → List Node
  | .expr (.unary _ _ operand) => [.expr operand]
  | .expr (.binary _ _ left right) => [.expr left, .expr right]
  | .expr (.parens _ inner) => [.expr inner]
  | .expr (.int ..) | .expr (.bool ..) | .expr (.str ..) | .expr (.var ..) => []
  | .stmt (.assign _ _ value _) => [.expr value]
  | .stmt (.print _ operand) => [.expr operand]
  | .stmt (.loop _ condition body) => .expr condition :: body.map .stmt
  | .stmt (.ifThen _ condition thenBlock) => .expr condition :: thenBlock.map .stmt
  | .stmt (.ifElse _ condition thenBlock elseBlock) =>
    .expr condition :: (thenBlock.map .stmt ++ elseBlock.map .stmt)
  | .decl d => d.init.toList.map .expr

/-! ## Annotating a node

A type written on a node is seen on this node and nowhere else. -/

def withTy (ty : Ty) : Node → Node
  | .expr e => .expr (e.withTy ty)
  | .stmt s => .stmt (s.withTy ty)
  | .decl d => .decl (d.withTy ty)

@[simp] theorem ty?_withTy (ty : Ty) (node : Node) : (node.withTy ty).ty? = some ty := by
  cases node <;> simp [withTy, ty?, Decl.ty?, Decl.withTy]

@[simp] theorem text_withTy (ty : Ty) (node : Node) : (node.withTy ty).text = node.text := by
  cases node <;> simp [withTy, text, Decl.text, Decl.withTy]

@[simp] theorem span_withTy (ty : Ty) (node : Node) : (node.withTy ty).span = node.span := by
  cases node <;> simp [withTy, span, Decl.span, Decl.withTy]

@[simp] theorem children_withTy (ty : Ty) (node : Node) :
    (node.withTy ty).children = node.children := by
  cases node with
  | expr e => cases e <;> rfl
  | stmt s => cases s <;> rfl
  | decl d => rfl

/-! ## Induction over the children

Trees are three types, one of them nested in lists. The recursion over them is done here, once:
`step` is the only place where a property has to be looked at. -/

theorem childInduction_expr {motive : Node → Prop}
    (step : ∀ node, (∀ child ∈ node.children, motive child) → motive node) (e : Expr) :
    motive (.expr e) := by
  induction e with
  | int | bool | str | var => exact step _ (by simp [children])
  | unary _ _ operand ih => exact step _ (by simpa [children] using ih)
  | binary _ _ left right ihl ihr => exact step _ (by simpa [children] using ⟨ihl, ihr⟩)
  | parens _ inner ih => exact step _ (by simpa [children] using ih)

mutual

/-- Statements have a condition or a value below them, and the statements of their blocks. -/
theorem childInduction_stmt {motive : Node → Prop}
    (step : ∀ node, (∀ child ∈ node.children, motive child) → motive node) :
    ∀ s : Stmt, motive (.stmt s)
  | .assign _ _ value _ => step _ (by simpa [children] using childInduction_expr step value)
  | .print _ operand => step _ (by simpa [children] using childInduction_expr step operand)
  | .loop _ condition body =>
    step _ (by
      simpa [children] using ⟨childInduction_expr step condition, childInduction_block step body⟩)
  | .ifThen _ condition thenBlock =>
    step _ (by
      simpa [children] using
        ⟨childInduction_expr step condition, childInduction_block step thenBlock⟩)
  | .ifElse _ condition thenBlock elseBlock =>
    step _ (by
      have hcondition := childInduction_expr step condition
      have hthen := childInduction_block step thenBlock
      have helse := childInduction_block step elseBlock
      intro child hchild
      simp only [children, List.mem_cons, List.mem_append, List.mem_map] at hchild
      rcases hchild with rfl | ⟨s, hs, rfl⟩ | ⟨s, hs, rfl⟩
      · exact hcondition
      · exact hthen s hs
      · exact helse s hs)

theorem childInduction_block {motive : Node → Prop}
    (step : ∀ node, (∀ child ∈ node.children, motive child) → motive node) :
    ∀ block : List Stmt, ∀ s ∈ block, motive (.stmt s)
  | [] => List.forall_mem_nil _
  | first :: rest =>
    List.forall_mem_cons.mpr ⟨childInduction_stmt step first, childInduction_block step rest⟩

end

/-- **Induction over the nodes below a node.** It is enough to go from the children of a node to the
node itself. -/
theorem childInduction {motive : Node → Prop}
    (step : ∀ node, (∀ child ∈ node.children, motive child) → motive node) :
    ∀ node, motive node
  | .expr e => childInduction_expr step e
  | .stmt s => childInduction_stmt step s
  | .decl d => step _ (by
      intro child hchild
      obtain ⟨init, -, rfl⟩ := List.mem_map.mp hchild
      exact childInduction_expr step init)

end Node

/-! ## The nodes a tree contains -/

/-- The nodes of a tree that stand below no other node of it. -/
def Tree.roots : Tree → List Node
  | .expr e => [.expr e]
  | .stmt s => [.stmt s]
  | .decl d => [.decl d]
  | .block b => b.map .stmt
  | .script s => s.decls.map .decl ++ s.stmts.map .stmt

/-- A tree contains its roots and whatever stands directly below a node that it contains. -/
inductive Tree.Contains (tree : Tree) : Node → Prop where
  | root {node : Node} (hroot : node ∈ tree.roots) : Tree.Contains tree node
  | child {parent node : Node} (hparent : Tree.Contains tree parent)
      (hchild : node ∈ parent.children) : Tree.Contains tree node

/-! ## Post-order -/

/-- The nodes of an expression, operands before the node that holds them, left before right. -/
def Expr.postorder (expr : Expr) : List Node :=
  (match expr with
    | .int .. | .bool .. | .str .. | .var .. => []
    | .unary _ _ operand => operand.postorder
    | .binary _ _ left right => left.postorder ++ right.postorder
    | .parens _ inner => inner.postorder) ++ [.expr expr]

mutual

/-- The nodes of a statement: its expression, the blocks it holds, and then the statement. -/
def Stmt.postorder (stmt : Stmt) : List Node :=
  (match stmt with
    | .assign _ _ value _ => value.postorder
    | .print _ operand => operand.postorder
    | .loop _ condition body => condition.postorder ++ Block.postorder body
    | .ifThen _ condition thenBlock => condition.postorder ++ Block.postorder thenBlock
    | .ifElse _ condition thenBlock elseBlock =>
      condition.postorder ++ Block.postorder thenBlock ++ Block.postorder elseBlock) ++
    [.stmt stmt]

def Block.postorder : List Stmt → List Node
  | [] => []
  | stmt :: rest => stmt.postorder ++ Block.postorder rest

end

/-- The nodes of the initialiser, if there is one, and then the declaration. -/
def Decl.postorder (decl : Decl) : List Node :=
  (match decl.init with
    | none => []
    | some init => init.postorder) ++ [.decl decl]

/-- The nodes of the declarations, and then those of the statements. -/
def Script.postorder (script : Script) : List Node :=
  script.decls.flatMap Decl.postorder ++ Block.postorder script.stmts

def Tree.postorder : Tree → List Node
  | .expr e => e.postorder
  | .stmt s => s.postorder
  | .decl d => d.postorder
  | .block b => Block.postorder b
  | .script s => s.postorder

def Node.postorder : Node → List Node
  | .expr e => e.postorder
  | .stmt s => s.postorder
  | .decl d => d.postorder

/-- A block has no node of its own. -/
theorem Block.postorder_eq_flatMap (block : List Stmt) :
    Block.postorder block = block.flatMap Stmt.postorder := by
  induction block with
  | nil => rfl
  | cons stmt rest ih => rw [Block.postorder, ih, List.flatMap_cons]

/-- The equation of a post-order: what stands below the children, and then the node. -/
theorem Node.postorder_eq (node : Node) :
    node.postorder = node.children.flatMap Node.postorder ++ [node] := by
  cases node with
  | expr e => cases e <;> simp [Node.postorder, Node.children, Expr.postorder]
  | stmt s =>
    cases s <;>
      simp [Node.postorder, Node.children, Stmt.postorder, Block.postorder_eq_flatMap,
        List.flatMap_map]
  | decl d => cases h : d.init <;> simp [Node.postorder, Node.children, Decl.postorder, h]

/-- The post-order of a tree is that of its roots, one after the other. -/
theorem Tree.postorder_eq_flatMap_roots (tree : Tree) :
    tree.postorder = tree.roots.flatMap Node.postorder := by
  cases tree <;>
    simp [Tree.postorder, Tree.roots, Node.postorder, Script.postorder,
      Block.postorder_eq_flatMap, List.flatMap_map]

theorem Node.self_mem_postorder (node : Node) : node ∈ node.postorder := by
  rw [Node.postorder_eq]
  simp

/-- The post-order of a node leaves out no node below it. -/
theorem Node.children_mem_postorder (node : Node) :
    ∀ parent ∈ node.postorder, ∀ child ∈ parent.children, child ∈ node.postorder := by
  induction node using Node.childInduction with
  | step node ih =>
    intro parent hparent child hchild
    rw [Node.postorder_eq, List.mem_append, List.mem_flatMap, List.mem_singleton] at hparent ⊢
    rcases hparent with ⟨top, htop, hparent⟩ | rfl
    -- either the parent stands in the post-order of a child of `node`, or it is `node`
    · exact Or.inl ⟨top, htop, ih top htop parent hparent child hchild⟩
    · exact Or.inl ⟨child, hchild, child.self_mem_postorder⟩

/-- The post-order of a node that a tree contains lists only nodes that the tree contains. -/
theorem Tree.Contains.of_mem_postorder {tree : Tree} (node : Node) :
    tree.Contains node → ∀ other ∈ node.postorder, tree.Contains other := by
  induction node using Node.childInduction with
  | step node ih =>
    intro hnode other hother
    rw [Node.postorder_eq, List.mem_append, List.mem_flatMap, List.mem_singleton] at hother
    rcases hother with ⟨child, hchild, hother⟩ | rfl
    · exact ih child hchild (.child hnode hchild) other hother
    · exact hnode

/-- **The post-order is complete.** It lists the nodes that a tree contains, and no others. -/
theorem Tree.mem_postorder_iff {tree : Tree} {node : Node} :
    node ∈ tree.postorder ↔ tree.Contains node := by
  rw [Tree.postorder_eq_flatMap_roots, List.mem_flatMap]
  refine ⟨fun h => ?_, fun h => ?_⟩
  · obtain ⟨root, hroot, hnode⟩ := h
    exact Tree.Contains.of_mem_postorder root (.root hroot) node hnode
  · -- a child stays below the root that its parent stands below
    induction h with
    | root hroot => exact ⟨_, hroot, Node.self_mem_postorder _⟩
    | child _ hchild ih =>
      obtain ⟨root, hroot, hparent⟩ := ih
      exact ⟨root, hroot, root.children_mem_postorder _ hparent _ hchild⟩

/-- Below an expression there are expressions only. -/
theorem Expr.exists_eq_of_contains {root : Expr} {node : Node}
    (h : (Tree.expr root).Contains node) : ∃ e, node = .expr e := by
  induction h with
  | root hroot => exact ⟨root, List.mem_singleton.mp hroot⟩
  | child _ hchild ih =>
    obtain ⟨e, rfl⟩ := ih
    cases e with
    | int | bool | str | var => cases hchild
    | unary info op operand => exact ⟨operand, List.mem_singleton.mp hchild⟩
    | binary info op left right =>
      rcases List.mem_cons.mp hchild with rfl | hchild
      · exact ⟨left, rfl⟩
      · exact ⟨right, List.mem_singleton.mp hchild⟩
    | parens info inner => exact ⟨inner, List.mem_singleton.mp hchild⟩

/-! ## Outlines

The rows of an outline are written by a walk of its own. Like the post-order it goes through the
children of every node, but it puts the node first and counts the depth. -/

/-- The row of a node that stands at the given depth. -/
def Node.row (depth : Nat) (node : Node) : Outline.Row :=
  { depth, text := node.text, span := node.span, ty := node.ty? }

def Node.rows (depth : Nat) : Node → List Outline.Row
  | .expr e => e.rows depth
  | .stmt s => s.rows depth
  | .decl d => d.rows depth

theorem Block.rows_eq_flatMap (depth : Nat) (block : List Stmt) :
    Block.rows depth block = block.flatMap (Stmt.rows depth) := by
  induction block with
  | nil => rfl
  | cons stmt rest ih => rw [Block.rows, ih, List.flatMap_cons]

/-- The equation of an outline: the node, and then the rows of its children, one level deeper. -/
theorem Node.rows_eq (depth : Nat) (node : Node) :
    node.rows depth = node.row depth :: node.children.flatMap (Node.rows (depth + 1)) := by
  cases node with
  | expr e =>
    cases e <;>
      simp only [Node.rows, Node.children, Expr.rows, List.flatMap_cons, List.flatMap_nil,
        List.append_nil] <;>
      rfl
  | stmt s =>
    cases s <;>
      simp only [Node.rows, Node.children, Stmt.rows, Block.rows_eq_flatMap, List.flatMap_cons,
        List.flatMap_nil, List.append_nil, List.flatMap_append, List.flatMap_map,
        List.append_assoc] <;>
      rfl
  | decl d =>
    cases h : d.init <;>
      simp only [Node.rows, Node.children, Decl.rows, h, Option.toList, List.map_cons,
        List.map_nil, List.flatMap_cons, List.flatMap_nil, List.append_nil] <;>
      rfl

/-- The outline of a tree is that of its roots, all at depth one. -/
theorem Tree.rows_outline_eq_flatMap_roots (tree : Tree) :
    tree.outline.rows = tree.roots.flatMap (Node.rows 1) := by
  cases tree <;>
    simp [Tree.outline, Tree.roots, Node.rows, Script.rows, Block.rows_eq_flatMap,
      List.flatMap_map]

/-- Every row of the outline of a node shows the node or one below it. -/
theorem Node.exists_mem_postorder_of_mem_rows (node : Node) :
    ∀ depth, ∀ row ∈ node.rows depth, ∃ shown ∈ node.postorder, row = shown.row row.depth := by
  induction node using Node.childInduction with
  | step node ih =>
    intro depth row hrow
    rw [Node.rows_eq, List.mem_cons, List.mem_flatMap] at hrow
    rcases hrow with rfl | ⟨child, hchild, hrow⟩
    · exact ⟨node, node.self_mem_postorder, rfl⟩
    · obtain ⟨shown, hshown, hrow⟩ := ih child hchild (depth + 1) row hrow
      refine ⟨shown, ?_, hrow⟩
      rw [Node.postorder_eq, List.mem_append, List.mem_flatMap]
      exact Or.inl ⟨child, hchild, hshown⟩

/-- Every row of an outline shows a node that the tree contains. -/
theorem Tree.exists_contains_of_mem_rows {tree : Tree} {row : Outline.Row}
    (hrow : row ∈ tree.outline.rows) : ∃ node, tree.Contains node ∧ row = node.row row.depth := by
  rw [Tree.rows_outline_eq_flatMap_roots, List.mem_flatMap] at hrow
  obtain ⟨root, hroot, hrow⟩ := hrow
  obtain ⟨shown, hshown, hrow⟩ := root.exists_mem_postorder_of_mem_rows 1 row hrow
  exact ⟨shown, Tree.Contains.of_mem_postorder root (.root hroot) shown hshown, hrow⟩

/-! ## Nodes of checked trees

A check annotates the parts of a node and then the node. What a property of all nodes of a checked
tree asks of one node is therefore said by its checked parts and the node itself. -/

/-- The nodes below a checked expression. -/
def Expr.checkedParts (table : SymbolTable) : Expr → List Node
  | .int .. | .bool .. | .str .. | .var .. => []
  | .unary _ _ operand => (operand.check table).expr.postorder
  | .binary _ _ left right =>
    (left.check table).expr.postorder ++ (right.check table).expr.postorder
  | .parens _ inner => (inner.check table).expr.postorder

/-- The nodes below a checked statement. The alternative of a conditional is checked against the
table that its first block leaves behind. -/
def Stmt.checkedParts (table : SymbolTable) : Stmt → List Node
  | .assign _ _ value _ => (value.check table).expr.postorder
  | .print _ operand => (operand.check table).expr.postorder
  | .loop _ condition body =>
    (condition.check table).expr.postorder ++ Block.postorder (Block.check table body).node
  | .ifThen _ condition thenBlock =>
    (condition.check table).expr.postorder ++ Block.postorder (Block.check table thenBlock).node
  | .ifElse _ condition thenBlock elseBlock =>
    (condition.check table).expr.postorder ++ Block.postorder (Block.check table thenBlock).node ++
      Block.postorder (Block.check (Block.check table thenBlock).table elseBlock).node

def Decl.checkedParts (table : SymbolTable) (decl : Decl) : List Node :=
  decl.init.elim [] fun init => (init.check table).expr.postorder

/-- The nodes of a checked expression are those of its checked parts, and then the expression. -/
theorem Expr.postorder_check (table : SymbolTable) (expr : Expr) :
    (expr.check table).expr.postorder =
      expr.checkedParts table ++ [.expr (expr.check table).expr] := by
  cases expr <;> rfl

/-- The table stays the same all over an expression, so a node of a checked expression is what the
check of this node alone gives. -/
theorem Expr.exists_check_of_mem_postorder (table : SymbolTable) (expr : Expr) :
    ∀ node ∈ (expr.check table).expr.postorder,
      ∃ part : Expr, node = .expr (part.check table).expr := by
  have hroot : ∀ e : Expr, ∃ part : Expr,
      Node.expr (e.check table).expr = .expr (part.check table).expr := fun e => ⟨e, rfl⟩
  induction expr with
  | int | bool | str | var =>
    rw [Expr.postorder_check, Expr.checkedParts, List.nil_append, List.forall_mem_singleton]
    exact hroot _
  | unary info op operand ih =>
    rw [Expr.postorder_check, List.forall_mem_append, List.forall_mem_singleton]
    exact ⟨ih, hroot _⟩
  | binary info op left right ihl ihr =>
    rw [Expr.postorder_check, List.forall_mem_append, List.forall_mem_singleton]
    exact ⟨List.forall_mem_append.mpr ⟨ihl, ihr⟩, hroot _⟩
  | parens info inner ih =>
    rw [Expr.postorder_check, List.forall_mem_append, List.forall_mem_singleton]
    exact ⟨ih, hroot _⟩

/-- The same for statements, whose blocks are checked against different tables. -/
theorem Stmt.postorder_check (table : SymbolTable) (stmt : Stmt) :
    (stmt.check table).node.postorder =
      stmt.checkedParts table ++ [.stmt (stmt.check table).node] := by
  cases stmt <;> rfl

theorem Decl.postorder_check (table : SymbolTable) (decl : Decl) :
    (decl.check table).node.postorder =
      decl.checkedParts table ++ [.decl (decl.check table).node] := by
  cases hinit : decl.init <;>
    simp [Decl.postorder, Decl.checkedParts, Decl.check, Decl.withTy, hinit]

end ScriptTyping
