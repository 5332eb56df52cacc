import ScriptTyping.Proofs.Nodes

/-!
# A check as a run over nodes

Checking recurses through nested blocks, but there is one table for all of them, and it changes only
when a node is closed. A check is therefore also a run over the plain list of annotated nodes in
post-order: from one node to the next the table is handed on, and each node gets a verdict from the
table and from the types recorded on its children. What holds along all such runs is proved by
induction over a list, without another look at the shape of trees.

* **`Node.verdict`**, **`SymbolTable.after`**: what closing a node decides, and what it does.
* A **`Step`** is a node with the table of the moment when it is closed; **`steps`** are those of a
  run. A step adds **`Step.entries`** to the log.
* **`Replays`**: a run over some nodes leads from one table to another, adds the given entries, and
  finds on every node the annotations that its verdict calls for.
* **`Expr.replays_check`**, **`Stmt.replays_check`**, **`Block.replays_check`**,
  **`Decl.replays_check`**, **`Tree.replays_check`**: checks are such runs.
-/

namespace ScriptTyping

/-! ## Closing a node -/

/-- The type recorded on an expression; without one it counts as `Ty.error`. -/
def Expr.recordedTy (expr : Expr) : Ty := expr.ty?.getD .error

@[simp] theorem Expr.recordedTy_check (table : SymbolTable) (expr : Expr) :
    (expr.check table).expr.recordedTy = (expr.check table).ty := by
  simp [Expr.recordedTy]

/-- The verdict on a node whose children are annotated. -/
def Node.verdict (table : SymbolTable) : Node → Verdict
  | .expr (.int ..) => .ok .int
  | .expr (.bool ..) => .ok .bool
  | .expr (.str ..) => .ok .string
  | .expr (.var _ name) => .ofVariable name (table.lookup name)
  | .expr (.unary _ op operand) => .ofUnary op operand.recordedTy
  | .expr (.binary _ op left right) => .ofBinary op left.recordedTy right.recordedTy
  | .expr (.parens _ inner) => .ok inner.recordedTy
  | .stmt (.assign _ name value _) => .ofAssign name (table.lookup name) value.recordedTy
  | .stmt (.print _ operand) => .ofPrint operand.text operand.recordedTy
  | .stmt (.loop _ condition _) | .stmt (.ifThen _ condition _)
  | .stmt (.ifElse _ condition _ _) => .ofCondition condition.text condition.recordedTy
  | .decl d => .ofDecl d.name d.typeToken (d.init.map Expr.recordedTy)

/-- The table once a node is closed. An assignment that breaks a rule poisons its variable, and a
declaration defines its name. -/
def SymbolTable.after (table : SymbolTable) (node : Node) : SymbolTable :=
  match node with
  | .stmt (.assign _ name _ _) =>
    if (node.verdict table).isValid then table else table.poison name
  | .decl d => table.define d.name (node.verdict table).ty
  | _ => table

@[simp] theorem SymbolTable.after_expr (table : SymbolTable) (e : Expr) :
    table.after (.expr e) = table := by
  cases e <;> rfl

/-- The annotations of the node itself have no part in its verdict. -/
@[simp] theorem Node.verdict_withTy (table : SymbolTable) (ty : Ty) (node : Node) :
    (node.withTy ty).verdict table = node.verdict table := by
  cases node with
  | expr e => cases e <;> rfl
  | stmt s => cases s <;> rfl
  | decl d => rfl

@[simp] theorem SymbolTable.after_withTy (table : SymbolTable) (ty : Ty) (node : Node) :
    table.after (node.withTy ty) = table.after node := by
  cases node with
  | expr e => cases e <;> rfl
  | stmt s => cases s <;> rfl
  | decl d => rfl

@[simp] theorem Node.valid?_withTy (ty : Ty) (node : Node) :
    (node.withTy ty).valid? = node.valid? := by
  cases node with
  | expr e => rfl
  | stmt s => cases s <;> rfl
  | decl d => rfl

/-! ## Steps -/

/-- An annotated node, and the table at the moment when it is closed. -/
structure Step where
  table : SymbolTable
  node : Node
  deriving DecidableEq

namespace Step

def verdict (step : Step) : Verdict := step.node.verdict step.table

/-- What closing the node adds to the log. -/
def entries (step : Step) : List Entry :=
  step.verdict.entries step.node.text step.node.span

/-- The node carries the type of its verdict, and the flag if it has one. -/
structure Annotated (step : Step) : Prop where
  ty? : step.node.ty? = some step.verdict.ty
  valid? : ∀ valid ∈ step.node.valid?, valid = step.verdict.isValid

end Step

/-- The steps of a run over the nodes, in order. -/
def steps (table : SymbolTable) : List Node → List Step
  | [] => []
  | node :: rest => ⟨table, node⟩ :: steps (table.after node) rest

theorem map_node_steps (table : SymbolTable) (nodes : List Node) :
    (steps table nodes).map Step.node = nodes := by
  induction nodes generalizing table with
  | nil => rfl
  | cons node rest ih => rw [steps, List.map_cons, ih]

/-- The second part begins with the table that the first one leaves behind. -/
theorem steps_append (table : SymbolTable) (first second : List Node) :
    steps table (first ++ second) =
      steps table first ++ steps (first.foldl SymbolTable.after table) second := by
  induction first generalizing table with
  | nil => rfl
  | cons node rest ih => rw [List.cons_append, steps, ih, steps, List.cons_append, List.foldl_cons]

/-! ## Runs -/

/-- `Replays table nodes table' entries`: closing the nodes one after the other leads from `table`
to `table'` and adds `entries` to the log, and the nodes are annotated accordingly. -/
structure Replays (table : SymbolTable) (nodes : List Node) (table' : SymbolTable)
    (entries : List Entry) : Prop where
  annotated : ∀ step ∈ steps table nodes, step.Annotated
  foldl_eq : nodes.foldl SymbolTable.after table = table'
  entries_eq : (steps table nodes).flatMap Step.entries = entries

namespace Replays

theorem nil (table : SymbolTable) : Replays table [] table [] :=
  ⟨List.forall_mem_nil _, rfl, rfl⟩

theorem append {table middle table' : SymbolTable} {first second : List Node}
    {entries entries' : List Entry} (h : Replays table first middle entries)
    (h' : Replays middle second table' entries') :
    Replays table (first ++ second) table' (entries ++ entries') where
  annotated := by
    rw [steps_append, h.foldl_eq, List.forall_mem_append]
    exact ⟨h.annotated, h'.annotated⟩
  foldl_eq := by rw [List.foldl_append, h.foldl_eq, h'.foldl_eq]
  entries_eq := by
    rw [steps_append, h.foldl_eq, List.flatMap_append, h.entries_eq, h'.entries_eq]

/-- **One step.** Once the parts of a node are run over, the node is closed with its verdict. -/
theorem close {table middle table' : SymbolTable} {parts : List Node} {earlier : List Entry}
    (h : Replays table parts middle earlier) (node : Node) {verdict : Verdict}
    (hverdict : node.verdict middle = verdict)
    (hvalid : ∀ valid ∈ node.valid?, valid = verdict.isValid)
    (hafter : middle.after node = table') :
    Replays table (parts ++ [node.withTy verdict.ty]) table'
      (earlier ++ verdict.entries node.text node.span) := by
  refine h.append ⟨?_, ?_, ?_⟩
  · rw [steps, steps, List.forall_mem_singleton]
    refine ⟨?_, ?_⟩
    · simp [Step.verdict, hverdict]
    · simpa [Step.verdict, hverdict] using hvalid
  · rw [List.foldl_cons, List.foldl_nil, SymbolTable.after_withTy, hafter]
  · simp [steps, Step.entries, Step.verdict, hverdict]

end Replays

/-! ## Checks are runs -/

/-- **Expressions.** Every node of a checked expression was closed against the same table. -/
theorem Expr.replays_check (table : SymbolTable) (expr : Expr) :
    Replays table (expr.check table).expr.postorder table (expr.check table).entries := by
  induction expr with
  | int info value => exact (Replays.nil table).close (.expr (.int info value)) rfl nofun rfl
  | bool info value => exact (Replays.nil table).close (.expr (.bool info value)) rfl nofun rfl
  | str info lexeme => exact (Replays.nil table).close (.expr (.str info lexeme)) rfl nofun rfl
  | var info name => exact (Replays.nil table).close (.expr (.var info name)) rfl nofun rfl
  | unary info op operand ih =>
    refine ih.close (.expr (.unary info op (operand.check table).expr)) ?_ nofun rfl
    rw [Node.verdict, Expr.recordedTy_check]
  | binary info op left right ihl ihr =>
    refine (ihl.append ihr).close
      (.expr (.binary info op (left.check table).expr (right.check table).expr)) ?_ nofun rfl
    rw [Node.verdict, Expr.recordedTy_check, Expr.recordedTy_check]
  | parens info inner ih =>
    have hverdict : (Node.expr (.parens info (inner.check table).expr)).verdict table
        = .ok (inner.check table).ty := by
      rw [Node.verdict, Expr.recordedTy_check]
    exact ih.close _ hverdict nofun rfl

mutual

/-- **Statements.** One case for each kind: the parts are replayed by induction, and the statement
is closed behind them. -/
theorem Stmt.replays_check (table : SymbolTable) : ∀ stmt : Stmt,
    Replays table (stmt.check table).node.postorder (stmt.check table).table
      (stmt.check table).entries
  | .assign info name value valid => by
    let verdict := Verdict.ofAssign name (table.lookup name) (value.check table).ty
    let node := Node.stmt (.assign info name (value.check table).expr verdict.isValid)
    have hverdict : node.verdict table = verdict := by
      show Verdict.ofAssign name (table.lookup name) (value.check table).expr.recordedTy = verdict
      rw [Expr.recordedTy_check]
    refine (value.replays_check table).close node hverdict (fun flag hflag => ?_) ?_
    · exact (Option.some.inj hflag).symm
    · show (if (node.verdict table).isValid then table else table.poison name) = _
      rw [hverdict]
      rfl
  | .print info operand => by
    refine (operand.replays_check table).close (.stmt (.print info (operand.check table).expr))
      ?_ nofun rfl
    rw [Node.verdict, Expr.recordedTy_check]
  | .loop info condition body => by
    refine ((condition.replays_check table).append (Block.replays_check table body)).close
      (.stmt (.loop info (condition.check table).expr _)) ?_ nofun rfl
    rw [Node.verdict, Expr.recordedTy_check]
  | .ifThen info condition thenBlock => by
    refine ((condition.replays_check table).append (Block.replays_check table thenBlock)).close
      (.stmt (.ifThen info (condition.check table).expr _)) ?_ nofun rfl
    rw [Node.verdict, Expr.recordedTy_check]
  | .ifElse info condition thenBlock elseBlock => by
    -- the alternative runs on with the table that the first block leaves behind
    refine (((condition.replays_check table).append (Block.replays_check table thenBlock)).append
      (Block.replays_check _ elseBlock)).close
      (.stmt (.ifElse info (condition.check table).expr _ _)) ?_ nofun rfl
    rw [Node.verdict, Expr.recordedTy_check]

/-- Blocks replay their statements one after the other. -/
theorem Block.replays_check (table : SymbolTable) : ∀ block : List Stmt,
    Replays table (Block.postorder (Block.check table block).node) (Block.check table block).table
      (Block.check table block).entries
  | [] => .nil table
  | stmt :: rest => (stmt.replays_check table).append (Block.replays_check _ rest)

end

/-- The initialiser of a declaration, if there is one, is replayed first. -/
theorem Decl.replays_parts (table : SymbolTable) (decl : Decl) :
    Replays table (decl.checkedParts table) table
      (((decl.init.map (Expr.check table)).map Expr.Checked.entries).getD []) := by
  unfold Decl.checkedParts
  cases decl.init with
  | none => exact .nil table
  | some init => exact init.replays_check table

/-- **Declarations.** Closing a declaration defines its name. -/
theorem Decl.replays_check (table : SymbolTable) (decl : Decl) :
    Replays table (decl.check table).node.postorder (decl.check table).table
      (decl.check table).entries := by
  have hinit : ((decl.init.map (Expr.check table)).map Expr.Checked.expr).map Expr.recordedTy
      = (decl.init.map (Expr.check table)).map Expr.Checked.ty := by
    cases decl.init with
    | none => rfl
    | some init => exact congrArg some (Expr.recordedTy_check table init)
  let verdict := Verdict.ofDecl decl.name decl.typeToken
    ((decl.init.map (Expr.check table)).map Expr.Checked.ty)
  let node : Node := .decl { decl with
    init := (decl.init.map (Expr.check table)).map Expr.Checked.expr, valid := verdict.isValid }
  have hverdict : node.verdict table = verdict := by
    show Verdict.ofDecl decl.name decl.typeToken (Option.map Expr.recordedTy _) = verdict
    rw [hinit]
  rw [Decl.postorder_check]
  refine (decl.replays_parts table).close node hverdict (fun flag hflag => ?_) ?_
  · exact (Option.some.inj hflag).symm
  · show table.define decl.name (node.verdict table).ty = _
    rw [hverdict]
    rfl

theorem Decl.replays_checkAll (table : SymbolTable) (decls : List Decl) :
    Replays table ((Decl.checkAll table decls).node.flatMap Decl.postorder)
      (Decl.checkAll table decls).table (Decl.checkAll table decls).entries := by
  induction decls generalizing table with
  | nil => exact .nil table
  | cons decl rest ih => exact (decl.replays_check table).append (ih (decl.check table).table)

/-- **Every check can be replayed** from the tree that it gives back: table and entries follow from
the annotated nodes in post-order. -/
theorem Tree.replays_check (table : SymbolTable) (tree : Tree) :
    Replays table (tree.check table).node.postorder (tree.check table).table
      (tree.check table).entries := by
  cases tree with
  | expr e => exact e.replays_check table
  | stmt s => exact s.replays_check table
  | decl d => exact d.replays_check table
  | block b => exact Block.replays_check table b
  | script s => exact (Decl.replays_checkAll table s.decls).append (Block.replays_check _ s.stmts)

end ScriptTyping
