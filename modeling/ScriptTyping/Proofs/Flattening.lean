import ScriptTyping.Proofs.Nodes

/-!
# Nesting has no effect on the table

There is one table for all blocks of a script, and only assignments change it. A block therefore
does to the table what its assignments do, taken out of the statements that hold them and put one
after the other.

* **`Block.assignments`**: the assignments of a block as a block of their own.
* **`Block.check_append`**: a block is checked piece by piece, with the table handed on.
* **`Block.check_assignments`**: taking out the assignments before a check gives the assignments of
  the checked block, and the same table.
* **`Block.check_flattens`**: what follows for tables and flags.
-/

namespace ScriptTyping

mutual

/-- The assignments of a statement, at whatever depth, in source order. -/
def Stmt.assignments : Stmt → List Stmt
  | .assign info name value valid => [.assign info name value valid]
  | .print _ _ => []
  | .loop _ _ body => Block.assignments body
  | .ifThen _ _ thenBlock => Block.assignments thenBlock
  | .ifElse _ _ thenBlock elseBlock => Block.assignments thenBlock ++ Block.assignments elseBlock

def Block.assignments : List Stmt → List Stmt
  | [] => []
  | stmt :: rest => stmt.assignments ++ Block.assignments rest

end

/-! ## What the assignments of a block are -/

def Node.isAssignment : Node → Bool
  | .stmt (.assign ..) => true
  | _ => false

theorem Expr.filter_isAssignment_postorder (expr : Expr) :
    expr.postorder.filter Node.isAssignment = [] := by
  rw [List.filter_eq_nil_iff]
  intro node hnode
  obtain ⟨e, rfl⟩ := Expr.exists_eq_of_contains (Tree.mem_postorder_iff.mp hnode)
  exact Bool.false_ne_true

mutual

/-- The assignments of a statement are the nodes of its post-order that are assignments, in their
order. -/
theorem Stmt.map_assignments : ∀ stmt : Stmt,
    stmt.assignments.map Node.stmt = stmt.postorder.filter Node.isAssignment
  | .assign info name value valid => by
    rw [Stmt.postorder, List.filter_append, value.filter_isAssignment_postorder]
    rfl
  | .print info operand => by
    rw [Stmt.postorder, List.filter_append, operand.filter_isAssignment_postorder]
    rfl
  | .loop info condition body => by
    rw [Stmt.postorder, List.filter_append, List.filter_append,
      condition.filter_isAssignment_postorder, ← Block.map_assignments body]
    exact (List.append_nil _).symm
  | .ifThen info condition thenBlock => by
    rw [Stmt.postorder, List.filter_append, List.filter_append,
      condition.filter_isAssignment_postorder, ← Block.map_assignments thenBlock]
    exact (List.append_nil _).symm
  | .ifElse info condition thenBlock elseBlock => by
    rw [Stmt.postorder, List.filter_append, List.filter_append, List.filter_append,
      condition.filter_isAssignment_postorder, ← Block.map_assignments thenBlock,
      ← Block.map_assignments elseBlock, Stmt.assignments, List.map_append]
    exact (List.append_nil _).symm

/-- The assignments of a block are those among its nodes that are assignments. -/
theorem Block.map_assignments : ∀ block : List Stmt,
    (Block.assignments block).map Node.stmt = (Block.postorder block).filter Node.isAssignment
  | [] => rfl
  | stmt :: rest => by
    rw [Block.assignments, List.map_append, stmt.map_assignments, Block.map_assignments rest,
      Block.postorder, List.filter_append]

end

theorem Block.assignments_append (first second : List Stmt) :
    Block.assignments (first ++ second) = Block.assignments first ++ Block.assignments second := by
  induction first with
  | nil => rfl
  | cons stmt rest ih =>
    rw [List.cons_append, Block.assignments, ih, Block.assignments, List.append_assoc]

theorem Block.validFlags_append (first second : List Stmt) :
    Block.validFlags (first ++ second) = Block.validFlags first ++ Block.validFlags second := by
  induction first with
  | nil => rfl
  | cons stmt rest ih =>
    rw [List.cons_append, Block.validFlags, ih, Block.validFlags, List.append_assoc]

mutual

theorem Stmt.validFlags_assignments : ∀ stmt : Stmt,
    Block.validFlags stmt.assignments = stmt.validFlags
  | .assign .. => rfl
  | .print .. => rfl
  | .loop _ _ body => Block.validFlags_assignments body
  | .ifThen _ _ thenBlock => Block.validFlags_assignments thenBlock
  | .ifElse _ _ thenBlock elseBlock => by
    rw [Stmt.assignments, Block.validFlags_append, Block.validFlags_assignments thenBlock,
      Block.validFlags_assignments elseBlock, Stmt.validFlags]

/-- Only assignments have flags. -/
theorem Block.validFlags_assignments : ∀ block : List Stmt,
    Block.validFlags (Block.assignments block) = Block.validFlags block
  | [] => rfl
  | stmt :: rest => by
    rw [Block.assignments, Block.validFlags_append, stmt.validFlags_assignments,
      Block.validFlags_assignments rest, Block.validFlags]

end

/-! ## Checking the assignments alone -/

/-- The second part of a block is checked against the table that the first part leaves. -/
theorem Block.check_append (table : SymbolTable) (first second : List Stmt) :
    Block.check table (first ++ second) =
      { node := (Block.check table first).node
          ++ (Block.check (Block.check table first).table second).node
        table := (Block.check (Block.check table first).table second).table
        entries := (Block.check table first).entries
          ++ (Block.check (Block.check table first).table second).entries } := by
  induction first generalizing table with
  | nil => rfl
  | cons stmt rest ih =>
    rw [List.cons_append, Block.check, ih, Block.check]
    simp only [List.cons_append, List.append_assoc]

mutual

/-- A statement leaves the table that its assignments leave as a block, and annotates them in the
same way: conditions and prints have no part in it. -/
theorem Stmt.check_assignments (table : SymbolTable) : ∀ stmt : Stmt,
    (Block.check table stmt.assignments).node = (stmt.check table).node.assignments
      ∧ (Block.check table stmt.assignments).table = (stmt.check table).table
  | .assign info name value valid => ⟨rfl, rfl⟩
  | .print info operand => ⟨rfl, rfl⟩
  | .loop info condition body => Block.check_assignments table body
  | .ifThen info condition thenBlock => Block.check_assignments table thenBlock
  | .ifElse info condition thenBlock elseBlock => by
    obtain ⟨hnode, htable⟩ := Block.check_assignments table thenBlock
    -- the alternative goes on with the table that the first block leaves behind
    obtain ⟨hnode', htable'⟩ :=
      Block.check_assignments (Block.check table thenBlock).table elseBlock
    rw [Stmt.assignments, Block.check_append, hnode, htable, hnode', htable']
    exact ⟨rfl, rfl⟩

/-- Conditions and print statements leave the table alone, so an assignment is met with the same
table whether or not they stand around it. -/
theorem Block.check_assignments (table : SymbolTable) : ∀ block : List Stmt,
    (Block.check table (Block.assignments block)).node
        = Block.assignments (Block.check table block).node
      ∧ (Block.check table (Block.assignments block)).table = (Block.check table block).table
  | [] => ⟨rfl, rfl⟩
  | stmt :: rest => by
    obtain ⟨hnode, htable⟩ := stmt.check_assignments table
    obtain ⟨hnode', htable'⟩ := Block.check_assignments (stmt.check table).table rest
    rw [Block.assignments, Block.check_append, hnode, htable, hnode', htable']
    exact ⟨rfl, rfl⟩

end

/-- Flattening a block keeps the flags of its assignments. -/
theorem Block.validFlags_check_assignments (table : SymbolTable) (block : List Stmt) :
    Block.validFlags (Block.check table (Block.assignments block)).node =
      Block.validFlags (Block.check table block).node := by
  rw [(Block.check_assignments table block).1, Block.validFlags_assignments]

/-- Blocks with the same assignments leave the same table and the same flags behind. -/
theorem Block.check_congr_assignments {block other : List Stmt}
    (h : Block.assignments other = Block.assignments block) (table : SymbolTable) :
    (Block.check table other).table = (Block.check table block).table
      ∧ Block.validFlags (Block.check table other).node
        = Block.validFlags (Block.check table block).node := by
  rw [← (Block.check_assignments table other).2, ← (Block.check_assignments table block).2,
    ← Block.validFlags_check_assignments table other,
    ← Block.validFlags_check_assignments table block, h]
  exact ⟨rfl, rfl⟩

/-- **Nesting has no effect on the table.** The assignments among the nodes of a block, in their
order, make up a flat block. Checked against the same table it leaves the same table and the same
flags behind as the block itself. So conditions and print statements do not matter, and an
alternative goes on where the first block stops: it could as well be written behind it. -/
theorem Block.check_flattens (table : SymbolTable) (block : List Stmt) :
    (Block.assignments block).map Node.stmt = (Block.postorder block).filter Node.isAssignment
      ∧ (Block.check table (Block.assignments block)).table = (Block.check table block).table
      ∧ Block.validFlags (Block.check table (Block.assignments block)).node
        = Block.validFlags (Block.check table block).node
      ∧ (∀ other, Block.assignments other = Block.assignments block →
        (Block.check table other).table = (Block.check table block).table
          ∧ Block.validFlags (Block.check table other).node
            = Block.validFlags (Block.check table block).node)
      ∧ ∀ (info : NodeInfo) (condition : Expr) (elseBlock : List Stmt),
        (Block.check table [.ifElse info condition block elseBlock]).table
            = (Block.check table (block ++ elseBlock)).table
          ∧ Block.validFlags (Block.check table [.ifElse info condition block elseBlock]).node
            = Block.validFlags (Block.check table (block ++ elseBlock)).node := by
  refine ⟨Block.map_assignments block, (Block.check_assignments table block).2,
    Block.validFlags_check_assignments table block,
    fun other h => Block.check_congr_assignments h table, fun info condition elseBlock => ?_⟩
  refine Block.check_congr_assignments ?_ table
  rw [Block.assignments_append]
  exact List.append_nil _

/-- The block `while 1 { if x { x = true } else { y = x } }`. -/
def misassigningLoop : Block :=
  [.loop {} (.ofInt 1)
    [.ifElse {} (.ofName "x") [.assign {} "x" (.ofBool true) false]
      [.assign {} "y" (.ofName "x") false]]]

/-- The first branch poisons `x`, and the alternative assigns the poisoned `x` to `y`. The same
happens to two assignments with a print statement between them. -/
theorem Block.check_flattens_misassigned :
    Block.assignments [.assign {} "x" (.ofBool true) false, .print {} (.ofName "x"),
        .assign {} "y" (.ofName "x") false] = Block.assignments misassigningLoop
      ∧ (Block.check (.ofList [("x", .int), ("y", .int)]) misassigningLoop).table
        = .ofList [("x", .error), ("y", .error)]
      ∧ Block.validFlags
          (Block.check (.ofList [("x", .int), ("y", .int)]) misassigningLoop).node
        = [false, false] := by
  have hsame : Block.assignments [.assign {} "x" (.ofBool true) false, .print {} (.ofName "x"),
      .assign {} "y" (.ofName "x") false] = Block.assignments misassigningLoop := rfl
  obtain ⟨-, -, -, hother, -⟩ :=
    Block.check_flattens (.ofList [("x", .int), ("y", .int)]) misassigningLoop
  obtain ⟨htable, hflags⟩ := hother _ hsame
  refine ⟨hsame, ?_, ?_⟩
  · rw [← htable]
    decide
  · rw [← hflags]
    decide

end ScriptTyping
