import ScriptTyping.Checking.Expr
import ScriptTyping.Tree.Stmt

/-!
# Checking statements and blocks

Statements are checked in source order against one flat table, whatever block they stand in: what
an assignment does to the table is seen by every statement that follows. Blocks held by a
statement are checked, once each, between its condition and its own verdict.
-/

namespace ScriptTyping

/-- A checked piece of a script: the tree with its annotations filled in, the table after it, and
the violations in the order in which they were met. -/
structure Outcome (α : Type) where
  node : α
  table : SymbolTable
  entries : List Entry
  deriving DecidableEq

def Outcome.map {α β : Type} (f : α → β) (outcome : Outcome α) : Outcome β where
  node := f outcome.node
  table := outcome.table
  entries := outcome.entries

/-- Ends the check of a statement whose parts are done and gave the earlier entries. -/
def Stmt.close (node : Stmt) (verdict : Verdict) (table : SymbolTable) (earlier : List Entry) :
    Outcome Stmt where
  node := node.withTy verdict.ty
  table := table
  entries := earlier ++ verdict.entries node.text node.span

mutual

/-- An assignment that breaks a rule makes its variable unusable. -/
def Stmt.check (table : SymbolTable) : Stmt → Outcome Stmt
  | .assign info name value _ =>
    let value := value.check table
    let verdict := Verdict.ofAssign name (table.lookup name) value.ty
    (Stmt.assign info name value.expr verdict.isValid).close verdict
      (if verdict.isValid then table else table.poison name) value.entries
  | .print info operand =>
    let operand := operand.check table
    (Stmt.print info operand.expr).close (.ofPrint operand.expr.text operand.ty) table
      operand.entries
  | .loop info condition body =>
    let condition := condition.check table
    let body := Block.check table body
    (Stmt.loop info condition.expr body.node).close
      (.ofCondition condition.expr.text condition.ty) body.table
      (condition.entries ++ body.entries)
  | .ifThen info condition thenBlock =>
    let condition := condition.check table
    let thenBlock := Block.check table thenBlock
    (Stmt.ifThen info condition.expr thenBlock.node).close
      (.ofCondition condition.expr.text condition.ty) thenBlock.table
      (condition.entries ++ thenBlock.entries)
  | .ifElse info condition thenBlock elseBlock =>
    let condition := condition.check table
    let thenBlock := Block.check table thenBlock
    let elseBlock := Block.check thenBlock.table elseBlock
    (Stmt.ifElse info condition.expr thenBlock.node elseBlock.node).close
      (.ofCondition condition.expr.text condition.ty) elseBlock.table
      (condition.entries ++ thenBlock.entries ++ elseBlock.entries)

def Block.check (table : SymbolTable) : List Stmt → Outcome (List Stmt)
  | [] => { node := [], table, entries := [] }
  | stmt :: rest =>
    let stmt := stmt.check table
    let rest := Block.check stmt.table rest
    { node := stmt.node :: rest.node
      table := rest.table
      entries := stmt.entries ++ rest.entries }

end

/-! ## Statements keep the names of the table -/

mutual

/-- A statement adds no name to the table: it only poisons names that are there. -/
@[simp] theorem Stmt.names_check (table : SymbolTable) :
    ∀ stmt : Stmt, (stmt.check table).table.names = table.names
  | .assign .. => by
    simp only [Stmt.check, Stmt.close]
    split <;> simp
  | .print .. => by simp [Stmt.check, Stmt.close]
  | .loop _ _ body => by simp [Stmt.check, Stmt.close, Block.names_check table body]
  | .ifThen _ _ thenBlock => by
    simp [Stmt.check, Stmt.close, Block.names_check table thenBlock]
  | .ifElse _ _ thenBlock elseBlock => by
    simp [Stmt.check, Stmt.close, Block.names_check table thenBlock,
      Block.names_check _ elseBlock]

@[simp] theorem Block.names_check (table : SymbolTable) :
    ∀ block : List Stmt, (Block.check table block).table.names = table.names
  | [] => by simp [Block.check]
  | stmt :: rest => by
    simp [Block.check, Stmt.names_check table stmt, Block.names_check _ rest]

end

end ScriptTyping
