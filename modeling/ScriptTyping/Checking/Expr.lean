import ScriptTyping.Checking.Rules
import ScriptTyping.SymbolTable
import ScriptTyping.Tree.Expr

/-!
# Checking expressions

One walk over an expression gives every node its type and collects the violations, operands before
the node that holds them and left before right. A symbol table is read and never changed.
-/

namespace ScriptTyping.Expr

/-- A checked expression: the tree with its types filled in, the type of the root, and the
violations in the order in which they were met. -/
structure Checked where
  expr : Expr
  ty : Ty
  entries : List Entry
  deriving DecidableEq, Repr

/-- Ends the check of a node whose operands are done and gave the earlier entries. -/
def close (node : Expr) (verdict : Verdict) (earlier : List Entry) : Checked where
  expr := node.withTy verdict.ty
  ty := verdict.ty
  entries := earlier ++ verdict.entries node.text node.span

def check (table : SymbolTable) : Expr → Checked
  | int info value => (int info value).close (.ok .int) []
  | bool info value => (bool info value).close (.ok .bool) []
  | str info lexeme => (str info lexeme).close (.ok .string) []
  | var info name => (var info name).close (.ofVariable name (table.lookup name)) []
  | unary info op operand =>
    let operand := operand.check table
    (unary info op operand.expr).close (.ofUnary op operand.ty) operand.entries
  | binary info op left right =>
    let left := left.check table
    let right := right.check table
    (binary info op left.expr right.expr).close (.ofBinary op left.ty right.ty)
      (left.entries ++ right.entries)
  | parens info inner =>
    let inner := inner.check table
    (parens info inner.expr).close (.ok inner.ty) inner.entries

/-! ## Annotations written by the check -/

@[simp] theorem ty?_check (table : SymbolTable) (expr : Expr) :
    (expr.check table).expr.ty? = some (expr.check table).ty := by
  cases expr <;> simp [check, close]

@[simp] theorem text_check (table : SymbolTable) (expr : Expr) :
    (expr.check table).expr.text = expr.text := by
  induction expr <;> simp_all [check, close, text]

end ScriptTyping.Expr
