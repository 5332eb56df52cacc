import ScriptTyping.Fault
import ScriptTyping.Tree

/-!
# Outlines

The outline of a tree lists its nodes, each before the nodes it holds, with their depth. Blocks
are no nodes: the statements of a block stand one below the statement that holds the block.

An outline is a walk of its own, which knows nothing of checking. It can therefore tell whether a
checked tree has a type on every node.
-/

namespace ScriptTyping

namespace Outline

/-- One node of a tree. The root has depth one. -/
structure Row where
  depth : Nat
  text : String
  span : Span
  ty : Option Ty
  deriving DecidableEq, Repr

/-- The row on one line, indented by two blanks for each node above it, newline included. -/
def Row.line (row : Row) : String :=
  String.ofList (List.replicate (2 * (row.depth - 1)) ' ') ++ row.text ++ ": " ++
    (match row.ty with
    | some ty => ty.name
    | none => "<unresolved>") ++ "\n"

end Outline

/-- The nodes of a tree with their depths, parents first. -/
structure Outline where
  rows : List Outline.Row
  deriving DecidableEq, Repr

/-! ## The rows of a tree -/

def Expr.rows (depth : Nat) (expr : Expr) : List Outline.Row :=
  { depth, text := expr.text, span := expr.span, ty := expr.ty? } ::
    match expr with
    | .int .. | .bool .. | .str .. | .var .. => []
    | .unary _ _ operand => operand.rows (depth + 1)
    | .binary _ _ left right => left.rows (depth + 1) ++ right.rows (depth + 1)
    | .parens _ inner => inner.rows (depth + 1)

mutual

def Stmt.rows (depth : Nat) (stmt : Stmt) : List Outline.Row :=
  { depth, text := stmt.text, span := stmt.span, ty := stmt.ty? } ::
    match stmt with
    | .assign _ _ value _ => value.rows (depth + 1)
    | .print _ operand => operand.rows (depth + 1)
    | .loop _ condition body => condition.rows (depth + 1) ++ Block.rows (depth + 1) body
    | .ifThen _ condition thenBlock =>
      condition.rows (depth + 1) ++ Block.rows (depth + 1) thenBlock
    | .ifElse _ condition thenBlock elseBlock =>
      condition.rows (depth + 1) ++ Block.rows (depth + 1) thenBlock ++
        Block.rows (depth + 1) elseBlock

def Block.rows (depth : Nat) : List Stmt → List Outline.Row
  | [] => []
  | stmt :: rest => stmt.rows depth ++ Block.rows depth rest

end

def Decl.rows (depth : Nat) (decl : Decl) : List Outline.Row :=
  { depth, text := decl.text, span := decl.span, ty := decl.ty? } ::
    match decl.init with
    | none => []
    | some init => init.rows (depth + 1)

def Script.rows (depth : Nat) (script : Script) : List Outline.Row :=
  script.decls.flatMap (Decl.rows depth) ++ Block.rows depth script.stmts

/-- Declarations and statements of a script, and the statements of a block, have depth one. -/
def Tree.outline : Tree → Outline
  | .expr e => ⟨e.rows 1⟩
  | .stmt s => ⟨s.rows 1⟩
  | .decl d => ⟨d.rows 1⟩
  | .block b => ⟨Block.rows 1 b⟩
  | .script s => ⟨s.rows 1⟩

namespace Outline

/-! ## Queries -/

/-- The first node at the given depth with the given text. -/
def find? (outline : Outline) (depth : Nat) (text : String) : Option Row :=
  outline.rows.find? fun row => row.depth == depth && row.text == text

/-- The type of the first node at the given depth with the given text. -/
def ty? (outline : Outline) (depth : Nat) (text : String) : Option Ty :=
  (outline.find? depth text).bind (·.ty)

/-- The nodes without a type. -/
def unresolved (outline : Outline) : List Row :=
  outline.rows.filter (·.ty.isNone)

/-- Fails at the first node without a type. -/
def ensureResolved (outline : Outline) : Except Fault Unit :=
  match outline.unresolved with
  | [] => .ok ()
  | row :: _ => .error (.internal ("'" ++ row.text ++ "' was left without a type") row.span)

def text (outline : Outline) : String :=
  String.join (outline.rows.map Row.line)

/-- An outline is resolved if every row has a type. -/
theorem ensureResolved_eq_ok_iff {outline : Outline} :
    outline.ensureResolved = .ok () ↔ ∀ row ∈ outline.rows, row.ty ≠ none := by
  have resolved : outline.unresolved = [] ↔ ∀ row ∈ outline.rows, row.ty ≠ none := by
    simp [unresolved]
  rw [← resolved]
  unfold ensureResolved
  split <;> simp_all

end Outline

end ScriptTyping
