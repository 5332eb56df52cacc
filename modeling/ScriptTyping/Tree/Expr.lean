import ScriptTyping.Operator
import ScriptTyping.Span

/-!
# Expressions

Expression trees whose nodes carry a source span and a slot for their type. Trees are built with
the functions of the section on construction, which derive the span of a node from those of its
parts; `withSpan` and `withTy` override what they chose.

* `text_withInfo`: the text of a node does not depend on its annotations;
* `applyUnary_covers`, `applyBinary_covers`, `enclose_covers`: the derived span of a node covers the
  spans of its operands. Only parentheses at places of their own need not cover what they enclose.
-/

namespace ScriptTyping

/-- What every node of a tree carries besides its shape: where it stands in the source, and its
type once it is known. -/
structure NodeInfo where
  span : Span := {}
  ty : Option Ty := none
  deriving DecidableEq, Repr, Inhabited

/-- An expression. A string literal holds its lexeme, quotes included. -/
inductive Expr where
  | int (info : NodeInfo) (value : Int)
  | bool (info : NodeInfo) (value : Bool)
  | str (info : NodeInfo) (lexeme : String)
  | var (info : NodeInfo) (name : String)
  | unary (info : NodeInfo) (op : UnaryOp) (operand : Expr)
  | binary (info : NodeInfo) (op : BinaryOp) (left right : Expr)
  | parens (info : NodeInfo) (inner : Expr)
  deriving DecidableEq, Repr

namespace Expr

/-! ## Annotations -/

def info : Expr → NodeInfo
  | int info _ => info
  | bool info _ => info
  | str info _ => info
  | var info _ => info
  | unary info _ _ => info
  | binary info _ _ _ => info
  | parens info _ => info

/-- The same node with other annotations; its operands keep theirs. -/
def withInfo (info : NodeInfo) : Expr → Expr
  | int _ value => int info value
  | bool _ value => bool info value
  | str _ lexeme => str info lexeme
  | var _ name => var info name
  | unary _ op operand => unary info op operand
  | binary _ op left right => binary info op left right
  | parens _ inner => parens info inner

def span (expr : Expr) : Span := expr.info.span

def ty? (expr : Expr) : Option Ty := expr.info.ty

def withSpan (span : Span) (expr : Expr) : Expr :=
  expr.withInfo { expr.info with span }

def withTy (ty : Ty) (expr : Expr) : Expr :=
  expr.withInfo { expr.info with ty := some ty }

/-! ## Text -/

/-- The expression on one line, without blanks of its own. -/
def text : Expr → String
  | int _ value => toString value
  | bool _ value => if value then "true" else "false"
  | str _ lexeme => lexeme
  | var _ name => name
  | unary _ op operand => op.symbol ++ operand.text
  | binary _ op left right => left.text ++ op.symbol ++ right.text
  | parens _ inner => "(" ++ inner.text ++ ")"

/-! ## Construction -/

def ofInt (value : Int) : Expr := int {} value

def ofBool (value : Bool) : Expr := bool {} value

def ofLexeme (lexeme : String) : Expr := str {} lexeme

def ofName (name : String) : Expr := var {} name

/-- The operator stands one byte before its operand. -/
def applyUnary (op : UnaryOp) (operand : Expr) : Expr :=
  unary { span := operand.span.growLeft } op operand

/-- The operator stands at a place of its own. -/
def applyUnaryAt (op : UnaryOp) (opSpan : Span) (operand : Expr) : Expr :=
  unary { span := opSpan.merge operand.span } op operand

def applyBinary (op : BinaryOp) (left right : Expr) : Expr :=
  binary { span := left.span.merge right.span } op left right

/-- The parentheses stand one byte before and one byte after what they enclose. -/
def enclose (inner : Expr) : Expr :=
  parens { span := inner.span.growBoth } inner

/-- The parentheses stand at places of their own, which alone decide the span. -/
def encloseAt (opening : Span) (inner : Expr) (closing : Span) : Expr :=
  parens { span := opening.merge closing } inner

/-! ## Annotations and text -/

@[simp] theorem info_withInfo (info : NodeInfo) (expr : Expr) :
    (expr.withInfo info).info = info := by
  cases expr <;> rfl

@[simp] theorem text_withInfo (info : NodeInfo) (expr : Expr) :
    (expr.withInfo info).text = expr.text := by
  cases expr <;> rfl

@[simp] theorem span_withTy (ty : Ty) (expr : Expr) : (expr.withTy ty).span = expr.span := by
  simp [span, withTy]

@[simp] theorem ty?_withTy (ty : Ty) (expr : Expr) : (expr.withTy ty).ty? = some ty := by
  simp [ty?, withTy]

@[simp] theorem text_withTy (ty : Ty) (expr : Expr) : (expr.withTy ty).text = expr.text := by
  simp [withTy]

/-! ## Derived spans cover the operands -/

theorem applyUnary_covers (op : UnaryOp) (operand : Expr) :
    (applyUnary op operand).span.Covers operand.span :=
  operand.span.growLeft_covers

theorem applyUnaryAt_covers (op : UnaryOp) (opSpan : Span) (operand : Expr) :
    (applyUnaryAt op opSpan operand).span.Covers operand.span :=
  opSpan.merge_covers_right operand.span

theorem applyBinary_covers (op : BinaryOp) (left right : Expr) :
    (applyBinary op left right).span.Covers left.span ∧
      (applyBinary op left right).span.Covers right.span :=
  ⟨left.span.merge_covers_left right.span, left.span.merge_covers_right right.span⟩

theorem enclose_covers (inner : Expr) : (enclose inner).span.Covers inner.span :=
  inner.span.growBoth_covers

end Expr

end ScriptTyping
