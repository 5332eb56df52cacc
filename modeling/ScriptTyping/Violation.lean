import ScriptTyping.Log
import ScriptTyping.Operator

/-!
# Violations

Each way in which a node can break a typing rule, with the category it belongs to and the message
that explains it. Checking a node ends in a verdict: a type, or the violation that denies it one.
-/

namespace ScriptTyping

inductive Violation where
  /-- A variable is read that no declaration introduced. -/
  | undeclared (name : String)
  /-- A unary operator has no rule for its operand. -/
  | unaryOperand (op : UnaryOp) (operand : Ty)
  /-- A binary operator has no rule for its operands. -/
  | binaryOperands (op : BinaryOp) (left right : Ty)
  /-- The type token of a declaration names no type. -/
  | unknownType (token name : String)
  /-- A declaration has an initialiser of another type. -/
  | initialiser (name : String) (declared actual : Ty)
  /-- A variable is assigned that no declaration introduced. -/
  | assignUndeclared (name : String)
  /-- A variable is assigned that an earlier violation made unusable. -/
  | assignPoisoned (name : String)
  /-- A variable is assigned a value of another type. -/
  | assignMismatch (name : String) (current value : Ty)
  /-- The condition with the given text is no truth value. -/
  | condition (text : String) (ty : Ty)
  /-- The operand with the given text cannot be printed. -/
  | unprintable (text : String)
  deriving DecidableEq, Repr

namespace Violation

def category : Violation → Category
  | undeclared _ => .undefinedName
  | unaryOperand _ _ => .invalidNegation
  | binaryOperands _ _ _ => .invalidBinaryOp
  | unknownType _ _ => .undefinedName
  | initialiser _ _ _ => .assignToWrongType
  | assignUndeclared _ => .undefinedName
  | assignPoisoned _ => .assignToWrongType
  | assignMismatch _ _ _ => .assignToWrongType
  | condition _ _ => .conditionNotBool
  | unprintable _ => .unprintableExpression

def message : Violation → String
  | undeclared name => "'" ++ name ++ "' has not been declared"
  | unaryOperand op operand => "cannot apply " ++ op.symbol ++ " to " ++ operand.name
  | binaryOperands op left right =>
    "cannot apply " ++ op.symbol ++ " to " ++ left.name ++ " and " ++ right.name
  | unknownType token name => "unknown type '" ++ token ++ "' in declaration of '" ++ name ++ "'"
  | initialiser name declared actual =>
    "'" ++ name ++ "' is declared " ++ declared.name ++ " but initialised with " ++ actual.name
  | assignUndeclared name => "cannot assign to '" ++ name ++ "': it has not been declared"
  | assignPoisoned name =>
    "'" ++ name ++ "' was previously mis-assigned and cannot be assigned again"
  | assignMismatch name current value =>
    "'" ++ name ++ "' has type " ++ current.name ++ " but was assigned " ++ value.name
  | condition text ty => "expression " ++ text ++ " is " ++ ty.name ++ ", not Bool"
  | unprintable text => "cannot print " ++ text

/-- The violation as recorded for a node with the given text and span. -/
def entry (violation : Violation) (text : String) (span : Span) : Entry where
  text := text
  span := span
  category := violation.category
  message := violation.message

end Violation

/-- What checking a node ends in. -/
abbrev Verdict := Except Violation Ty

namespace Verdict

/-- The type a node gets: the one it was found to have, or `Ty.error`. -/
def ty : Verdict → Ty
  | .ok ty => ty
  | .error _ => .error

/-- Whether the node keeps the rules. -/
def isValid : Verdict → Bool
  | .ok _ => true
  | .error _ => false

/-- What the verdict on a node adds to the log: nothing, or one entry. -/
def entries (verdict : Verdict) (text : String) (span : Span) : List Entry :=
  match verdict with
  | .ok _ => []
  | .error violation => [violation.entry text span]

@[simp] theorem ty_ok (t : Ty) : ty (.ok t) = t := rfl

@[simp] theorem ty_error (violation : Violation) : ty (.error violation) = .error := rfl

@[simp] theorem isValid_ok (t : Ty) : isValid (.ok t) = true := rfl

@[simp] theorem isValid_error (violation : Violation) : isValid (.error violation) = false := rfl

@[simp] theorem entries_ok (t : Ty) (text : String) (span : Span) :
    entries (.ok t) text span = [] := rfl

@[simp] theorem entries_error (violation : Violation) (text : String) (span : Span) :
    entries (.error violation) text span = [violation.entry text span] := rfl

/-- Only a violation and the acceptance of `Ty.error` give a node the type `Ty.error`. -/
theorem ty_eq_iff {verdict : Verdict} {t : Ty} (h : t ≠ .error) :
    verdict.ty = t ↔ verdict = .ok t := by
  cases verdict with
  | ok ty => simp
  | error violation => simp [h.symm]

/-- A verdict is silent if and only if it is valid. -/
theorem entries_eq_nil_iff {verdict : Verdict} {text : String} {span : Span} :
    verdict.entries text span = [] ↔ verdict.isValid = true := by
  cases verdict <;> simp

theorem isValid_iff {verdict : Verdict} : verdict.isValid = true ↔ ∃ t, verdict = .ok t := by
  cases verdict <;> simp

end Verdict

end ScriptTyping
