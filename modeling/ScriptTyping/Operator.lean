import ScriptTyping.Ty

/-!
# Operators

The two unary and ten binary operators, their spelling, and the type each gives to operands of
given types. There is no rule for an operand of type `Ty.error`, so an error in an operand is
always an error in the result.
-/

namespace ScriptTyping

inductive UnaryOp where
  | neg
  | not
  deriving DecidableEq, Repr

inductive BinaryOp where
  | mul
  | div
  | add
  | sub
  | eq
  | ne
  | lt
  | le
  | gt
  | ge
  deriving DecidableEq, Repr

/-- The precedence families of binary operators, from the tightest to the loosest. -/
inductive BinaryOp.Family where
  | multiplicative
  | additive
  | comparison
  deriving DecidableEq, Repr

namespace UnaryOp

def all : List UnaryOp := [neg, not]

def symbol : UnaryOp → String
  | neg => "-"
  | not => "!"

def ofSymbol? (symbol : String) : Option UnaryOp :=
  all.find? (·.symbol == symbol)

/-- The type of the operator applied to an operand, if there is a rule for it. -/
def resultTy? : UnaryOp → Ty → Option Ty
  | neg, .int => some .int
  | not, .bool => some .bool
  | _, _ => none

theorem ofSymbol?_symbol (op : UnaryOp) : ofSymbol? op.symbol = some op := by
  cases op <;> decide

/-- No operator makes `Ty.error` of anything. -/
theorem resultTy?_ne_error {op : UnaryOp} {operand ty : Ty} (h : op.resultTy? operand = some ty) :
    ty ≠ .error := by
  rintro rfl
  cases op <;> cases operand <;> simp [resultTy?] at h

@[simp] theorem resultTy?_error (op : UnaryOp) : op.resultTy? .error = none := by
  cases op <;> rfl

end UnaryOp

namespace BinaryOp

def all : List BinaryOp := [mul, div, add, sub, eq, ne, lt, le, gt, ge]

def symbol : BinaryOp → String
  | mul => "*"
  | div => "/"
  | add => "+"
  | sub => "-"
  | eq => "=="
  | ne => "!="
  | lt => "<"
  | le => "<="
  | gt => ">"
  | ge => ">="

def ofSymbol? (symbol : String) : Option BinaryOp :=
  all.find? (·.symbol == symbol)

def family : BinaryOp → Family
  | mul | div => .multiplicative
  | add | sub => .additive
  | eq | ne | lt | le | gt | ge => .comparison

def Family.name : Family → String
  | multiplicative => "multiplicative"
  | additive => "additive"
  | comparison => "comparison"

def isComparison (op : BinaryOp) : Bool := op.family == .comparison

/-- The type of the operator applied to two operands, if there is a rule for them. Arithmetic and
comparison are for integers; `+` also joins two strings. -/
def resultTy? (op : BinaryOp) (left right : Ty) : Option Ty :=
  match op.family, left, right with
  | .multiplicative, .int, .int => some .int
  | .additive, .int, .int => some .int
  | .additive, .string, .string => if op = add then some .string else none
  | .comparison, .int, .int => some .bool
  | _, _, _ => none

theorem ofSymbol?_symbol (op : BinaryOp) : ofSymbol? op.symbol = some op := by
  cases op <;> decide

/-- No operator makes `Ty.error` of anything. -/
theorem resultTy?_ne_error {op : BinaryOp} {left right ty : Ty}
    (h : op.resultTy? left right = some ty) : ty ≠ .error := by
  rintro rfl
  cases op <;> cases left <;> cases right <;> simp [resultTy?, family] at h

@[simp] theorem resultTy?_error_left (op : BinaryOp) (right : Ty) :
    op.resultTy? .error right = none := by
  cases op <;> rfl

@[simp] theorem resultTy?_error_right (op : BinaryOp) (left : Ty) :
    op.resultTy? left .error = none := by
  cases op <;> cases left <;> rfl

/-- The operands that an operator has a rule for, and what the rule gives. -/
theorem resultTy?_cases {op : BinaryOp} {left right ty : Ty}
    (h : op.resultTy? left right = some ty) :
    op ∈ [mul, div, add, sub] ∧ left = .int ∧ right = .int ∧ ty = .int
      ∨ op = add ∧ left = .string ∧ right = .string ∧ ty = .string
      ∨ op ∈ [eq, ne, lt, le, gt, ge] ∧ left = .int ∧ right = .int ∧ ty = .bool := by
  unfold resultTy? at h
  split at h
  case h_1 hfamily =>
    cases h
    refine Or.inl ⟨?_, rfl, rfl, rfl⟩
    cases op <;> simp_all [family]
  case h_2 hfamily =>
    cases h
    refine Or.inl ⟨?_, rfl, rfl, rfl⟩
    cases op <;> simp_all [family]
  case h_3 =>
    split at h
    case isTrue hop => cases h; exact Or.inr (Or.inl ⟨hop, rfl, rfl, rfl⟩)
    case isFalse => cases h
  case h_4 hfamily =>
    cases h
    refine Or.inr (Or.inr ⟨?_, rfl, rfl, rfl⟩)
    cases op <;> simp_all [family]
  case h_5 => cases h

end BinaryOp

end ScriptTyping
