import ScriptTyping.Violation

/-!
# Typing rules

The verdict on each kind of node, from the types of its parts. The rules look at types and at what a
symbol table finds for a name; they neither walk a tree nor change a table.

For each rule, `…_eq_ok_iff` says what it accepts, `ty_of…` which type it gives where that depends
on the types of the parts alone, and `category_of_…` which category its violations belong to. Only
the rule for variables can give a node `Ty.error` without a violation.
-/

namespace ScriptTyping.Verdict

/-- A variable has the type the table finds for it, which may be `Ty.error`. -/
def ofVariable (name : String) (found : Option Ty) : Verdict :=
  match found with
  | some ty => .ok ty
  | none => .error (.undeclared name)

def ofUnary (op : UnaryOp) (operand : Ty) : Verdict :=
  match op.resultTy? operand with
  | some ty => .ok ty
  | none => .error (.unaryOperand op operand)

def ofBinary (op : BinaryOp) (left right : Ty) : Verdict :=
  match op.resultTy? left right with
  | some ty => .ok ty
  | none => .error (.binaryOperands op left right)

/-- A statement with a condition has the type of the condition. -/
def ofCondition (text : String) (ty : Ty) : Verdict :=
  if ty.isCondition then .ok ty else .error (.condition text ty)

/-- A print statement has the type of what it prints. -/
def ofPrint (text : String) (ty : Ty) : Verdict :=
  if ty.isPrintable then .ok ty else .error (.unprintable text)

/-- An assignment has the type of its variable. A variable of type `Ty.error` accepts no value,
not even one of type `Ty.error`. -/
def ofAssign (name : String) (found : Option Ty) (value : Ty) : Verdict :=
  match found with
  | none => .error (.assignUndeclared name)
  | some .error => .error (.assignPoisoned name)
  | some current =>
    if current.accepts value then .ok current else .error (.assignMismatch name current value)

/-- A declaration has the type its token names. An unknown token is reported whatever the
initialiser is. -/
def ofDecl (name token : String) (init : Option Ty) : Verdict :=
  match Ty.ofToken? token, init with
  | none, _ => .error (.unknownType token name)
  | some declared, none => .ok declared
  | some declared, some actual =>
    if declared.accepts actual then .ok declared else .error (.initialiser name declared actual)

/-! ## What the rules accept -/

/-- A variable is accepted with the type that the table finds, `Ty.error` included. -/
theorem ofVariable_eq_ok_iff {name : String} {found : Option Ty} {ty : Ty} :
    ofVariable name found = .ok ty ↔ found = some ty := by
  unfold ofVariable
  split <;> simp

/-- A unary operation is accepted with the type that its operator makes of the operand. -/
theorem ofUnary_eq_ok_iff {op : UnaryOp} {operand ty : Ty} :
    ofUnary op operand = .ok ty ↔ op.resultTy? operand = some ty := by
  unfold ofUnary
  split <;> simp_all

/-- A binary operation is accepted with the type that its operator makes of the operands. -/
theorem ofBinary_eq_ok_iff {op : BinaryOp} {left right ty : Ty} :
    ofBinary op left right = .ok ty ↔ op.resultTy? left right = some ty := by
  unfold ofBinary
  split <;> simp_all

/-- A condition is accepted if it is a truth value. -/
theorem ofCondition_eq_ok_iff {text : String} {condition ty : Ty} :
    ofCondition text condition = .ok ty ↔ condition = .bool ∧ ty = .bool := by
  unfold ofCondition
  split
  case isTrue h =>
    rw [Ty.isCondition_iff.mp h]
    simp [eq_comm]
  case isFalse h => simp_all

/-- A print is accepted if its operand has a usable type, and takes this type. -/
theorem ofPrint_eq_ok_iff {text : String} {operand ty : Ty} :
    ofPrint text operand = .ok ty ↔ operand = ty ∧ ty ≠ .error := by
  unfold ofPrint
  split
  case isTrue h =>
    have hoperand : operand ≠ .error := Ty.isPrintable_iff.mp h
    simp only [Except.ok.injEq]
    exact ⟨fun heq => ⟨heq, heq ▸ hoperand⟩, And.left⟩
  case isFalse h =>
    have hoperand : operand = .error := by simpa using h
    simp [hoperand, eq_comm]

/-- An assignment is accepted if the target is known, not poisoned, and of the type of the value. -/
theorem ofAssign_eq_ok_iff {name : String} {found : Option Ty} {value ty : Ty} :
    ofAssign name found value = .ok ty ↔ found = some ty ∧ value = ty ∧ ty ≠ .error := by
  unfold ofAssign
  split
  case h_1 => simp
  case h_2 => simp +contextual [eq_comm]
  case h_3 current hcurrent =>
    have hcurrent : current ≠ .error := fun h => hcurrent (h ▸ rfl)
    by_cases hvalue : current = value
    · subst hvalue
      simp only [Ty.accepts_iff, hcurrent, ne_eq, not_false_eq_true, and_self, ↓reduceIte,
        Except.ok.injEq, Option.some.injEq]
      exact ⟨fun heq => ⟨heq, heq, heq ▸ hcurrent⟩, And.left⟩
    · simp only [Ty.accepts_iff, hvalue, and_false, ↓reduceIte, reduceCtorEq, Option.some.injEq,
        false_iff]
      rintro ⟨rfl, rfl, -⟩
      exact hvalue rfl

/-- The four cases of an assignment, by what is found for its variable. -/
theorem ofAssign_cases (name : String) (found : Option Ty) (value : Ty) :
    found = none ∧ ofAssign name found value = .error (.assignUndeclared name)
      ∨ found = some .error ∧ ofAssign name found value = .error (.assignPoisoned name)
      ∨ (∃ ty, ty ≠ .error ∧ found = some ty ∧ value = ty ∧ ofAssign name found value = .ok ty)
      ∨ ∃ ty, ty ≠ .error ∧ found = some ty ∧ value ≠ ty
        ∧ ofAssign name found value = .error (.assignMismatch name ty value) := by
  unfold ofAssign
  split
  case h_1 => exact Or.inl ⟨rfl, rfl⟩
  case h_2 => exact Or.inr (Or.inl ⟨rfl, rfl⟩)
  case h_3 current hcurrent =>
    have husable : current ≠ .error := fun h => hcurrent (h ▸ rfl)
    by_cases hvalue : value = current
    · have haccepts : current.accepts value = true := Ty.accepts_iff.mpr ⟨husable, hvalue.symm⟩
      rw [if_pos haccepts]
      exact Or.inr (Or.inr (Or.inl ⟨current, husable, rfl, hvalue, rfl⟩))
    · have hrefuses : ¬ current.accepts value = true := fun h =>
        hvalue (Ty.accepts_iff.mp h).2.symm
      rw [if_neg hrefuses]
      exact Or.inr (Or.inr (Or.inr ⟨current, husable, rfl, hvalue, rfl⟩))

/-- A declaration is accepted if its token names a type, and an initialiser is of this type. -/
theorem ofDecl_eq_ok_iff {name token : String} {init : Option Ty} {ty : Ty} :
    ofDecl name token init = .ok ty ↔
      Ty.ofToken? token = some ty ∧ ∀ actual ∈ init, actual = ty := by
  unfold ofDecl
  split
  case h_1 htoken => simp [htoken]
  case h_2 htoken => simp [htoken]
  case h_3 declared actual htoken =>
    have hdeclared : declared ≠ .error := (Ty.ofToken?_eq_some_iff.mp htoken).1
    by_cases hactual : declared = actual
    · simp [htoken, hactual ▸ hdeclared, hactual]
    · simp only [Ty.accepts_iff, hactual, and_false, ↓reduceIte, reduceCtorEq, htoken,
        Option.some.injEq, Option.mem_def, forall_eq', false_iff]
      rintro ⟨rfl, rfl⟩
      exact hactual rfl

/-! ## The types they give -/

theorem ty_ofUnary (op : UnaryOp) (operand : Ty) :
    (ofUnary op operand).ty = (op.resultTy? operand).getD .error := by
  unfold ofUnary
  split <;> simp_all

theorem ty_ofBinary (op : BinaryOp) (left right : Ty) :
    (ofBinary op left right).ty = (op.resultTy? left right).getD .error := by
  unfold ofBinary
  split <;> simp_all

theorem ty_ofCondition (text : String) (condition : Ty) :
    (ofCondition text condition).ty = if condition = .bool then .bool else .error := by
  unfold ofCondition
  split <;> simp_all

/-- What cannot be printed has the type `Ty.error` already. -/
theorem ty_ofPrint (text : String) (operand : Ty) : (ofPrint text operand).ty = operand := by
  unfold ofPrint
  split <;> simp_all

/-! ## An error in a part -/

@[simp] theorem ty_ofUnary_error (op : UnaryOp) : (ofUnary op .error).ty = .error := by
  simp [ofUnary]

@[simp] theorem ty_ofBinary_error_left (op : BinaryOp) (right : Ty) :
    (ofBinary op .error right).ty = .error := by
  simp [ofBinary]

@[simp] theorem ty_ofBinary_error_right (op : BinaryOp) (left : Ty) :
    (ofBinary op left .error).ty = .error := by
  simp [ofBinary]

/-! ## Their violations, and the categories of these -/

/-- A unary operation can be refused for one reason only. -/
theorem violation_of_ofUnary {op : UnaryOp} {operand : Ty} {violation : Violation}
    (h : ofUnary op operand = .error violation) : violation = .unaryOperand op operand := by
  unfold ofUnary at h
  split at h <;> cases h
  rfl

theorem violation_of_ofBinary {op : BinaryOp} {left right : Ty} {violation : Violation}
    (h : ofBinary op left right = .error violation) :
    violation = .binaryOperands op left right := by
  unfold ofBinary at h
  split at h <;> cases h
  rfl

theorem violation_of_ofCondition {text : String} {condition : Ty} {violation : Violation}
    (h : ofCondition text condition = .error violation) :
    violation = .condition text condition := by
  unfold ofCondition at h
  split at h <;> cases h
  rfl

/-- A variable is refused if it is unknown. -/
theorem category_of_ofVariable {name : String} {found : Option Ty} {violation : Violation}
    (h : ofVariable name found = .error violation) :
    found = none ∧ violation.category = .undefinedName := by
  unfold ofVariable at h
  split at h <;> cases h
  exact ⟨rfl, rfl⟩

theorem category_of_ofUnary {op : UnaryOp} {operand : Ty} {violation : Violation}
    (h : ofUnary op operand = .error violation) : violation.category = .invalidNegation := by
  rw [violation_of_ofUnary h]
  rfl

theorem category_of_ofBinary {op : BinaryOp} {left right : Ty} {violation : Violation}
    (h : ofBinary op left right = .error violation) : violation.category = .invalidBinaryOp := by
  rw [violation_of_ofBinary h]
  rfl

theorem category_of_ofCondition {text : String} {condition : Ty} {violation : Violation}
    (h : ofCondition text condition = .error violation) :
    violation.category = .conditionNotBool := by
  rw [violation_of_ofCondition h]
  rfl

theorem category_of_ofPrint {text : String} {operand : Ty} {violation : Violation}
    (h : ofPrint text operand = .error violation) :
    violation.category = .unprintableExpression := by
  unfold ofPrint at h
  split at h <;> cases h
  rfl

/-- An assignment is refused for its target if this is unknown, and for the types otherwise. -/
theorem category_of_ofAssign {name : String} {found : Option Ty} {value : Ty}
    {violation : Violation} (h : ofAssign name found value = .error violation) :
    violation.category = if found.isSome then .assignToWrongType else .undefinedName := by
  unfold ofAssign at h
  split at h
  case h_1 => cases h; rfl
  case h_2 => cases h; rfl
  case h_3 =>
    split at h <;> cases h
    rfl

/-- A declaration is refused for its token if this names no type, and for the initialiser
otherwise. -/
theorem category_of_ofDecl {name token : String} {init : Option Ty} {violation : Violation}
    (h : ofDecl name token init = .error violation) :
    violation.category =
      if (Ty.ofToken? token).isSome then .assignToWrongType else .undefinedName := by
  unfold ofDecl at h
  split at h
  case h_1 htoken => cases h; simp [htoken, Violation.category]
  case h_2 => cases h
  case h_3 htoken =>
    split at h <;> cases h
    simp [htoken, Violation.category]

end ScriptTyping.Verdict
