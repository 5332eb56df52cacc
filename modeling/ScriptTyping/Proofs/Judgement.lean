import ScriptTyping.Checking.Script

/-!
# The typing judgement

What it means for a script to be well typed, said without reference to any walk. The rules know the
three types a program can name; there is no rule that mentions `Ty.error`, and statements neither
change nor extend the environment they are typed in.

* **`HasType`**, **`Stmt.WellTyped`**, **`Decl.Declares`**, **`Script.WellTyped`**: the judgement.
* **`Expr.hasType_iff`**: checking an expression against a table finds the type `ty`, other than
  `Ty.error`, exactly when the expression has this type among the usable names of the table.
-/

namespace ScriptTyping

/-! ## Environments -/

abbrev Env := String → Option Ty

def Env.empty : Env := fun _ => none

def Env.bind (env : Env) (name : String) (ty : Ty) : Env :=
  fun other => if other = name then some ty else env other

/-! ## The rules -/

inductive HasType (env : Env) : Expr → Ty → Prop where
  | int {info : NodeInfo} {value : Int} : HasType env (.int info value) .int
  | bool {info : NodeInfo} {value : Bool} : HasType env (.bool info value) .bool
  | str {info : NodeInfo} {lexeme : String} : HasType env (.str info lexeme) .string
  | var {info : NodeInfo} {name : String} {ty : Ty} (hname : env name = some ty) :
      HasType env (.var info name) ty
  | parens {info : NodeInfo} {inner : Expr} {ty : Ty} (hinner : HasType env inner ty) :
      HasType env (.parens info inner) ty
  | neg {info : NodeInfo} {operand : Expr} (hoperand : HasType env operand .int) :
      HasType env (.unary info .neg operand) .int
  | not {info : NodeInfo} {operand : Expr} (hoperand : HasType env operand .bool) :
      HasType env (.unary info .not operand) .bool
  | arithmetic {info : NodeInfo} {op : BinaryOp} {left right : Expr}
      (hop : op ∈ [.mul, .div, .add, .sub])
      (hleft : HasType env left .int) (hright : HasType env right .int) :
      HasType env (.binary info op left right) .int
  | join {info : NodeInfo} {left right : Expr}
      (hleft : HasType env left .string) (hright : HasType env right .string) :
      HasType env (.binary info .add left right) .string
  | comparison {info : NodeInfo} {op : BinaryOp} {left right : Expr}
      (hop : op ∈ [.eq, .ne, .lt, .le, .gt, .ge])
      (hleft : HasType env left .int) (hright : HasType env right .int) :
      HasType env (.binary info op left right) .bool

inductive Stmt.WellTyped (env : Env) : Stmt → Prop where
  | assign {info : NodeInfo} {name : String} {value : Expr} {valid : Bool} {ty : Ty}
      (hname : env name = some ty) (hvalue : HasType env value ty) :
      Stmt.WellTyped env (.assign info name value valid)
  | print {info : NodeInfo} {operand : Expr} {ty : Ty} (hoperand : HasType env operand ty) :
      Stmt.WellTyped env (.print info operand)
  | loop {info : NodeInfo} {condition : Expr} {body : List Stmt}
      (hcondition : HasType env condition .bool) (hbody : ∀ stmt ∈ body, Stmt.WellTyped env stmt) :
      Stmt.WellTyped env (.loop info condition body)
  | ifThen {info : NodeInfo} {condition : Expr} {thenBlock : List Stmt}
      (hcondition : HasType env condition .bool)
      (hthen : ∀ stmt ∈ thenBlock, Stmt.WellTyped env stmt) :
      Stmt.WellTyped env (.ifThen info condition thenBlock)
  | ifElse {info : NodeInfo} {condition : Expr} {thenBlock elseBlock : List Stmt}
      (hcondition : HasType env condition .bool)
      (hthen : ∀ stmt ∈ thenBlock, Stmt.WellTyped env stmt)
      (helse : ∀ stmt ∈ elseBlock, Stmt.WellTyped env stmt) :
      Stmt.WellTyped env (.ifElse info condition thenBlock elseBlock)

/-- The tokens that name a type in a declaration. -/
inductive TypeToken : String → Ty → Prop where
  | int : TypeToken "Int" .int
  | bool : TypeToken "Bool" .bool
  | string : TypeToken "String" .string

/-- `Decl.Declares env decls env'`: the declarations are in order from left to right, each typed
with the names before it, and lead from `env` to `env'`. A name declared twice is bound anew. -/
inductive Decl.Declares : Env → List Decl → Env → Prop where
  | nil {env : Env} : Decl.Declares env [] env
  | cons {env env' : Env} {decl : Decl} {rest : List Decl} {ty : Ty}
      (htoken : TypeToken decl.typeToken ty) (hinit : ∀ init ∈ decl.init, HasType env init ty)
      (hrest : Decl.Declares (env.bind decl.name ty) rest env') :
      Decl.Declares env (decl :: rest) env'

/-- All statements are typed in the one environment that the declarations lead to. -/
def Script.WellTyped (script : Script) : Prop :=
  ∃ env, Decl.Declares Env.empty script.decls env ∧ ∀ stmt ∈ script.stmts, stmt.WellTyped env

/-! ## Inversion

The operators have several rules each; the tables of result types say the same in one place. -/

theorem typeToken_iff {token : String} {ty : Ty} :
    TypeToken token ty ↔ Ty.ofToken? token = some ty := by
  rw [Ty.ofToken?_eq_some_iff]
  refine ⟨fun h => ?_, fun h => ?_⟩
  · cases h <;> exact ⟨nofun, rfl⟩
  · obtain ⟨hty, rfl⟩ := h
    cases ty with
    | int => exact .int
    | bool => exact .bool
    | string => exact .string
    | error => exact absurd rfl hty

theorem hasType_var_iff {env : Env} {info : NodeInfo} {name : String} {ty : Ty} :
    HasType env (.var info name) ty ↔ env name = some ty := by
  refine ⟨fun h => ?_, .var⟩
  cases h with
  | var hname => exact hname

theorem hasType_parens_iff {env : Env} {info : NodeInfo} {inner : Expr} {ty : Ty} :
    HasType env (.parens info inner) ty ↔ HasType env inner ty := by
  refine ⟨fun h => ?_, .parens⟩
  cases h with
  | parens hinner => exact hinner

/-- A unary operator has the type that its rule gives for the type of its operand. -/
theorem hasType_unary_iff {env : Env} {info : NodeInfo} {op : UnaryOp} {operand : Expr} {ty : Ty} :
    HasType env (.unary info op operand) ty ↔
      ∃ t, HasType env operand t ∧ op.resultTy? t = some ty := by
  refine ⟨fun h => ?_, fun h => ?_⟩
  · cases h with
    | neg hoperand => exact ⟨.int, hoperand, rfl⟩
    | not hoperand => exact ⟨.bool, hoperand, rfl⟩
  · obtain ⟨t, hoperand, hty⟩ := h
    -- each operator has a result for one type only
    cases op <;> cases t <;> cases hty
    · exact .neg hoperand
    · exact .not hoperand

theorem hasType_binary_iff {env : Env} {info : NodeInfo} {op : BinaryOp} {left right : Expr}
    {ty : Ty} :
    HasType env (.binary info op left right) ty ↔
      ∃ t u, HasType env left t ∧ HasType env right u ∧ op.resultTy? t u = some ty := by
  refine ⟨fun h => ?_, fun h => ?_⟩
  · cases h with
    | arithmetic hop hleft hright =>
      refine ⟨.int, .int, hleft, hright, ?_⟩
      revert hop
      cases op <;> decide
    | join hleft hright => exact ⟨.string, .string, hleft, hright, rfl⟩
    | comparison hop hleft hright =>
      refine ⟨.int, .int, hleft, hright, ?_⟩
      revert hop
      cases op <;> decide
  · obtain ⟨t, u, hleft, hright, hty⟩ := h
    rcases BinaryOp.resultTy?_cases hty with
      ⟨hop, rfl, rfl, rfl⟩ | ⟨rfl, rfl, rfl, rfl⟩ | ⟨hop, rfl, rfl, rfl⟩
    · exact .arithmetic hop hleft hright
    · exact .join hleft hright
    · exact .comparison hop hleft hright

/-! ## What a table tells about names

A poisoned name is declared but has no type that a rule could use. -/

def SymbolTable.env (table : SymbolTable) : Env :=
  fun name => (table.lookup name).filter fun ty => !ty.isError

/-- The environment of a table has the usable names. A poisoned name is as good as none. -/
theorem SymbolTable.env_eq_some_iff {table : SymbolTable} {name : String} {ty : Ty} :
    table.env name = some ty ↔ table.lookup name = some ty ∧ ty ≠ .error := by
  simp [SymbolTable.env, Option.filter_eq_some_iff, ← Ty.isError_iff]

theorem SymbolTable.env_empty : SymbolTable.empty.env = Env.empty := rfl

/-- Defining a name with a type of use binds it in the environment. -/
theorem SymbolTable.env_define (table : SymbolTable) (name : String) {ty : Ty} (hty : ty ≠ .error) :
    (table.define name ty).env = table.env.bind name ty := by
  funext other
  refine Option.ext fun t => ?_
  rw [SymbolTable.env_eq_some_iff, SymbolTable.lookup_define, Env.bind]
  by_cases hother : other = name
  · rw [if_pos hother, if_pos hother, Option.some.injEq]
    exact ⟨And.left, fun heq => ⟨heq, heq ▸ hty⟩⟩
  · rw [if_neg hother, if_neg hother, SymbolTable.env_eq_some_iff]

/-! ## Checking an expression decides the judgement -/

/-- **Expressions: the judgement and the check agree.** A type in the environment of a table is what
a check against the table finds, and `Ty.error` is what it finds where there is none. -/
theorem Expr.hasType_iff (table : SymbolTable) (expr : Expr) (ty : Ty) :
    HasType table.env expr ty ↔ (expr.check table).ty = ty ∧ ty ≠ .error := by
  induction expr generalizing ty with
  | int info value =>
    refine ⟨fun h => ?_, fun h => ?_⟩
    · cases h
      exact ⟨rfl, nofun⟩
    · obtain rfl : .int = ty := h.1
      exact .int
  | bool info value =>
    refine ⟨fun h => ?_, fun h => ?_⟩
    · cases h
      exact ⟨rfl, nofun⟩
    · obtain rfl : .bool = ty := h.1
      exact .bool
  | str info lexeme =>
    refine ⟨fun h => ?_, fun h => ?_⟩
    · cases h
      exact ⟨rfl, nofun⟩
    · obtain rfl : .string = ty := h.1
      exact .str
  | var info name =>
    rw [hasType_var_iff, SymbolTable.env_eq_some_iff, and_congr_left_iff]
    intro hty
    show table.lookup name = some ty ↔ (Verdict.ofVariable name (table.lookup name)).ty = ty
    rw [Verdict.ty_eq_iff hty, Verdict.ofVariable_eq_ok_iff]
  | unary info op operand ih =>
    rw [hasType_unary_iff]
    show _ ↔ (Verdict.ofUnary op (operand.check table).ty).ty = ty ∧ ty ≠ .error
    refine ⟨fun h => ?_, fun h => ?_⟩
    · obtain ⟨t, hoperand, hresult⟩ := h
      have hty := UnaryOp.resultTy?_ne_error hresult
      refine ⟨?_, hty⟩
      rw [Verdict.ty_eq_iff hty, Verdict.ofUnary_eq_ok_iff, ((ih t).mp hoperand).1, hresult]
    · obtain ⟨hcheck, hty⟩ := h
      rw [Verdict.ty_eq_iff hty, Verdict.ofUnary_eq_ok_iff] at hcheck
      -- an operand of type `Ty.error` would have no result
      refine ⟨_, (ih _).mpr ⟨rfl, fun herror => ?_⟩, hcheck⟩
      rw [herror, UnaryOp.resultTy?_error] at hcheck
      cases hcheck
  | binary info op left right ihl ihr =>
    rw [hasType_binary_iff]
    show _ ↔ (Verdict.ofBinary op (left.check table).ty (right.check table).ty).ty = ty
      ∧ ty ≠ .error
    refine ⟨fun h => ?_, fun h => ?_⟩
    · obtain ⟨t, u, hleft, hright, hresult⟩ := h
      have hty := BinaryOp.resultTy?_ne_error hresult
      refine ⟨?_, hty⟩
      rw [Verdict.ty_eq_iff hty, Verdict.ofBinary_eq_ok_iff, ((ihl t).mp hleft).1,
        ((ihr u).mp hright).1, hresult]
    · obtain ⟨hcheck, hty⟩ := h
      rw [Verdict.ty_eq_iff hty, Verdict.ofBinary_eq_ok_iff] at hcheck
      refine ⟨_, _, (ihl _).mpr ⟨rfl, fun herror => ?_⟩, (ihr _).mpr ⟨rfl, fun herror => ?_⟩,
        hcheck⟩
      · rw [herror, BinaryOp.resultTy?_error_left] at hcheck
        cases hcheck
      · rw [herror, BinaryOp.resultTy?_error_right] at hcheck
        cases hcheck
  | parens info inner ih =>
    rw [hasType_parens_iff, ih]
    rfl

end ScriptTyping
