import ScriptTyping.Proofs.CleanRun
import ScriptTyping.Proofs.Reannotation

/-!
# Where an error comes from

The check of an expression decides the typing judgement. This module adds what it says about the
expressions that have no type: the error starts somewhere, it reaches every node above its start,
and it is reported, with one exception.

* **`Expr.RootCause`**: what can be wrong with a node while nothing is wrong below it. A variable
  has no usable type, or the operands of an operator have types that no rule allows.
* **`Expr.ty_eq_error_iff_exists_rootCause`**: an expression is typed `Ty.error` exactly if one of
  its nodes is a root cause.
* **`Expr.ty?_eq_error_of_contains`**: every node above an error is typed `Ty.error`.
* **`Expr.silent_error_iff`**: the one error without an entry is a poisoned variable on its own, in
  parentheses or not.
-/

namespace ScriptTyping

namespace Expr

/-! ## Parts of a checked expression

What holds of checked expressions holds of all their nodes, which are checked expressions again. -/

/-- Every expression inside a checked one is itself a checked one. -/
theorem exists_check_of_contains {table : SymbolTable} {expr whole : Expr}
    (h : (Tree.expr (expr.check table).expr).Contains (.expr whole)) :
    ∃ part : Expr, whole = (part.check table).expr := by
  obtain ⟨part, hpart⟩ :=
    expr.exists_check_of_mem_postorder table _ (Tree.mem_postorder_iff.mpr h)
  exact ⟨part, Node.expr.inj hpart⟩

/-- Annotations have no part in the judgement. -/
theorem hasType_check_iff {table : SymbolTable} {expr : Expr} {ty : Ty} :
    HasType table.env (expr.check table).expr ty ↔ HasType table.env expr ty := by
  have hagain : (expr.check table).expr.check table = expr.check table := by
    rw [← Expr.check_erase, Expr.erase_check, Expr.check_erase]
  rw [Expr.hasType_iff, Expr.hasType_iff, hagain]

/-- A check gives `Ty.error` to exactly those expressions that no rule gives a type. -/
theorem ty_eq_error_iff {table : SymbolTable} {expr : Expr} :
    (expr.check table).ty = .error ↔ ∀ ty, ¬ HasType table.env expr ty := by
  refine ⟨fun herror ty htype => ?_, fun hnone => ?_⟩
  · obtain ⟨hty, husable⟩ := (Expr.hasType_iff table expr ty).mp htype
    exact husable (hty ▸ herror)
  · by_contra hty
    exact hnone _ ((Expr.hasType_iff table expr _).mpr ⟨rfl, hty⟩)

theorem not_hasType_check {table : SymbolTable} {expr : Expr} (h : (expr.check table).ty = .error)
    (ty : Ty) : ¬ HasType table.env (expr.check table).expr ty := fun htype =>
  ty_eq_error_iff.mp h ty (hasType_check_iff.mp htype)

/-! ## Errors spread upwards -/

/-- An error anywhere inside makes an error of the whole. -/
theorem ty_eq_error_of_contains {table : SymbolTable} {expr : Expr} {node : Node}
    (hnode : (Tree.expr (expr.check table).expr).Contains node) (herror : node.ty? = some .error) :
    (expr.check table).ty = .error := by
  by_contra hty
  exact (expr.noError_check_iff table).mpr hty node (Tree.mem_postorder_iff.mpr hnode) herror

/-- A node of a checked expression that contains an error is an error itself. -/
theorem ty?_eq_error_of_contains {table : SymbolTable} {expr whole : Expr} {node : Node}
    (hwhole : (Tree.expr (expr.check table).expr).Contains (.expr whole))
    (hnode : (Tree.expr whole).Contains node) (herror : node.ty? = some .error) :
    whole.ty? = some .error := by
  obtain ⟨part, rfl⟩ := exists_check_of_contains hwhole
  rw [Expr.ty?_check, ty_eq_error_of_contains hnode herror]

/-! ## Root causes -/

/-- `expr.RootCause table`: the annotated expression is where an error starts. Its operands, if
there are any, are typed, and yet no rule gives a type to the expression. -/
inductive RootCause (table : SymbolTable) : Expr → Prop where
  | undeclared {info : NodeInfo} {name : String} (hname : table.lookup name = none) :
      RootCause table (.var info name)
  | poisoned {info : NodeInfo} {name : String} (hname : table.lookup name = some .error) :
      RootCause table (.var info name)
  | unary {info : NodeInfo} {op : UnaryOp} {operand : Expr} {ty : Ty}
      (hoperand : operand.ty? = some ty) (hty : ty ≠ .error)
      (hrules : ∀ result, ¬ HasType table.env (.unary info op operand) result) :
      RootCause table (.unary info op operand)
  | binary {info : NodeInfo} {op : BinaryOp} {left right : Expr} {ty ty' : Ty}
      (hleft : left.ty? = some ty) (hty : ty ≠ .error)
      (hright : right.ty? = some ty') (hty' : ty' ≠ .error)
      (hrules : ∀ result, ¬ HasType table.env (.binary info op left right) result) :
      RootCause table (.binary info op left right)

theorem RootCause.not_hasType {table : SymbolTable} {expr : Expr} (h : expr.RootCause table)
    (ty : Ty) : ¬ HasType table.env expr ty := by
  cases h with
  | undeclared hname =>
    rw [hasType_var_iff, SymbolTable.env_eq_some_iff, hname]
    exact fun hfound => nomatch hfound.1
  | poisoned hname =>
    rw [hasType_var_iff, SymbolTable.env_eq_some_iff, hname]
    exact fun hfound => hfound.2 (Option.some.inj hfound.1).symm
  | unary _ _ hrules => exact hrules ty
  | binary _ _ _ _ hrules => exact hrules ty

/-- An error that does not come from below starts here. -/
theorem rootCause_check_var {table : SymbolTable} {info : NodeInfo} {name : String}
    (h : ((var info name).check table).ty = .error) :
    ((var info name).check table).expr.RootCause table := by
  cases hfound : table.lookup name with
  | none => exact .undeclared hfound
  | some ty =>
    have hty : (Verdict.ofVariable name (table.lookup name)).ty = .error := h
    rw [hfound] at hty
    exact .poisoned (hfound.trans (congrArg some hty))

/-- The error of an expression has a root cause in it. -/
theorem exists_rootCause {table : SymbolTable} {expr : Expr} (h : (expr.check table).ty = .error) :
    ∃ cause, .expr cause ∈ (expr.check table).expr.postorder ∧ cause.RootCause table := by
  have hself : ∀ e : Expr, Node.expr (e.check table).expr ∈ (e.check table).expr.postorder :=
    fun e => Node.self_mem_postorder (.expr (e.check table).expr)
  induction expr with
  | int | bool | str => cases h
  | var info name => exact ⟨_, hself _, rootCause_check_var h⟩
  | unary info op operand ih =>
    by_cases hoperand : (operand.check table).ty = .error
    · obtain ⟨cause, hmem, hcause⟩ := ih hoperand
      exact ⟨cause, List.mem_append_left _ hmem, hcause⟩
    · exact ⟨_, hself _, .unary (operand.ty?_check table) hoperand (not_hasType_check h)⟩
  | binary info op left right ihl ihr =>
    by_cases hleft : (left.check table).ty = .error
    · obtain ⟨cause, hmem, hcause⟩ := ihl hleft
      exact ⟨cause, List.mem_append_left _ (List.mem_append_left _ hmem), hcause⟩
    · by_cases hright : (right.check table).ty = .error
      · obtain ⟨cause, hmem, hcause⟩ := ihr hright
        exact ⟨cause, List.mem_append_left _ (List.mem_append_right _ hmem), hcause⟩
      · exact ⟨_, hself _, .binary (left.ty?_check table) hleft (right.ty?_check table) hright
          (not_hasType_check h)⟩
  | parens info inner ih =>
    obtain ⟨cause, hmem, hcause⟩ := ih h
    exact ⟨cause, List.mem_append_left _ hmem, hcause⟩

/-- Where there is an error, there is a root cause inside. -/
theorem ty_eq_error_iff_exists_rootCause {table : SymbolTable} {expr : Expr} :
    (expr.check table).ty = .error ↔
      ∃ cause, (Tree.expr (expr.check table).expr).Contains (.expr cause)
        ∧ cause.RootCause table := by
  refine ⟨fun herror => ?_, fun h => ?_⟩
  · obtain ⟨cause, hmem, hcause⟩ := exists_rootCause herror
    exact ⟨cause, Tree.mem_postorder_iff.mp hmem, hcause⟩
  · obtain ⟨cause, hcontains, hcause⟩ := h
    obtain ⟨part, rfl⟩ := exists_check_of_contains hcontains
    -- no rule gives the cause a type, so it is an error, and so is all that contains it
    have hpart : (part.check table).ty = .error := ty_eq_error_iff.mpr fun ty htype =>
      hcause.not_hasType ty (hasType_check_iff.mpr htype)
    exact ty_eq_error_of_contains hcontains ((part.ty?_check table).trans (congrArg some hpart))

/-! ## Errors without an entry -/

/-- The expression is the variable, in any number of parentheses. -/
inductive Encloses (name : String) : Expr → Prop where
  | var {info : NodeInfo} : Encloses name (.var info name)
  | parens {info : NodeInfo} {inner : Expr} (hinner : Encloses name inner) :
      Encloses name (.parens info inner)

/-- The verdict on an operator adds an entry whenever it denies a type. -/
theorem entries_append_ne_nil {verdict : Verdict} {text : String} {span : Span}
    {earlier : List Entry} (hok : verdict ≠ .ok .error) (h : verdict.ty = .error) :
    earlier ++ verdict.entries text span ≠ [] := by
  cases verdict with
  | ok ty => exact absurd (congrArg Except.ok h) hok
  | error violation => exact List.append_ne_nil_of_right_ne_nil _ (List.cons_ne_nil _ _)

/-- The only error that is not reported is a poisoned variable, alone or in parentheses. -/
theorem silent_error_iff {table : SymbolTable} {expr : Expr} (h : (expr.check table).ty = .error) :
    (expr.check table).entries = [] ↔
      ∃ name, table.lookup name = some .error ∧ expr.Encloses name := by
  induction expr with
  | int | bool | str => cases h
  | var info name =>
    have hentries : ((var info name).check table).entries
        = (Verdict.ofVariable name (table.lookup name)).entries name info.span := rfl
    rw [hentries]
    cases rootCause_check_var h with
    | undeclared hname =>
      rw [hname]
      refine ⟨fun hsilent => absurd hsilent (List.cons_ne_nil _ _), ?_⟩
      rintro ⟨other, hother, henclosed⟩
      cases henclosed
      exact nomatch hname.symm.trans hother
    | poisoned hname =>
      rw [hname]
      exact ⟨fun _ => ⟨name, hname, .var⟩, fun _ => rfl⟩
  | unary info op operand ih =>
    refine ⟨fun hsilent => absurd hsilent (entries_append_ne_nil (fun hok => ?_) h), ?_⟩
    · exact UnaryOp.resultTy?_ne_error (Verdict.ofUnary_eq_ok_iff.mp hok) rfl
    · rintro ⟨name, -, henclosed⟩
      cases henclosed
  | binary info op left right ihl ihr =>
    refine ⟨fun hsilent => absurd hsilent (entries_append_ne_nil (fun hok => ?_) h), ?_⟩
    · exact BinaryOp.resultTy?_ne_error (Verdict.ofBinary_eq_ok_iff.mp hok) rfl
    · rintro ⟨name, -, henclosed⟩
      cases henclosed
  | parens info inner ih =>
    have hsilent : ((parens info inner).check table).entries = (inner.check table).entries :=
      List.append_nil _
    rw [hsilent, ih h]
    refine exists_congr fun name => and_congr_right fun _ => ⟨.parens, fun henclosed => ?_⟩
    cases henclosed with
    | parens hinner => exact hinner

/-! ## The check against the judgement -/

/-- **The check of an expression decides the judgement, and tells where it fails.** The check finds
a type other than `Ty.error` exactly if the judgement gives the expression this type. It then adds
no entry, and no node is typed `Ty.error`. Otherwise the expression contains a root cause, every
node that contains an error is an error itself, and there is no entry only if the expression is a
poisoned variable in any number of parentheses. -/
theorem check_judges (table : SymbolTable) (expr : Expr) :
    (∀ ty, (expr.check table).ty = ty ∧ ty ≠ .error ↔ HasType table.env expr ty)
      ∧ ((expr.check table).ty ≠ .error →
        (expr.check table).entries = []
          ∧ ∀ node, (Tree.expr (expr.check table).expr).Contains node → node.ty? ≠ some .error)
      ∧ ((expr.check table).ty = .error ↔
        ∃ cause, (Tree.expr (expr.check table).expr).Contains (.expr cause)
          ∧ cause.RootCause table)
      ∧ (∀ whole, (Tree.expr (expr.check table).expr).Contains (.expr whole) →
        ∀ node, (Tree.expr whole).Contains node → node.ty? = some .error →
          whole.ty? = some .error)
      ∧ ((expr.check table).ty = .error →
        ((expr.check table).entries = [] ↔
          ∃ name, table.lookup name = some .error ∧ expr.Encloses name)) := by
  refine ⟨fun ty => (expr.hasType_iff table ty).symm, fun hty => ?_,
    ty_eq_error_iff_exists_rootCause, fun whole hwhole node hnode => ?_, silent_error_iff⟩
  · have htype : HasType table.env expr (expr.check table).ty :=
      (expr.hasType_iff table _).mpr ⟨rfl, hty⟩
    exact ⟨htype.entries_eq_nil, fun node hnode =>
      htype.noError node (Tree.mem_postorder_iff.mpr hnode)⟩
  · exact ty?_eq_error_of_contains hwhole hnode

/-- The poisoned variable `x`, in parentheses, is an error without an entry. Once it is negated
there is an entry, and the error in the parentheses has reached the root. -/
theorem check_judges_poisoned :
    ((enclose (ofName "x")).check (.ofList [("x", .error)])).ty = .error
      ∧ ((enclose (ofName "x")).check (.ofList [("x", .error)])).entries = []
      ∧ ((applyUnary .neg (enclose (ofName "x"))).check (.ofList [("x", .error)])).entries ≠ []
      ∧ ((applyUnary .neg (enclose (ofName "x"))).check (.ofList [("x", .error)])).expr.ty?
        = some .error := by
  obtain ⟨-, -, -, -, hsilent⟩ := check_judges (.ofList [("x", .error)]) (enclose (ofName "x"))
  obtain ⟨-, -, -, hspread, hsilent'⟩ :=
    check_judges (.ofList [("x", .error)]) (applyUnary .neg (enclose (ofName "x")))
  have herror : ((enclose (ofName "x")).check (.ofList [("x", .error)])).ty = .error := by decide
  refine ⟨herror, (hsilent herror).mpr ⟨"x", by decide, .parens .var⟩, fun hnone => ?_, ?_⟩
  · obtain ⟨name, -, henclosed⟩ := (hsilent' (by decide)).mp hnone
    cases henclosed
  · exact hspread _ (.root (List.mem_singleton.mpr rfl))
      (.expr (.var { ty := some .error } "x")) (Tree.mem_postorder_iff.mp (by decide)) rfl

end Expr

end ScriptTyping
