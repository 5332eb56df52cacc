import Mathlib.Data.List.Forall2
import ScriptTyping.Proofs.Failures

/-!
# Checking against a degraded table

What a table finds for a name can get worse in two ways: the name loses its type, or its
declaration. This module compares the checks of one tree against a table and a worse one. Both walks
read and poison their tables as they go, so the comparison is a simulation: the tables stay related,
and the two annotated trees are related node by node.

* **`Found.Worsens`**, **`SymbolTable.Worsens`**: the order on what is found, and on tables.
* **`Node.Worsens`**: the same node of the two annotated trees. Its type is kept or lost, and its
  flag is not set in the worse tree alone.
* **`Expr.worsens_check`**, **`Stmt.worsens_check`**, **`Decl.worsens_check`**: one check keeps the
  relation.
* **`Tree.check_degrades`**: no node gains a type and no report is lost. Since the log is the list
  of the failing nodes, the second follows from the first.
-/

namespace ScriptTyping

/-! ## The order -/

/-- `Found.Worsens found found'`: a type is better than `Ty.error`, and this is better than no
declaration at all. Different types are not comparable. -/
inductive Found.Worsens : Option Ty → Option Ty → Prop where
  | same (found : Option Ty) : Found.Worsens found found
  | poisoned (ty : Ty) : Found.Worsens (some ty) (some .error)
  | undeclared (found : Option Ty) : Found.Worsens found none

def SymbolTable.Worsens (table table' : SymbolTable) : Prop :=
  ∀ name, Found.Worsens (table.lookup name) (table'.lookup name)

/-- A type is kept or lost. -/
def Ty.Worsens (ty ty' : Ty) : Prop :=
  ty' = ty ∨ ty' = .error

theorem Ty.Worsens.refl (ty : Ty) : ty.Worsens ty := Or.inl rfl

theorem Ty.Worsens.error (ty : Ty) : ty.Worsens .error := Or.inr rfl

/-- A worse table finds no name that the better one does not find. -/
theorem Found.Worsens.exists_some {found : Option Ty} {ty' : Ty}
    (h : Found.Worsens found (some ty')) : ∃ ty, found = some ty := by
  cases h with
  | same => exact ⟨_, rfl⟩
  | poisoned ty => exact ⟨ty, rfl⟩

theorem SymbolTable.Worsens.contains {table table' : SymbolTable} (h : table.Worsens table')
    {name : String} (hname : table'.contains name = true) : table.contains name = true := by
  obtain ⟨ty', hfound'⟩ := Option.isSome_iff_exists.mp hname
  have hfound := h name
  rw [hfound'] at hfound
  obtain ⟨ty, hbetter⟩ := hfound.exists_some
  exact Option.isSome_iff_exists.mpr ⟨ty, hbetter⟩

/-! ## The rules

Every rule is monotone: with worse parts it gives the same type or none. -/

namespace Verdict

/-- It is enough that whatever type the worse verdict grants is granted by the better one. -/
theorem worsens_of_grants {verdict verdict' : Verdict}
    (h : ∀ ty, ty ≠ .error → verdict' = .ok ty → verdict = .ok ty) :
    verdict.ty.Worsens verdict'.ty := by
  by_cases herror : verdict'.ty = .error
  · exact Or.inr herror
  · have hok : verdict' = .ok verdict'.ty := (ty_eq_iff herror).mp rfl
    rw [h _ herror hok]
    exact .refl _

/-- A variable that is found with a worse type, or no longer found, has a worse type. -/
theorem worsens_ofVariable {found found' : Option Ty} (name : String)
    (h : Found.Worsens found found') :
    (ofVariable name found).ty.Worsens (ofVariable name found').ty := by
  cases h with
  | same => exact .refl _
  | poisoned ty => exact .error _
  | undeclared => exact .error _

/-- An operator has no result on `Ty.error`, so a worse operand can only take its result away. -/
theorem worsens_ofUnary {operand operand' : Ty} (op : UnaryOp) (h : operand.Worsens operand') :
    (ofUnary op operand).ty.Worsens (ofUnary op operand').ty := by
  rcases h with rfl | rfl
  · exact .refl _
  · rw [ty_ofUnary_error]
    exact .error _

/-- For a binary operator one worse operand is enough, on either side. -/
theorem worsens_ofBinary {left left' right right' : Ty} (op : BinaryOp)
    (hleft : left.Worsens left') (hright : right.Worsens right') :
    (ofBinary op left right).ty.Worsens (ofBinary op left' right').ty := by
  rcases hleft with rfl | rfl
  · rcases hright with rfl | rfl
    · exact .refl _
    · rw [ty_ofBinary_error_right]
      exact .error _
  · rw [ty_ofBinary_error_left]
    exact .error _

/-- A condition that loses its type is no longer boolean. -/
theorem worsens_ofCondition {ty ty' : Ty} (text text' : String) (h : ty.Worsens ty') :
    (ofCondition text ty).ty.Worsens (ofCondition text' ty').ty := by
  refine worsens_of_grants fun granted _ hok => ?_
  rw [ofCondition_eq_ok_iff] at hok ⊢
  obtain ⟨rfl, hgranted⟩ := hok
  exact ⟨(h.resolve_right nofun).symm, hgranted⟩

/-- A print statement has the type of its operand, and fails with it. -/
theorem worsens_ofPrint {ty ty' : Ty} (text text' : String) (h : ty.Worsens ty') :
    (ofPrint text ty).ty.Worsens (ofPrint text' ty').ty := by
  refine worsens_of_grants fun granted hgranted hok => ?_
  rw [ofPrint_eq_ok_iff] at hok ⊢
  obtain ⟨rfl, -⟩ := hok
  exact ⟨(h.resolve_right hgranted).symm, hgranted⟩

/-- An assignment needs both its name and its value to keep their types. -/
theorem worsens_ofAssign {found found' : Option Ty} {value value' : Ty} (name : String)
    (hfound : Found.Worsens found found') (hvalue : value.Worsens value') :
    (ofAssign name found value).ty.Worsens (ofAssign name found' value').ty := by
  refine worsens_of_grants fun granted hgranted hok => ?_
  rw [ofAssign_eq_ok_iff] at hok ⊢
  obtain ⟨rfl, rfl, -⟩ := hok
  -- neither the variable nor the value lost its type, so both had it before
  have hbetter : found = some value' := by
    cases hfound with
    | same => rfl
    | poisoned => exact absurd rfl hgranted
  exact ⟨hbetter, (hvalue.resolve_right hgranted).symm, hgranted⟩

/-- A declaration gets its type from its token, unless its initialiser has another one. An
initialiser that gets worse cannot make up for the token. -/
theorem worsens_ofDecl {init init' : Option Ty} (name token : String)
    (h : Option.Rel Ty.Worsens init init') :
    (ofDecl name token init).ty.Worsens (ofDecl name token init').ty := by
  refine worsens_of_grants fun granted hgranted hok => ?_
  rw [ofDecl_eq_ok_iff] at hok ⊢
  obtain ⟨htoken, hinit⟩ := hok
  refine ⟨htoken, fun actual hactual => ?_⟩
  cases h with
  | none => cases hactual
  | some hvalue =>
    cases hactual
    obtain rfl := hinit _ rfl
    exact (hvalue.resolve_right hgranted).symm

/-- A rule that grants nothing but types sets no flag that the better verdict does not set. -/
theorem isValid_of_worsens {verdict verdict' : Verdict} (h : verdict.ty.Worsens verdict'.ty)
    (hgrants : verdict' ≠ .ok .error) (hvalid : verdict'.isValid = true) :
    verdict.isValid = true := by
  obtain ⟨ty, rfl⟩ := isValid_iff.mp hvalid
  have hty : ty ≠ .error := fun herror => hgrants (by rw [herror])
  have hbetter : verdict.ty = ty := (h.resolve_right hty).symm
  exact isValid_iff.mpr ⟨ty, (ty_eq_iff hty).mp hbetter⟩

end Verdict

/-! ## Changes of the tables -/

namespace SymbolTable.Worsens

variable {table table' : SymbolTable}

theorem define (h : table.Worsens table') (name : String) {ty ty' : Ty} (hty : ty.Worsens ty') :
    (table.define name ty).Worsens (table'.define name ty') := by
  intro other
  rw [lookup_define, lookup_define]
  by_cases hother : other = name
  · rw [if_pos hother, if_pos hother]
    rcases hty with rfl | rfl
    · exact .same _
    · exact .poisoned _
  · rw [if_neg hother, if_neg hother]
    exact h other

/-- Poisoning a name in the worse table makes it worse still. -/
theorem poison_right (h : table.Worsens table') (name : String) :
    table.Worsens (table'.poison name) := by
  intro other
  rw [lookup_poison]
  by_cases hother : other = name
  · rw [if_pos hother]
    have hfound := h other
    cases hfound' : table'.lookup other with
    | none => exact .undeclared _
    | some ty' =>
      -- a name that the worse table declares is declared in the better one
      rw [hfound'] at hfound
      obtain ⟨ty, hbetter⟩ := hfound.exists_some
      rw [hbetter]
      exact .poisoned ty
  · rw [if_neg hother]
    exact h other

theorem poison (h : table.Worsens table') (name : String) :
    (table.poison name).Worsens (table'.poison name) := by
  intro other
  rw [lookup_poison, lookup_poison]
  by_cases hother : other = name
  · rw [if_pos hother, if_pos hother]
    have hfound := h other
    generalize table.lookup other = found at hfound
    generalize table'.lookup other = found' at hfound
    cases hfound with
    | same => exact .same _
    | poisoned => exact .same _
    | undeclared => exact .undeclared _
  · rw [if_neg hother, if_neg hother]
    exact h other

end SymbolTable.Worsens

/-! ## Nodes of the two annotated trees -/

/-- `node.Worsens node'`: the same node, annotated in a better and in a worse check. -/
structure Node.Worsens (node node' : Node) : Prop where
  erase_eq : node'.erase = node.erase
  ty? : node'.ty? = node.ty? ∨ node'.ty? = some .error
  valid? : node'.valid? = some true → node.valid? = some true

/-- What has to be shown of two annotated nodes to relate them. -/
theorem Node.Worsens.of_ty {node node' : Node} {ty ty' : Ty} (herase : node'.erase = node.erase)
    (hnode : node.ty? = some ty) (hnode' : node'.ty? = some ty') (hty : ty.Worsens ty')
    (hvalid : node'.valid? = some true → node.valid? = some true) : node.Worsens node' := by
  refine ⟨herase, ?_, hvalid⟩
  rw [hnode, hnode', Option.some.injEq, Option.some.injEq]
  exact hty

/-- Related nodes are about the same piece of syntax, so they have the same text. -/
theorem Node.Worsens.text_eq {node node' : Node} (h : node.Worsens node') :
    node'.text = node.text := by
  rw [← Node.text_erase, h.erase_eq, Node.text_erase]

theorem Node.Worsens.span_eq {node node' : Node} (h : node.Worsens node') :
    node'.span = node.span := by
  rw [← Node.span_erase, h.erase_eq, Node.span_erase]

/-! ### Expressions -/

section

variable {table table' : SymbolTable}

/-- **Expressions.** Against a worse table an expression has the same type or `Ty.error`. -/
theorem Expr.ty_worsens (h : table.Worsens table') (expr : Expr) :
    (expr.check table).ty.Worsens (expr.check table').ty := by
  induction expr with
  | int | bool | str => exact .refl _
  | var info name => exact Verdict.worsens_ofVariable name (h name)
  | unary info op operand ih => exact Verdict.worsens_ofUnary op ih
  | binary info op left right ihl ihr => exact Verdict.worsens_ofBinary op ihl ihr
  | parens info inner ih => exact ih

theorem Expr.worsens_root (h : table.Worsens table') (expr : Expr) :
    Node.Worsens (.expr (expr.check table).expr) (.expr (expr.check table').expr) := by
  refine .of_ty ?_ (Expr.ty?_check table expr) (Expr.ty?_check table' expr) (expr.ty_worsens h)
    nofun
  rw [Node.erase, Node.erase, Expr.erase_check, Expr.erase_check]

/-- All nodes of an expression get worse, one by one. -/
theorem Expr.worsens_check (h : table.Worsens table') (expr : Expr) :
    List.Forall₂ Node.Worsens (expr.check table).expr.postorder
      (expr.check table').expr.postorder := by
  have hroot := fun e : Expr => List.Forall₂.cons (e.worsens_root h) .nil
  induction expr with
  | int | bool | str | var => exact hroot _
  | unary info op operand ih =>
    rw [Expr.postorder_check, Expr.postorder_check]
    exact List.rel_append ih (hroot _)
  | binary info op left right ihl ihr =>
    rw [Expr.postorder_check, Expr.postorder_check]
    exact List.rel_append (List.rel_append ihl ihr) (hroot _)
  | parens info inner ih =>
    rw [Expr.postorder_check, Expr.postorder_check]
    exact List.rel_append ih (hroot _)

/-! ### Statements and blocks -/

/-- The node of a statement gets worse if its type does and its flag is not set anew. -/
theorem Stmt.worsens_root (stmt : Stmt) {ty ty' : Ty}
    (hnode : (stmt.check table).node.ty? = some ty)
    (hnode' : (stmt.check table').node.ty? = some ty') (hty : ty.Worsens ty')
    (hvalid : (Node.stmt (stmt.check table').node).valid? = some true →
      (Node.stmt (stmt.check table).node).valid? = some true) :
    List.Forall₂ Node.Worsens [.stmt (stmt.check table).node] [.stmt (stmt.check table').node] := by
  refine .cons (.of_ty ?_ hnode hnode' hty hvalid) .nil
  rw [Node.erase, Node.erase, Stmt.erase_check, Stmt.erase_check]

/-- Only an assignment that the better check refuses can poison a name there, and then the worse
check refuses it too. -/
theorem SymbolTable.Worsens.assign (h : table.Worsens table') (name : String) {valid valid' : Bool}
    (hvalid : valid' = true → valid = true) :
    (if valid then table else table.poison name).Worsens
      (if valid' then table' else table'.poison name) := by
  cases valid' with
  | true =>
    rw [hvalid rfl]
    exact h
  | false =>
    cases valid with
    | true => exact h.poison_right name
    | false => exact h.poison name

/-- What a statement makes of its condition gets worse with the condition. -/
theorem Stmt.condition_worsens (h : table.Worsens table') (condition : Expr) :
    (Verdict.ofCondition (condition.check table).expr.text (condition.check table).ty).ty.Worsens
      (Verdict.ofCondition (condition.check table').expr.text (condition.check table').ty).ty :=
  Verdict.worsens_ofCondition _ _ (condition.ty_worsens h)

mutual

/-- **Statements.** All nodes of a statement get worse, and the tables behind it are related again:
an assignment that fails against the better table fails against the worse one, too. -/
theorem Stmt.worsens_check {table table' : SymbolTable} (h : table.Worsens table') (stmt : Stmt) :
    List.Forall₂ Node.Worsens (stmt.check table).node.postorder (stmt.check table').node.postorder
      ∧ (stmt.check table).table.Worsens (stmt.check table').table := by
  rw [Stmt.postorder_check, Stmt.postorder_check]
  cases stmt with
  | assign info name value valid =>
    have hty := Verdict.worsens_ofAssign name (h name) (value.ty_worsens h)
    have hvalid := Verdict.isValid_of_worsens hty fun hok =>
      (Verdict.ofAssign_eq_ok_iff.mp hok).2.2 rfl
    refine ⟨List.rel_append (value.worsens_check h) (Stmt.worsens_root _ rfl rfl hty ?_),
      h.assign name hvalid⟩
    -- the flag of the node is that of the verdict
    intro hflag
    exact congrArg some (hvalid (Option.some.inj hflag))
  | print info operand =>
    have hty := Verdict.worsens_ofPrint (operand.check table).expr.text
      (operand.check table').expr.text (operand.ty_worsens h)
    exact ⟨List.rel_append (operand.worsens_check h) (Stmt.worsens_root _ rfl rfl hty nofun), h⟩
  | loop info condition body =>
    have hty := Stmt.condition_worsens h condition
    obtain ⟨hbody, hafter⟩ := Block.worsens_check h body
    exact ⟨List.rel_append (List.rel_append (condition.worsens_check h) hbody)
      (Stmt.worsens_root _ rfl rfl hty nofun), hafter⟩
  | ifThen info condition thenBlock =>
    have hty := Stmt.condition_worsens h condition
    obtain ⟨hthen, hafter⟩ := Block.worsens_check h thenBlock
    exact ⟨List.rel_append (List.rel_append (condition.worsens_check h) hthen)
      (Stmt.worsens_root _ rfl rfl hty nofun), hafter⟩
  | ifElse info condition thenBlock elseBlock =>
    have hty := Stmt.condition_worsens h condition
    -- the tables between the two blocks are related by the first block
    obtain ⟨hthen, hmiddle⟩ := Block.worsens_check h thenBlock
    obtain ⟨helse, hafter⟩ := Block.worsens_check hmiddle elseBlock
    exact ⟨List.rel_append
      (List.rel_append (List.rel_append (condition.worsens_check h) hthen) helse)
      (Stmt.worsens_root _ rfl rfl hty nofun), hafter⟩

/-- Blocks hand the related tables from statement to statement. -/
theorem Block.worsens_check {table table' : SymbolTable} (h : table.Worsens table') :
    ∀ block : List Stmt,
      List.Forall₂ Node.Worsens (Block.postorder (Block.check table block).node)
          (Block.postorder (Block.check table' block).node)
        ∧ (Block.check table block).table.Worsens (Block.check table' block).table
  | [] => ⟨.nil, h⟩
  | stmt :: rest => by
    obtain ⟨hstmt, hmiddle⟩ := stmt.worsens_check h
    obtain ⟨hrest, hafter⟩ := Block.worsens_check hmiddle rest
    exact ⟨List.rel_append hstmt hrest, hafter⟩

end

/-! ### Declarations -/

/-- **Declarations.** The tables behind a declaration are related again, since a worse initialiser
makes the declared type worse. -/
theorem Decl.worsens_check (h : table.Worsens table') (decl : Decl) :
    List.Forall₂ Node.Worsens (decl.check table).node.postorder (decl.check table').node.postorder
      ∧ (decl.check table).table.Worsens (decl.check table').table := by
  have hinit : Option.Rel Ty.Worsens ((decl.init.map (Expr.check table)).map Expr.Checked.ty)
      ((decl.init.map (Expr.check table')).map Expr.Checked.ty) := by
    cases decl.init with
    | none => exact .none
    | some init => exact .some (init.ty_worsens h)
  have hparts : List.Forall₂ Node.Worsens (decl.checkedParts table) (decl.checkedParts table') := by
    unfold Decl.checkedParts
    cases decl.init with
    | none => exact .nil
    | some init => exact init.worsens_check h
  have hty := Verdict.worsens_ofDecl decl.name decl.typeToken hinit
  have hvalid := Verdict.isValid_of_worsens hty fun hok =>
    (Ty.ofToken?_eq_some_iff.mp (Verdict.ofDecl_eq_ok_iff.mp hok).1).1 rfl
  rw [Decl.postorder_check, Decl.postorder_check]
  refine ⟨List.rel_append hparts (.cons (.of_ty ?_ rfl rfl hty ?_) .nil), h.define decl.name hty⟩
  · rw [Node.erase, Node.erase, Decl.erase_check, Decl.erase_check]
  · intro hflag
    exact congrArg some (hvalid (Option.some.inj hflag))

end

/-! ## What the two checks report

The failing nodes of a tree depend on the names that are declared when a node is met. Both checks
start with the names of their tables, and declare the same names from there on. -/

section

variable (rel : (String → Bool) → (String → Bool) → Prop)
  (hstep : ∀ declared declared' more : String → Bool, rel declared declared' →
    rel (fun name => declared name || more name) (fun name => declared' name || more name))

/-- Nodes that get worse are met with related sets of declared names. -/
theorem forall₂_visits {nodes nodes' : List Node} {declared declared' : String → Bool}
    (hnodes : List.Forall₂ Node.Worsens nodes nodes') (hrel : rel declared declared') :
    List.Forall₂ (fun visit visit' : Visit =>
        visit.node.Worsens visit'.node ∧ rel visit.declared visit'.declared)
      (nodes.map (Visit.mk declared)) (nodes'.map (Visit.mk declared')) := by
  rw [List.forall₂_map_left_iff, List.forall₂_map_right_iff]
  exact hnodes.imp fun _ _ hnode => ⟨hnode, hrel⟩

include hstep

/-- Declarations also hand the relation between the tables on to what follows them. -/
theorem Decl.forall₂_visits {table table' : SymbolTable} (h : table.Worsens table')
    {declared declared' : String → Bool} (hrel : rel declared declared') (decls : List Decl) :
    List.Forall₂ (fun visit visit' : Visit =>
          visit.node.Worsens visit'.node ∧ rel visit.declared visit'.declared)
        (Decl.visits declared (Decl.checkAll table decls).node)
        (Decl.visits declared' (Decl.checkAll table' decls).node)
      ∧ (Decl.checkAll table decls).table.Worsens (Decl.checkAll table' decls).table := by
  induction decls generalizing table table' declared declared' with
  | nil => exact ⟨.nil, h⟩
  | cons decl rest ih =>
    obtain ⟨hdecl, hmiddle⟩ := decl.worsens_check h
    obtain ⟨hrest, hafter⟩ := ih hmiddle (hstep declared declared' (· == decl.name) hrel)
    exact ⟨List.rel_append (ScriptTyping.forall₂_visits rel hdecl hrel) hrest, hafter⟩

/-- The same for the visits of a whole tree, where declarations add the same names on both sides. -/
theorem Tree.forall₂_visits {table table' : SymbolTable} (h : table.Worsens table')
    {declared declared' : String → Bool} (hrel : rel declared declared') (tree : Tree) :
    List.Forall₂ (fun visit visit' : Visit =>
          visit.node.Worsens visit'.node ∧ rel visit.declared visit'.declared)
        ((tree.check table).node.visits declared) ((tree.check table').node.visits declared')
      ∧ (tree.check table).table.Worsens (tree.check table').table := by
  cases tree with
  | expr e => exact ⟨ScriptTyping.forall₂_visits rel (e.worsens_check h) hrel, h⟩
  | stmt s =>
    obtain ⟨hnodes, hafter⟩ := s.worsens_check h
    exact ⟨ScriptTyping.forall₂_visits rel hnodes hrel, hafter⟩
  | decl d =>
    obtain ⟨hnodes, hafter⟩ := d.worsens_check h
    exact ⟨ScriptTyping.forall₂_visits rel hnodes hrel, hafter⟩
  | block b =>
    obtain ⟨hnodes, hafter⟩ := Block.worsens_check h b
    exact ⟨ScriptTyping.forall₂_visits rel hnodes hrel, hafter⟩
  | script s =>
    obtain ⟨hdecls, hmiddle⟩ := Decl.forall₂_visits rel hstep h hrel s.decls
    obtain ⟨hstmts, hafter⟩ := Block.worsens_check hmiddle s.stmts
    refine ⟨List.rel_append hdecls (ScriptTyping.forall₂_visits rel hstmts ?_), hafter⟩
    -- a check renames nothing, so both annotated scripts declare the names of `s`
    have hdeclared := hstep declared declared' (fun name => s.decls.any (name == ·.name)) hrel
    simpa only [Script.check, Decl.any_name_checkAll] using hdeclared

end

/-- A node that is silent where fewer names are declared is silent where more are. -/
theorem Visit.isSilent_of_declared {declared declared' : String → Bool}
    (hdeclared : ∀ name, declared' name = true → declared name = true) (node : Node)
    (h : Visit.isSilent ⟨declared', node⟩ = true) : Visit.isSilent ⟨declared, node⟩ = true := by
  cases node with
  | expr e =>
    cases e with
    | var info name => exact hdeclared name h
    | parens => rfl
    | int | bool | str | unary | binary => cases h
  | stmt s => cases h
  | decl d => cases h

/-- A node that fails in the better check fails in the worse one. -/
theorem Visit.fails_of_worsens {visit visit' : Visit} (hnode : visit.node.Worsens visit'.node)
    (hdeclared : ∀ name, visit'.declared name = true → visit.declared name = true)
    (h : visit.fails = true) : visit'.fails = true := by
  obtain ⟨declared, node⟩ := visit
  obtain ⟨declared', node'⟩ := visit'
  simp only [Visit.fails, Bool.and_eq_true, beq_iff_eq, Bool.not_eq_true'] at h ⊢
  obtain ⟨hty, hvocal⟩ := h
  refine ⟨?_, ?_⟩
  · rcases hnode.ty? with hsame | hlost
    · rw [hsame, hty]
    · exact hlost
  · -- a node that is silent with fewer names declared is silent with more
    rw [← Bool.not_eq_true, ← Visit.isSilent_erase, hnode.erase_eq, Visit.isSilent_erase]
    intro hsilent
    rw [Visit.isSilent_of_declared hdeclared node hsilent] at hvocal
    cases hvocal

/-- The text and the span of a report do not depend on what is declared. -/
theorem Visit.place_of_worsens {visit visit' : Visit} (hnode : visit.node.Worsens visit'.node) :
    visit.mark?.map Prod.snd = visit'.mark?.map Prod.snd := by
  obtain ⟨declared, node⟩ := visit
  obtain ⟨declared', node'⟩ := visit'
  -- whether there is a category at all is a matter of the kind of node
  have hkind : (Visit.category? ⟨declared, node⟩).isSome
      = (Visit.category? ⟨declared', node'⟩).isSome := by
    rw [← Visit.category?_erase, ← Visit.category?_erase declared', hnode.erase_eq]
    cases node with
    | expr e => cases e <;> rfl
    | stmt s => cases s <;> rfl
    | decl d => rfl
  simp only [Visit.mark?, hnode.text_eq, hnode.span_eq]
  cases hcategory : Visit.category? ⟨declared, node⟩ <;>
    cases hcategory' : Visit.category? ⟨declared', node'⟩ <;>
    simp_all

/-- If both checks know the same names, the category is the same as well. -/
theorem Visit.mark?_of_worsens {visit visit' : Visit} (hnode : visit.node.Worsens visit'.node)
    (hdeclared : visit.declared = visit'.declared) : visit.mark? = visit'.mark? := by
  obtain ⟨declared, node⟩ := visit
  obtain ⟨declared', node'⟩ := visit'
  obtain rfl : declared = declared' := hdeclared
  have hcategory : Visit.category? ⟨declared, node⟩ = Visit.category? ⟨declared, node'⟩ := by
    rw [← Visit.category?_erase, ← hnode.erase_eq, Visit.category?_erase]
  simp only [Visit.mark?, hcategory, hnode.text_eq, hnode.span_eq]

/-- Related visits keep their failures, and with them every view of the reports that does not tell
related visits apart. -/
theorem sublist_failures {γ : Type} (view : Option Mark → γ) {rel : Visit → Visit → Prop}
    {visits visits' : List Visit} (h : List.Forall₂ rel visits visits')
    (hfails : ∀ visit visit', rel visit visit' → visit.fails = true → visit'.fails = true)
    (hview : ∀ visit visit', rel visit visit' → view visit.mark? = view visit'.mark?) :
    ((failures visits).map view).Sublist ((failures visits').map view) := by
  induction h with
  | nil => exact .refl _
  | @cons visit visit' rest rest' hrel _ ih =>
    have hhead : ((failures [visit]).map view).Sublist ((failures [visit']).map view) := by
      rw [failures_singleton, failures_singleton]
      cases hvisit : visit.fails with
      | false => exact List.nil_sublist _
      | true =>
        rw [hfails visit visit' hrel hvisit]
        simp [hview visit visit' hrel]
    have happend := hhead.append ih
    rwa [← List.map_append, ← List.map_append, ← failures_append, ← failures_append] at happend

theorem sublist_of_map_some {α β : Type} {f : α → β} {first second : List α}
    (h : (first.map fun a => some (f a)).Sublist (second.map fun a => some (f a))) :
    (first.map f).Sublist (second.map f) := by
  have hsome := h.filterMap id
  simpa [List.filterMap_map, Function.comp_def] using hsome

/-! ## The simulation -/

section

variable {table table' : SymbolTable}

/-- **Trees.** All nodes get worse and the tables stay related. -/
theorem Tree.worsens_check (h : table.Worsens table') (tree : Tree) :
    List.Forall₂ Node.Worsens (tree.check table).node.postorder (tree.check table').node.postorder
      ∧ (tree.check table).table.Worsens (tree.check table').table := by
  obtain ⟨hvisits, hafter⟩ :=
    Tree.forall₂_visits (fun _ _ => True) (fun _ _ _ _ => trivial) h trivial tree
  refine ⟨?_, hafter⟩
  rw [← Tree.map_node_visits table.contains, ← Tree.map_node_visits table'.contains,
    List.forall₂_map_left_iff, List.forall₂_map_right_iff]
  exact hvisits.imp fun _ _ hvisit => hvisit.1

/-- What is reported against the better table is reported against the worse one, at the same places
and in the same order. -/
theorem Tree.sublist_places (h : table.Worsens table') (tree : Tree) :
    ((tree.check table).entries.map fun entry => (entry.text, entry.span)).Sublist
      ((tree.check table').entries.map fun entry => (entry.text, entry.span)) := by
  -- the better check knows every name that the worse one knows
  have hstep : ∀ declared declared' more : String → Bool,
      (∀ name, declared' name = true → declared name = true) →
        ∀ name, (declared' name || more name) = true → (declared name || more name) = true := by
    intro declared declared' more hdeclared name hname
    rcases Bool.or_eq_true_iff.mp hname with hold | hnew
    · rw [hdeclared name hold, Bool.true_or]
    · rw [hnew, Bool.or_true]
  obtain ⟨hvisits, -⟩ := Tree.forall₂_visits _ hstep h (fun _ hname => h.contains hname) tree
  have hsublist := sublist_failures (Option.map Prod.snd) hvisits
    (fun _ _ hvisit => Visit.fails_of_worsens hvisit.1 hvisit.2)
    (fun _ _ hvisit => Visit.place_of_worsens hvisit.1)
  rw [← Tree.marks_check, ← Tree.marks_check, marks, marks, List.map_map, List.map_map] at hsublist
  exact sublist_of_map_some hsublist

/-- With the same names declared in both tables the categories are the same as well. -/
theorem Tree.sublist_marks (h : table.Worsens table')
    (hnames : ∀ name, table.contains name = table'.contains name) (tree : Tree) :
    ((tree.check table).entries.map Entry.mark).Sublist
      ((tree.check table').entries.map Entry.mark) := by
  have hstep : ∀ declared declared' more : String → Bool, declared = declared' →
      (fun name => declared name || more name) = fun name => declared' name || more name := by
    intro declared declared' more hdeclared
    rw [hdeclared]
  obtain ⟨hvisits, -⟩ := Tree.forall₂_visits _ hstep h (funext hnames) tree
  have hsublist := sublist_failures id hvisits
    (fun _ _ hvisit => Visit.fails_of_worsens hvisit.1 (fun _ hname => hvisit.2 ▸ hname))
    (fun _ _ hvisit => Visit.mark?_of_worsens hvisit.1 hvisit.2)
  rw [← Tree.marks_check, ← Tree.marks_check, List.map_id, List.map_id, marks, marks] at hsublist
  exact sublist_of_map_some hsublist

end

/-- **Degrading the table never removes a report and never improves a type.** Check a tree against a
table and against a worse one. Then every node of the second annotated tree is the node of the
first, with its type kept or replaced by `Ty.error` and its flag set only if it was set before; the
tables that the checks leave behind are related again; and the texts and spans reported first are
among those reported second, in the same order. If both tables know the same names, the categories
agree as well. -/
theorem Tree.check_degrades {table table' : SymbolTable} (h : table.Worsens table') (tree : Tree) :
    List.Forall₂ Node.Worsens (tree.check table).node.postorder (tree.check table').node.postorder
      ∧ (tree.check table).table.Worsens (tree.check table').table
      ∧ ((tree.check table).entries.map fun entry => (entry.text, entry.span)).Sublist
        ((tree.check table').entries.map fun entry => (entry.text, entry.span))
      ∧ ((∀ name, table.contains name = table'.contains name) →
        ((tree.check table).entries.map Entry.mark).Sublist
          ((tree.check table').entries.map Entry.mark)) := by
  obtain ⟨hnodes, hafter⟩ := Tree.worsens_check h tree
  exact ⟨hnodes, hafter, Tree.sublist_places h tree,
    fun hnames => Tree.sublist_marks h hnames tree⟩

/-- An assignment that is in order as long as its variable has a type is reported once the variable
is poisoned. The reports of the statement after it are kept behind the new one. -/
theorem Tree.check_degrades_poisoned :
    (SymbolTable.empty.define "x" .int).Worsens (SymbolTable.empty.define "x" .error)
      ∧ (∀ name, (SymbolTable.empty.define "x" .int).contains name
        = (SymbolTable.empty.define "x" .error).contains name)
      ∧ ((((Tree.block [.assign {} "x" (.ofInt 1) false, .print {} (.var {} "y")]).check
          (SymbolTable.empty.define "x" .int)).entries.map Entry.mark).Sublist
        [(.assignToWrongType, "x = 1", {}), (.undefinedName, "y", {}),
          (.unprintableExpression, "print y", {})]) := by
  have hworse : (SymbolTable.empty.define "x" .int).Worsens (SymbolTable.empty.define "x" .error) :=
    SymbolTable.Worsens.define (fun _ => .same _) "x" (.error .int)
  have hnames : ∀ name, (SymbolTable.empty.define "x" .int).contains name
      = (SymbolTable.empty.define "x" .error).contains name := by
    intro name
    simp only [SymbolTable.contains, SymbolTable.lookup_define]
    split <;> rfl
  have hdegrades := Tree.check_degrades hworse
    (.block [.assign {} "x" (.ofInt 1) false, .print {} (.var {} "y")])
  exact ⟨hworse, hnames, hdegrades.2.2.2 hnames⟩

end ScriptTyping
