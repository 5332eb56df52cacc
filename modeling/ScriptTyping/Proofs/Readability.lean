import ScriptTyping.Proofs.ExprReading

/-!
# Unique readability

Statements are told apart by the word they begin with, and blocks are read statement by statement.
What ends a part is never found by searching for it: a string literal may hold semicolons, braces
and `else`, and a part ends where the reading of its own parts has ended.

* **`Stmt.Lead`**, **`Stmt.lead_append_inj`**: the first word of a statement, and what follows it.
* **`guarded_append_inj`**: the condition and the body that loops and both conditionals have.
* **`Stmt.readable`**, **`Block.readable`**: by induction over the tree, with one lemma for each
  kind of statement.
* **`text_eq_iff_bare_eq`**: canonical trees have the same text exactly if they differ in spans,
  types and flags only.
-/

namespace ScriptTyping

/-! ## Characters of statements and blocks -/

def Stmt.chars (stmt : Stmt) : List Char := stmt.text.toList

def Block.chars (block : List Stmt) : List Char := (Block.innerText block).toList

@[simp] theorem Block.chars_cons (stmt : Stmt) (rest : List Stmt) :
    Block.chars (stmt :: rest) = stmt.chars ++ ';' :: ' ' :: Block.chars rest := by
  simp [Block.chars, Stmt.chars, Block.innerText]

/-- The body in braces, as it stands behind a condition and behind `else`. -/
def bracedChars (block : List Stmt) : List Char := '\x7b' :: ' ' :: (Block.chars block ++ ['\x7d'])

/-- A condition and the body behind it. -/
def guardedChars (condition : Expr) (body : List Stmt) : List Char :=
  condition.chars ++ ' ' :: bracedChars body

/-! ## The first word -/

/-- The ways in which a statement can begin. -/
inductive Stmt.Lead where
  | target (name : String)
  | print
  | loop
  | branch
  deriving DecidableEq, Repr

def Stmt.Lead.word : Stmt.Lead → String
  | target name => name
  | print => "print"
  | loop => "while"
  | branch => "if"

def Stmt.Lead.ofWord (word : String) : Stmt.Lead :=
  if word = "print" then .print
  else if word = "while" then .loop
  else if word = "if" then .branch
  else .target word

def Stmt.lead : Stmt → Stmt.Lead
  | .assign _ name _ _ => .target name
  | .print .. => .print
  | .loop .. => .loop
  | .ifThen .. => .branch
  | .ifElse .. => .branch

/-- What follows the first word and the blank after it. -/
def Stmt.afterLead : Stmt → List Char
  | .assign _ _ value _ => '=' :: ' ' :: value.chars
  | .print _ operand => operand.chars
  | .loop _ condition body => guardedChars condition body
  | .ifThen _ condition thenBlock => guardedChars condition thenBlock
  | .ifElse _ condition thenBlock elseBlock =>
    guardedChars condition thenBlock ++ (" else ".toList ++ bracedChars elseBlock)

/-- Every statement begins with a word and a blank. -/
theorem Stmt.chars_eq_lead (stmt : Stmt) :
    stmt.chars = stmt.lead.word.toList ++ ' ' :: stmt.afterLead := by
  cases stmt <;>
    simp [Stmt.chars, Stmt.text, Stmt.lead, Stmt.Lead.word, Stmt.afterLead, Expr.chars, Block.chars,
      guardedChars, bracedChars]

/-- The first word tells how the statement begins: the target of an assignment is no keyword. -/
theorem Stmt.ofWord_word_lead {stmt : Stmt} (h : stmt.Canonical) :
    Stmt.Lead.ofWord stmt.lead.word = stmt.lead := by
  cases stmt with
  | assign info name value valid =>
    have hname : name ∉ keywords := h.1.2.2
    simp only [keywords, List.mem_cons, not_or] at hname
    simp [Stmt.lead, Stmt.Lead.word, Stmt.Lead.ofWord, hname]
  | print | loop | ifThen | ifElse => rfl

theorem Stmt.isWordChar_of_mem_lead {stmt : Stmt} (h : stmt.Canonical) :
    ∀ c ∈ stmt.lead.word.toList, isWordChar c = true := by
  cases stmt with
  | assign info name value valid => exact h.1.isWordChar_of_mem
  | print => exact isWordChar_of_mem_keyword (by decide : "print" ∈ keywords)
  | loop => exact isWordChar_of_mem_keyword (by decide : "while" ∈ keywords)
  | ifThen | ifElse => exact isWordChar_of_mem_keyword (by decide : "if" ∈ keywords)

/-- Statements that begin the same text begin in the same way, and agree on what follows the first
word. -/
theorem Stmt.lead_append_inj {stmt other : Stmt} {rest rest' : List Char} (h : stmt.Canonical)
    (h' : other.Canonical) (htext : stmt.chars ++ rest = other.chars ++ rest') :
    stmt.lead = other.lead ∧ stmt.afterLead ++ rest = other.afterLead ++ rest' := by
  have hblank : ∀ tail : List Char, Ends isWordChar (' ' :: tail) := fun tail => ends_cons.mpr rfl
  rw [Stmt.chars_eq_lead, Stmt.chars_eq_lead, List.append_assoc, List.append_assoc] at htext
  obtain ⟨hword, hafter⟩ := append_inj_of_ends (Stmt.isWordChar_of_mem_lead h)
    (Stmt.isWordChar_of_mem_lead h') (hblank _) (hblank _) htext
  constructor
  · rw [← Stmt.ofWord_word_lead h, ← Stmt.ofWord_word_lead h', String.toList_inj.mp hword]
  · exact (List.cons.inj hafter).2

/-! ## Readable statements and blocks -/

/-- What may follow a statement: what may follow an expression, less the blank before `else`. -/
abbrev Finishes (rest : List Char) : Prop :=
  Ends (fun c => c == ' ' || (isWordChar c || isOperatorChar c)) rest

theorem Finishes.closes {rest : List Char} (h : Finishes rest) : Closes rest :=
  h.mono fun c hc => by rw [hc, Bool.or_true]

def Stmt.Readable (stmt : Stmt) : Prop :=
  ∀ (other : Stmt) (rest rest' : List Char), other.Canonical → Finishes rest → Finishes rest' →
    stmt.chars ++ rest = other.chars ++ rest' → stmt.bare = other.bare ∧ rest = rest'

/-- A block is read up to its closing brace, whatever follows that. -/
def Block.Readable (block : List Stmt) : Prop :=
  ∀ (other : List Stmt) (rest rest' : List Char), Block.Canonical other →
    Block.chars block ++ '\x7d' :: rest = Block.chars other ++ '\x7d' :: rest' →
    Block.bare block = Block.bare other ∧ rest = rest'

/-- A readable block in braces is read off the text that it begins. -/
theorem braced_append_inj {block other : List Stmt} {rest rest' : List Char}
    (hread : Block.Readable block) (h' : Block.Canonical other)
    (htext : bracedChars block ++ rest = bracedChars other ++ rest') :
    Block.bare block = Block.bare other ∧ rest = rest' := by
  simp only [bracedChars, List.cons_append, List.append_assoc, List.nil_append, List.cons.injEq,
    true_and] at htext
  exact hread other rest rest' h' htext

/-- A condition and the block behind it are read off the text that they begin. -/
theorem guarded_append_inj {condition condition' : Expr} {body body' : List Stmt}
    {rest rest' : List Char} (h : condition.Canonical) (hread : Block.Readable body)
    (h' : condition'.Canonical) (hbody' : Block.Canonical body')
    (htext : guardedChars condition body ++ rest = guardedChars condition' body' ++ rest') :
    condition.bare = condition'.bare ∧ Block.bare body = Block.bare body' ∧ rest = rest' := by
  have hblank : ∀ tail : List Char, Closes (' ' :: tail) := fun tail => ends_cons.mpr rfl
  simp only [guardedChars, List.append_assoc, List.cons_append] at htext
  obtain ⟨hcondition, htext⟩ := Expr.reads h h' (hblank _) (hblank _) htext
  exact ⟨hcondition, braced_append_inj hread hbody' (List.cons.inj htext).2⟩

/-- The value is read up to what follows the statement. -/
theorem Stmt.readable_assign {info : NodeInfo} {name : String} {value : Expr} {valid : Bool}
    (h : (Stmt.assign info name value valid).Canonical) :
    (Stmt.assign info name value valid).Readable := by
  intro other rest rest' h' hrest hrest' htext
  obtain ⟨hlead, hafter⟩ := Stmt.lead_append_inj h h' htext
  cases other with
  | assign info' name' value' valid' =>
    obtain rfl : name = name' := Stmt.Lead.target.inj hlead
    simp only [Stmt.afterLead, List.cons_append, List.cons.injEq, true_and] at hafter
    obtain ⟨hvalue, hsame⟩ := Expr.reads h.2 h'.2 hrest.closes hrest'.closes hafter
    exact ⟨by rw [Stmt.bare, Stmt.bare, hvalue], hsame⟩
  | print | loop | ifThen | ifElse => cases hlead

theorem Stmt.readable_print {info : NodeInfo} {operand : Expr}
    (h : (Stmt.print info operand).Canonical) : (Stmt.print info operand).Readable := by
  intro other rest rest' h' hrest hrest' htext
  obtain ⟨hlead, hafter⟩ := Stmt.lead_append_inj h h' htext
  cases other with
  | print info' operand' =>
    obtain ⟨hoperand, hsame⟩ := Expr.reads h h' hrest.closes hrest'.closes hafter
    exact ⟨by rw [Stmt.bare, Stmt.bare, hoperand], hsame⟩
  | assign | loop | ifThen | ifElse => cases hlead

theorem Stmt.readable_loop {info : NodeInfo} {condition : Expr} {body : List Stmt}
    (h : (Stmt.loop info condition body).Canonical) (hbody : Block.Readable body) :
    (Stmt.loop info condition body).Readable := by
  intro other rest rest' h' hrest hrest' htext
  obtain ⟨hlead, hafter⟩ := Stmt.lead_append_inj h h' htext
  cases other with
  | loop info' condition' body' =>
    obtain ⟨hcondition, hsameBody, hsame⟩ := guarded_append_inj h.1 hbody h'.1 h'.2 hafter
    exact ⟨by rw [Stmt.bare, Stmt.bare, hcondition, hsameBody], hsame⟩
  | assign | print | ifThen | ifElse => cases hlead

/-- Where `else` follows, the conditional is not over. -/
theorem not_finishes_else (tail : List Char) : ¬ Finishes (" else ".toList ++ tail) := by
  intro h
  cases ends_cons.mp h

/-- No conditional with two branches is taken for this one, since no `else` may follow. -/
theorem Stmt.readable_ifThen {info : NodeInfo} {condition : Expr} {thenBlock : List Stmt}
    (h : (Stmt.ifThen info condition thenBlock).Canonical) (hthen : Block.Readable thenBlock) :
    (Stmt.ifThen info condition thenBlock).Readable := by
  intro other rest rest' h' hrest hrest' htext
  obtain ⟨hlead, hafter⟩ := Stmt.lead_append_inj h h' htext
  cases other with
  | ifThen info' condition' thenBlock' =>
    obtain ⟨hcondition, hsameThen, hsame⟩ := guarded_append_inj h.1 hthen h'.1 h'.2 hafter
    exact ⟨by rw [Stmt.bare, Stmt.bare, hcondition, hsameThen], hsame⟩
  | ifElse info' condition' thenBlock' elseBlock' =>
    -- what follows the first body would have to begin with ` else `
    simp only [Stmt.afterLead, List.append_assoc] at hafter
    obtain ⟨-, -, hsame⟩ := guarded_append_inj h.1 hthen h'.1 h'.2.1 hafter
    exact absurd (hsame ▸ hrest) (not_finishes_else _)
  | assign | print | loop => cases hlead

/-- The `else` behind the first branch rules out the conditional with one branch. -/
theorem Stmt.readable_ifElse {info : NodeInfo} {condition : Expr} {thenBlock elseBlock : List Stmt}
    (h : (Stmt.ifElse info condition thenBlock elseBlock).Canonical)
    (hthen : Block.Readable thenBlock) (helse : Block.Readable elseBlock) :
    (Stmt.ifElse info condition thenBlock elseBlock).Readable := by
  intro other rest rest' h' hrest hrest' htext
  obtain ⟨hlead, hafter⟩ := Stmt.lead_append_inj h h' htext
  cases other with
  | ifThen info' condition' thenBlock' =>
    simp only [Stmt.afterLead, List.append_assoc] at hafter
    obtain ⟨-, -, hsame⟩ := guarded_append_inj h.1 hthen h'.1 h'.2 hafter
    exact absurd (hsame ▸ hrest') (not_finishes_else _)
  | ifElse info' condition' thenBlock' elseBlock' =>
    simp only [Stmt.afterLead, List.append_assoc] at hafter
    obtain ⟨hcondition, hsameThen, hafter⟩ := guarded_append_inj h.1 hthen h'.1 h'.2.1 hafter
    obtain ⟨hsameElse, hsame⟩ :=
      braced_append_inj helse h'.2.2 (List.append_cancel_left hafter)
    exact ⟨by rw [Stmt.bare, Stmt.bare, hcondition, hsameThen, hsameElse], hsame⟩
  | assign | print | loop => cases hlead

theorem Stmt.exists_start {stmt : Stmt} (h : stmt.Canonical) :
    ∃ c tail, stmt.lead.word.toList = c :: tail ∧ isWordStart c = true := by
  cases stmt with
  | assign info name value valid => exact h.1.exists_start
  | print => exact ⟨'p', "rint".toList, by simp [Stmt.lead, Stmt.Lead.word], rfl⟩
  | loop => exact ⟨'w', "hile".toList, by simp [Stmt.lead, Stmt.Lead.word], rfl⟩
  | ifThen | ifElse => exact ⟨'i', ['f'], by simp [Stmt.lead, Stmt.Lead.word], rfl⟩

/-- A block that holds a statement does not begin with a brace. -/
theorem Block.chars_cons_ne {stmt : Stmt} {block : List Stmt} {tail rest : List Char}
    (h : stmt.Canonical) : Block.chars (stmt :: block) ++ tail ≠ '\x7d' :: rest := by
  obtain ⟨c, more, hword, hstart⟩ := Stmt.exists_start h
  rw [Block.chars_cons, Stmt.chars_eq_lead, hword]
  intro heq
  rw [(List.cons.inj heq).1] at hstart
  cases hstart

/-- The empty block ends right away, and no statement begins with a closing brace. -/
theorem Block.readable_nil : Block.Readable [] := by
  intro other rest rest' h' htext
  cases other with
  | nil => exact ⟨rfl, (List.cons.inj htext).2⟩
  | cons stmt' block' => exact absurd htext.symm (Block.chars_cons_ne h'.1)

/-- The first statement is read up to its semicolon, and then the rest of the block. -/
theorem Block.readable_cons {stmt : Stmt} {block : List Stmt} (h : stmt.Canonical)
    (hstmt : stmt.Readable) (hblock : Block.Readable block) : Block.Readable (stmt :: block) := by
  intro other rest rest' h' htext
  cases other with
  | nil => exact absurd htext (Block.chars_cons_ne h)
  | cons stmt' block' =>
    have hsemicolon : ∀ tail : List Char, Finishes (';' :: tail) := fun tail => ends_cons.mpr rfl
    simp only [Block.chars_cons, List.append_assoc, List.cons_append] at htext
    obtain ⟨hsameStmt, htext⟩ :=
      hstmt stmt' _ _ h'.1 (hsemicolon _) (hsemicolon _) htext
    simp only [List.cons.injEq, true_and] at htext
    obtain ⟨hsameBlock, hsame⟩ := hblock block' _ _ h'.2 htext
    exact ⟨by rw [Block.bare, Block.bare, hsameStmt, hsameBlock], hsame⟩

mutual

/-- Every canonical statement is readable, by one case for each kind of statement. -/
theorem Stmt.readable : ∀ {stmt : Stmt}, stmt.Canonical → stmt.Readable
  | .assign .., h => Stmt.readable_assign h
  | .print .., h => Stmt.readable_print h
  | .loop .., h => Stmt.readable_loop h (Block.readable h.2)
  | .ifThen .., h => Stmt.readable_ifThen h (Block.readable h.2)
  | .ifElse .., h => Stmt.readable_ifElse h (Block.readable h.2.1) (Block.readable h.2.2)

theorem Block.readable : ∀ {block : List Stmt}, Block.Canonical block → Block.Readable block
  | [], _ => Block.readable_nil
  | _ :: _, h => Block.readable_cons h.1 (Stmt.readable h.1) (Block.readable h.2)

end

/-! ## Declarations -/

/-- What a declaration says after its type. -/
def initChars : Option Expr → List Char
  | none => []
  | some init => ' ' :: '=' :: ' ' :: init.chars

theorem Decl.toList_text (decl : Decl) :
    decl.text.toList =
      "var ".toList ++ (decl.name.toList ++ ' ' :: ':' :: ' ' ::
        (decl.typeToken.toList ++ initChars decl.init)) := by
  cases hinit : decl.init <;> simp [Decl.text, initChars, hinit, Expr.chars]

theorem stops_initChars (init : Option Expr) : Stops (initChars init) := by
  cases init with
  | none => exact ends_nil _
  | some init => exact ends_cons.mpr rfl

/-- The initialiser of a declaration is read off the end of its text, or found missing there. -/
theorem initChars_inj {init other : Option Expr} (h : ∀ expr ∈ init, expr.Canonical)
    (h' : ∀ expr ∈ other, expr.Canonical) (hchars : initChars init = initChars other) :
    init.map Expr.bare = other.map Expr.bare := by
  cases init with
  | none =>
    cases other with
    | none => rfl
    | some expr' => cases hchars
  | some expr =>
    cases other with
    | none => cases hchars
    | some expr' =>
      simp only [initChars, List.cons.injEq, true_and] at hchars
      have hnil : expr.chars ++ [] = expr'.chars ++ [] := by rw [hchars]
      obtain ⟨hbare, -⟩ := Expr.reads (h expr rfl) (h' expr' rfl) (ends_nil _) (ends_nil _) hnil
      rw [Option.map_some, Option.map_some, hbare]

theorem Decl.bare_eq_of_text_eq {decl other : Decl} (h : decl.Canonical) (h' : other.Canonical)
    (htext : decl.text = other.text) : decl.bare = other.bare := by
  obtain ⟨hname, htype, hinit⟩ := h
  obtain ⟨hname', htype', hinit'⟩ := h'
  have hblank : ∀ tail : List Char, Stops (' ' :: tail) := fun tail => ends_cons.mpr rfl
  have hchars := congrArg String.toList htext
  rw [Decl.toList_text, Decl.toList_text, List.append_cancel_left_eq] at hchars
  obtain ⟨hsameName, hchars⟩ := append_inj_of_ends hname.isWordChar_of_mem
    hname'.isWordChar_of_mem (hblank _) (hblank _) hchars
  simp only [List.cons.injEq, true_and] at hchars
  obtain ⟨hsameType, hchars⟩ := append_inj_of_ends htype.isWordChar_of_mem
    htype'.isWordChar_of_mem (stops_initChars _) (stops_initChars _) hchars
  rw [Decl.bare, Decl.bare, String.toList_inj.mp hsameName, String.toList_inj.mp hsameType,
    initChars_inj hinit hinit' hchars]

/-! ## Texts -/

/-- Canonical expressions with the same text are the same but for annotations and spans. -/
theorem Expr.bare_eq_of_text_eq {expr other : Expr} (h : expr.Canonical) (h' : other.Canonical)
    (htext : expr.text = other.text) : expr.bare = other.bare := by
  have hnil : expr.chars ++ [] = other.chars ++ [] := by rw [Expr.chars, htext, Expr.chars]
  exact (Expr.reads h h' (ends_nil _) (ends_nil _) hnil).1

/-- Canonical statements with the same text are the same but for annotations and spans. -/
theorem Stmt.bare_eq_of_text_eq {stmt other : Stmt} (h : stmt.Canonical) (h' : other.Canonical)
    (htext : stmt.text = other.text) : stmt.bare = other.bare := by
  have hnil : stmt.chars ++ [] = other.chars ++ [] := by rw [Stmt.chars, htext, Stmt.chars]
  exact (Stmt.readable h other [] [] h' (ends_nil _) (ends_nil _) hnil).1

theorem Block.bare_eq_of_text_eq {block other : Block} (h : Block.Canonical block)
    (h' : Block.Canonical other) (htext : Block.text block = Block.text other) :
    Block.bare block = Block.bare other := by
  have hchars := congrArg String.toList htext
  simp only [Block.text, String.toList_append, List.append_assoc, List.append_cancel_left_eq]
    at hchars
  exact (Block.readable h other [] [] h' hchars).1

/-- The text of a canonical tree tells the tree, up to what no text shows. -/
theorem text_eq_iff_bare_eq :
    (∀ expr other : Expr, expr.Canonical → other.Canonical →
      (expr.text = other.text ↔ expr.bare = other.bare))
    ∧ (∀ stmt other : Stmt, stmt.Canonical → other.Canonical →
      (stmt.text = other.text ↔ stmt.bare = other.bare))
    ∧ (∀ block other : Block, Block.Canonical block → Block.Canonical other →
      (Block.text block = Block.text other ↔ Block.bare block = Block.bare other))
    ∧ (∀ decl other : Decl, decl.Canonical → other.Canonical →
      (decl.text = other.text ↔ decl.bare = other.bare)) := by
  refine ⟨?_, ?_, ?_, ?_⟩
  · intro expr other h h'
    refine ⟨Expr.bare_eq_of_text_eq h h', fun hbare => ?_⟩
    rw [← Expr.text_bare, hbare, Expr.text_bare]
  · intro stmt other h h'
    refine ⟨Stmt.bare_eq_of_text_eq h h', fun hbare => ?_⟩
    rw [← Stmt.text_bare, hbare, Stmt.text_bare]
  · intro block other h h'
    refine ⟨Block.bare_eq_of_text_eq h h', fun hbare => ?_⟩
    rw [← Block.text_bare, hbare, Block.text_bare]
  · intro decl other h h'
    refine ⟨Decl.bare_eq_of_text_eq h h', fun hbare => ?_⟩
    rw [← Decl.text_bare, hbare, Decl.text_bare]

/-- The expression `1--2<=n`. -/
def knottyExpr (info : NodeInfo) : Expr :=
  .binary info .le
    (.binary info .sub (.int info 1) (.unary info .neg (.int info 2)))
    (.var info "n")

/-- A conditional whose first body prints a closing brace, `else` and an opening brace. -/
def knottyStmt (info : NodeInfo) (valid : Bool) : Stmt :=
  .ifElse info (knottyExpr info)
    [.print info (.str info "\"; \x7d else \x7b \"")]
    [.assign info "n" (knottyExpr info) valid]

/-- The expression and the statement are read back in spite of a double minus sign and of braces and
`else` inside a string. -/
theorem text_eq_iff_bare_eq_knotty :
    ((knottyExpr {}).Canonical ∧ (knottyExpr { ty := some .bool }).Canonical
        ∧ (knottyExpr {}).bare = (knottyExpr { ty := some .bool }).bare)
      ∧ ((Stmt.ifThen {} (knottyExpr {}) []).Canonical
        ∧ (Stmt.ifElse {} (knottyExpr {}) [] []).Canonical
        ∧ (Stmt.ifThen {} (knottyExpr {}) []).text ≠ (Stmt.ifElse {} (knottyExpr {}) [] []).text)
      ∧ (Block.Canonical [knottyStmt {} false]
        ∧ Block.Canonical [knottyStmt { ty := some .error } true]
        ∧ Block.bare [knottyStmt {} false] = Block.bare [knottyStmt { ty := some .error } true])
      ∧ (Decl.Canonical ⟨{}, "n", "Int", some (knottyExpr {}), false⟩
        ∧ Decl.Canonical ⟨{}, "n", "Int", none, true⟩
        ∧ Decl.text ⟨{}, "n", "Int", some (knottyExpr {}), false⟩
          ≠ Decl.text ⟨{}, "n", "Int", none, true⟩) := by
  obtain ⟨hexpr, hstmt, hblock, hdecl⟩ := text_eq_iff_bare_eq
  refine ⟨⟨by decide, by decide, ?_⟩, ⟨by decide, by decide, ?_⟩, ⟨by decide, by decide, ?_⟩,
    by decide, by decide, ?_⟩
  · exact (hexpr _ _ (by decide) (by decide)).mp (by decide)
  · exact (hstmt _ _ (by decide) (by decide)).not.mpr (by decide)
  · exact (hblock _ _ (by decide) (by decide)).mp (by decide)
  · exact (hdecl _ _ (by decide) (by decide)).not.mpr (by decide)

end ScriptTyping
