import ScriptTyping.Proofs.DocumentOrder
import ScriptTyping.Proofs.Reannotation
import ScriptTyping.Proofs.Replay
import ScriptTyping.Proofs.Resolution

/-!
# Output line by line

The log and the outline of a script are written with one line for each entry and one for each node.
They can be read back line by line as long as no entry and no node breaks its line, and a line can
only be broken by what the script brings along: its names, type tokens and string literals.

* **`OneLine`**: a text without newlines. **`linesOf`**: the lines of a text. **`linesOf_join`**:
  lines are read back as they were written, if none of them was broken.
* **`Node.words`**: the words that a node brings along. **`Node.oneLine_text`**: a node is on one
  line if its words and the nodes directly below it are; **`Tree.oneLine_text`** follows for all
  nodes.
* **`Violation.quotes`**, **`Node.mem_quotes_of_verdict`**: what a message quotes are words of the
  node that it is about, or texts of nodes below it. **`Step.oneLine_entries`**: so closing a node
  reports on one line, and a whole check does (**`Tree.oneLine_entries`**).
* **`Log.linesOf_text`**, **`Tree.linesOf_outline_in_order`**: the lines of a log are its entries,
  and the lines of an outline are the nodes in document order.
-/

namespace ScriptTyping

/-! ## Lines of a text -/

/-- A text without newlines. -/
def OneLine (text : String) : Prop := '\n' ∉ text.toList

instance (text : String) : Decidable (OneLine text) :=
  inferInstanceAs (Decidable (¬ _))

/-- Fixed texts are on one line, as a look at their characters tells. -/
theorem OneLine.ofList {chars : List Char} (h : chars.contains '\n' = false) :
    OneLine (String.ofList chars) := by
  unfold OneLine
  rw [String.toList_ofList, ← List.contains_iff_mem, h]
  exact Bool.false_ne_true

theorem OneLine.append {left right : String} (hleft : OneLine left) (hright : OneLine right) :
    OneLine (left ++ right) := by
  unfold OneLine
  rw [String.toList_append, List.mem_append, not_or]
  exact ⟨hleft, hright⟩

/-- The digits of a number are no newlines. -/
theorem oneLine_repr (n : Nat) : OneLine n.repr := by
  intro hmem
  rw [Nat.toList_repr] at hmem
  have hdigit := Nat.isDigit_of_mem_toDigits (by decide) (by decide) hmem
  exact absurd hdigit (by decide)

theorem oneLine_toString (value : Int) : OneLine (toString value) := by
  cases value with
  | ofNat n => exact oneLine_repr n
  | negSucc n => exact .append (.ofList rfl) (oneLine_repr (n + 1))

/-- The lines of a text. Each newline ends a line, so that nothing behind the last newline is no
line. -/
def linesOf (text : String) : List String :=
  let pieces := text.toList.splitOn '\n'
  (if pieces.getLast? = some [] then pieces.dropLast else pieces).map String.ofList

/-- Lines that are joined by newlines are found again by splitting at the newlines. -/
theorem splitOn_join {lines : List String} (h : ∀ line ∈ lines, OneLine line) :
    (String.join (lines.map (· ++ "\n"))).toList.splitOn '\n'
      = lines.map String.toList ++ [[]] := by
  induction lines with
  | nil => rfl
  | cons line rest ih =>
    obtain ⟨hline, hrest⟩ := List.forall_mem_cons.mp h
    have hfirst : (String.join ((line :: rest).map (· ++ "\n"))).toList
        = line.toList ++ '\n' :: (String.join (rest.map (· ++ "\n"))).toList := by
      rw [List.map_cons, String.join_cons, String.toList_append, String.toList_append,
        List.append_assoc]
      rfl
    rw [hfirst, List.splitOn_append_cons_self_of_not_mem hline, ih hrest]
    rfl

/-- Lines that are written one after the other, each with a newline behind it, are read back. -/
theorem linesOf_join {lines : List String} (h : ∀ line ∈ lines, OneLine line) :
    linesOf (String.join (lines.map (· ++ "\n"))) = lines := by
  have hback : ∀ line ∈ lines, String.ofList line.toList = line := fun _ _ => String.ofList_toList
  unfold linesOf
  rw [splitOn_join h]
  -- behind the last newline there is an empty piece, which is dropped
  show (if (lines.map String.toList ++ [[]]).getLast? = some [] then
    (lines.map String.toList ++ [[]]).dropLast else _).map String.ofList = lines
  rw [if_pos List.getLast?_concat, List.dropLast_concat, List.map_map]
  exact (List.map_congr_left hback).trans (List.map_id _)

example : linesOf "a\n\nb\n" = ["a", "", "b"] ∧ linesOf "a\nb" = ["a", "b"] ∧ linesOf "" = [] := by
  decide

/-! ## Nodes on one line -/

/-- The words that a node itself brings into its text: names, type tokens and string literals. -/
def Node.words : Node → List String
  | .expr (.str _ lexeme) => [lexeme]
  | .expr (.var _ name) => [name]
  | .expr (.int ..) | .expr (.bool ..) | .expr (.unary ..) | .expr (.binary ..)
  | .expr (.parens ..) => []
  | .stmt (.assign _ name _ _) => [name]
  | .stmt (.print ..) | .stmt (.loop ..) | .stmt (.ifThen ..) | .stmt (.ifElse ..) => []
  | .decl d => [d.name, d.typeToken]

theorem Node.words_erase (node : Node) : node.erase.words = node.words := by
  cases node with
  | expr e => cases e <;> rfl
  | stmt s => cases s <;> rfl
  | decl d => rfl

theorem UnaryOp.oneLine_symbol (op : UnaryOp) : OneLine op.symbol := by
  cases op <;> exact .ofList rfl

theorem BinaryOp.oneLine_symbol (op : BinaryOp) : OneLine op.symbol := by
  cases op <;> exact .ofList rfl

theorem Ty.oneLine_name (ty : Ty) : OneLine ty.name := by
  cases ty <;> exact .ofList rfl

theorem Category.oneLine_name (category : Category) : OneLine category.name := by
  cases category <;> exact .ofList rfl

theorem Block.oneLine_innerText {block : List Stmt} (h : ∀ stmt ∈ block, OneLine stmt.text) :
    OneLine (Block.innerText block) := by
  induction block with
  | nil => exact .ofList rfl
  | cons stmt rest ih =>
    obtain ⟨hstmt, hrest⟩ := List.forall_mem_cons.mp h
    unfold Block.innerText
    exact .append (.append hstmt (.ofList rfl)) (ih hrest)

/-- **One step.** Between its words and the nodes directly below it a node has no newlines. -/
theorem Node.oneLine_text {node : Node} (hwords : ∀ word ∈ node.words, OneLine word)
    (hchildren : ∀ child ∈ node.children, OneLine child.text) : OneLine node.text := by
  cases node with
  | expr e =>
    cases e with
    | int info value => exact oneLine_toString value
    | bool info value =>
      show OneLine (if value then "true" else "false")
      cases value <;> exact .ofList rfl
    | str info lexeme => exact hwords lexeme List.mem_cons_self
    | var info name => exact hwords name List.mem_cons_self
    | unary info op operand =>
      have hoperand : OneLine operand.text := hchildren (.expr operand) List.mem_cons_self
      exact .append op.oneLine_symbol hoperand
    | binary info op left right =>
      have hleft : OneLine left.text := hchildren (.expr left) List.mem_cons_self
      have hright : OneLine right.text :=
        hchildren (.expr right) (List.mem_cons_of_mem _ List.mem_cons_self)
      exact .append (.append hleft op.oneLine_symbol) hright
    | parens info inner =>
      have hinner : OneLine inner.text := hchildren (.expr inner) List.mem_cons_self
      exact .append (.append (.ofList rfl) hinner) (.ofList rfl)
  | stmt s =>
    cases s with
    | assign info name value valid =>
      have hname : OneLine name := hwords name List.mem_cons_self
      have hvalue : OneLine value.text := hchildren (.expr value) List.mem_cons_self
      exact .append (.append hname (.ofList rfl)) hvalue
    | print info operand =>
      have hoperand : OneLine operand.text := hchildren (.expr operand) List.mem_cons_self
      exact .append (.ofList rfl) hoperand
    | loop info condition body =>
      obtain ⟨hcondition, hbody⟩ := List.forall_mem_cons.mp hchildren
      have hinner := Block.oneLine_innerText fun stmt hstmt =>
        hbody (.stmt stmt) (List.mem_map_of_mem hstmt)
      unfold Node.text Stmt.text
      exact .append (.append (.append (.append (.ofList rfl) hcondition) (.ofList rfl)) hinner)
        (.ofList rfl)
    | ifThen info condition thenBlock =>
      obtain ⟨hcondition, hthen⟩ := List.forall_mem_cons.mp hchildren
      have hinner := Block.oneLine_innerText fun stmt hstmt =>
        hthen (.stmt stmt) (List.mem_map_of_mem hstmt)
      unfold Node.text Stmt.text
      exact .append (.append (.append (.append (.ofList rfl) hcondition) (.ofList rfl)) hinner)
        (.ofList rfl)
    | ifElse info condition thenBlock elseBlock =>
      obtain ⟨hcondition, hblocks⟩ := List.forall_mem_cons.mp hchildren
      obtain ⟨hthen, helse⟩ := List.forall_mem_append.mp hblocks
      have hinner := Block.oneLine_innerText fun stmt hstmt =>
        hthen (.stmt stmt) (List.mem_map_of_mem hstmt)
      have hinner' := Block.oneLine_innerText fun stmt hstmt =>
        helse (.stmt stmt) (List.mem_map_of_mem hstmt)
      unfold Node.text Stmt.text
      exact .append (.append (.append (.append (.append (.append (.ofList rfl) hcondition)
        (.ofList rfl)) hinner) (.ofList rfl)) hinner') (.ofList rfl)
  | decl d =>
    obtain ⟨hname, hwords⟩ := List.forall_mem_cons.mp hwords
    have htoken : OneLine d.typeToken := hwords d.typeToken List.mem_cons_self
    unfold Node.text Decl.text
    refine .append (.append (.append (.append (.ofList rfl) hname) (.ofList rfl)) htoken) ?_
    cases hinit : d.init with
    | none => exact .ofList rfl
    | some init =>
      have hmem : Node.expr init ∈ (Node.decl d).children :=
        List.mem_map_of_mem (Option.mem_toList.mpr hinit)
      exact .append (.ofList rfl) (hchildren _ hmem)

/-- If no word of a tree has a newline, every node is written on one line. -/
theorem Tree.oneLine_text {tree : Tree}
    (h : ∀ node, tree.Contains node → ∀ word ∈ node.words, OneLine word) (node : Node) :
    tree.Contains node → OneLine node.text := by
  induction node using Node.childInduction with
  | step node ih =>
    -- the children are in the tree as well, so that their words are on one line too
    intro hnode
    exact Node.oneLine_text (h node hnode) fun child hchild => ih child hchild (.child hnode hchild)

/-! ## Messages on one line -/

/-- What the message of a violation quotes from the script. -/
def Violation.quotes : Violation → List String
  | undeclared name => [name]
  | unaryOperand .. => []
  | binaryOperands .. => []
  | unknownType token name => [token, name]
  | initialiser name .. => [name]
  | assignUndeclared name => [name]
  | assignPoisoned name => [name]
  | assignMismatch name .. => [name]
  | condition text _ => [text]
  | unprintable text => [text]

/-- A message is written on one line if what it quotes is. -/
theorem Violation.oneLine_message {violation : Violation}
    (h : ∀ quote ∈ violation.quotes, OneLine quote) : OneLine violation.message := by
  cases violation with
  | undeclared name | assignUndeclared name | assignPoisoned name =>
    have hname : OneLine name := h name List.mem_cons_self
    exact .append (.append (.ofList rfl) hname) (.ofList rfl)
  | unaryOperand op operand =>
    exact .append (.append (.append (.ofList rfl) op.oneLine_symbol) (.ofList rfl))
      operand.oneLine_name
  | binaryOperands op left right =>
    exact .append (.append (.append (.append (.append (.ofList rfl) op.oneLine_symbol)
      (.ofList rfl)) left.oneLine_name) (.ofList rfl)) right.oneLine_name
  | unknownType token name =>
    have htoken : OneLine token := h token List.mem_cons_self
    have hname : OneLine name := h name (List.mem_cons_of_mem _ List.mem_cons_self)
    exact .append (.append (.append (.append (.ofList rfl) htoken) (.ofList rfl)) hname)
      (.ofList rfl)
  | initialiser name expected actual | assignMismatch name expected actual =>
    have hname : OneLine name := h name List.mem_cons_self
    exact .append (.append (.append (.append (.append (.ofList rfl) hname) (.ofList rfl))
      expected.oneLine_name) (.ofList rfl)) actual.oneLine_name
  | condition text ty =>
    have htext : OneLine text := h text List.mem_cons_self
    exact .append (.append (.append (.append (.ofList rfl) htext) (.ofList rfl)) ty.oneLine_name)
      (.ofList rfl)
  | unprintable text =>
    have htext : OneLine text := h text List.mem_cons_self
    exact .append (.ofList rfl) htext

/-- A message quotes the words of the node that it is about, and the texts of the nodes below it. -/
theorem Node.mem_quotes_of_verdict {node : Node} {table : SymbolTable} {violation : Violation}
    (h : node.verdict table = .error violation) : ∀ quote ∈ violation.quotes,
      quote ∈ node.words ∨ ∃ child ∈ node.children, quote = child.text := by
  intro quote hquote
  cases node with
  | expr e =>
    cases e with
    | int | bool | str | parens => exact absurd h nofun
    | var info name =>
      have hviolation : Verdict.ofVariable name (table.lookup name) = .error violation := h
      unfold Verdict.ofVariable at hviolation
      split at hviolation <;> cases hviolation
      exact Or.inl hquote
    | unary info op operand =>
      rw [Verdict.violation_of_ofUnary h] at hquote
      cases hquote
    | binary info op left right =>
      rw [Verdict.violation_of_ofBinary h] at hquote
      cases hquote
  | stmt s =>
    cases s with
    | assign info name value valid =>
      refine Or.inl ?_
      rcases Verdict.ofAssign_cases name (table.lookup name) value.recordedTy with
        ⟨-, hcase⟩ | ⟨-, hcase⟩ | ⟨ty, -, -, -, hcase⟩ | ⟨ty, -, -, -, hcase⟩ <;>
        cases hcase.symm.trans h
      · exact hquote
      · exact hquote
      · exact hquote
    | print info operand =>
      have hviolation : Verdict.ofPrint operand.text operand.recordedTy = .error violation := h
      unfold Verdict.ofPrint at hviolation
      split at hviolation <;> cases hviolation
      exact Or.inr ⟨.expr operand, List.mem_cons_self, List.mem_singleton.mp hquote⟩
    | loop info condition body =>
      rw [Verdict.violation_of_ofCondition h] at hquote
      exact Or.inr ⟨.expr condition, List.mem_cons_self, List.mem_singleton.mp hquote⟩
    | ifThen info condition thenBlock =>
      rw [Verdict.violation_of_ofCondition h] at hquote
      exact Or.inr ⟨.expr condition, List.mem_cons_self, List.mem_singleton.mp hquote⟩
    | ifElse info condition thenBlock elseBlock =>
      rw [Verdict.violation_of_ofCondition h] at hquote
      exact Or.inr ⟨.expr condition, List.mem_cons_self, List.mem_singleton.mp hquote⟩
  | decl d =>
    refine Or.inl ?_
    have hviolation : Verdict.ofDecl d.name d.typeToken (d.init.map Expr.recordedTy)
        = .error violation := h
    unfold Verdict.ofDecl at hviolation
    split at hviolation
    · cases hviolation
      -- an unknown type is quoted in front of the name, which is the other way round in the node
      simpa [Violation.quotes, Node.words, or_comm] using hquote
    · cases hviolation
    · split at hviolation <;> cases hviolation
      rw [List.mem_singleton.mp hquote]
      exact List.mem_cons_self

/-- **One step.** What closing a node reports is on one line, if the words of the node and the nodes
below it are. -/
theorem Step.oneLine_entries {step : Step} (hwords : ∀ word ∈ step.node.words, OneLine word)
    (hchildren : ∀ child ∈ step.node.children, OneLine child.text) :
    ∀ entry ∈ step.entries, OneLine entry.text ∧ OneLine entry.message := by
  intro entry hentry
  unfold Step.entries at hentry
  cases hverdict : step.verdict with
  | ok ty => simp [hverdict] at hentry
  | error violation =>
    rw [hverdict, Verdict.entries_error, List.mem_singleton] at hentry
    rw [hentry]
    refine ⟨Node.oneLine_text hwords hchildren, Violation.oneLine_message fun quote hquote => ?_⟩
    rcases Node.mem_quotes_of_verdict hverdict quote hquote with hword | ⟨child, hchild, rfl⟩
    · exact hwords quote hword
    · exact hchildren child hchild

/-- **A whole check.** -/
theorem Tree.oneLine_entries (table : SymbolTable) (tree : Tree)
    (h : ∀ node, (tree.check table).node.Contains node → ∀ word ∈ node.words, OneLine word) :
    ∀ entry ∈ (tree.check table).entries, OneLine entry.text ∧ OneLine entry.message := by
  intro entry hentry
  -- each entry was reported when some node of the checked tree was closed
  rw [← (tree.replays_check table).entries_eq, List.mem_flatMap] at hentry
  obtain ⟨step, hstep, hentry⟩ := hentry
  have hnode : (tree.check table).node.Contains step.node := by
    rw [← Tree.mem_postorder_iff, ← map_node_steps table (tree.check table).node.postorder]
    exact List.mem_map_of_mem hstep
  refine Step.oneLine_entries (h step.node hnode) (fun child hchild => ?_) entry hentry
  exact Tree.oneLine_text h child (.child hnode hchild)

/-- A check leaves the words of a tree alone. -/
theorem Tree.oneLine_words_check {tree : Tree} (table : SymbolTable)
    (h : ∀ node, tree.Contains node → ∀ word ∈ node.words, OneLine word) :
    ∀ node, (tree.check table).node.Contains node → ∀ word ∈ node.words, OneLine word := by
  intro node hnode
  have hview : node.words ∈ tree.postorder.map Node.words := by
    rw [← Tree.map_postorder_check Node.words Node.words_erase table tree]
    exact List.mem_map_of_mem (Tree.mem_postorder_iff.mpr hnode)
  obtain ⟨other, hother, hsame⟩ := List.mem_map.mp hview
  rw [← hsame]
  exact h other (Tree.mem_postorder_iff.mp hother)

/-! ## Reading a log and an outline back -/

/-- What a log says about an entry, without the newline behind it. -/
def Entry.shown (entry : Entry) : String :=
  entry.category.name ++ ": " ++ entry.text ++ ": " ++ entry.message

/-- A log is read back entry by entry from its lines. -/
theorem Log.linesOf_text {log : Log}
    (h : ∀ entry ∈ log.entries, OneLine entry.text ∧ OneLine entry.message) :
    linesOf log.text = log.entries.map Entry.shown := by
  have htext : log.text = String.join ((log.entries.map Entry.shown).map (· ++ "\n")) := by
    rw [List.map_map]
    rfl
  rw [htext]
  refine linesOf_join fun line hline => ?_
  obtain ⟨entry, hentry, rfl⟩ := List.mem_map.mp hline
  obtain ⟨htext, hmessage⟩ := h entry hentry
  exact .append (.append (.append (.append entry.category.oneLine_name (.ofList rfl)) htext)
    (.ofList rfl)) hmessage

theorem oneLine_blanks (n : Nat) : OneLine (String.ofList (List.replicate n ' ')) := by
  unfold OneLine
  rw [String.toList_ofList]
  intro hmem
  exact absurd (List.eq_of_mem_replicate hmem) (by decide)

/-- What an outline says about a node, without the newline behind it. -/
def Outline.Row.shown (row : Outline.Row) : String :=
  String.ofList (List.replicate (2 * (row.depth - 1)) ' ') ++ row.text ++ ": " ++
    (match row.ty with
    | some ty => ty.name
    | none => "<unresolved>")

/-- An outline is read back row by row from its lines. -/
theorem Outline.linesOf_text {outline : Outline} (h : ∀ row ∈ outline.rows, OneLine row.text) :
    linesOf outline.text = outline.rows.map Row.shown := by
  have htext : outline.text = String.join ((outline.rows.map Row.shown).map (· ++ "\n")) := by
    rw [List.map_map]
    rfl
  rw [htext]
  refine linesOf_join fun line hline => ?_
  obtain ⟨row, hrow, rfl⟩ := List.mem_map.mp hline
  refine .append (.append (.append (oneLine_blanks _) (h row hrow)) (.ofList rfl)) ?_
  cases row.ty with
  | some ty => exact ty.oneLine_name
  | none => exact .ofList rfl

/-- The line of a node at the given depth, if the node has a type: two blanks for each node above
it, its text and its type. -/
def Node.shown? (depth : Nat) (node : Node) : Option String :=
  node.ty?.map fun ty =>
    String.ofList (List.replicate (2 * (depth - 1)) ' ') ++ node.text ++ ": " ++ ty.name

/-- A node with a type is shown as its row is. -/
theorem Node.shown?_eq {node : Node} (h : node.Resolved) (depth : Nat) :
    node.shown? depth = some (node.row depth).shown := by
  obtain ⟨ty, hty⟩ := h
  unfold Node.shown? Outline.Row.shown Node.row
  rw [hty]
  rfl

theorem Tree.linesOf_outline {tree : Tree} (h : ∀ node, tree.Contains node → OneLine node.text) :
    linesOf tree.outline.text = tree.outline.rows.map Outline.Row.shown := by
  refine Outline.linesOf_text fun row hrow => ?_
  obtain ⟨node, hnode, hshown⟩ := Tree.exists_contains_of_mem_rows hrow
  rw [hshown]
  exact h node hnode

/-- If all nodes have types, then the lines of an outline are those of the nodes in document
order. -/
theorem Tree.linesOf_outline_in_order {tree : Tree}
    (htext : ∀ node, tree.Contains node → OneLine node.text)
    (hresolved : ∀ node, tree.Contains node → node.Resolved) {addresses : List Address}
    (h : Lists tree.node? 0 addresses tree.outline.rows) :
    (linesOf tree.outline.text).map some = addresses.map fun address =>
      (tree.node? address).bind (Node.shown? address.length) := by
  have hlines : (tree.outline.rows.map Outline.Row.shown).map some
      = (tree.outline.rows.map some).map (Option.map Outline.Row.shown) := by
    rw [List.map_map, List.map_map]
    rfl
  -- from the rows over to the addresses, where nodes are found by their own way down
  rw [Tree.linesOf_outline htext, hlines, ← h.shown, List.map_map]
  refine List.map_congr_left fun address haddress => ?_
  obtain ⟨node, hnode⟩ := (h.mem_iff address).mp haddress
  have hcontains : tree.Contains node := Tree.contains_iff_exists_node?.mpr ⟨address, hnode⟩
  show ((tree.node? address).map (Node.row (0 + address.length))).map Outline.Row.shown = _
  rw [hnode, Nat.zero_add]
  exact (Node.shown?_eq (hresolved node hcontains) address.length).symm

/-- An outline has as many rows as there are nodes. -/
theorem Node.length_rows (node : Node) :
    ∀ depth, (node.rows depth).length = node.postorder.length := by
  induction node using Node.childInduction with
  | step node ih =>
    intro depth
    have hchildren : node.children.map (fun child => (child.rows (depth + 1)).length)
        = node.children.map fun child => child.postorder.length :=
      List.map_congr_left fun child hchild => ih child hchild (depth + 1)
    rw [Node.rows_eq, Node.postorder_eq, List.length_cons, List.length_append, List.length_flatMap,
      List.length_flatMap, hchildren]
    rfl

theorem Tree.length_rows_outline (tree : Tree) :
    tree.outline.rows.length = tree.postorder.length := by
  rw [Tree.rows_outline_eq_flatMap_roots, Tree.postorder_eq_flatMap_roots, List.length_flatMap,
    List.length_flatMap]
  refine congrArg List.sum (List.map_congr_left fun root _ => ?_)
  exact root.length_rows 1

/-- **What a run reports can be read line by line.** Let no name, type token or string literal of a
script have a newline in it. Then a run gives a session and the script itself, annotated, and
neither a node of the checked script nor a text or a message of an entry has a newline in it. The
lines of the log are its entries one by one, each as category, text and message. The lines of the
outline are as many as there are nodes. There is a list of the ways down to the nodes, each once and
in document order, such that the lines show the nodes at their ends: two blanks for each listed node
above, the text, and a type. -/
theorem Script.run_line_by_line (options : RunOptions) (script : Script)
    (h : ∀ node, (Tree.script script).Contains node → ∀ word ∈ node.words, OneLine word) :
    ∃ session, (script.run options).result = .ok session
      ∧ (script.run options).script.erase = script.erase
      ∧ (∀ node, (Tree.script (script.run options).script).Contains node → OneLine node.text)
      ∧ (∀ entry ∈ session.log.entries, OneLine entry.text ∧ OneLine entry.message)
      ∧ linesOf session.log.text = session.log.entries.map (fun entry =>
        entry.category.name ++ ": " ++ entry.text ++ ": " ++ entry.message)
      ∧ (linesOf session.log.text).length = session.log.size
      ∧ (linesOf (Tree.script (script.run options).script).outline.text).length
        = (Tree.script (script.run options).script).postorder.length
      ∧ ∃ addresses : List Address, addresses.Pairwise Address.Precedes
        ∧ (∀ address, address ∈ addresses
          ↔ ∃ node, (Tree.script (script.run options).script).node? address = some node)
        ∧ (linesOf (Tree.script (script.run options).script).outline.text).map some
          = addresses.map fun address =>
            ((Tree.script (script.run options).script).node? address).bind
              (Node.shown? (1 + (addresses.filter (·.Above address)).length)) := by
  have hwords : ∀ node, (Tree.script (script.check .empty).node).Contains node →
      ∀ word ∈ node.words, OneLine word := Tree.oneLine_words_check .empty h
  have htext := Tree.oneLine_text hwords
  have hentries : ∀ entry ∈ script.outcome.log.entries,
      OneLine entry.text ∧ OneLine entry.message :=
    Tree.oneLine_entries .empty (.script script) hwords
  have hresolved : ∀ node, (Tree.script (script.check .empty).node).Contains node → node.Resolved :=
    Tree.resolved_check .empty (.script script)
  obtain ⟨addresses, hlists⟩ := Tree.exists_lists (.script (script.check .empty).node)
  have hlog := Log.linesOf_text hentries
  have houtline := Tree.linesOf_outline_in_order htext hresolved hlists
  refine ⟨script.outcome, script.run_result options, script.erase_run options, ?_⟩
  rw [script.run_script options]
  refine ⟨htext, hentries, hlog, ?_, ?_, addresses, hlists.ordered, hlists.mem_iff, ?_⟩
  · rw [hlog, List.length_map]
    rfl
  · rw [Tree.linesOf_outline htext, List.length_map, Tree.length_rows_outline]
  · rw [houtline]
    refine List.map_congr_left fun address haddress => ?_
    rw [← Tree.length_eq_of_lists hlists haddress]

/-- The script `var x : Int = true; while x { print y; }`. -/
def brokenLoopScript : Script where
  decls := [{ name := "x", typeToken := "Int", init := some (.ofBool true) }]
  stmts := [.loop {} (.ofName "x") [.print {} (.ofName "y")]]

/-- The log has four lines and the outline six. -/
theorem Script.run_line_by_line_brokenLoop :
    (∀ node, (Tree.script brokenLoopScript).Contains node → ∀ word ∈ node.words, OneLine word)
      ∧ ∃ session, (brokenLoopScript.run {}).result = .ok session
        ∧ linesOf session.log.text = [
          "ASSIGN_TO_WRONG_TYPE: var x : Int = true: 'x' is declared Int but initialised with Bool",
          "UNDEFINED_NAME: y: 'y' has not been declared",
          "UNPRINTABLE_EXPRESSION: print y: cannot print y",
          "CONDITION_NOT_BOOL: while x \x7b print y; \x7d: expression x is Error, not Bool"]
        ∧ (linesOf (Tree.script (brokenLoopScript.run {}).script).outline.text).length = 6 := by
  have hwords : ∀ node, (Tree.script brokenLoopScript).Contains node →
      ∀ word ∈ node.words, OneLine word := by
    intro node hnode
    rw [← Tree.mem_postorder_iff] at hnode
    revert node
    decide
  obtain ⟨session, hresult, -, -, -, hlog, -, hlength, -⟩ :=
    Script.run_line_by_line {} brokenLoopScript hwords
  have hsession : session = brokenLoopScript.outcome :=
    Except.ok.inj (hresult.symm.trans (brokenLoopScript.run_result {}))
  refine ⟨hwords, session, hresult, ?_, ?_⟩
  · rw [hlog, hsession]
    decide
  · rw [hlength, brokenLoopScript.run_script {}]
    decide

end ScriptTyping
