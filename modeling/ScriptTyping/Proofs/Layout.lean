import ScriptTyping.Proofs.Canonical
import ScriptTyping.Proofs.Locality

/-!
# Spans and texts

The span of a node is computed from the spans of its parts, and its text from the texts of its
parts, and neither of the two looks at the other. They meet if the leaves of an expression stand
where its text has them: then every node is found in the source at its own span, and so is whatever
the log says about it.

* **`Span.textIn?`**: the text that a span marks in a source, in bytes of the UTF-8 form.
* **`Expr.layout`**: an expression whose leaves are given their places and whose other nodes are
  built from them. **`Expr.span_layout`**: the span of its root.
* **`Expr.Stands`**: the place of each part of an expression in the text. **`Expr.Stands.layout`**:
  every part of a layout is a layout at its own place. **`Expr.Stands.exists_split`**: it cuts the
  text in three.
* **`Tree.exists_contains_of_mem_entries`**: every entry of the log cites a node of the tree.
-/

namespace ScriptTyping

/-! ## The text of a span -/

/-- The text that a span marks in a source. There is none if an end of the span lies outside of the
source or within a character, or if the span is reversed. -/
def Span.textIn? (span : Span) (source : String) : Option String := do
  let start ← source.pos? ⟨span.start⟩
  let stop ← source.pos? ⟨span.stop⟩
  if start ≤ stop then some (source.extract start stop) else none

theorem pos?_eq_some {source : String} {offset : String.Pos.Raw}
    (h : offset.IsValid source) : source.pos? offset = some (source.pos offset h) := by
  have hslice : offset.isValidForSlice source.toSlice = true :=
    String.Pos.Raw.isValidForSlice_eq_true_iff.mpr
      (String.Pos.Raw.isValidForSlice_toSlice_iff.mpr h)
  rw [String.pos?, String.Slice.pos?, dif_pos hslice]
  rfl

/-- A span that reaches over a part of a source marks this part. -/
theorem Span.textIn?_append (front text back : String) :
    Span.textIn? ⟨front.utf8ByteSize, front.utf8ByteSize + text.utf8ByteSize⟩
        (front ++ text ++ back)
      = some text := by
  have hstart : String.Pos.Raw.IsValid (front ++ text ++ back) ⟨front.utf8ByteSize⟩ :=
    String.Pos.Raw.isValid_iff_exists_append.mpr ⟨front, text ++ back, String.append_assoc, rfl⟩
  have hstop : String.Pos.Raw.IsValid (front ++ text ++ back)
      ⟨front.utf8ByteSize + text.utf8ByteSize⟩ := by
    refine String.Pos.Raw.isValid_iff_exists_append.mpr ⟨front ++ text, back, rfl, ?_⟩
    rw [String.rawEndPos, String.utf8ByteSize_append]
  have hordered : (front ++ text ++ back).pos _ hstart ≤ (front ++ text ++ back).pos _ hstop := by
    rw [String.Pos.le_iff, String.offset_pos, String.offset_pos, String.Pos.Raw.le_iff]
    exact Nat.le_add_right _ _
  have hsize : (front ++ text).toByteArray.size = front.utf8ByteSize + text.utf8ByteSize := by
    rw [String.size_toByteArray, String.utf8ByteSize_append]
  -- the bytes between the two ends are those of the text
  have hbytes : ((front ++ text ++ back).extract ((front ++ text ++ back).pos _ hstart)
      ((front ++ text ++ back).pos _ hstop)) = text := by
    rw [← String.toByteArray_inj, String.toByteArray_extract, String.offset_pos, String.offset_pos,
      String.toByteArray_append]
    show (_ ++ _ : ByteArray).extract _ (front.utf8ByteSize + text.utf8ByteSize) = _
    rw [← hsize, ByteArray.extract_append_size_left, hsize, String.toByteArray_append]
    exact ByteArray.extract_append_eq_right String.size_toByteArray.symm
      (by rw [String.size_toByteArray, String.size_toByteArray])
  rw [Span.textIn?, pos?_eq_some hstart, pos?_eq_some hstop]
  show (if _ then _ else _) = _
  rw [if_pos hordered, hbytes]

example : Span.textIn? ⟨1, 3⟩ "aéb" = some "é" ∧ Span.textIn? ⟨1, 2⟩ "aéb" = none := by decide

/-! ## Layouts -/

/-- The leaf at the given offset, with a span as long as its text. -/
def Expr.placeAt (offset : Nat) (leaf : Expr) : Expr :=
  leaf.withSpan ⟨offset, offset + leaf.text.utf8ByteSize⟩

/-- The expression as it is built for a source that has its text at the given offset. What spans and
types it came with has no influence. -/
def Expr.layout (offset : Nat) : Expr → Expr
  | .int _ value => (ofInt value).placeAt offset
  | .bool _ value => (ofBool value).placeAt offset
  | .str _ lexeme => (ofLexeme lexeme).placeAt offset
  | .var _ name => (ofName name).placeAt offset
  | .unary _ op operand => applyUnary op (operand.layout (offset + 1))
  | .binary _ op left right =>
    applyBinary op (left.layout offset)
      (right.layout (offset + left.text.utf8ByteSize + op.symbol.utf8ByteSize))
  | .parens _ inner => enclose (inner.layout (offset + 1))

/-- Every leaf has a text. Literals other than strings always have one. -/
def Expr.LeavesShow (expr : Expr) : Prop :=
  ∀ leaf ∈ expr.postorder, leaf.children = [] → leaf.text ≠ ""

instance (expr : Expr) : Decidable expr.LeavesShow :=
  inferInstanceAs (Decidable (∀ leaf ∈ expr.postorder, _))

/-- A layout changes spans and types only. -/
theorem Expr.bare_layout (offset : Nat) (shape : Expr) :
    (shape.layout offset).bare = shape.bare := by
  induction shape generalizing offset with
  | int | bool | str | var => rfl
  | unary info op operand ih => rw [Expr.layout, Expr.applyUnary, Expr.bare, Expr.bare, ih]
  | binary info op left right ihl ihr =>
    rw [Expr.layout, Expr.applyBinary, Expr.bare, Expr.bare, ihl, ihr]
  | parens info inner ih => rw [Expr.layout, Expr.enclose, Expr.bare, Expr.bare, ih]

theorem Expr.text_layout (offset : Nat) (shape : Expr) :
    (shape.layout offset).text = shape.text := by
  rw [← Expr.text_bare, Expr.bare_layout, Expr.text_bare]

theorem UnaryOp.utf8ByteSize_symbol (op : UnaryOp) : op.symbol.utf8ByteSize = 1 := by
  cases op <;> decide

theorem Expr.LeavesShow.part {expr part : Expr} (h : expr.LeavesShow)
    (hpart : .expr part ∈ (Node.expr expr).children) : part.LeavesShow := by
  intro leaf hleaf
  refine h leaf ?_
  show leaf ∈ (Node.expr expr).postorder
  rw [Node.postorder_eq, List.mem_append, List.mem_flatMap]
  exact Or.inl ⟨_, hpart, hleaf⟩

/-- Where every leaf has a text, so has the whole. -/
theorem Expr.LeavesShow.size_pos {expr : Expr} (h : expr.LeavesShow) :
    0 < expr.text.utf8ByteSize := by
  have hleaf : (Node.expr expr).children = [] → expr.text ≠ "" :=
    h (.expr expr) (Node.self_mem_postorder (.expr expr))
  cases expr with
  | int | bool | str | var =>
    exact Nat.pos_of_ne_zero fun hzero => hleaf rfl (String.utf8ByteSize_eq_zero_iff.mp hzero)
  | unary info op operand =>
    rw [Expr.text, String.utf8ByteSize_append, op.utf8ByteSize_symbol]
    omega
  | binary info op left right =>
    have hsymbol : 0 < op.symbol.utf8ByteSize := by cases op <;> decide
    rw [Expr.text, String.utf8ByteSize_append, String.utf8ByteSize_append]
    omega
  | parens info inner =>
    have hopening : "(".utf8ByteSize = 1 := by decide
    rw [Expr.text, String.utf8ByteSize_append, String.utf8ByteSize_append]
    omega

/-! ### The span of a layout

A node would keep the span of an empty part as it is, but the parts of a layout are not empty. -/

/-- The span of a text is not empty, and so takes part in merging spans. -/
theorem Span.isEmpty_eq_false {start size : Nat} (h : 0 < size) :
    (Span.mk start (start + size)).isEmpty = false := by
  simp only [Span.isEmpty, Span.length, beq_eq_false_iff_ne]
  omega

/-- The span of a layout is as long as the text. By induction: the spans that are grown and merged
fit together without a gap. -/
theorem Expr.span_layout {shape : Expr} (h : shape.LeavesShow) (offset : Nat) :
    (shape.layout offset).span = ⟨offset, offset + shape.text.utf8ByteSize⟩ := by
  induction shape generalizing offset with
  | int | bool | str | var => rfl
  | unary info op operand ih =>
    have hoperand : operand.LeavesShow := h.part (List.mem_singleton.mpr rfl)
    show (operand.layout (offset + 1)).span.growLeft = _
    rw [ih hoperand, Span.growLeft, Span.isEmpty_eq_false hoperand.size_pos, Expr.text,
      String.utf8ByteSize_append, op.utf8ByteSize_symbol]
    simp only [Bool.false_eq_true, ↓reduceIte, Span.mk.injEq]
    omega
  | binary info op left right ihl ihr =>
    have hleft : left.LeavesShow := h.part (by simp [Node.children])
    have hright : right.LeavesShow := h.part (by simp [Node.children])
    show (left.layout offset).span.merge (right.layout _).span = _
    rw [ihl hleft, ihr hright, Span.merge, Expr.text, String.utf8ByteSize_append,
      String.utf8ByteSize_append]
    simp only [Span.mk.injEq]
    omega
  | parens info inner ih =>
    have hinner : inner.LeavesShow := h.part (List.mem_singleton.mpr rfl)
    have hdelimiters : "(".utf8ByteSize = 1 ∧ ")".utf8ByteSize = 1 := by decide
    show (inner.layout (offset + 1)).span.growBoth = _
    rw [ih hinner, Span.growBoth, Span.isEmpty_eq_false hinner.size_pos, Expr.text,
      String.utf8ByteSize_append, String.utf8ByteSize_append]
    simp only [Bool.false_eq_true, ↓reduceIte, Span.mk.injEq]
    omega

/-! ## Where the parts of an expression stand -/

/-- `root.Stands offset part place`: when the text of `root` begins at `offset`, the text of its
part begins at `place`. -/
inductive Expr.Stands (root : Expr) (offset : Nat) : Expr → Nat → Prop where
  | root : Expr.Stands root offset root offset
  | operand {info : NodeInfo} {op : UnaryOp} {operand : Expr} {place : Nat}
      (hwhole : Expr.Stands root offset (.unary info op operand) place) :
      Expr.Stands root offset operand (place + op.symbol.utf8ByteSize)
  | left {info : NodeInfo} {op : BinaryOp} {left right : Expr} {place : Nat}
      (hwhole : Expr.Stands root offset (.binary info op left right) place) :
      Expr.Stands root offset left place
  | right {info : NodeInfo} {op : BinaryOp} {left right : Expr} {place : Nat}
      (hwhole : Expr.Stands root offset (.binary info op left right) place) :
      Expr.Stands root offset right
        (place + left.text.utf8ByteSize + op.symbol.utf8ByteSize)
  | inner {info : NodeInfo} {inner : Expr} {place : Nat}
      (hwhole : Expr.Stands root offset (.parens info inner) place) :
      Expr.Stands root offset inner (place + "(".utf8ByteSize)

/-- Every node of an expression stands somewhere. -/
theorem Expr.exists_stands {root : Expr} (offset : Nat) {node : Node}
    (h : (Tree.expr root).Contains node) :
    ∃ part place, node = .expr part ∧ root.Stands offset part place := by
  induction h with
  | root hroot => exact ⟨root, offset, List.mem_singleton.mp hroot, .root⟩
  | child _ hchild ih =>
    obtain ⟨whole, place, rfl, hwhole⟩ := ih
    cases whole with
    | int | bool | str | var => cases hchild
    | unary info op operand => exact ⟨operand, _, List.mem_singleton.mp hchild, .operand hwhole⟩
    | binary info op left right =>
      simp only [Node.children, List.mem_cons, List.not_mem_nil, or_false] at hchild
      rcases hchild with rfl | rfl
      · exact ⟨left, _, rfl, .left hwhole⟩
      · exact ⟨right, _, rfl, .right hwhole⟩
    | parens info inner => exact ⟨inner, _, List.mem_singleton.mp hchild, .inner hwhole⟩

/-- The place of a part is where its text is in the text of the whole. -/
theorem Expr.Stands.exists_split {root part : Expr} {offset place : Nat}
    (h : root.Stands offset part place) :
    ∃ before after, root.text = before ++ part.text ++ after
      ∧ place = offset + before.utf8ByteSize := by
  induction h with
  | root => exact ⟨"", "", by simp, rfl⟩
  | @operand info op operand place _ ih =>
    obtain ⟨before, after, htext, rfl⟩ := ih
    refine ⟨before ++ op.symbol, after, ?_, ?_⟩
    · rw [htext, Expr.text]
      simp only [String.append_assoc]
    · rw [String.utf8ByteSize_append]
      omega
  | @left info op left right place _ ih =>
    obtain ⟨before, after, htext, rfl⟩ := ih
    refine ⟨before, op.symbol ++ right.text ++ after, ?_, rfl⟩
    rw [htext, Expr.text]
    simp only [String.append_assoc]
  | @right info op left right place _ ih =>
    obtain ⟨before, after, htext, rfl⟩ := ih
    refine ⟨before ++ left.text ++ op.symbol, after, ?_, ?_⟩
    · rw [htext, Expr.text]
      simp only [String.append_assoc]
    · rw [String.utf8ByteSize_append, String.utf8ByteSize_append]
      omega
  | @inner info inner place _ ih =>
    obtain ⟨before, after, htext, rfl⟩ := ih
    refine ⟨before ++ "(", ")" ++ after, ?_, ?_⟩
    · rw [htext, Expr.text]
      simp only [String.append_assoc]
    · rw [String.utf8ByteSize_append]
      omega

/-- Every part of a layout is the layout of some shape, at the place where the part stands. -/
theorem Expr.Stands.layout {shape part : Expr} {offset place : Nat} (h : shape.LeavesShow)
    (hstands : (shape.layout offset).Stands offset part place) :
    ∃ shape' : Expr, shape'.LeavesShow ∧ part = shape'.layout place := by
  induction hstands with
  | root => exact ⟨shape, h, rfl⟩
  | @operand info op operand place _ ih =>
    obtain ⟨whole, hwhole, heq⟩ := ih
    cases whole with
    | unary info' op' operand' =>
      obtain ⟨-, rfl, rfl⟩ := Expr.unary.inj heq
      rw [op.utf8ByteSize_symbol]
      exact ⟨operand', hwhole.part (List.mem_singleton.mpr rfl), rfl⟩
    | int | bool | str | var | binary | parens => cases heq
  | @left info op left right place _ ih =>
    obtain ⟨whole, hwhole, heq⟩ := ih
    cases whole with
    | binary info' op' left' right' =>
      obtain ⟨-, rfl, rfl, rfl⟩ := Expr.binary.inj heq
      exact ⟨left', hwhole.part (by simp [Node.children]), rfl⟩
    | int | bool | str | var | unary | parens => cases heq
  | @right info op left right place _ ih =>
    obtain ⟨whole, hwhole, heq⟩ := ih
    cases whole with
    | binary info' op' left' right' =>
      obtain ⟨-, rfl, rfl, rfl⟩ := Expr.binary.inj heq
      rw [Expr.text_layout]
      exact ⟨right', hwhole.part (by simp [Node.children]), rfl⟩
    | int | bool | str | var | unary | parens => cases heq
  | @inner info inner place _ ih =>
    obtain ⟨whole, hwhole, heq⟩ := ih
    cases whole with
    | parens info' inner' =>
      obtain ⟨-, rfl⟩ := Expr.parens.inj heq
      exact ⟨inner', hwhole.part (List.mem_singleton.mpr rfl), rfl⟩
    | int | bool | str | var | unary | binary => cases heq

/-- The span of each part is as long as its text, and begins where the part stands. -/
theorem Expr.Stands.span_eq {shape part : Expr} {offset place : Nat} (h : shape.LeavesShow)
    (hstands : (shape.layout offset).Stands offset part place) :
    part.span = ⟨place, place + part.text.utf8ByteSize⟩ := by
  obtain ⟨shape', hshape', rfl⟩ := hstands.layout h
  rw [Expr.span_layout hshape', Expr.text_layout]

/-- In a source that has the text of a layout at its offset, the span of a node marks the text of
the node. -/
theorem Expr.textIn?_layout {shape : Expr} (h : shape.LeavesShow) (front back : String)
    {node : Node}
    (hnode : (Tree.expr (shape.layout front.utf8ByteSize)).Contains node) :
    node.span.textIn? (front ++ shape.text ++ back) = some node.text := by
  obtain ⟨part, place, rfl, hstands⟩ := Expr.exists_stands front.utf8ByteSize hnode
  obtain ⟨before, after, htext, hplace⟩ := hstands.exists_split
  rw [Expr.text_layout] at htext
  have hspan : part.span = ⟨(front ++ before).utf8ByteSize,
      (front ++ before).utf8ByteSize + part.text.utf8ByteSize⟩ := by
    rw [hstands.span_eq h, hplace, String.utf8ByteSize_append]
  have hsource : front ++ shape.text ++ back
      = (front ++ before) ++ part.text ++ (after ++ back) := by
    rw [htext]
    simp only [String.append_assoc]
  show part.span.textIn? _ = some part.text
  rw [hspan, hsource, Span.textIn?_append]

/-! ## What the log cites -/

/-- Every entry of the log cites a node of the tree, by its text and its span. -/
theorem Tree.exists_contains_of_mem_entries {table : SymbolTable} (tree : Tree) {entry : Entry}
    (h : entry ∈ (tree.check table).entries) :
    ∃ node, tree.Contains node ∧ entry.text = node.text ∧ entry.span = node.span := by
  rw [← (tree.replays_check table).entries_eq, List.mem_flatMap] at h
  obtain ⟨step, hstep, hentry⟩ := h
  -- the entry cites the annotated node that was closed when it was written
  have hcites : entry.text = step.node.text ∧ entry.span = step.node.span := by
    unfold Step.entries at hentry
    cases hverdict : step.verdict with
    | ok ty => simp [hverdict] at hentry
    | error violation =>
      rw [hverdict, Verdict.entries_error, List.mem_singleton] at hentry
      rw [hentry]
      exact ⟨rfl, rfl⟩
  have hclosed : step.node ∈ (tree.check table).node.postorder := by
    rw [← map_node_steps table (tree.check table).node.postorder]
    exact List.mem_map_of_mem hstep
  -- texts and spans are those of the tree before the check
  have hview : (step.node.text, step.node.span)
      ∈ tree.postorder.map fun node => (node.text, node.span) := by
    rw [← Tree.map_postorder_check (fun node => (node.text, node.span))
      (fun node => by rw [Node.text_erase, Node.span_erase]) table tree]
    exact List.mem_map_of_mem hclosed
  obtain ⟨node, hnode, hsame⟩ := List.mem_map.mp hview
  obtain ⟨htext, hspan⟩ := Prod.mk.inj hsame
  exact ⟨node, Tree.mem_postorder_iff.mp hnode, hcites.1.trans htext.symm,
    hcites.2.trans hspan.symm⟩

/-! ## Positions in a source -/

/-- **Spans and texts agree.** Give each leaf of an expression the place at which the text of the
expression has it, counted from some offset, and build the other nodes from the leaves. The
expression stays the same but for its spans. Every node stands at some place of the text, and its
span begins there and is as long as its text. So in every source that has the text at the offset,
the span of a node marks the text of the node. The same is true of every entry that a check of the
expression writes to the log, whatever the table. -/
theorem Expr.layout_marks_texts {shape : Expr} (h : shape.LeavesShow) (offset : Nat) :
    (shape.layout offset).bare = shape.bare
      ∧ (∀ node, (Tree.expr (shape.layout offset)).Contains node →
        ∃ part place, node = .expr part ∧ (shape.layout offset).Stands offset part place)
      ∧ (∀ part place, (shape.layout offset).Stands offset part place →
        part.span = ⟨place, place + part.text.utf8ByteSize⟩)
      ∧ ∀ front back : String, front.utf8ByteSize = offset →
        (∀ node, (Tree.expr (shape.layout offset)).Contains node →
          node.span.textIn? (front ++ shape.text ++ back) = some node.text)
        ∧ ∀ (table : SymbolTable), ∀ entry ∈ ((shape.layout offset).check table).entries,
          entry.span.textIn? (front ++ shape.text ++ back) = some entry.text := by
  refine ⟨shape.bare_layout offset, fun node => Expr.exists_stands offset,
    fun part place hstands => hstands.span_eq h, ?_⟩
  rintro front back rfl
  refine ⟨fun node => Expr.textIn?_layout h front back, fun table entry hentry => ?_⟩
  obtain ⟨node, hnode, htext, hspan⟩ :=
    Tree.exists_contains_of_mem_entries (.expr (shape.layout front.utf8ByteSize)) hentry
  rw [htext, hspan]
  exact Expr.textIn?_layout h front back hnode

/-- The sum `é+-3`, whose text has one byte more than it has characters. -/
def accentedSum : Expr := .binary {} .add (.ofName "é") (.ofInt (-3))

/-- The expression `-(é+-3)`. -/
def accentedExpr : Expr := .unary {} .neg (.parens {} accentedSum)

/-- Behind four bytes the parentheses go from the fifth to the twelfth byte, and whatever a check
finds wrong with the expression is cited at its place. -/
theorem Expr.layout_marks_texts_accented :
    accentedExpr.LeavesShow ∧ "日=".utf8ByteSize = 4
      ∧ (accentedSum.layout 6).enclose.span = ⟨5, 12⟩
      ∧ ∀ entry ∈ ((accentedExpr.layout 4).check .empty).entries,
        entry.span.textIn? ("日=" ++ "-(é+-3)" ++ ";") = some entry.text := by
  have hleaves : accentedExpr.LeavesShow := by decide
  have hfront : "日=".utf8ByteSize = 4 := by decide
  obtain ⟨-, -, hspans, hsource⟩ := Expr.layout_marks_texts hleaves 4
  refine ⟨hleaves, hfront, ?_, ?_⟩
  · exact hspans _ _ (.operand .root)
  · exact (hsource "日=" ";" hfront).2 .empty

end ScriptTyping
