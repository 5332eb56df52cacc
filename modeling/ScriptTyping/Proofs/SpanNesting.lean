import ScriptTyping.Proofs.Nodes

/-!
# Spans nest

The constructions of expressions find the span of a node each in a way of its own: by merging, by
reaching out one byte unless there is nothing to reach out from, or from the delimiters alone. In
any mixture of them, and whatever spans the leaves have, a node covers all that stands below it.

* **`Expr.Assembled`**: expressions that are put together by the constructions, where delimiters at
  places of their own do not cut off what they enclose.
* **`Expr.Assembled.child`**: the step. A node covers the nodes directly below it.
  **`Expr.Assembled.contains`** follows for everything below it.
* **`Expr.MergedFrom`**: expressions whose span is merged from places in the source, with the list
  of these places. **`Expr.MergedFrom.covers_iff`**: their span is the least one that covers them
  all.
-/

namespace ScriptTyping

theorem Span.start_merge_eq_or (left right : Span) :
    (left.merge right).start = left.start ∨ (left.merge right).start = right.start := by
  show min left.start right.start = left.start ∨ min left.start right.start = right.start
  omega

theorem Span.stop_merge_eq_or (left right : Span) :
    (left.merge right).stop = left.stop ∨ (left.merge right).stop = right.stop := by
  show max left.stop right.stop = left.stop ∨ max left.stop right.stop = right.stop
  omega

namespace Expr

/-- Literals and variables. -/
def IsLeaf (expr : Expr) : Prop := (Node.expr expr).children = []

instance (expr : Expr) : Decidable expr.IsLeaf :=
  inferInstanceAs (Decidable (_ = _))

/-! ## Every node covers what stands below it -/

/-- Expressions that are built from leaves with spans of any kind, reversed ones included. Nothing
but the construction decides the span of the other nodes. -/
inductive Assembled : Expr → Prop where
  | leaf {expr : Expr} (hleaf : expr.IsLeaf) : Assembled expr
  | unary {op : UnaryOp} {operand : Expr} (hoperand : Assembled operand) :
      Assembled (applyUnary op operand)
  | unaryAt {op : UnaryOp} {opSpan : Span} {operand : Expr} (hoperand : Assembled operand) :
      Assembled (applyUnaryAt op opSpan operand)
  | binary {op : BinaryOp} {left right : Expr} (hleft : Assembled left) (hright : Assembled right) :
      Assembled (applyBinary op left right)
  | parens {inner : Expr} (hinner : Assembled inner) : Assembled (enclose inner)
  | parensAt {opening closing : Span} {inner : Expr} (hinner : Assembled inner)
      (hopening : opening.start ≤ inner.span.start) (hclosing : inner.span.stop ≤ closing.stop) :
      Assembled (encloseAt opening inner closing)

/-- Delimiters at places of their own cover what they do not cut off. -/
theorem encloseAt_covers {opening closing : Span} {inner : Expr}
    (hopening : opening.start ≤ inner.span.start) (hclosing : inner.span.stop ≤ closing.stop) :
    (encloseAt opening inner closing).span.Covers inner.span := by
  show (opening.merge closing).Covers inner.span
  unfold Span.merge Span.Covers
  show min opening.start closing.start ≤ inner.span.start
    ∧ inner.span.stop ≤ max opening.stop closing.stop
  omega

/-- **One step.** What stands directly below an assembled expression is assembled as well, and
covered by it. -/
theorem Assembled.child {expr part : Expr} (h : expr.Assembled)
    (hpart : .expr part ∈ (Node.expr expr).children) :
    part.Assembled ∧ expr.span.Covers part.span := by
  cases h with
  | leaf hleaf =>
    rw [hleaf] at hpart
    cases hpart
  | @unary op operand hoperand =>
    have hsame : part = operand := Node.expr.inj (List.mem_singleton.mp hpart)
    rw [hsame]
    exact ⟨hoperand, applyUnary_covers op operand⟩
  | @unaryAt op opSpan operand hoperand =>
    have hsame : part = operand := Node.expr.inj (List.mem_singleton.mp hpart)
    rw [hsame]
    exact ⟨hoperand, applyUnaryAt_covers op opSpan operand⟩
  | @binary op left right hleft hright =>
    obtain ⟨hcoversLeft, hcoversRight⟩ := applyBinary_covers op left right
    rcases List.mem_cons.mp hpart with hsame | hpart
    · rw [Node.expr.inj hsame]
      exact ⟨hleft, hcoversLeft⟩
    · rw [Node.expr.inj (List.mem_singleton.mp hpart)]
      exact ⟨hright, hcoversRight⟩
  | @parens inner hinner =>
    have hsame : part = inner := Node.expr.inj (List.mem_singleton.mp hpart)
    rw [hsame]
    exact ⟨hinner, enclose_covers inner⟩
  | @parensAt opening closing inner hinner hopening hclosing =>
    have hsame : part = inner := Node.expr.inj (List.mem_singleton.mp hpart)
    rw [hsame]
    exact ⟨hinner, encloseAt_covers hopening hclosing⟩

/-- **All steps down.** -/
theorem Assembled.contains {root : Expr} (h : root.Assembled) {node : Node}
    (hnode : (Tree.expr root).Contains node) :
    ∃ part : Expr, node = .expr part ∧ part.Assembled ∧ root.span.Covers part.span := by
  induction hnode with
  | root hroot => exact ⟨root, List.mem_singleton.mp hroot, h, Span.Covers.refl root.span⟩
  | @child parent node hparent hchild ih =>
    obtain ⟨whole, rfl, hwhole, hcovers⟩ := ih
    obtain ⟨part, rfl⟩ := Expr.exists_eq_of_contains (.child hparent hchild)
    obtain ⟨hpart, hstep⟩ := hwhole.child hchild
    exact ⟨part, rfl, hpart, hcovers.trans hstep⟩

/-! ## Merged spans -/

/-- `MergedFrom spans expr`: the expression is built from leaves and from operators at places of
their own, without parentheses and without unary operators whose place is guessed; `spans` are the
places of its leaves and of its unary operators, from left to right. -/
inductive MergedFrom : List Span → Expr → Prop where
  | leaf {expr : Expr} (hleaf : expr.IsLeaf) : MergedFrom [expr.span] expr
  | unaryAt {op : UnaryOp} {opSpan : Span} {operand : Expr} {spans : List Span}
      (hoperand : MergedFrom spans operand) :
      MergedFrom (opSpan :: spans) (applyUnaryAt op opSpan operand)
  | binary {op : BinaryOp} {left right : Expr} {spans spans' : List Span}
      (hleft : MergedFrom spans left) (hright : MergedFrom spans' right) :
      MergedFrom (spans ++ spans') (applyBinary op left right)

/-- The span covers all places, and nothing less does. -/
theorem MergedFrom.covers_iff {spans : List Span} {expr : Expr} (h : MergedFrom spans expr)
    (outer : Span) : outer.Covers expr.span ↔ ∀ span ∈ spans, outer.Covers span := by
  induction h with
  | leaf => rw [List.forall_mem_singleton]
  | @unaryAt op opSpan operand spans _ ih =>
    show outer.Covers (opSpan.merge operand.span) ↔ _
    rw [Span.merge_covers_iff, List.forall_mem_cons, ih]
  | @binary op left right spans spans' _ _ ihl ihr =>
    show outer.Covers (left.span.merge right.span) ↔ _
    rw [Span.merge_covers_iff, List.forall_mem_append, ihl, ihr]

/-- Both ends of the span are ends of places. -/
theorem MergedFrom.ends_mem {spans : List Span} {expr : Expr} (h : MergedFrom spans expr) :
    expr.span.start ∈ spans.map Span.start ∧ expr.span.stop ∈ spans.map Span.stop := by
  induction h with
  | leaf => exact ⟨List.mem_cons_self, List.mem_cons_self⟩
  | @unaryAt op opSpan operand spans _ ih =>
    obtain ⟨hstart, hstop⟩ := ih
    show (opSpan.merge operand.span).start ∈ _ ∧ (opSpan.merge operand.span).stop ∈ _
    constructor
    · rcases Span.start_merge_eq_or opSpan operand.span with heq | heq <;> rw [heq]
      · exact List.mem_cons_self
      · exact List.mem_cons_of_mem _ hstart
    · rcases Span.stop_merge_eq_or opSpan operand.span with heq | heq <;> rw [heq]
      · exact List.mem_cons_self
      · exact List.mem_cons_of_mem _ hstop
  | @binary op left right spans spans' _ _ ihl ihr =>
    show (left.span.merge right.span).start ∈ _ ∧ (left.span.merge right.span).stop ∈ _
    rw [List.map_append, List.map_append]
    constructor
    · rcases Span.start_merge_eq_or left.span right.span with heq | heq <;> rw [heq]
      · exact List.mem_append_left _ ihl.1
      · exact List.mem_append_right _ ihr.1
    · rcases Span.stop_merge_eq_or left.span right.span with heq | heq <;> rw [heq]
      · exact List.mem_append_left _ ihl.2
      · exact List.mem_append_right _ ihr.2

/-- A merged expression starts at the least start of its places. -/
theorem MergedFrom.start_eq {spans : List Span} {expr : Expr} (h : MergedFrom spans expr) :
    (spans.map Span.start).min? = some expr.span.start := by
  have hcovers : ∀ span ∈ spans, expr.span.Covers span :=
    (h.covers_iff expr.span).mp (Span.Covers.refl _)
  refine List.min?_eq_some_iff.mpr ⟨h.ends_mem.1, fun start hstart => ?_⟩
  obtain ⟨span, hspan, rfl⟩ := List.mem_map.mp hstart
  exact (hcovers span hspan).1

/-- A merged expression stops at the greatest stop of its places. -/
theorem MergedFrom.stop_eq {spans : List Span} {expr : Expr} (h : MergedFrom spans expr) :
    (spans.map Span.stop).max? = some expr.span.stop := by
  have hcovers : ∀ span ∈ spans, expr.span.Covers span :=
    (h.covers_iff expr.span).mp (Span.Covers.refl _)
  refine List.max?_eq_some_iff.mpr ⟨h.ends_mem.2, fun stop hstop => ?_⟩
  obtain ⟨span, hspan, rfl⟩ := List.mem_map.mp hstop
  exact (hcovers span hspan).2

/-! ## Nesting -/

/-- **Spans nest.** In an assembled expression the span of every node covers the span of whatever
stands below it. Where nothing but merging is at work, the span of the root is the least one that
covers the places it is merged from: it starts at the least of their starts and stops at the
greatest of their ends, whatever the shape of the expression. -/
theorem spans_nest :
    (∀ expr : Expr, expr.Assembled → ∀ whole part : Expr, (Tree.expr expr).Contains (.expr whole) →
      (Tree.expr whole).Contains (.expr part) → whole.span.Covers part.span)
    ∧ ∀ (spans : List Span) (expr : Expr), MergedFrom spans expr →
      (spans.map Span.start).min? = some expr.span.start
        ∧ (spans.map Span.stop).max? = some expr.span.stop
        ∧ ∀ outer : Span, outer.Covers expr.span ↔ ∀ span ∈ spans, outer.Covers span := by
  constructor
  · intro expr hexpr whole part hwhole hpart
    obtain ⟨whole', hsame, hassembled, -⟩ := hexpr.contains hwhole
    obtain rfl := Node.expr.inj hsame
    obtain ⟨part', hsame', -, hcovers⟩ := hassembled.contains hpart
    rw [Node.expr.inj hsame']
    exact hcovers
  · exact fun spans expr h => ⟨h.start_eq, h.stop_eq, h.covers_iff⟩

/-- The sum `a+b` of a variable with a reversed span and of one without a place. -/
def reversedSum : Expr := applyBinary .add ((ofName "a").withSpan ⟨5, 2⟩) (ofName "b")

/-- The sum in parentheses, which begin and end with it, behind an operator. -/
def reversedGroup : Expr := applyUnary .neg (encloseAt ⟨0, 1⟩ reversedSum ⟨1, 2⟩)

/-- The operator covers the variables at the bottom of the group. Behind an operator far to the
right the span of the sum reaches from the place of `b` to this operator. -/
theorem spans_nest_reversed :
    reversedGroup.Assembled ∧ reversedGroup.span = ⟨0, 2⟩ ∧ reversedGroup.span.Covers ⟨5, 2⟩
      ∧ MergedFrom [⟨9, 9⟩, ⟨5, 2⟩, ⟨0, 0⟩] (applyUnaryAt .neg ⟨9, 9⟩ reversedSum)
      ∧ (applyUnaryAt .neg ⟨9, 9⟩ reversedSum).span = ⟨0, 9⟩
      ∧ ([⟨9, 9⟩, ⟨5, 2⟩, ⟨0, 0⟩].map Span.start).min? = some 0 := by
  have hgroup : reversedGroup.Assembled :=
    .unary (.parensAt (.binary (.leaf rfl) (.leaf rfl)) (by decide) (by decide))
  have hsum : MergedFrom [⟨5, 2⟩, ⟨0, 0⟩] reversedSum :=
    .binary (@MergedFrom.leaf ((ofName "a").withSpan ⟨5, 2⟩) rfl)
      (@MergedFrom.leaf (ofName "b") rfl)
  have hmerged : MergedFrom [⟨9, 9⟩, ⟨5, 2⟩, ⟨0, 0⟩] (applyUnaryAt .neg ⟨9, 9⟩ reversedSum) :=
    .unaryAt hsum
  obtain ⟨hnest, hleast⟩ := spans_nest
  refine ⟨hgroup, by decide, ?_, hmerged, by decide, ?_⟩
  · have hroot : (Tree.expr reversedGroup).Contains (.expr reversedGroup) :=
      .root (List.mem_singleton.mpr rfl)
    -- down through the parentheses and the sum to its first variable
    have hleaf : (Tree.expr reversedGroup).Contains (.expr ((ofName "a").withSpan ⟨5, 2⟩)) :=
      .child (.child (.child hroot List.mem_cons_self) List.mem_cons_self) List.mem_cons_self
    exact hnest reversedGroup hgroup _ _ hroot hleaf
  · exact (hleast _ _ hmerged).1

end Expr

end ScriptTyping
