/-!
# Spans

A span is a pair of byte offsets into some source text. Nothing forces the start before the end:
a reversed span is a legal value, of length zero.

* `merge_covers_iff`: merging two spans gives the least span that covers both;
* `growLeft_covers`, `growBoth_covers`: growing a span covers it, reversed or not.
-/

namespace ScriptTyping

/-- A region of source text, from byte offset `start` up to byte offset `stop`. -/
structure Span where
  start : Nat := 0
  stop : Nat := 0
  deriving DecidableEq, Repr, Inhabited

namespace Span

/-- The number of bytes in the region; a reversed span has none. -/
def length (span : Span) : Nat := span.stop - span.start

def isEmpty (span : Span) : Bool := span.length == 0

/-- The region from the earlier of the two starts to the later of the two ends. -/
def merge (left right : Span) : Span where
  start := min left.start right.start
  stop := max left.stop right.stop

/-- Reaches one byte further to the left, unless the region is empty or begins the text. -/
def growLeft (span : Span) : Span :=
  if span.isEmpty then span else { span with start := span.start - 1 }

/-- Reaches one byte further on both sides, unless the region is empty. -/
def growBoth (span : Span) : Span :=
  if span.isEmpty then span else { start := span.start - 1, stop := span.stop + 1 }

/-- `outer.Covers inner`: no byte offset of `inner` lies outside the bounds of `outer`. -/
def Covers (outer inner : Span) : Prop :=
  outer.start ≤ inner.start ∧ inner.stop ≤ outer.stop

instance (outer inner : Span) : Decidable (outer.Covers inner) :=
  inferInstanceAs (Decidable (_ ∧ _))

/-- The written form of a span inside fault messages. -/
def describe (span : Span) : String :=
  "Span \x7b start: " ++ toString span.start ++ ", end: " ++ toString span.stop ++ " \x7d"

/-! ## Covering -/

theorem Covers.refl (span : Span) : span.Covers span :=
  ⟨Nat.le_refl _, Nat.le_refl _⟩

theorem Covers.trans {a b c : Span} (hab : a.Covers b) (hbc : b.Covers c) : a.Covers c :=
  ⟨Nat.le_trans hab.1 hbc.1, Nat.le_trans hbc.2 hab.2⟩

/-- A merged span is the least one that covers both. -/
theorem merge_covers_iff {outer left right : Span} :
    outer.Covers (left.merge right) ↔ outer.Covers left ∧ outer.Covers right := by
  simp only [Covers, merge]
  omega

theorem merge_covers_left (left right : Span) : (left.merge right).Covers left :=
  (merge_covers_iff.mp (Covers.refl _)).1

theorem merge_covers_right (left right : Span) : (left.merge right).Covers right :=
  (merge_covers_iff.mp (Covers.refl _)).2

theorem growLeft_covers (span : Span) : span.growLeft.Covers span := by
  unfold growLeft Covers
  split <;> simp

theorem growBoth_covers (span : Span) : span.growBoth.Covers span := by
  unfold growBoth Covers
  split <;> simp

end Span

end ScriptTyping
