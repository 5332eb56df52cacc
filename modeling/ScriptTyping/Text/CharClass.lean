/-!
# Classes of characters

A class of characters is kept as closed ranges of code points, ascending and apart. The order is
part of the type, so that a search can stop at the first range beyond the character it looks for.

* `contains_iff`: stopping early loses nothing: a character is in a class iff one of the ranges
  holds its code point.

Tables of Unicode properties are those of Unicode 15.1.
-/

namespace ScriptTyping.Text

/-- The code points from `first` to `last`, both included. -/
structure CodeRange where
  first : Nat
  last : Nat
  deriving DecidableEq, Repr

namespace CodeRange

def Holds (range : CodeRange) (code : Nat) : Prop :=
  range.first ≤ code ∧ code ≤ range.last

/-- Whether no range is empty, each leaves a gap to the one before it, and the first begins at `low`
or later. -/
def ascendFrom (low : Nat) : List CodeRange → Bool
  | [] => true
  | range :: rest =>
    low.ble range.first && range.first.ble range.last && ascendFrom (range.last + 2) rest

/-- Looks for a code point in ascending ranges. -/
def search (code : Nat) : List CodeRange → Bool
  | [] => false
  | range :: rest =>
    if code < range.first then false
    else if code ≤ range.last then true
    else search code rest

theorem low_le_of_ascendFrom {low : Nat} {ranges : List CodeRange}
    (h : ascendFrom low ranges = true) : ∀ range ∈ ranges, low ≤ range.first := by
  induction ranges generalizing low with
  | nil => simp
  | cons head rest ih =>
    simp only [ascendFrom, Bool.and_eq_true, Nat.ble_eq] at h
    intro range mem
    rcases List.mem_cons.mp mem with rfl | mem
    · exact h.1.1
    · have later := ih h.2 range mem
      have := h.1
      omega

/-- The search may stop at the first range that begins behind the code: the later ones begin further
behind still. -/
theorem search_iff {low code : Nat} {ranges : List CodeRange} (h : ascendFrom low ranges = true) :
    search code ranges = true ↔ ∃ range ∈ ranges, range.Holds code := by
  induction ranges generalizing low with
  | nil => simp [search]
  | cons head rest ih =>
    simp only [ascendFrom, Bool.and_eq_true, Nat.ble_eq] at h
    unfold search
    by_cases before : code < head.first
    · -- no range further on begins early enough
      rw [if_pos before]
      constructor
      · intro found
        cases found
      · rintro ⟨range, mem, holds⟩
        rcases List.mem_cons.mp mem with rfl | mem
        · exact absurd holds.1 (by omega)
        · have later := low_le_of_ascendFrom h.2 range mem
          have := h.1
          have := holds.1
          omega
    · rw [if_neg before]
      by_cases within : code ≤ head.last
      · rw [if_pos within]
        exact ⟨fun _ => ⟨head, List.mem_cons_self, by omega, within⟩, fun _ => rfl⟩
      · rw [if_neg within, ih h.2]
        constructor
        · rintro ⟨range, mem, holds⟩
          exact ⟨range, List.mem_cons_of_mem _ mem, holds⟩
        · rintro ⟨range, mem, holds⟩
          rcases List.mem_cons.mp mem with rfl | mem
          · exact absurd holds.2 within
          · exact ⟨range, mem, holds⟩

end CodeRange

/-- A class of characters. -/
structure CharClass where
  ranges : List CodeRange
  ascending : CodeRange.ascendFrom 0 ranges = true

namespace CharClass

def contains (chars : CharClass) (c : Char) : Bool :=
  CodeRange.search c.toNat chars.ranges

/-- A class contains the characters whose codes are in one of its ranges. -/
theorem contains_iff {chars : CharClass} {c : Char} :
    chars.contains c = true ↔ ∃ range ∈ chars.ranges, range.Holds c.toNat :=
  CodeRange.search_iff chars.ascending

end CharClass

end ScriptTyping.Text
