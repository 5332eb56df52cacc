import ScriptTyping.Text.DefaultIgnorable
import ScriptTyping.Text.EastAsianWide
import ScriptTyping.Text.GraphemeExtend

/-!
# Widths of characters

How many columns a character takes on a terminal. A tab reaches to the next tab stop, so its width
depends on where it stands. Every other character has a width of its own:

* none, if it is a control character, is shown as nothing, or is drawn on top of its neighbours;
* two, if East Asian typography gives it a double cell;
* one otherwise, except for two Khmer characters that stand for a sequence of others.
-/

namespace ScriptTyping.Text

/-- Vowel signs that are canonically two characters of `graphemeExtend`. -/
def composedVowelSign : CharClass where
  ranges :=
    [⟨0x0CC0, 0x0CC0⟩, ⟨0x0CC7, 0x0CC8⟩, ⟨0x0CCA, 0x0CCB⟩, ⟨0x1B3B, 0x1B3B⟩, ⟨0x1B3D, 0x1B3D⟩,
      ⟨0x1B43, 0x1B43⟩]
  ascending := by decide

/-- Vowels and final consonants that join the leading consonant of a Hangul syllable. -/
def joiningJamo : CharClass where
  ranges := [⟨0x1160, 0x11FF⟩, ⟨0xD7B0, 0xD7C6⟩, ⟨0xD7CB, 0xD7FB⟩]
  ascending := by decide

/-- Marks drawn above or around the characters that follow them, and the Devanagari caret, which is
drawn between its neighbours. -/
def overlaidMark : CharClass where
  ranges :=
    [⟨0x0605, 0x0605⟩, ⟨0x070F, 0x070F⟩, ⟨0x0890, 0x0891⟩, ⟨0x08E2, 0x08E2⟩, ⟨0xA8FA, 0xA8FA⟩]
  ascending := by decide

/-- Consonants that are written onto the character that follows them. In Unicode's terms these
begin a grapheme cluster without being concatenation marks. -/
def prefixedConsonant : CharClass where
  ranges :=
    [⟨0x0D4E, 0x0D4E⟩, ⟨0x111C2, 0x111C3⟩, ⟨0x1193F, 0x1193F⟩, ⟨0x11941, 0x11941⟩,
      ⟨0x11A3A, 0x11A3A⟩, ⟨0x11A84, 0x11A89⟩, ⟨0x11D46, 0x11D46⟩, ⟨0x11F02, 0x11F02⟩]
  ascending := by decide

/-- The two blocks of control characters. -/
def control : CharClass where
  ranges := [⟨0x0000, 0x001F⟩, ⟨0x007F, 0x009F⟩]
  ascending := by decide

/-- Characters that keep a cell although they only fill in or join: the filler of a leading Hangul
consonant, and the Tifinagh consonant joiner. -/
def placeholder : CharClass where
  ranges := [⟨0x115F, 0x115F⟩, ⟨0x2D7F, 0x2D7F⟩]
  ascending := by decide

/-- Whether a character takes no column. -/
def isInvisible (c : Char) : Bool :=
  control.contains c ||
    !placeholder.contains c &&
      (defaultIgnorable.contains c || graphemeExtend.contains c || composedVowelSign.contains c ||
        joiningJamo.contains c || overlaidMark.contains c || prefixedConsonant.contains c)

/-- The columns of a character other than a tab. The Khmer vowel qaa is written like two letters,
and the Khmer sign beyyal like three. -/
def glyphWidth (c : Char) : Nat :=
  if isInvisible c then 0
  else if c.toNat = 0x17D8 then 3
  else if c.toNat = 0x17A4 || eastAsianWide.contains c then 2
  else 1

def tabStop : Nat := 4

/-- The columns a character takes when `column` columns stand before it on its line. -/
def width (column : Nat) (c : Char) : Nat :=
  if c = '\t' then tabStop - column % tabStop else glyphWidth c

end ScriptTyping.Text
