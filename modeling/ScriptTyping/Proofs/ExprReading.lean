import Mathlib.Data.List.Basic
import ScriptTyping.Proofs.Canonical

/-!
# Reading expressions

The text of an expression has no blanks between its tokens, and a minus or an exclamation mark can
open an operand or belong to an operator. Still a text that begins with the text of a canonical
expression determines the expression, once it is known what may follow.

* **`Ends`**: what comes next is no character of a given class. Runs of characters of one class are
  read up to such a place (**`append_inj_of_ends`**).
* **`Expr.Lead`**, **`Expr.lead_eq`**: the first character tells what kind of operand is read.
* **`Expr.first`**, **`Expr.links`**: an expression as a chain of operands with operators between
  them. **`links_unique`** reads the chain from left to right.
* **`Expr.bare_eq_of_chain_eq`**: only one canonical expression has a given chain. Its operator is
  the last one among the loosest, so there is one place where the chain can be cut in two.
* **`Expr.readable_of_mem_operands`**, **`Expr.reads`**: by induction over the tree, every operand
  and so every expression is read in one way.
-/

namespace ScriptTyping

/-! ## Runs of characters -/

/-- `Ends p rest`: the rest is empty or begins with a character outside of the class `p`. -/
def Ends (p : Char → Bool) (rest : List Char) : Prop :=
  ∀ c ∈ rest.head?, p c = false

theorem ends_nil (p : Char → Bool) : Ends p [] := nofun

theorem ends_cons {p : Char → Bool} {c : Char} {rest : List Char} :
    Ends p (c :: rest) ↔ p c = false := by
  simp [Ends]

/-- What ends a run of the larger class ends one of the smaller class too. -/
theorem Ends.mono {p q : Char → Bool} {rest : List Char} (h : Ends q rest)
    (hpq : ∀ c, p c = true → q c = true) : Ends p rest := by
  intro c hc
  have hq : q c = false := h c hc
  cases hp : p c with
  | false => rfl
  | true =>
    rw [hpq c hp] at hq
    cases hq

/-- A run is taken whole and no further, since what follows it ends the run. -/
theorem takeWhile_append_of_ends {p : Char → Bool} {run rest : List Char}
    (hrun : ∀ c ∈ run, p c = true) (hrest : Ends p rest) : (run ++ rest).takeWhile p = run := by
  have hnone : rest.takeWhile p = [] := by
    cases rest with
    | nil => rfl
    | cons c rest => rw [List.takeWhile_cons_of_neg (by simp [ends_cons.mp hrest])]
  rw [List.takeWhile_append_of_pos hrun, hnone, List.append_nil]

/-- A run of characters of one class is read up to the first character of another class. -/
theorem append_inj_of_ends {p : Char → Bool} {run run' rest rest' : List Char}
    (hrun : ∀ c ∈ run, p c = true) (hrun' : ∀ c ∈ run', p c = true)
    (hrest : Ends p rest) (hrest' : Ends p rest') (h : run ++ rest = run' ++ rest') :
    run = run' ∧ rest = rest' := by
  have hsame : run = run' := by
    rw [← takeWhile_append_of_ends hrun hrest, h, takeWhile_append_of_ends hrun' hrest']
  subst hsame
  exact ⟨rfl, List.append_cancel_left h⟩

/-! ### What may follow -/

def isOperatorChar (c : Char) : Bool := c ∈ "*/+-=!<>".toList

/-- What may follow an operand: anything that does not go on with a word. -/
abbrev Stops (rest : List Char) : Prop := Ends isWordChar rest

/-- What may follow an expression: anything that begins neither with an operator nor with a
character of a word. -/
abbrev Closes (rest : List Char) : Prop := Ends (fun c => isWordChar c || isOperatorChar c) rest

theorem Closes.stops {rest : List Char} (h : Closes rest) : Stops rest :=
  h.mono fun c hc => by rw [hc, Bool.true_or]

/-! ## Characters of an expression -/

def Expr.chars (expr : Expr) : List Char := expr.text.toList

@[simp] theorem Expr.chars_unary (info : NodeInfo) (op : UnaryOp) (operand : Expr) :
    (Expr.unary info op operand).chars = op.symbol.toList ++ operand.chars := by
  simp [Expr.chars, Expr.text]

@[simp] theorem Expr.chars_binary (info : NodeInfo) (op : BinaryOp) (left right : Expr) :
    (Expr.binary info op left right).chars = left.chars ++ (op.symbol.toList ++ right.chars) := by
  simp [Expr.chars, Expr.text]

@[simp] theorem Expr.chars_parens (info : NodeInfo) (inner : Expr) :
    (Expr.parens info inner).chars = '(' :: (inner.chars ++ [')']) := by
  simp [Expr.chars, Expr.text]

/-- A canonical number is not negative, so that its text consists of digits. -/
theorem Expr.chars_int {info : NodeInfo} {value : Int} (h : 0 ≤ value) :
    (Expr.int info value).chars = Nat.toDigits 10 value.toNat := by
  obtain ⟨n, rfl⟩ := Int.eq_ofNat_of_zero_le h
  exact Nat.toList_repr

theorem isWordChar_of_isDigit {c : Char} (h : c.isDigit = true) : isWordChar c = true := by
  simp [isWordChar, Char.isAlphanum, h]

/-! ## The first character -/

/-- The ways in which an expression can begin. -/
inductive Expr.Lead where
  | digit
  | letter
  | quote
  | sign (op : UnaryOp)
  | paren
  deriving DecidableEq, Repr

/-- What begins with the character. -/
def Expr.Lead.ofChar? (c : Char) : Option Expr.Lead :=
  if c.isDigit then some .digit
  else if isWordStart c then some .letter
  else if c = '\x22' then some .quote
  else if c = '-' then some (.sign .neg)
  else if c = '!' then some (.sign .not)
  else if c = '(' then some .paren
  else none

def Expr.lead : Expr → Expr.Lead
  | .int _ _ => .digit
  | .bool _ _ => .letter
  | .str _ _ => .quote
  | .var _ _ => .letter
  | .unary _ op _ => .sign op
  | .binary _ _ left _ => left.lead
  | .parens _ _ => .paren

/-- The letters come after the digits. -/
theorem nine_lt_of_isAlpha {c : Char} (h : c.isAlpha = true) : '9'.val < c.val := by
  rcases Bool.or_eq_true_iff.mp h with hupper | hlower
  · have hle : 'A'.val ≤ c.val := (of_decide_eq_true hupper).1
    exact UInt32.lt_of_lt_of_le (by decide) hle
  · have hle : 'a'.val ≤ c.val := of_decide_eq_true (Bool.and_eq_true_iff.mp hlower).1
    exact UInt32.lt_of_lt_of_le (by decide) hle

/-- A word and a number are told apart by their first characters. -/
theorem not_isDigit_of_isWordStart {c : Char} (h : isWordStart c = true) : c.isDigit = false := by
  rw [Bool.eq_false_iff]
  intro hdigit
  have hle : c.val ≤ '9'.val := of_decide_eq_true (Bool.and_eq_true_iff.mp hdigit).2
  rcases Bool.or_eq_true_iff.mp h with halpha | hunderscore
  · exact UInt32.not_lt.mpr hle (nine_lt_of_isAlpha halpha)
  · rw [beq_iff_eq.mp hunderscore] at hdigit
    cases hdigit

theorem IsIdentifier.exists_start {name : String} (h : IsIdentifier name) :
    ∃ c rest, name.toList = c :: rest ∧ isWordStart c = true := by
  obtain ⟨hstart, -, -⟩ := h
  cases hname : name.toList with
  | nil =>
    rw [hname] at hstart
    cases hstart
  | cons c rest =>
    rw [hname] at hstart
    exact ⟨c, rest, rfl, hstart⟩

theorem IsIdentifier.isWordChar_of_mem {name : String} (h : IsIdentifier name) :
    ∀ c ∈ name.toList, isWordChar c = true :=
  List.all_eq_true.mp h.2.1

/-- The first character of a canonical expression tells how the expression begins. -/
theorem Expr.exists_lead {expr : Expr} (h : expr.Canonical) :
    ∃ c rest, expr.chars = c :: rest ∧ Expr.Lead.ofChar? c = some expr.lead := by
  induction expr with
  | int info value =>
    have hnil : Nat.toDigits 10 value.toNat ≠ [] := Nat.toDigits_ne_nil
    obtain ⟨c, rest, hdigits⟩ := List.exists_cons_of_ne_nil hnil
    have hdigit : c.isDigit = true :=
      Nat.isDigit_of_mem_toDigits (by decide) (by decide) (hdigits ▸ List.mem_cons_self)
    refine ⟨c, rest, (Expr.chars_int h).trans hdigits, ?_⟩
    rw [Expr.Lead.ofChar?, if_pos hdigit]
    rfl
  | bool info value =>
    cases value with
    | true => exact ⟨'t', "rue".toList, by simp [Expr.chars, Expr.text], rfl⟩
    | false => exact ⟨'f', "alse".toList, by simp [Expr.chars, Expr.text], rfl⟩
  | str info lexeme =>
    obtain ⟨body, hlexeme, -⟩ := h
    exact ⟨'\x22', _, hlexeme, rfl⟩
  | var info name =>
    obtain ⟨c, rest, hname, hstart⟩ := IsIdentifier.exists_start h
    refine ⟨c, rest, hname, ?_⟩
    rw [Expr.Lead.ofChar?, not_isDigit_of_isWordStart hstart, if_neg Bool.false_ne_true,
      if_pos hstart]
    rfl
  | unary info op operand ih =>
    rw [Expr.chars_unary]
    cases op with
    | neg => exact ⟨'-', operand.chars, rfl, rfl⟩
    | not => exact ⟨'!', operand.chars, rfl, rfl⟩
  | binary info op left right ihl ihr =>
    obtain ⟨c, rest, hleft, hlead⟩ := ihl h.1
    refine ⟨c, rest ++ (op.symbol.toList ++ right.chars), ?_, hlead⟩
    rw [Expr.chars_binary, hleft, List.cons_append]
  | parens info inner ih => exact ⟨'(', _, Expr.chars_parens info inner, rfl⟩

/-- Two expressions at the beginning of one text begin alike. -/
theorem Expr.lead_eq {expr expr' : Expr} {rest rest' : List Char} (h : expr.Canonical)
    (h' : expr'.Canonical) (htext : expr.chars ++ rest = expr'.chars ++ rest') :
    expr.lead = expr'.lead := by
  obtain ⟨c, tail, hchars, hlead⟩ := Expr.exists_lead h
  obtain ⟨c', tail', hchars', hlead'⟩ := Expr.exists_lead h'
  rw [hchars, hchars', List.cons_append, List.cons_append, List.cons.injEq] at htext
  rw [htext.1, hlead'] at hlead
  exact (Option.some.inj hlead).symm

/-! ## Operators

An operator of two characters ends with `=`, with which no operand begins. -/

/-- No expression begins with `=`, so that an operator is never taken for a longer one. -/
theorem Expr.ends_chars {expr : Expr} (h : expr.Canonical) (rest : List Char) :
    Ends (· == '=') (expr.chars ++ rest) := by
  obtain ⟨c, tail, hchars, hlead⟩ := Expr.exists_lead h
  rw [hchars, List.cons_append, ends_cons, beq_eq_false_iff_ne]
  rintro rfl
  cases hlead

/-- The symbol of an operator begins with a character that is in no word, and goes on with `=`
only. -/
theorem BinaryOp.exists_symbol (op : BinaryOp) :
    ∃ c tail, op.symbol.toList = c :: tail ∧ isOperatorChar c = true ∧ isWordChar c = false
      ∧ tail.all (· == '=') = true := by
  cases op <;> exact ⟨_, _, rfl, rfl, rfl, rfl⟩

/-- An operator is read off the text that it begins: the longest symbol that fits is the one that
was written. -/
theorem BinaryOp.symbol_append_inj {op op' : BinaryOp} {rest rest' : List Char}
    (hrest : Ends (· == '=') rest) (hrest' : Ends (· == '=') rest')
    (h : op.symbol.toList ++ rest = op'.symbol.toList ++ rest') : op = op' ∧ rest = rest' := by
  obtain ⟨c, tail, hsymbol, -, -, htail⟩ := op.exists_symbol
  obtain ⟨c', tail', hsymbol', -, -, htail'⟩ := op'.exists_symbol
  rw [hsymbol, hsymbol', List.cons_append, List.cons_append, List.cons.injEq] at h
  -- after its first character a symbol goes on for as long as there is `=`
  obtain ⟨hsame, hrests⟩ := append_inj_of_ends (List.all_eq_true.mp htail)
    (List.all_eq_true.mp htail') hrest hrest' h.2
  have hsymbols : op.symbol = op'.symbol := by
    rw [← String.toList_inj, hsymbol, hsymbol', h.1, hsame]
  have hop : some op = some op' := by
    rw [← ofSymbol?_symbol op, hsymbols, ofSymbol?_symbol]
  exact ⟨Option.some.inj hop, hrests⟩

/-! ## Operands -/

/-- An operand is readable if no other one begins a text that it begins itself. -/
def Expr.Readable (expr : Expr) : Prop :=
  ∀ (other : Expr) (rest rest' : List Char), other.Canonical → other.rootOp? = none →
    Stops rest → Stops rest' → expr.chars ++ rest = other.chars ++ rest' →
    expr.bare = other.bare ∧ rest = rest'

/-- The operands that consist of characters of words: numbers, truth values and names. -/
def Expr.isWord : Expr → Bool
  | .int .. | .bool .. | .var .. => true
  | _ => false

theorem Expr.text_bool_mem_keywords (info : NodeInfo) (value : Bool) :
    (Expr.bool info value).text ∈ keywords := by
  cases value <;> simp [Expr.text, keywords]

theorem isWordChar_of_mem_keyword {word : String} (h : word ∈ keywords) :
    ∀ c ∈ word.toList, isWordChar c = true := by
  have hall : ∀ word ∈ keywords, word.toList.all isWordChar = true := by decide
  exact List.all_eq_true.mp (hall word h)

theorem Expr.isWordChar_of_mem_chars {expr : Expr} (h : expr.Canonical)
    (hword : expr.isWord = true) : ∀ c ∈ expr.chars, isWordChar c = true := by
  cases expr with
  | int info value =>
    rw [Expr.chars_int h]
    intro c hc
    exact isWordChar_of_isDigit (Nat.isDigit_of_mem_toDigits (by decide) (by decide) hc)
  | bool info value => exact isWordChar_of_mem_keyword (Expr.text_bool_mem_keywords info value)
  | var info name => exact IsIdentifier.isWordChar_of_mem h
  | str | unary | binary | parens => cases hword

/-- Two operands that are words and begin the same text end at the same place. -/
theorem Expr.word_append_inj {expr other : Expr} {rest rest' : List Char} (h : expr.Canonical)
    (hword : expr.isWord = true) (h' : other.Canonical) (hword' : other.isWord = true)
    (hrest : Stops rest) (hrest' : Stops rest')
    (htext : expr.chars ++ rest = other.chars ++ rest') : expr.chars = other.chars ∧ rest = rest' :=
  append_inj_of_ends (Expr.isWordChar_of_mem_chars h hword)
    (Expr.isWordChar_of_mem_chars h' hword') hrest hrest' htext

/-- The digits give back the number, and a text that begins with a digit is no other operand. -/
theorem Expr.readable_int {info : NodeInfo} {value : Int} (h : (Expr.int info value).Canonical) :
    (Expr.int info value).Readable := by
  intro other rest rest' h' hroot hrest hrest' htext
  have hlead := Expr.lead_eq h h' htext
  cases other with
  | int info' value' =>
    obtain ⟨hchars, hsame⟩ := Expr.word_append_inj h rfl h' rfl hrest hrest' htext
    rw [Expr.chars_int h, Expr.chars_int h'] at hchars
    have hnat : value.toNat = value'.toNat := by
      simpa using congrArg (Nat.ofDigitChars 10 · 0) hchars
    have hvalue : value = value' := by
      simp only [Expr.Canonical] at h h'
      omega
    exact ⟨by rw [Expr.bare, Expr.bare, hvalue], hsame⟩
  | binary => cases hroot
  | bool | str | var | unary | parens => cases hlead

/-- The words `true` and `false` are keywords, so that no name is written like them. -/
theorem Expr.readable_bool (info : NodeInfo) (value : Bool) : (Expr.bool info value).Readable := by
  intro other rest rest' h' hroot hrest hrest' htext
  have h : (Expr.bool info value).Canonical := trivial
  have hlead := Expr.lead_eq h h' htext
  cases other with
  | bool info' value' =>
    obtain ⟨hchars, hsame⟩ := Expr.word_append_inj h rfl h' rfl hrest hrest' htext
    have hvalue : value = value' := by
      cases value <;> cases value' <;> simp [Expr.chars, Expr.text] at hchars ⊢
    exact ⟨by rw [Expr.bare, Expr.bare, hvalue], hsame⟩
  | var info' name' =>
    obtain ⟨hchars, -⟩ := Expr.word_append_inj h rfl h' rfl hrest hrest' htext
    have hname : (Expr.bool info value).text = name' := String.toList_inj.mp hchars
    exact absurd (hname ▸ Expr.text_bool_mem_keywords info value) h'.2.2
  | binary => cases hroot
  | int | str | unary | parens => cases hlead

/-- A name is read up to the end of its word, and is no keyword. -/
theorem Expr.readable_var {info : NodeInfo} {name : String} (h : (Expr.var info name).Canonical) :
    (Expr.var info name).Readable := by
  intro other rest rest' h' hroot hrest hrest' htext
  have hlead := Expr.lead_eq h h' htext
  cases other with
  | var info' name' =>
    obtain ⟨hchars, hsame⟩ := Expr.word_append_inj h rfl h' rfl hrest hrest' htext
    have hname : name = name' := String.toList_inj.mp hchars
    exact ⟨by rw [Expr.bare, Expr.bare, hname], hsame⟩
  | bool info' value' =>
    obtain ⟨hchars, -⟩ := Expr.word_append_inj h rfl h' rfl hrest hrest' htext
    have hname : name = (Expr.bool info' value').text := String.toList_inj.mp hchars
    exact absurd (hname ▸ Expr.text_bool_mem_keywords info' value') h.2.2
  | binary => cases hroot
  | int | str | unary | parens => cases hlead

theorem bne_of_mem_of_notMem {c : Char} {body : List Char} (h : c ∉ body) :
    ∀ d ∈ body, (d != c) = true := by
  intro d hd
  rw [bne_iff_ne]
  rintro rfl
  exact h hd

/-- A string literal is read up to its second quote. -/
theorem Expr.readable_str {info : NodeInfo} {lexeme : String}
    (h : (Expr.str info lexeme).Canonical) : (Expr.str info lexeme).Readable := by
  intro other rest rest' h' hroot hrest hrest' htext
  have hlead := Expr.lead_eq h h' htext
  cases other with
  | str info' lexeme' =>
    obtain ⟨body, hlexeme, hbody⟩ := h
    obtain ⟨body', hlexeme', hbody'⟩ := h'
    change lexeme.toList ++ rest = lexeme'.toList ++ rest' at htext
    rw [hlexeme, hlexeme'] at htext
    simp only [List.cons_append, List.cons.injEq, true_and, List.append_assoc, List.nil_append]
      at htext
    have hquote : ∀ tail : List Char, Ends (· != '\x22') ('\x22' :: tail) := fun tail =>
      ends_cons.mpr rfl
    obtain ⟨hsame, hrests⟩ := append_inj_of_ends (bne_of_mem_of_notMem hbody)
      (bne_of_mem_of_notMem hbody') (hquote rest) (hquote rest') htext
    have hname : lexeme = lexeme' := by
      rw [← String.toList_inj, hlexeme, hlexeme', hsame]
    exact ⟨by rw [Expr.bare, Expr.bare, hname], (List.cons.inj hrests).2⟩
  | binary => cases hroot
  | int | bool | var | unary | parens => cases hlead

/-- The sign is read first, and what follows it is an operand again. -/
theorem Expr.readable_unary {info : NodeInfo} {op : UnaryOp} {operand : Expr}
    (h : (Expr.unary info op operand).Canonical) (hoperand : operand.Readable) :
    (Expr.unary info op operand).Readable := by
  intro other rest rest' h' hroot hrest hrest' htext
  have hlead := Expr.lead_eq h h' htext
  cases other with
  | unary info' op' operand' =>
    obtain rfl : op = op' := Expr.Lead.sign.inj hlead
    rw [Expr.chars_unary, Expr.chars_unary, List.append_assoc, List.append_assoc,
      List.append_cancel_left_eq] at htext
    obtain ⟨hbare, hsame⟩ := hoperand operand' rest rest' h'.1 h'.2 hrest hrest' htext
    exact ⟨by rw [Expr.bare, Expr.bare, hbare], hsame⟩
  | binary => cases hroot
  | int | bool | str | var | parens => cases hlead

/-! ## Chains

An expression is read from left to right as operands with operators between them. -/

/-- The operand that an expression begins with. -/
def Expr.first : Expr → Expr
  | .binary _ _ left _ => left.first
  | expr => expr

/-- The operators after the first operand, each with the operand that follows it. -/
def Expr.links : Expr → List (BinaryOp × Expr)
  | .binary _ op left right => left.links ++ (op, right.first) :: right.links
  | _ => []

def Expr.operands : Expr → List Expr
  | .binary _ _ left right => left.operands ++ right.operands
  | expr => [expr]

def linkChars (links : List (BinaryOp × Expr)) : List Char :=
  links.flatMap fun link => link.1.symbol.toList ++ link.2.chars

@[simp] theorem linkChars_nil : linkChars [] = [] := rfl

@[simp] theorem linkChars_cons (op : BinaryOp) (operand : Expr) (links : List (BinaryOp × Expr)) :
    linkChars ((op, operand) :: links)
      = op.symbol.toList ++ (operand.chars ++ linkChars links) := by
  simp [linkChars]

@[simp] theorem linkChars_append (links links' : List (BinaryOp × Expr)) :
    linkChars (links ++ links') = linkChars links ++ linkChars links' := by
  simp [linkChars]

/-- The text of an expression is that of its chain: an operand, and then operators each with an
operand. -/
theorem Expr.chars_eq_chain (expr : Expr) :
    expr.chars = expr.first.chars ++ linkChars expr.links := by
  induction expr with
  | binary info op left right ihl ihr =>
    rw [Expr.chars_binary, ihl, ihr]
    simp [Expr.first, Expr.links]
  | int | bool | str | var | unary | parens => simp [Expr.first, Expr.links]

theorem Expr.operands_eq_chain (expr : Expr) :
    expr.operands = expr.first :: expr.links.map Prod.snd := by
  induction expr with
  | binary info op left right ihl ihr => simp [Expr.operands, Expr.first, Expr.links, ihl, ihr]
  | int | bool | str | var | unary | parens => rfl

theorem Expr.operands_of_rootOp?_eq_none {expr : Expr} (h : expr.rootOp? = none) :
    expr.operands = [expr] := by
  cases expr with
  | binary => cases h
  | int | bool | str | var | unary | parens => rfl

theorem Expr.canonical_of_mem_operands {expr operand : Expr} (h : expr.Canonical)
    (hmem : operand ∈ expr.operands) : operand.Canonical ∧ operand.rootOp? = none := by
  induction expr with
  | binary info op left right ihl ihr =>
    rcases List.mem_append.mp hmem with hleft | hright
    · exact ihl h.1 hleft
    · exact ihr h.2.1 hright
  | int | bool | str | var | unary | parens =>
    obtain rfl := List.mem_singleton.mp hmem
    exact ⟨h, rfl⟩

/-- Every operand of the links is canonical and has no operator of the chain at its root. -/
def Proper (links : List (BinaryOp × Expr)) : Prop :=
  ∀ link ∈ links, link.2.Canonical ∧ link.2.rootOp? = none

theorem Expr.proper_links {expr : Expr} (h : expr.Canonical) : Proper expr.links := by
  intro link hlink
  apply Expr.canonical_of_mem_operands h
  rw [Expr.operands_eq_chain]
  exact List.mem_cons_of_mem _ (List.mem_map_of_mem hlink)

/-- What follows the first operand goes on with no word: it is an operator or the end of the
expression. -/
theorem stops_linkChars_append {links : List (BinaryOp × Expr)} {rest : List Char}
    (hrest : Closes rest) : Stops (linkChars links ++ rest) := by
  cases links with
  | nil => exact hrest.stops
  | cons link links =>
    obtain ⟨op, operand⟩ := link
    obtain ⟨c, tail, hsymbol, -, hword, -⟩ := op.exists_symbol
    rw [linkChars_cons, hsymbol]
    exact ends_cons.mpr hword

/-- Where another link follows, the expression is not over. -/
theorem not_closes_linkChars_cons {op : BinaryOp} {operand : Expr}
    {links : List (BinaryOp × Expr)} {rest : List Char} :
    ¬ Closes (linkChars ((op, operand) :: links) ++ rest) := by
  obtain ⟨c, tail, hsymbol, hop, -, -⟩ := op.exists_symbol
  rw [linkChars_cons, hsymbol]
  intro hcloses
  have hnone := ends_cons.mp hcloses
  rw [hop, Bool.or_true] at hnone
  cases hnone

def bareLink (link : BinaryOp × Expr) : BinaryOp × Expr := (link.1, link.2.bare)

/-- A chain is read link by link, up to a place where it cannot go on. -/
theorem links_unique {links links' : List (BinaryOp × Expr)} {rest rest' : List Char}
    (hproper : Proper links) (hreads : ∀ link ∈ links, link.2.Readable) (hproper' : Proper links')
    (hrest : Closes rest) (hrest' : Closes rest')
    (h : linkChars links ++ rest = linkChars links' ++ rest') :
    links.map bareLink = links'.map bareLink ∧ rest = rest' := by
  induction links generalizing links' with
  | nil =>
    cases links' with
    | nil => exact ⟨rfl, h⟩
    | cons link' links' =>
      rw [linkChars_nil, List.nil_append] at h
      exact absurd (h ▸ hrest) not_closes_linkChars_cons
  | cons link links ih =>
    cases links' with
    | nil =>
      rw [linkChars_nil, List.nil_append] at h
      exact absurd (h ▸ hrest') not_closes_linkChars_cons
    | cons link' links' =>
      obtain ⟨op, operand⟩ := link
      obtain ⟨op', operand'⟩ := link'
      obtain ⟨⟨hoperand, -⟩, hlinks⟩ := List.forall_mem_cons.mp hproper
      obtain ⟨⟨hoperand', hroot'⟩, hlinks'⟩ := List.forall_mem_cons.mp hproper'
      obtain ⟨hread, hreads⟩ := List.forall_mem_cons.mp hreads
      simp only [linkChars_cons, List.append_assoc] at h
      obtain ⟨rfl, h⟩ := BinaryOp.symbol_append_inj (Expr.ends_chars hoperand _)
        (Expr.ends_chars hoperand' _) h
      obtain ⟨hbare, h⟩ := hread operand' _ _ hoperand' hroot' (stops_linkChars_append hrest)
        (stops_linkChars_append hrest') h
      obtain ⟨htail, hsame⟩ := ih hlinks hreads hlinks' h
      refine ⟨?_, hsame⟩
      rw [List.map_cons, List.map_cons, htail, bareLink, bareLink, hbare]

/-! ## Precedence

The operator at the root of a canonical expression is the last of the loosest operators of the
chain. -/

/-- In a canonical expression the operator at the root is the loosest one, so that a bound on it is
a bound on all of them. -/
theorem Expr.looseness_lt_of_mem_links {expr : Expr} {bound : Nat} (h : expr.Canonical)
    (hroot : ∀ op ∈ expr.rootOp?, op.looseness < bound) :
    ∀ link ∈ expr.links, link.1.looseness < bound := by
  induction expr with
  | binary info op left right ihl ihr =>
    obtain ⟨hleft, hright, hleftRoot, hrightRoot⟩ := h
    have hop : op.looseness < bound := hroot op rfl
    intro link hlink
    rcases List.mem_append.mp hlink with hmem | hmem
    · refine ihl hleft (fun inner hinner => ?_) link hmem
      exact Nat.lt_of_le_of_lt (hleftRoot inner hinner) hop
    rcases List.mem_cons.mp hmem with rfl | hmem
    · exact hop
    · exact ihr hright (fun inner hinner => Nat.lt_trans (hrightRoot inner hinner) hop) link hmem
  | int | bool | str | var | unary | parens => exact nofun

/-- The links before the operator bind no looser than it. -/
theorem Expr.looseness_left {info : NodeInfo} {op : BinaryOp} {left right : Expr}
    (h : (Expr.binary info op left right).Canonical) :
    ∀ link ∈ left.links.map bareLink, link.1.looseness ≤ op.looseness := by
  rw [List.forall_mem_map]
  intro link hlink
  exact Nat.lt_succ_iff.mp (Expr.looseness_lt_of_mem_links h.1
    (fun inner hinner => Nat.lt_succ_of_le (h.2.2.1 inner hinner)) link hlink)

/-- The links after the operator bind tighter than it. -/
theorem Expr.looseness_right {info : NodeInfo} {op : BinaryOp} {left right : Expr}
    (h : (Expr.binary info op left right).Canonical) :
    ∀ link ∈ right.links.map bareLink, link.1.looseness < op.looseness := by
  rw [List.forall_mem_map]
  exact Expr.looseness_lt_of_mem_links h.2.1 h.2.2.2

/-- A list has one last maximum, so there is one way to cut it there. -/
theorem split_unique {α : Type} (weight : α → Nat) {before before' after after' : List α}
    {x x' : α}
    (hbefore : ∀ a ∈ before, weight a ≤ weight x) (hafter : ∀ a ∈ after, weight a < weight x)
    (hbefore' : ∀ a ∈ before', weight a ≤ weight x')
    (hafter' : ∀ a ∈ after', weight a < weight x')
    (h : before ++ x :: after = before' ++ x' :: after') :
    before = before' ∧ x = x' ∧ after = after' := by
  -- were the cuts apart, each of `x` and `x'` would stand before or after the other
  rcases List.append_eq_append_iff.mp h with ⟨mid, hmid, hcut⟩ | ⟨mid, hmid, hcut⟩
  · cases mid with
    | nil =>
      rw [List.nil_append, List.cons.injEq] at hcut
      exact ⟨by rw [hmid, List.append_nil], hcut⟩
    | cons a mid =>
      obtain ⟨rfl, rfl⟩ := List.cons.inj hcut
      have hle : weight x ≤ weight x' := hbefore' x (by simp [hmid])
      have hlt : weight x' < weight x := hafter x' (by simp)
      exact absurd hlt (Nat.not_lt.mpr hle)
  · cases mid with
    | nil =>
      rw [List.nil_append, List.cons.injEq] at hcut
      exact ⟨by rw [hmid, List.append_nil], hcut.1.symm, hcut.2.symm⟩
    | cons a mid =>
      obtain ⟨rfl, rfl⟩ := List.cons.inj hcut
      have hle : weight x' ≤ weight x := hbefore x' (by simp [hmid])
      have hlt : weight x < weight x' := hafter' x (by simp)
      exact absurd hlt (Nat.not_lt.mpr hle)

theorem Expr.links_ne_nil (info : NodeInfo) (op : BinaryOp) (left right : Expr) :
    (Expr.binary info op left right).links.map bareLink ≠ [] := by
  simp [Expr.links]

/-- Only one canonical expression has a given chain. -/
theorem Expr.bare_eq_of_chain_eq {expr other : Expr} (h : expr.Canonical) (h' : other.Canonical)
    (hfirst : expr.first.bare = other.first.bare)
    (hlinks : expr.links.map bareLink = other.links.map bareLink) : expr.bare = other.bare := by
  induction expr generalizing other with
  | binary info op left right ihl ihr =>
    cases other with
    | binary info' op' left' right' =>
      simp only [Expr.links, List.map_append, List.map_cons, Expr.first] at hlinks hfirst
      -- both trees cut the same chain, each at its own operator
      obtain ⟨hleft, hcut, hright⟩ := split_unique (fun link => link.1.looseness)
        (Expr.looseness_left h) (Expr.looseness_right h) (Expr.looseness_left h')
        (Expr.looseness_right h') hlinks
      obtain ⟨rfl, hfirstRight⟩ := Prod.mk.inj hcut
      rw [Expr.bare, Expr.bare, ihl h.1 h'.1 hfirst hleft, ihr h.2.1 h'.2.1 hfirstRight hright]
    | int | bool | str | var | unary | parens =>
      exact absurd hlinks (Expr.links_ne_nil info op left right)
  | int | bool | str | var | unary | parens =>
    cases other with
    | binary info' op' left' right' =>
      exact absurd hlinks.symm (Expr.links_ne_nil info' op' left' right')
    | int | bool | str | var | unary | parens => exact hfirst

/-! ## Reading -/

/-- An expression is read in one way if its operands are. -/
theorem Expr.reads_of_operands {expr other : Expr} {rest rest' : List Char} (h : expr.Canonical)
    (hoperands : ∀ operand ∈ expr.operands, operand.Readable) (h' : other.Canonical)
    (hrest : Closes rest) (hrest' : Closes rest')
    (htext : expr.chars ++ rest = other.chars ++ rest') :
    expr.bare = other.bare ∧ rest = rest' := by
  rw [Expr.operands_eq_chain, List.forall_mem_cons, List.forall_mem_map] at hoperands
  obtain ⟨hfirst, hlinks⟩ := hoperands
  have hother : other.first.Canonical ∧ other.first.rootOp? = none := by
    apply Expr.canonical_of_mem_operands h'
    rw [Expr.operands_eq_chain]
    exact List.mem_cons_self
  rw [Expr.chars_eq_chain expr, Expr.chars_eq_chain other, List.append_assoc,
    List.append_assoc] at htext
  obtain ⟨hbare, htext⟩ := hfirst other.first _ _ hother.1 hother.2 (stops_linkChars_append hrest)
    (stops_linkChars_append hrest') htext
  -- the operands and operators are known now, and precedence puts them together
  obtain ⟨hchain, hsame⟩ := links_unique (Expr.proper_links h) hlinks (Expr.proper_links h') hrest
    hrest' htext
  exact ⟨Expr.bare_eq_of_chain_eq h h' hbare hchain, hsame⟩

/-- The expression inside is read up to the closing parenthesis, operand by operand. -/
theorem Expr.readable_parens {info : NodeInfo} {inner : Expr}
    (hcanonical : inner.Canonical) (hinner : ∀ operand ∈ inner.operands, operand.Readable) :
    (Expr.parens info inner).Readable := by
  intro other rest rest' h' hroot hrest hrest' htext
  have h : (Expr.parens info inner).Canonical := hcanonical
  have hlead := Expr.lead_eq h h' htext
  cases other with
  | parens info' inner' =>
    have hcanonical' : inner'.Canonical := h'
    simp only [Expr.chars_parens, List.cons_append, List.cons.injEq, true_and, List.append_assoc,
      List.nil_append] at htext
    have hclose : ∀ tail : List Char, Closes (')' :: tail) := fun tail => ends_cons.mpr rfl
    obtain ⟨hbare, hsame⟩ := Expr.reads_of_operands hcanonical hinner hcanonical' (hclose rest)
      (hclose rest') htext
    exact ⟨by rw [Expr.bare, Expr.bare, hbare], (List.cons.inj hsame).2⟩
  | binary => cases hroot
  | int | bool | str | var | unary => cases hlead

/-- Every operand of a canonical expression is readable. By induction on the expression: what is
inside parentheses has its own operands, and these come first. -/
theorem Expr.readable_of_mem_operands {expr operand : Expr} (h : expr.Canonical)
    (hmem : operand ∈ expr.operands) : operand.Readable := by
  induction expr generalizing operand with
  | binary info op left right ihl ihr =>
    rcases List.mem_append.mp hmem with hleft | hright
    · exact ihl h.1 hleft
    · exact ihr h.2.1 hright
  | int info value =>
    obtain rfl := List.mem_singleton.mp hmem
    exact Expr.readable_int h
  | bool info value =>
    obtain rfl := List.mem_singleton.mp hmem
    exact Expr.readable_bool info value
  | str info lexeme =>
    obtain rfl := List.mem_singleton.mp hmem
    exact Expr.readable_str h
  | var info name =>
    obtain rfl := List.mem_singleton.mp hmem
    exact Expr.readable_var h
  | unary info op inner ih =>
    obtain rfl := List.mem_singleton.mp hmem
    have hself : inner ∈ inner.operands := by simp [Expr.operands_of_rootOp?_eq_none h.2]
    exact Expr.readable_unary h (ih h.1 hself)
  | parens info inner ih =>
    obtain rfl := List.mem_singleton.mp hmem
    exact Expr.readable_parens h fun operand hoperand => ih h hoperand

/-- A text that begins with a canonical expression, followed by something that cannot go on with it,
tells the expression and where it ends. -/
theorem Expr.reads {expr other : Expr} {rest rest' : List Char} (h : expr.Canonical)
    (h' : other.Canonical) (hrest : Closes rest) (hrest' : Closes rest')
    (htext : expr.chars ++ rest = other.chars ++ rest') :
    expr.bare = other.bare ∧ rest = rest' := by
  have hoperands : ∀ operand ∈ expr.operands, operand.Readable := fun operand hmem =>
    Expr.readable_of_mem_operands h hmem
  exact Expr.reads_of_operands h hoperands h' hrest hrest' htext

end ScriptTyping
