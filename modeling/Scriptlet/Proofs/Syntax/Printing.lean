import Scriptlet.Proofs.Number.ReadBack
import Scriptlet.Proofs.Syntax.Tree
import Scriptlet.Proofs.Token.Spelling

/-!
Abstract programs as text.

An expression is printed for the tier of the place where it stands: it is put in parentheses exactly
if its outermost operator binds looser than that tier.  The left operand of an operator that groups
from the left stands in the operator's own tier and the right one in the next tighter; for `^`, which
groups from the right, it is the other way round.  Statements of one list have semicolons between
them, and an equality is written with two signs.

What is printed are tokens.  A text is a rendering of a program if it is laid out from them, with any
gaps; `render` is one of them, with a blank behind every word and every numeral.

So there are two things to show, and only the second is shown here.  That the tokens are those of the
program is a matter of the grammar.  That there is a text at all which has these tokens is a matter of
spelling: each token must be spelled in a way that is read as this token, and next to each other two
spellings must not run into one.  `Spellable` says the first of a list of tokens, and it goes through
all the ways to put lists together, so a recursion over the abstract syntax gives it for a whole
program.  The blanks see to the second.

The names and literals of an abstract program carry the proof that they can be spelled: a name is an
identifier and no reserved word, a literal has neither a quote nor a comment mark inside.
-/

namespace Scriptlet

/-! ## Tiers of operators -/

/-- The tier of an operation. -/
def Operator.tier : Operator → Tier
  | .maximum => .maximum
  | .add | .subtract => .sum
  | .multiply | .divide | .remainder => .product
  | .power => .power

/-- The tier in which a left operand stands. -/
def Operator.leftTier : Operator → Tier
  | .power => .atom
  | op => op.tier

/-- The tier in which a right operand stands. -/
def Operator.rightTier : Operator → Tier
  | .power => .power
  | op => op.tier.tighter

namespace Syntax

/-! ## Tokens -/

/-- Lists of tokens with a mark between them. -/
def separated (mark : Char) : List (List Token.Kind) → List Token.Kind
  | [] => []
  | [kinds] => kinds
  | kinds :: more => kinds ++ .symbol mark :: separated mark more

/-- A list of tokens between two marks. -/
def enclosed (opening closing : Char) (kinds : List Token.Kind) : List Token.Kind :=
  .symbol opening :: (kinds ++ [.symbol closing])

/-- In parentheses, if the operator `op` binds looser than the tier. -/
def grouped (tier : Tier) (op : Operator) (kinds : List Token.Kind) : List Token.Kind :=
  if op.tier.rank ≤ tier.rank then kinds else enclosed '(' ')' kinds

/-- A list of statements between braces. -/
def braced (statements : List (List Token.Kind)) : List Token.Kind :=
  enclosed '\x7b' '\x7d' (separated ';' statements)

mutual

/-- The tokens of an expression that stands in the given tier. -/
def Expression.kinds (tier : Tier) : Expression → List Token.Kind
  | .number x => [.number x.value]
  | .text s => [.text s.quoted]
  | .name x => [.identifier x.spelling]
  | .operation op left right =>
    grouped tier op
      (left.kinds op.leftTier ++ .symbol op.symbol :: right.kinds op.rightTier)
  | .call function arguments =>
    .identifier function.spelling ::
      enclosed '(' ')' (separated ',' (Expression.kindsOfAll arguments))

/-- The tokens of each of several expressions that stand anywhere. -/
def Expression.kindsOfAll : List Expression → List (List Token.Kind)
  | [] => []
  | e :: es => e.kinds .maximum :: Expression.kindsOfAll es

end

/-- Subtraction groups from the left, so only a right operand needs parentheses. -/
example (x y z : Name) :
    (Expression.operation .subtract (.operation .subtract (.name x) (.name y)) (.name z)).kinds
        .maximum =
      [.identifier x.spelling, .symbol '-', .identifier y.spelling, .symbol '-',
        .identifier z.spelling] ∧
    (Expression.operation .subtract (.name x) (.operation .subtract (.name y) (.name z))).kinds
        .maximum =
      [.identifier x.spelling, .symbol '-', .symbol '(', .identifier y.spelling, .symbol '-',
        .identifier z.spelling, .symbol ')'] := ⟨rfl, rfl⟩

/-- The sign of a comparison. -/
def signKinds : Comparator → List Token.Kind
  | .greater => [.symbol '>']
  | .less => [.symbol '<']
  | .equal => [.symbol '=', .symbol '=']

def Condition.kinds : Condition → List Token.Kind
  | .expression e => e.kinds .maximum
  | .comparison op left right => left.kinds .maximum ++ (signKinds op ++ right.kinds .maximum)

mutual

def Statement.kinds : Statement → List Token.Kind
  | .assign target value =>
    .identifier target.spelling :: .symbol '=' :: value.kinds .maximum
  | .write value => .keyword .writeValue :: enclosed '(' ')' (value.kinds .maximum)
  | .read target => .keyword .readValue :: enclosed '(' ')' [.identifier target.spelling]
  | .whileLoop test body =>
    .keyword .whileLoop :: (enclosed '(' ')' test.kinds ++ braced (Statement.kindsOfAll body))
  | .ifThen test consequence =>
    .keyword .ifThen :: (enclosed '(' ')' test.kinds ++ braced (Statement.kindsOfAll consequence))
  | .ifThenElse test consequence alternative =>
    .keyword .ifThen :: (enclosed '(' ')' test.kinds ++
      (braced (Statement.kindsOfAll consequence) ++
        .keyword .elseThen :: braced (Statement.kindsOfAll alternative)))
  | .returnValue value => .keyword .returnValue :: value.kinds .maximum
  | .block body => braced (Statement.kindsOfAll body)

def Statement.kindsOfAll : List Statement → List (List Token.Kind)
  | [] => []
  | s :: ss => s.kinds :: Statement.kindsOfAll ss

end

/-- The tokens of a declaration. -/
def Function.kinds (f : Function) : List Token.Kind :=
  .keyword .function :: .identifier f.name.spelling ::
    (enclosed '(' ')' (separated ',' (f.parameters.map fun x => [.identifier x.spelling])) ++
      braced (Statement.kindsOfAll f.body))

/-- The tokens of a program. -/
def kinds (functions : List Function) : List Token.Kind := functions.flatMap Function.kinds

/-! ## Texts -/

/-- A text that has the tokens of the program, whatever stands between them. -/
def Renders (functions : List Function) (source : String) : Prop :=
  Layout (kinds functions) source.toList

/-- The least gap behind a token: a blank where the token would run on. -/
def gapBehind (kind : Token.Kind) : List Char := if kind.runsOn then [' '] else []

/-- The tokens as they are displayed, with the least gaps. -/
def spell (kinds : List Token.Kind) : List Char :=
  kinds.flatMap fun kind => kind.display.toList ++ gapBehind kind

/-- The text of a program with the least gaps. -/
def render (functions : List Function) : String := String.ofList (spell (kinds functions))

/-! ## The rendering has a layout

Each token is spelled as it is displayed, and the blanks keep them apart. -/

/-- Every token of the list is spelled as it is displayed. -/
def Spellable (kinds : List Token.Kind) : Prop :=
  ∀ kind ∈ kinds, Spells kind.display.toList kind

/-- A blank ends a word, so no token runs into the next one. -/
theorem layout_spell {kinds : List Token.Kind} (h : Spellable kinds) {gap : List Char}
    (hgap : ∀ c ∈ gap, isGap c = true) : Layout kinds (gap ++ spell kinds) := by
  induction kinds generalizing gap with
  | nil =>
    rw [show spell [] = [] from rfl, List.append_nil]
    exact .finish hgap
  | cons kind kinds ih =>
    have htext : spell (kind :: kinds) = kind.display.toList ++ (gapBehind kind ++ spell kinds) := by
      rw [spell, List.flatMap_cons, List.append_assoc]
      rfl
    -- a word is ended by the space behind it
    have hends : kind.runsOn = true → EndsWord (gapBehind kind ++ spell kinds) := by
      intro hrun c hc
      rw [gapBehind, if_pos hrun] at hc
      cases hc
      decide
    have hbehind : ∀ c ∈ gapBehind kind, isGap c = true := by
      unfold gapBehind
      split
      · exact List.forall_mem_singleton.2 rfl
      · exact List.forall_mem_nil _
    rw [htext]
    apply Layout.token hgap (h kind List.mem_cons_self) hends
    exact ih (fun k hk => h k (List.mem_cons_of_mem _ hk)) hbehind

theorem Spellable.nil : Spellable [] := by
  intro kind hkind
  cases hkind

theorem Spellable.cons {kind : Token.Kind} {kinds : List Token.Kind}
    (hkind : Spells kind.display.toList kind) (hkinds : Spellable kinds) :
    Spellable (kind :: kinds) :=
  List.forall_mem_cons.2 ⟨hkind, hkinds⟩

theorem Spellable.append {kinds more : List Token.Kind} (h : Spellable kinds)
    (hmore : Spellable more) : Spellable (kinds ++ more) := by
  intro kind hkind
  rcases List.mem_append.1 hkind with hkind | hkind
  · exact h kind hkind
  · exact hmore kind hkind

/-! ### Single tokens -/

/-- The symbols that programs are printed with. -/
def marks : List Char :=
  ['(', ')', '\x7b', '\x7d', '=', ';', ',', '+', '-', '*', '/', '%', '^', '$', '<', '>']

theorem toList_display_symbol (c : Char) : (Token.Kind.symbol c).display.toList = [c] := by
  simp [Token.Kind.display, Char.toString]

/-- A symbol is spelled by itself. -/
theorem spells_symbol {c : Char} (h : c ∈ marks) :
    Spells (Token.Kind.symbol c).display.toList (.symbol c) := by
  have hall : marks.all (fun d => !d.isDigit && !Text.isLetter d && d != quoteMark &&
      !Text.isBlank d && d != commentMark) = true := by decide +kernel
  have hc := List.all_eq_true.1 hall c h
  simp only [Bool.and_eq_true, Bool.not_eq_true', bne_iff_ne] at hc
  obtain ⟨⟨⟨⟨hdigit, hletter⟩, hquote⟩, hblank⟩, hmark⟩ := hc
  rw [toList_display_symbol]
  exact .symbol hdigit hletter hquote hblank hmark

/-- A reserved word is spelled as it is displayed. -/
theorem spells_keyword (k : Keyword) :
    Spells (Token.Kind.keyword k).display.toList (.keyword k) := by
  have hkind : wordKind k.spelling = .keyword k := by
    rw [wordKind, Keyword.ofSpelling?_spelling]
  rw [← hkind]
  cases k <;> exact .word (by decide) (List.all_eq_true.1 (by decide)) (by decide)

/-- Digits and points do not end a numeral. -/
theorem inWord_of_isDigit {c : Char} (h : c.isDigit = true ∨ c = '.') :
    inWord c = true ∧ c ≠ commentMark := by
  -- the delimiters are few, so this is seen by looking at each
  have hall : (commentMark :: delimiters).all (fun d => !d.isDigit && d != '.') = true := by decide
  have hdelimiters : ∀ d ∈ commentMark :: delimiters, ¬ (d.isDigit = true ∨ d = '.') := by
    intro d hd
    have hapart := List.all_eq_true.1 hall d hd
    simp only [Bool.and_eq_true, Bool.not_eq_true', bne_iff_ne] at hapart
    rintro (hdigit | hpoint)
    · rw [hapart.1] at hdigit
      cases hdigit
    · exact hapart.2 hpoint
  constructor
  · cases hc : inWord c with
    | true => rfl
    | false =>
      have hmem : c ∈ delimiters := by simpa [inWord] using hc
      exact absurd h (hdelimiters c (List.mem_cons_of_mem _ hmem))
  · rintro rfl
    exact hdelimiters _ List.mem_cons_self h

/-- **Numbers.**  The text of a number that is finite and not negative spells it. -/
theorem Numeral.spells (x : Numeral) :
    Spells (Token.Kind.number x.value).display.toList (.number x.value) := by
  obtain ⟨d, hread, hvalue⟩ := Number.read?_plain x.unsigned x.finite
  obtain ⟨e, htext, -, -⟩ := Number.toList_plain x.unsigned x.finite
  obtain ⟨⟨c, cs, hcs, hdigit⟩, hchars⟩ := e.positional_chars
  show Spells (Number.plain x.value).toList _
  rw [htext, hcs] at hread ⊢
  rw [hcs] at hchars
  have hword := fun d hd => inWord_of_isDigit (hchars d (List.mem_cons_of_mem _ hd))
  have hspells : Spells (c :: cs) (.number (d.toFloat false)) := by
    apply Spells.numeral hdigit (fun d hd => (hword d hd).1) _ hread
    intro hmem
    exact (hword _ hmem).2 rfl
  rwa [hvalue] at hspells

theorem Literal.spells (s : Literal) :
    Spells (Token.Kind.text s.quoted).display.toList (.text s.quoted) := by
  show Spells s.quoted.toList (.text s.quoted)
  rw [Literal.quoted, String.toList_ofList]
  exact .literal s.unquoted s.unmarked

/-- A name is spelled as it is, being no reserved word. -/
theorem Name.spells (x : Name) :
    Spells (Token.Kind.identifier x.spelling).display.toList (.identifier x.spelling) := by
  have hkind : wordKind x.spelling = .identifier x.spelling := by
    unfold wordKind
    rw [Name.spelling, x.unreserved]
  have hword : Spells (x.first :: x.others) (wordKind x.spelling) :=
    .word x.letter x.inWord x.unmarked
  show Spells x.spelling.toList _
  rwa [hkind, ← String.toList_ofList (l := x.first :: x.others)] at hword

/-! ### Phrases -/

theorem Spellable.enclosed {opening closing : Char} {kinds : List Token.Kind}
    (hopening : opening ∈ marks)
    (hclosing : closing ∈ marks) (h : Spellable kinds) :
    Spellable (enclosed opening closing kinds) :=
  .cons (spells_symbol hopening) (h.append (.cons (spells_symbol hclosing) .nil))

/-- Lists of tokens with a mark between them. -/
theorem Spellable.separated {mark : Char} (hmark : mark ∈ marks)
    {all : List (List Token.Kind)} (h : ∀ kinds ∈ all, Spellable kinds) :
    Spellable (separated mark all) := by
  fun_induction Syntax.separated mark all with
  | case1 => exact .nil
  | case2 kinds => exact h kinds List.mem_cons_self
  | case3 kinds more hmore ih =>
    obtain ⟨hkinds, hall⟩ := List.forall_mem_cons.1 h
    exact hkinds.append (.cons (spells_symbol hmark) (ih hall))

theorem Spellable.grouped {tier : Tier} {op : Operator} {kinds : List Token.Kind}
    (h : Spellable kinds) : Spellable (grouped tier op kinds) := by
  unfold Syntax.grouped
  split
  · exact h
  · exact .enclosed (by decide) (by decide) h

theorem Spellable.braced {all : List (List Token.Kind)} (h : ∀ kinds ∈ all, Spellable kinds) :
    Spellable (braced all) :=
  .enclosed (by decide) (by decide) (.separated (by decide) h)

mutual

theorem Expression.spellable (tier : Tier) : (e : Expression) → Spellable (e.kinds tier)
  | .number x => .cons x.spells .nil
  | .text s => .cons s.spells .nil
  | .name x => .cons x.spells .nil
  | .operation op left right => by
    have hsymbol : op.symbol ∈ marks := by cases op <;> decide
    have hleft := left.spellable op.leftTier
    have hright := right.spellable op.rightTier
    exact .grouped (hleft.append (.cons (spells_symbol hsymbol) hright))
  | .call function arguments => by
    have harguments := Expression.spellable_of_mem arguments
    apply Spellable.cons function.spells
    exact .enclosed (by decide) (by decide) (.separated (by decide) harguments)

/-- All expressions of a list, mutually with the recursion on expressions. -/
theorem Expression.spellable_of_mem :
    (es : List Expression) → ∀ kinds ∈ Expression.kindsOfAll es, Spellable kinds
  | [] => by
    intro kinds h
    cases h
  | e :: es =>
    List.forall_mem_cons.2 ⟨e.spellable .maximum, Expression.spellable_of_mem es⟩

end

theorem spellable_signKinds (op : Comparator) : Spellable (signKinds op) := by
  have hequal := spells_symbol (c := '=') (by decide)
  cases op with
  | greater => exact .cons (spells_symbol (by decide)) .nil
  | less => exact .cons (spells_symbol (by decide)) .nil
  | equal => exact .cons hequal (.cons hequal .nil)

theorem Condition.spellable (test : Condition) : Spellable test.kinds := by
  cases test with
  | expression e => exact e.spellable .maximum
  | comparison op left right =>
    have hright := (spellable_signKinds op).append (right.spellable .maximum)
    exact (left.spellable .maximum).append hright

/-- The keyword and the parentheses that a statement starts with. -/
theorem spellable_headed {k : Keyword} {kinds : List Token.Kind} (h : Spellable kinds) :
    Spellable (.keyword k :: enclosed '(' ')' kinds) :=
  .cons (spells_keyword k) (.enclosed (by decide) (by decide) h)

mutual

theorem Statement.spellable : (s : Statement) → Spellable s.kinds
  | .assign target value =>
    .cons target.spells (.cons (spells_symbol (by decide)) (value.spellable .maximum))
  | .write value => spellable_headed (value.spellable .maximum)
  | .read target => spellable_headed (.cons target.spells .nil)
  | .whileLoop test body =>
    (spellable_headed test.spellable).append (.braced (Statement.spellable_of_mem body))
  | .ifThen test consequence =>
    (spellable_headed test.spellable).append (.braced (Statement.spellable_of_mem consequence))
  | .ifThenElse test consequence alternative =>
    (spellable_headed test.spellable).append
      ((Spellable.braced (Statement.spellable_of_mem consequence)).append
        (.cons (spells_keyword .elseThen) (.braced (Statement.spellable_of_mem alternative))))
  | .returnValue value => .cons (spells_keyword .returnValue) (value.spellable .maximum)
  | .block body => .braced (Statement.spellable_of_mem body)

/-- All statements of a list, mutually with the recursion on statements. -/
theorem Statement.spellable_of_mem :
    (ss : List Statement) → ∀ kinds ∈ Statement.kindsOfAll ss, Spellable kinds
  | [] => by
    intro kinds h
    cases h
  | s :: ss => List.forall_mem_cons.2 ⟨s.spellable, Statement.spellable_of_mem ss⟩

end

/-- A function, with its parameters and its body. -/
theorem Function.spellable (f : Function) : Spellable f.kinds := by
  have hparameters : ∀ kinds ∈ f.parameters.map fun x => [Token.Kind.identifier x.spelling],
      Spellable kinds := by
    intro kinds hkinds
    obtain ⟨x, -, rfl⟩ := List.mem_map.1 hkinds
    exact .cons x.spells .nil
  apply Spellable.cons (spells_keyword .function)
  apply Spellable.cons f.name.spells
  apply Spellable.append (.enclosed (by decide) (by decide) (.separated (by decide) hparameters))
  exact .braced (Statement.spellable_of_mem f.body)

/-- **Every program has a rendering.** -/
theorem renders_render (functions : List Function) : Renders functions (render functions) := by
  have hspellable : Spellable (kinds functions) := by
    intro kind hkind
    obtain ⟨f, -, hf⟩ := List.mem_flatMap.1 hkind
    exact f.spellable kind hf
  have hlayout := @layout_spell _ hspellable [] (by simp)
  rw [Renders, render, String.toList_ofList]
  exact hlayout

end Syntax
end Scriptlet
