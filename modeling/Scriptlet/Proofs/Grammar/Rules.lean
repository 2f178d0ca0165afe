import Scriptlet.Grammar.Expression
import Scriptlet.Program
import Scriptlet.Value

/-!
The grammar, apart from any way of reading it.

Each phrase is a relation between the tokens `ts` that start with it, its tree, and the tokens
`rest` that follow.  `word x` stands for a reserved word, `'x'` for a symbol:

    program     = declaration*
    declaration = fun NAME '(' [NAME (',' NAME)*] ')' block
    block       = '{' statements '}'
    statement   = NAME '=' maximum | write '(' maximum ')' | read '(' NAME ')'
                | while '(' condition ')' block | if '(' condition ')' block [else block]
                | return maximum | block | (nothing)
    condition   = maximum [('>' | '<' | '?' | '=' '=') maximum]
    maximum     = [maximum '$'] sum
    sum         = [sum ('+' | '-')] product
    product     = [product ('*' | '/' | '%')] power
    power       = atom ['^' power]
    atom        = '(' maximum ')' | NUMBER | TEXT | NAME ['(' [maximum (',' maximum)*] ')']

Expressions and conditions are context-free.  A list of statements is not: whether it may go on
without a semicolon depends on one attribute, the *flag*, which is handed through the whole program
from left to right.  `Statement b ts s b' rest` takes the flag `b` and leaves the flag `b'`.

* A program starts with the flag cleared, and every closing brace of a block sets it.  Nothing else
  does anything to it but the continuation of a list.
* After a statement, a semicolon continues the list and keeps the flag.  Where the next token is no
  semicolon, a set flag is cleared and the list continues all the same; a cleared flag ends it.
* The empty statement stands where the next token starts no other; it leaves no node.
-/

namespace Scriptlet.Grammar

/-! ## Expressions -/

/-- `Joins tier c op next`: in the tier `tier` the symbol `c` joins a left operand of the same tier
and a right operand of the tier `next`. -/
inductive Joins : Tier → Char → Operator → Tier → Prop where
  | maximum : Joins .maximum '$' .maximum .sum
  | add : Joins .sum '+' .add .product
  | subtract : Joins .sum '-' .subtract .product
  | multiply : Joins .product '*' .multiply .power
  | divide : Joins .product '/' .divide .power
  | remainder : Joins .product '%' .remainder .power

/-- `Above tier next`: an operand of the tier `next` is a phrase of the tier `tier`. -/
inductive Above : Tier → Tier → Prop where
  | maximum : Above .maximum .sum
  | sum : Above .sum .product
  | product : Above .product .power
  | power : Above .power .atom

mutual

/-- An expression of a tier, its tree, and what follows. -/
inductive Expression : Tier → List Token → Node → List Token → Prop where
  | number {x : Float} {line : Nat} {rest : List Token} :
      Expression .atom (⟨.number x, line⟩ :: rest) (.leaf (.number x) line) rest
  | text {literal : String} {line : Nat} {rest : List Token} :
      Expression .atom (⟨.text literal, line⟩ :: rest) (.leaf (.text literal) line) rest
  | name {name : String} {line : Nat} {rest : List Token} :
      Expression .atom (⟨.identifier name, line⟩ :: rest) (.leaf (.identifier name) line) rest
  | parentheses {line close : Nat} {ts rest : List Token} {t : Node}
      (inner : Expression .maximum ts t (⟨.symbol ')', close⟩ :: rest)) :
      Expression .atom (⟨.symbol '(', line⟩ :: ts) t rest
  | call {name : String} {line opening close : Nat} {ts rest : List Token} {arguments : List Node}
      (inner : Arguments ts arguments (⟨.symbol ')', close⟩ :: rest)) :
      Expression .atom (⟨.identifier name, line⟩ :: ⟨.symbol '(', opening⟩ :: ts)
        ⟨.call name, arguments, line⟩ rest
  | power {line : Nat} {ts us rest : List Token} {base exponent : Node}
      (left : Expression .atom ts base (⟨.symbol '^', line⟩ :: us))
      (right : Expression .power us exponent rest) :
      Expression .power ts (.binary (.operator .power) base exponent line) rest
  | joined {tier next : Tier} {c : Char} {op : Operator} {line : Nat} {ts us rest : List Token}
      {l r : Node} (h : Joins tier c op next)
      (left : Expression tier ts l (⟨.symbol c, line⟩ :: us)) (right : Expression next us r rest) :
      Expression tier ts (.binary (.operator op) l r line) rest
  | operand {tier next : Tier} {ts rest : List Token} {t : Node} (h : Above tier next)
      (inner : Expression next ts t rest) : Expression tier ts t rest

/-- The arguments of a call. -/
inductive Arguments : List Token → List Node → List Token → Prop where
  | none {rest : List Token} : Arguments rest [] rest
  | some {ts rest : List Token} {arguments : List Node} (h : SomeArguments ts arguments rest) :
      Arguments ts arguments rest

/-- One argument or more, with commas between them. -/
inductive SomeArguments : List Token → List Node → List Token → Prop where
  | last {ts rest : List Token} {t : Node} (h : Expression .maximum ts t rest) :
      SomeArguments ts [t] rest
  | cons {line : Nat} {ts us rest : List Token} {t : Node} {more : List Node}
      (first : Expression .maximum ts t (⟨.symbol ',', line⟩ :: us))
      (others : SomeArguments us more rest) : SomeArguments ts (t :: more) rest

end

/-- The sign of a comparison, with the line of its first symbol. -/
inductive Sign : List Token → Comparator → Nat → List Token → Prop where
  | greater {line : Nat} {rest : List Token} :
      Sign (⟨.symbol '>', line⟩ :: rest) .greater line rest
  | less {line : Nat} {rest : List Token} : Sign (⟨.symbol '<', line⟩ :: rest) .less line rest
  | equal {line : Nat} {rest : List Token} : Sign (⟨.symbol '?', line⟩ :: rest) .equal line rest
  | doubled {line second : Nat} {rest : List Token} :
      Sign (⟨.symbol '=', line⟩ :: ⟨.symbol '=', second⟩ :: rest) .equal line rest

/-- A condition: an expression, or one comparison of two. -/
inductive Condition : List Token → Node → List Token → Prop where
  | expression {ts rest : List Token} {t : Node} (h : Expression .maximum ts t rest) :
      Condition ts t rest
  | comparison {op : Comparator} {line : Nat} {ts us vs rest : List Token} {l r : Node}
      (left : Expression .maximum ts l us) (sign : Sign us op line vs)
      (right : Expression .maximum vs r rest) :
      Condition ts (.binary (.comparison op) l r line) rest

/-! ## Statements -/

/-- A token that starts a statement other than the empty one. -/
inductive StartsStatement : Token.Kind → Prop where
  | assignment {name : String} : StartsStatement (.identifier name)
  | writing : StartsStatement (.keyword .writeValue)
  | reading : StartsStatement (.keyword .readValue)
  | whileLoop : StartsStatement (.keyword .whileLoop)
  | ifThen : StartsStatement (.keyword .ifThen)
  | returning : StartsStatement (.keyword .returnValue)
  | block : StartsStatement (.symbol '\x7b')

mutual

/-- A block; it leaves the flag set.  Its list has the line of the token behind the brace. -/
inductive Block : Bool → List Token → Node → Bool → List Token → Prop where
  | braces {b b' : Bool} {line close : Nat} {first : Token} {ts rest : List Token}
      {nodes : List Node}
      (inner : Statements b (first :: ts) nodes b' (⟨.symbol '\x7d', close⟩ :: rest)) :
      Block b (⟨.symbol '\x7b', line⟩ :: first :: ts)
        ⟨.block, [⟨.statements, nodes, first.line⟩], line⟩ true rest

/-- A list of statements. -/
inductive Statements : Bool → List Token → List Node → Bool → List Token → Prop where
  | last {b : Bool} {ts rest : List Token} {node : Option Node} {next : Token}
      (first : Statement b ts node false (next :: rest)) (h : next.kind ≠ .symbol ';') :
      Statements b ts node.toList false (next :: rest)
  | separated {b b' b'' : Bool} {line : Nat} {ts us rest : List Token} {node : Option Node}
      {more : List Node} (first : Statement b ts node b' (⟨.symbol ';', line⟩ :: us))
      (others : Statements b' us more b'' rest) :
      Statements b ts (node.toList ++ more) b'' rest
  | resumed {b b'' : Bool} {ts us rest : List Token} {node : Option Node} {more : List Node}
      {next : Token} (first : Statement b ts node true (next :: us))
      (h : next.kind ≠ .symbol ';') (others : Statements false (next :: us) more b'' rest) :
      Statements b ts (node.toList ++ more) b'' rest

/-- A statement; none where the next token starts no statement. -/
inductive Statement : Bool → List Token → Option Node → Bool → List Token → Prop where
  | empty {b : Bool} {next : Token} {rest : List Token} (h : ¬ StartsStatement next.kind) :
      Statement b (next :: rest) none b (next :: rest)
  | assignment {b : Bool} {name : String} {line sign : Nat} {ts rest : List Token} {value : Node}
      (right : Expression .maximum ts value rest) :
      Statement b (⟨.identifier name, line⟩ :: ⟨.symbol '=', sign⟩ :: ts)
        (some (.binary .assign (.leaf (.identifier name) line) value line)) b rest
  | writing {b : Bool} {line opening close : Nat} {ts rest : List Token} {value : Node}
      (inner : Expression .maximum ts value (⟨.symbol ')', close⟩ :: rest)) :
      Statement b (⟨.keyword .writeValue, line⟩ :: ⟨.symbol '(', opening⟩ :: ts)
        (some ⟨.write, [value], line⟩) b rest
  | reading {b : Bool} {name : String} {line opening own close : Nat} {rest : List Token} :
      Statement b (⟨.keyword .readValue, line⟩ :: ⟨.symbol '(', opening⟩ ::
          ⟨.identifier name, own⟩ :: ⟨.symbol ')', close⟩ :: rest)
        (some ⟨.read, [.leaf (.identifier name) own], line⟩) b rest
  | returning {b : Bool} {line : Nat} {ts rest : List Token} {value : Node}
      (right : Expression .maximum ts value rest) :
      Statement b (⟨.keyword .returnValue, line⟩ :: ts) (some ⟨.returnValue, [value], line⟩) b rest
  | whileLoop {b b' : Bool} {line opening close : Nat} {ts us rest : List Token} {test body : Node}
      (guard : Condition ts test (⟨.symbol ')', close⟩ :: us)) (inner : Block b us body b' rest) :
      Statement b (⟨.keyword .whileLoop, line⟩ :: ⟨.symbol '(', opening⟩ :: ts)
        (some (.binary .whileLoop test body line)) b' rest
  | ifThen {b b' : Bool} {line opening close : Nat} {ts us rest : List Token}
      {test consequence : Node} (guard : Condition ts test (⟨.symbol ')', close⟩ :: us))
      (inner : Block b us consequence b' rest) :
      Statement b (⟨.keyword .ifThen, line⟩ :: ⟨.symbol '(', opening⟩ :: ts)
        (some (.binary .ifThen test consequence line)) b' rest
  | ifThenElse {b b' b'' : Bool} {line opening close middle : Nat} {ts us vs rest : List Token}
      {test consequence alternative : Node}
      (guard : Condition ts test (⟨.symbol ')', close⟩ :: us))
      (inner : Block b us consequence b' (⟨.keyword .elseThen, middle⟩ :: vs))
      (other : Block b' vs alternative b'' rest) :
      Statement b (⟨.keyword .ifThen, line⟩ :: ⟨.symbol '(', opening⟩ :: ts)
        (some ⟨.ifThen, [test, consequence, alternative], line⟩) b'' rest
  | block {b b' : Bool} {ts rest : List Token} {t : Node} (inner : Block b ts t b' rest) :
      Statement b ts (some t) b' rest

end

/-! ## Declarations and programs -/

/-- One parameter or more, with commas between them. -/
inductive SomeParameters : List Token → List Node → List Token → Prop where
  | last {name : String} {line : Nat} {rest : List Token} :
      SomeParameters (⟨.identifier name, line⟩ :: rest) [.leaf (.identifier name) line] rest
  | cons {name : String} {line comma : Nat} {ts rest : List Token} {more : List Node}
      (others : SomeParameters ts more rest) :
      SomeParameters (⟨.identifier name, line⟩ :: ⟨.symbol ',', comma⟩ :: ts)
        (.leaf (.identifier name) line :: more) rest

/-- The parameters of a function. -/
inductive Parameters : List Token → List Node → List Token → Prop where
  | none {rest : List Token} : Parameters rest [] rest
  | some {ts rest : List Token} {names : List Node} (h : SomeParameters ts names rest) :
      Parameters ts names rest

/-- The statement that ends every body: `return` of the none literal. -/
def implicitReturn (line : Nat) : Node :=
  ⟨.returnValue, [⟨.text "\"None\"", [], line⟩], line⟩

/-- A function with its name.  The list of its body ends in the implicit `return`, which has the
line of the token behind the body. -/
inductive Declaration : Bool → List Token → String × Node → Bool → List Token → Prop where
  | function {b b' : Bool} {name : String} {line own opening close list brace : Nat}
      {ts us rest : List Token} {names nodes : List Node} {next : Token}
      (parameters : Parameters ts names (⟨.symbol ')', close⟩ :: us))
      (body : Block b us ⟨.block, [⟨.statements, nodes, list⟩], brace⟩ b' (next :: rest)) :
      Declaration b
        (⟨.keyword .function, line⟩ :: ⟨.identifier name, own⟩ :: ⟨.symbol '(', opening⟩ :: ts)
        (name, ⟨.function name,
          names ++ [⟨.block, [⟨.statements, nodes ++ [implicitReturn next.line], list⟩], brace⟩],
          line⟩)
        b' (next :: rest)

/-- Any number of functions. -/
inductive Declarations : Bool → List Token → List (String × Node) → Bool → List Token → Prop where
  | none {b : Bool} {rest : List Token} : Declarations b rest [] b rest
  | cons {b b' b'' : Bool} {ts us rest : List Token} {first : String × Node}
      {more : List (String × Node)} (head : Declaration b ts first b' us)
      (tail : Declarations b' us more b'' rest) : Declarations b ts (first :: more) b'' rest

/-- **Derivability.**  The tokens, closed by the end marker, spell the program: functions from the
first token to the end marker, the flag cleared at the start.  The root has the line of the first
token. -/
inductive Derives : List Token → Program → Prop where
  | program {b : Bool} {first last : Token} {ts : List Token} {functions : List (String × Node)}
      (h : Declarations false (first :: ts) functions b [last]) (hlast : last.kind = .finish) :
      Derives (first :: ts) (.ofDeclarations first.line functions)

end Scriptlet.Grammar
