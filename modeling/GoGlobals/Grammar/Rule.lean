/-!
# Rules of a grammar

A grammar is a list of definitions.  A definition says how a construct is made of tokens and of
other constructs: it has alternatives, and the rule of an alternative is built from symbols by
sequence, choice and repetition.

A rule also says what becomes of its parts in the syntax tree.  A *field* is the name under which
the parent finds the part, and a *kind* takes the place of the part's own.

Where a rule leaves it open how a text is read, the alternatives say which reading wins.  The
*precedence* and the *side* settle it while the text is read, the precedence first and the side
between equals.  The *weight* settles it afterwards: readings that cannot be told apart before their
end are both followed, and the one with the greater sum of weights is kept.
-/

set_option autoImplicit false

namespace GoGlobals.Grammar

/-- What a rule is made of. -/
inductive Symbol where
  /-- The end of the text. -/
  | finish
  /-- A token of fixed spelling, whose node is not named. -/
  | text (spelling : String)
  /-- A token of fixed spelling, whose node is named. -/
  | constant (kind spelling : String)
  /-- A class of tokens. -/
  | lexeme (kind : String)
  /-- A construct, which has a node. -/
  | construct (kind : String)
  /-- A family of constructs, which has no node of its own. -/
  | family (name : String)
  /-- A repetition in the definition of a symbol of this name; it has no node of its own. -/
  | repetition (name : String) (index : Nat)
deriving DecidableEq, Hashable, Repr, Inhabited

namespace Symbol

/-- Does the symbol stand for a token? -/
def isTerminal : Symbol → Bool
  | finish | text _ | constant _ _ | lexeme _ => true
  | construct _ | family _ | repetition _ _ => false

/-- Does the symbol have a node in the syntax tree? -/
def isVisible : Symbol → Bool
  | family _ | repetition _ _ => false
  | finish | text _ | constant _ _ | lexeme _ | construct _ => true

/-- Is the symbol a repetition? -/
def isRepetition : Symbol → Bool
  | repetition _ _ => true
  | finish | text _ | constant _ _ | lexeme _ | construct _ | family _ => false

/-- Is the node of the symbol a named one? -/
def isNamed : Symbol → Bool
  | finish | text _ => false
  | constant _ _ | lexeme _ | construct _ | family _ | repetition _ _ => true

/-- The kind of the symbol's node, and the name of a symbol without a node. -/
def kind : Symbol → String
  | finish => ""
  | text spelling => spelling
  | constant kind _ => kind
  | lexeme kind => kind
  | construct kind => kind
  | family name => name
  | repetition name _ => name

/-- The spelling of a token that has a fixed one. -/
def spelling? : Symbol → Option String
  | text spelling => some spelling
  | constant _ spelling => some spelling
  | finish | lexeme _ | construct _ | family _ | repetition _ _ => none

end Symbol

/-- How a definition combines symbols. -/
inductive Rule where
  /-- Nothing. -/
  | blank
  | symbol (s : Symbol)
  | chain (first second : Rule)
  | either (first second : Rule)
  /-- One or more times. -/
  | repeated (r : Rule)
  /-- The part goes under a field of the parent. -/
  | field (name : String) (r : Rule)
  /-- The part gets this kind. -/
  | kind (name : String) (r : Rule)
deriving DecidableEq, Repr, Inhabited

/-- Which of two readings of equal precedence wins: the one that closes a construct, or the one
that goes on. -/
inductive Side where
  | left
  | right
deriving DecidableEq, Repr

/-- One way to make a construct. -/
structure Alternative where
  rule : Rule
  precedence : Int := 0
  side : Option Side := none
  weight : Int := 0
deriving DecidableEq, Repr

/-- A symbol and the ways to make it. -/
structure Definition where
  symbol : Symbol
  alternatives : List Alternative
deriving Repr

/-! ## Writing rules -/

instance : Coe String Rule := ⟨fun spelling => .symbol (.text spelling)⟩
instance : Coe Symbol Rule := ⟨.symbol⟩

/-- The construct of a kind. -/
def node (kind : String) : Rule :=
  .symbol (.construct kind)

/-- The parts one after the other. -/
def seq (parts : List Rule) : Rule :=
  parts.foldr .chain .blank

/-- Any one of the rules. -/
def oneOf : List Rule → Rule
  | [] => .blank
  | [r] => r
  | r :: rs => .either r (oneOf rs)

/-- The rule, or nothing. -/
def maybe (r : Rule) : Rule :=
  .either r .blank

/-- The rule any number of times. -/
def many (r : Rule) : Rule :=
  maybe (.repeated r)

/-- The rule one or more times with a separator in between. -/
def separated (separator r : Rule) : Rule :=
  seq [r, many (seq [separator, r])]

/-- The rule one or more times with commas in between. -/
def commas (r : Rule) : Rule :=
  separated "," r

/-- A definition with one alternative. -/
def define (kind : String) (rule : Rule) : Definition :=
  ⟨.construct kind, [{ rule }]⟩

/-- A definition whose alternative has a precedence. -/
def defineAt (precedence : Int) (kind : String) (rule : Rule) (side : Option Side := none) :
    Definition :=
  ⟨.construct kind, [{ rule, precedence, side }]⟩

/-- A definition whose alternative has a weight. -/
def defineWeighing (weight : Int) (kind : String) (rule : Rule) : Definition :=
  ⟨.construct kind, [{ rule, weight }]⟩

/-- A family of constructs. -/
def family (name : String) (members : List Rule) : Definition :=
  ⟨.family name, [{ rule := oneOf members }]⟩

end GoGlobals.Grammar
