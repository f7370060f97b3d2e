import GoGlobals.Go.Rules.Declarations
import GoGlobals.Go.Rules.Expressions
import GoGlobals.Go.Rules.Statements
import GoGlobals.Go.Rules.Types
import GoGlobals.Grammar.Item

/-!
# The grammar of Go

The definitions of the constructs, put together.  Their order matters where two readings of a text
weigh the same: the construct that is defined first wins.
-/

set_option autoImplicit false

namespace GoGlobals.Go

open Grammar

/-- All definitions.  The first one makes a whole text from a file. -/
def definitions : List Definition :=
  [⟨.family "text", [{ rule := node "source_file" }]⟩, fileRule] ++ importRules ++ valueRules ++
    functionRules ++ typeDeclarationRules ++ typeRules ++ statementRules ++ expressionRules ++
    [qualifiedTypeRule]

/-- The grammar of Go. -/
def grammar : Compiled :=
  compile [identifier, comment] definitions

/-- The automaton of the grammar, its states numbered. -/
def table : Automaton (Nat ⊕ ItemSet) :=
  (automaton grammar).tabulate 20000

end GoGlobals.Go
