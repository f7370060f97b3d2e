import GoGlobals.Declaration
import GoGlobals.Go.Lexer
import GoGlobals.Grammar.Parser
import GoGlobals.Tree.Accept
import GoGlobals.Tree.Extract

/-!
# The tree of a source text

A text in the language has a syntax tree; any other text has none.

## What is here

* `Go.language` is the grammar of Go with its automaton and its tokens.
* `Go.parse?` reads a byte string.
* `SourceFile.read` reads the declarations of a file, or says why the file is refused.
-/

set_option autoImplicit false

namespace GoGlobals

open Text (Source Cursor)

namespace Go

/-- The language of Go text. -/
def language : Grammar.Language (Nat ⊕ Grammar.ItemSet) :=
  { grammar, automaton := table, token? := vocabulary.token? }

/-- The syntax tree of a byte string, if it is in the language. -/
def parse? (source : Source) : Option Node :=
  match language.parse? (.ofBytes source.toList) with
  | some reading => (reading.forest.listBefore id []).head?
  | none => none

end Go

/-- The declarations of a Go file, or why the file is refused. -/
def SourceFile.read (source : Source) (file : String := "<unknown>") :
    Except Refusal SourceFile :=
  match Go.parse? source with
  | none => .error ⟨.unreadable, none⟩
  | some root => do
    root.accept source
    return root.extract source file

end GoGlobals
