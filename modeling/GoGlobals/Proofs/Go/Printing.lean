import GoGlobals.Declaration
import GoGlobals.Go.Lexer

/-!
# Printed declarations

Plain declarations, and how they are printed: a package clause on the first line, and then one
specification of variables on each line, with `var` in front of each or all of them between
parentheses.

A specification has one or more names and any number of values; without values it says that its
names are integers.  A value is a literal, a call without arguments, or a composite literal without
elements.

## What is here

* `Name`, `Numeral` and `Letters` are the texts that declarations are made of.  Each holds the proof
  that its text is of its class.
* `Value` and `Spec`, with what they print and what is to be found in the print.
* `printLines` and `printBlock` are the two ways to print a file.
-/

set_option autoImplicit false

namespace GoGlobals.Go

/-! ## Texts -/

/-- The words that have a meaning of their own, as a part of the syntax or as an operand. -/
def fixedWords : List String :=
  keywords ++ ["nil", "true", "false", "iota", "new", "make"]

/-- Is the text an identifier in ASCII, and none of the words with a meaning of their own? -/
def isFreeName (s : String) : Bool :=
  match s.toList with
  | [] => false
  | c :: cs =>
    (c.isAlpha || c == '_') && cs.all (fun d => d.isAlphanum || d == '_') &&
      !fixedWords.contains s

/-- An identifier that can be declared. -/
structure Name where
  text : String
  free : isFreeName text = true

/-- Are these digits, with at most one underscore in front of each? -/
def areMoreDigits : List Char → Bool
  | [] => true
  | '_' :: d :: rest => d.isDigit && areMoreDigits rest
  | d :: rest => d.isDigit && areMoreDigits rest

/-- Is the text an integer in decimal notation? -/
def isDecimal (s : String) : Bool :=
  match s.toList with
  | [] => false
  | d :: ds => (d == '0' && ds.isEmpty) || (d.isDigit && d != '0' && areMoreDigits ds)

/-- An integer in decimal notation. -/
structure Numeral where
  text : String
  decimal : isDecimal text = true

/-- A text of letters and digits in ASCII. -/
structure Letters where
  text : String
  plain : text.toList.all Char.isAlphanum = true

/-! ## Declarations -/

/-- An initial value. -/
inductive Value where
  | integer (n : Numeral)
  | string (s : Letters)
  | call (f : Name)
  | qualifiedCall (qualifier member : Name)
  | composite (qualifier member : Name)

namespace Value

/-- The value in a source text. -/
def print : Value → String
  | integer n => n.text
  | string s => "\"" ++ s.text ++ "\""
  | call f => f.text ++ "()"
  | qualifiedCall qualifier member => qualifier.text ++ "." ++ member.text ++ "()"
  | composite qualifier member => qualifier.text ++ "." ++ member.text ++ "\x7b\x7d"

/-- The shape of the value. -/
def initializer : Value → Initializer
  | integer n => .literal n.text
  | string s => .literal ("\"" ++ s.text ++ "\"")
  | call _ => .call none none
  | qualifiedCall qualifier member => .call (some qualifier.text) (some member.text)
  | composite qualifier member => .composite (some qualifier.text) (some member.text)

end Value

/-- A specification of variables: one or more names, and any number of values. -/
structure Spec where
  first : Name
  others : List Name
  values : List Value

namespace Spec

/-- The names. -/
def names (s : Spec) : List Name :=
  s.first :: s.others

/-- The specification in a source text. -/
def print (s : Spec) : String :=
  ", ".intercalate (s.names.map (·.text)) ++
    if s.values.isEmpty then " int" else " = " ++ ", ".intercalate (s.values.map Value.print)

/-- The group of the specification on a line of a file. -/
def group (file : String) (line : Int) (s : Spec) : Group :=
  { file
    line
    names := s.names.map fun n => ⟨n.text, line⟩
    values := s.values.map Value.initializer }

end Spec

/-! ## Files -/

/-- A file with one specification on each line. -/
def printLines (package : Name) (specs : List Spec) : String :=
  "package " ++ package.text ++ "\n" ++
    String.join (specs.map fun s => "var " ++ s.print ++ "\n")

/-- A file with all specifications between parentheses. -/
def printBlock (package : Name) (specs : List Spec) : String :=
  "package " ++ package.text ++ "\n" ++
    ("var (\n" ++ String.join (specs.map fun s => s.print ++ "\n") ++ ")\n")

/-- The groups of specifications on consecutive lines. -/
def groupsFrom (file : String) : (line : Int) → List Spec → List Group
  | _, [] => []
  | line, s :: specs => s.group file line :: groupsFrom file (line + 1) specs

/-- A group on the next line. -/
def nextLine (g : Group) : Group :=
  { g with line := g.line + 1, names := g.names.map fun n => { n with line := n.line + 1 } }

theorem map_nextLine (file : String) (line : Int) (specs : List Spec) :
    (groupsFrom file line specs).map nextLine = groupsFrom file (line + 1) specs := by
  induction specs generalizing line with
  | nil => rfl
  | cons s specs ih =>
    simp only [groupsFrom, List.map_cons, ih]
    simp [nextLine, Spec.group, Function.comp_def]

/-! ## Characters -/

/-- More parts behind the first one, each behind a comma and a space. -/
def commaSeparated (parts : List (List Char)) : List Char :=
  parts.flatMap fun part => ',' :: ' ' :: part

theorem toList_intercalate_cons (first : String) (others : List String) :
    (", ".intercalate (first :: others)).toList =
      first.toList ++ commaSeparated (others.map String.toList) := by
  rw [String.toList_intercalate, List.map_cons]
  generalize first.toList = cs
  induction others generalizing cs with
  | nil => simp [commaSeparated, List.intercalate]
  | cons next others ih =>
    rw [List.map_cons, List.intercalate_cons_cons, ih, commaSeparated, commaSeparated,
      List.flatMap_cons, List.append_assoc]
    rfl

/-- The part of a specification behind its names. -/
def Spec.tail (s : Spec) : List Char :=
  match s.values with
  | [] => " int".toList
  | v :: vs => " = ".toList ++ (v.print.toList ++ commaSeparated (vs.map (·.print.toList)))

theorem Spec.toList_print (s : Spec) :
    s.print.toList =
      s.first.text.toList ++ (commaSeparated (s.others.map (·.text.toList)) ++ s.tail) := by
  rw [print, names, List.map_cons, String.toList_append, toList_intercalate_cons, List.map_map,
    List.append_assoc, tail]
  cases s.values with
  | nil => rfl
  | cons v vs =>
    rw [List.isEmpty_cons, if_neg (by simp), String.toList_append, List.map_cons,
      toList_intercalate_cons, List.map_map]
    rfl

end GoGlobals.Go
