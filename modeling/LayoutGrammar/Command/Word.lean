import LayoutGrammar.Text.Blank
import LayoutGrammar.Text.Digit

/-!
# Words of a command line

A word of a command line names an option, carries a value along with the name of an option, ends the
options, or is plain. `Word.ofText?` tells these apart: the name of an option may be shortened to
any beginning that belongs to it alone, and a number or a word with a blank in it is plain even if
it begins like an option.
-/

namespace LayoutGrammar.Command

open Text

/-- What can be turned on. -/
inductive Switch where
  | clean
  | distribute
  | json
deriving DecidableEq, Repr

/-- What takes a value. -/
inductive Setting where
  | logLevel
  | layout
  | width
  | height
deriving DecidableEq, Repr

/-- What an option does. -/
inductive Effect where
  | help
  | turnOn (switch : Switch)
  | assign (setting : Setting)
deriving DecidableEq, Repr

/-- The options with a long name. -/
def longOptions : List (String × Effect) :=
  [("--help", .help), ("--log-level", .assign .logLevel), ("--clean", .turnOn .clean),
    ("--layout", .assign .layout), ("--width", .assign .width), ("--height", .assign .height),
    ("--distribute", .turnOn .distribute), ("--json", .turnOn .json)]

/-- A word of a command line. -/
inductive Word where
  | plain (s : String)
  /-- After this mark every word is plain. -/
  | endOfOptions
  | option (effect : Effect) (attached : Option String)
  | unknown
deriving DecidableEq, Repr

namespace Word

/-- The text before the first equals sign, and the text after it if there is one. -/
def splitAttached (cs : List Char) : List Char × Option String :=
  (cs.takeWhile (· != '='),
    match cs.dropWhile (· != '=') with
    | [] => none
    | _ :: rest => some (String.ofList rest))

/-- A negative number, which is plain. -/
def isNegativeNumber (cs : List Char) : Bool :=
  match cs with
  | '-' :: number =>
    let number := dropFinalBreak number
    match number.dropWhile isDigit with
    | [] => !number.isEmpty
    | '.' :: fraction => !fraction.isEmpty && fraction.all isDigit
    | _ => false
  | _ => false

/-- A word that begins like an option but is none. -/
def ofUnmatched (s : String) : Word :=
  if isNegativeNumber s.toList || s.toList.contains ' ' then plain s else unknown

/-- The letter for help with the text right after it, an equals sign apart: the letter may be
repeated, but nothing else belongs there. -/
def ofHelpLetter (tail : List Char) : Word :=
  match tail with
  | [] => option .help none
  | c :: rest =>
    let letters := if c == '=' then rest else tail
    if !letters.isEmpty && letters.all (· == 'h') then option .help none
    else option .help (some (String.ofList letters))

/-- A word that begins with two dashes; a name that several options begin with is refused. -/
def ofLong? (s : String) : Option Word :=
  let (name, attached) := splitAttached s.toList
  match longOptions.find? (·.1 == s) with
  | some (_, effect) => some (option effect none)
  | none =>
    match longOptions.find? (·.1.toList == name) with
    | some (_, effect) => some (option effect attached)
    | none =>
      match longOptions.filter fun e => name.isPrefixOf e.1.toList with
      | [] => some (ofUnmatched s)
      | [(_, effect)] => some (option effect attached)
      | _ => none

/-- Tells what a word before the end of the options is. -/
def ofText? (s : String) : Option Word :=
  match s.toList with
  | '-' :: '-' :: _ => ofLong? s
  | '-' :: 'h' :: rest => some (ofHelpLetter rest)
  | '-' :: _ :: _ => some (ofUnmatched s)
  | _ => some (plain s)

/-- Tells what the words of a command line are; after the mark that ends the options all words are
plain. -/
def ofTexts? : List String → Option (List Word)
  | [] => some []
  | s :: rest =>
    if s = "--" then some (endOfOptions :: rest.map plain)
    else do
      let word ← ofText? s
      let words ← ofTexts? rest
      pure (word :: words)

end Word

end LayoutGrammar.Command
