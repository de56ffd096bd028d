import LayoutGrammar.Command.Word
import LayoutGrammar.Decimal.Read

/-!
# Arguments

What a command line asks for: the data file, and what to do with it. Of an option that is given more
than once the last value counts. A command line is refused if a word is left over, a value is
missing or makes no sense, or no file is named.
-/

namespace LayoutGrammar.Command

/-- What is asked for besides the data file. A value attached to a name may consist of the mark that
ends the options; then the option is given, but without a value. -/
structure Options where
  logLevel : Option String
  clean : Bool
  /-- The pattern to lay out. -/
  layout : Option String
  width : Option Float
  height : Option Float
  distribute : Bool
  json : Bool

/-- Why a command line is not carried out. -/
inductive Refusal where
  /-- The words do not fit the options. -/
  | misuse
  /-- Help is asked for. -/
  | help
deriving DecidableEq, Repr

namespace Options

/-- The options unless others are given. -/
def standard : Options where
  logLevel := some "INFO"
  clean := false
  layout := none
  width := some 900.0
  height := some 600.0
  distribute := false
  json := false

/-- Turns a switch on. -/
def turnOn (o : Options) : Switch → Options
  | .clean => { o with clean := true }
  | .distribute => { o with distribute := true }
  | .json => { o with json := true }

/-- Sets an option to a value; an empty name asks for no layout. -/
def assign (o : Options) (value : String) : Setting → Except Refusal Options
  | .logLevel => .ok { o with logLevel := some value }
  | .layout => .ok { o with layout := if value = "" then none else some value }
  | .width =>
    match Decimal.readFloat? value with
    | some width => .ok { o with width := some width }
    | none => .error .misuse
  | .height =>
    match Decimal.readFloat? value with
    | some height => .ok { o with height := some height }
    | none => .error .misuse

/-- Takes the value of an option away. -/
def unassign (o : Options) : Setting → Options
  | .logLevel => { o with logLevel := none }
  | .layout => { o with layout := none }
  | .width => { o with width := none }
  | .height => { o with height := none }

end Options

/-- What has been read of a command line. -/
structure Draft where
  file : Option String
  options : Options
  /-- Some word had no place. -/
  hasSurplus : Bool

namespace Draft

/-- A plain word names the file, unless a file is named already. -/
def place (d : Draft) (s : String) : Draft :=
  match d.file with
  | none => { d with file := some s }
  | some _ => { d with hasSurplus := true }

/-- Goes through the words of a command line. -/
def read (d : Draft) : List Word → Except Refusal Draft
  | [] => .ok d
  | .option .help none :: _ => .error .help
  | .option (.turnOn switch) none :: rest =>
    read { d with options := d.options.turnOn switch } rest
  | .option (.assign setting) (some value) :: rest =>
    if value = "--" then read { d with options := d.options.unassign setting } rest
    else
      match d.options.assign value setting with
      | .ok options => read { d with options } rest
      | .error refusal => .error refusal
  | .option (.assign setting) none :: .plain value :: rest =>
    match d.options.assign value setting with
    | .ok options => read { d with options } rest
    | .error refusal => .error refusal
  | .option .. :: _ => .error .misuse
  | .unknown :: rest => read { d with hasSurplus := true } rest
  | .endOfOptions :: .plain s :: rest => read (d.place s) rest
  | .plain s :: .endOfOptions :: rest => read (d.place s) rest
  | .plain s :: rest => read (d.place s) rest
  | .endOfOptions :: rest => read { d with hasSurplus := true } rest

end Draft

/-- A command line that can be carried out. -/
structure Arguments where
  file : String
  options : Options

/-- What a command line asks for. -/
def Arguments.ofTexts (texts : List String) : Except Refusal Arguments :=
  match Word.ofTexts? texts with
  | none => .error .misuse
  | some words =>
    match Draft.read ⟨none, .standard, false⟩ words with
    | .error refusal => .error refusal
    | .ok ⟨some file, options, false⟩ => .ok ⟨file, options⟩
    | .ok _ => .error .misuse

end LayoutGrammar.Command
