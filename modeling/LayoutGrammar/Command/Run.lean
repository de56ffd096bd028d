import LayoutGrammar.Command.Arguments
import LayoutGrammar.Command.DataFile
import LayoutGrammar.Pattern.Extract
import LayoutGrammar.Pattern.Report
import LayoutGrammar.Report.Log
import LayoutGrammar.Scene.Data
import LayoutGrammar.Tree.Json.Write

/-!
# A run of the command

A run reads the document of a data file, lists its patterns, and shows the boxes of one of them if a
layout is asked for. A fault of the file or of the grammar is reported in the log and ends the run;
other errors end it without a report. What had been printed by then stays printed.
-/

namespace LayoutGrammar.Command

open Decimal

/-- How a run ended, what it printed and what it noted. -/
structure Outcome where
  exitCode : Nat
  output : String
  log : List (Event Float)
  failure : Option Error

/-- Why a run stops early. -/
inductive Stop where
  /-- The fault is in the log. -/
  | reported
  | failed (e : Error)

/-- A step of a run. -/
abbrev Stage (α : Type) := Logged (Event Float) Stop α

/-! ## Levels of the log -/

/-- The upper-case form of a letter, as far as names of levels need it. -/
def raiseLetter (c : Char) : List Char :=
  if c == 'ı' then ['I']
  else if c == 'ſ' then ['S']
  else if c == 'ﬅ' || c == 'ﬆ' then ['S', 'T']
  else [c.toUpper]

/-- The names of levels and their ranks. -/
def levelRanks : List (String × Nat) :=
  [("CRITICAL", 50), ("FATAL", 50), ("ERROR", 40), ("WARNING", 30), ("WARN", 30), ("INFO", 20),
    ("DEBUG", 10), ("NOTSET", 0)]

/-- The form of a line of the log, with what stands in the places of its parts. -/
def lineForm : String := "%(levelname)s:%(name)s:%(message)s"

/-- The ways to write the form of a line, as a text. -/
def lineStyles : String :=
  "\x7b'%': (<class 'logging.PercentStyle'>, '" ++ lineForm ++
    "'), '\x7b': (<class 'logging.StrFormatStyle'>, " ++
    "'\x7blevelname\x7d:\x7bname\x7d:\x7bmessage\x7d'), " ++
    "'$': (<class 'logging.StringTemplateStyle'>, " ++
    "'$\x7blevelname\x7d:$\x7bname\x7d:$\x7bmessage\x7d')\x7d"

/-- The rank that a name asks for. A name that means nothing asks for the usual level; the names of
the form of a line and of the ways to write it are taken for these, which are no levels. -/
def rankOf : Option String → Except Error Nat
  | none => .error .missingLevel
  | some name =>
    let name := String.ofList (name.toList.flatMap raiseLetter)
    if name = "BASIC_FORMAT" then .error (.unknownLevel lineForm)
    else if name = "_STYLES" then .error (.notALevel lineStyles)
    else .ok (((levelRanks.find? (·.1 == name)).map (·.2)).getD Level.info.rank)

/-! ## Stages -/

/-- Goes on with a value; an expected error is reported, any other one is passed on. -/
def orReport {α : Type} (expected : Error → Bool) (report : Error → Notice)
    (x : Traced Float α) : Stage α :=
  match x.result with
  | .ok a => ⟨x.log, .ok a⟩
  | .error e =>
    if expected e then ⟨x.log ++ [.notice (report e)], .error .reported⟩
    else ⟨x.log, .error (.failed e)⟩

/-- Trees that say nothing, in place of which the empty map is read. -/
def saysNothing : Value → Bool
  | .null => true
  | .bool b => !b
  | .int n => n == 0
  | .float x => x == 0.0
  | .str s => s == ""
  | .bytes bs => bs.isEmpty
  | .list items | .tuple items | .set items => items.isEmpty
  | .map entries => entries.isEmpty
  | .date _ | .moment _ | .again _ => false

/-- A fault of the grammar, or a tree that is no grammar at all. -/
def isGrammarError (e : Error) : Bool :=
  match e with
  | .notAMap _ => true
  | e => e.isGrammarFault

/-- The document in place of one that says nothing, or that is to be cleaned. -/
def prepared (clean : Bool) (document : Document) : Document :=
  let document := if clean then .plain document.value.cleaned else document
  if saysNothing document.value then .plain (.map []) else document

/-- The patterns of a data file. -/
def loadPatterns (path : String) (contents : Option ByteArray) (clean : Bool) :
    Stage Dictionary := do
  Logged.say (.notice (.loading (shortPath path)))
  match documentOf path contents with
  | .error .unreadable => do
    Logged.say (.notice (.unreadable (shortPath path)))
    Logged.fail .reported
  | .error (.failed e) => Logged.fail (.failed e)
  | .ok document => do
    let extracted := checked (prepared clean document).extract
    let d ← orReport isGrammarError .invalidGrammar (extracted.mapLog .notice)
    Logged.say (.notice .validated)
    pure d

/-- The list of patterns. -/
def patternsText (d : Dictionary) : String :=
  "Patterns (" ++ Text.natString d.size ++ "):\n" ++ d.report

/-! ## Layouts -/

/-- A box as its corner and its size, to two places. -/
def boxText (r : Rect Float) : String :=
  "(" ++ fixedText 2 r.x ++ ", " ++ fixedText 2 r.y ++ ") " ++ fixedText 2 r.width ++ "x" ++
    fixedText 2 r.height

/-- The line of a child. -/
def childLine (c : Child Float) : String :=
  let sides := (c.location.getD .free).display.map fun e => e.1.name ++ "=" ++ e.2
  "  " ++ c.mode.name ++ " " ++ c.name ++ ": " ++ boxText c.bounds ++ " [" ++
    " ".intercalate sides ++ "]" ++ (if c.draggable then "" else " (fixed)")

/-- The lines of a layout. -/
def layoutLines (s : Scene Float) : List String :=
  ("Layout of " ++ s.pattern ++ ":") :: ("  parent: " ++ boxText s.parent) ::
    ("  cell: " ++ fixedText 3 s.cell) :: s.children.map childLine

/-- The surface for a layout; both of its numbers are needed, the width first. -/
def surfaceOf (settings : Settings Float) (o : Options) : Except Error (Size Float) :=
  match o.width, o.height with
  | some width, some height => .ok ⟨width, height⟩
  | some _, none =>
    if Scalar.isZero settings.areaRatio then .error .divisionByZero else .error .missingNumber
  | none, _ => .error .missingNumber

/-- The scene of a pattern that is there. -/
def sceneOf (settings : Settings Float) (d : Dictionary) (o : Options) (id : String) :
    Traced Float (Scene Float) :=
  if d.contains id then do
    let surface ← Logged.ofExcept (surfaceOf settings o)
    Scene.build d id surface ∅ o.distribute settings
  else .fail (.unknownPattern id)

/-- The layout of a pattern, as lines or as JSON. -/
def layoutText (settings : Settings Float) (d : Dictionary) (o : Options) (id : String) :
    Stage String := do
  let scene ← orReport Error.isGrammarFault (.noLayout id) (sceneOf settings d o id)
  pure (if o.json then Json.write scene.toValue ++ "\n"
    else String.join ((layoutLines scene).map (· ++ "\n")))

/-- The layout that is asked for, if any. -/
def requestedLayout (settings : Settings Float) (d : Dictionary) (o : Options) : Stage String :=
  match o.layout with
  | none => pure ""
  | some id => layoutText settings d o id

/-! ## Runs -/

/-- How a run ends that stops early. -/
def Stop.outcome (stop : Stop) (output : String) (log : List (Event Float)) : Outcome where
  exitCode := 1
  output
  log
  failure :=
    match stop with
    | .reported => none
    | .failed e => some e

/-- A run for a file with some contents; the whole log is kept. -/
def runFile (settings : Settings Float) (path : String) (contents : Option ByteArray)
    (o : Options) : Outcome :=
  let loaded := loadPatterns path contents o.clean
  match loaded.result with
  | .error stop => stop.outcome "" loaded.log
  | .ok d =>
    let drawn := requestedLayout settings d o
    let log := loaded.log ++ drawn.log
    match drawn.result with
    | .error stop => stop.outcome (patternsText d) log
    | .ok text => ⟨0, patternsText d ++ text, log, none⟩

/-- A run for arguments and the contents of the file that they name; the log is kept from the level
on that is asked for. -/
def run (settings : Settings Float) (a : Arguments) (contents : Option ByteArray) : Outcome :=
  match rankOf a.options.logLevel with
  | .error e => ⟨1, "", [], some e⟩
  | .ok rank =>
    let outcome := runFile settings a.file contents a.options
    { outcome with log := eventsFrom rank outcome.log }

/-- The line of an event in the log. -/
def logLine (e : Event Float) : String :=
  e.level.name ++ ":" ++ e.topic.name ++ ":" ++ e.text

/-- How the command is used. -/
def usage : String :=
  "usage: layout-grammar [-h] [--log-level LOG_LEVEL] [--clean] [--layout PATTERN]\n" ++
  "                      [--width WIDTH] [--height HEIGHT] [--distribute] [--json] path\n"

end LayoutGrammar.Command
