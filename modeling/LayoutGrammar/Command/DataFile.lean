import LayoutGrammar.Text.Lowercase
import LayoutGrammar.Tree.Yaml.Document

/-!
# Data files

How a data file is named and how its contents become a document. A name is brought to its shortest
form before it is used; its extension tells the notation.
-/

namespace LayoutGrammar.Command

/-- The parts of a path between slashes that say something. -/
def pathParts (path : String) : List String :=
  (path.splitOn "/").filter fun part => part != "" && part != "."

/-- What an absolute path begins with; exactly two slashes stand for another root. -/
def pathRoot (path : String) : String :=
  match path.toList.takeWhile (· == '/') with
  | [] => ""
  | [_, _] => "//"
  | _ => "/"

/-- The shortest form of a path, a single point if nothing is left of it. -/
def shortPath (path : String) : String :=
  let short := pathRoot path ++ "/".intercalate (pathParts path)
  if short = "" then "." else short

/-- What follows the last point of a name that neither begins nor ends with it. -/
def extension (name : List Char) : List Char :=
  let tail := (name.reverse.takeWhile (· != '.')).reverse
  if tail.length + 1 < name.length then tail else []

/-- Whether a file holds JSON, by its extension in any case. -/
def holdsJson (path : String) : Bool :=
  Text.lower (extension ((pathParts path).getLastD "").toList) == "json".toList

/-- A text in which every line ends in the same way. -/
def unifyBreaks : List Char → List Char
  | [] => []
  | '\r' :: '\n' :: rest => '\n' :: unifyBreaks rest
  | '\r' :: rest => '\n' :: unifyBreaks rest
  | c :: rest => c :: unifyBreaks rest

/-- The document that the contents of a file spell; a missing file, or bytes that are no text,
cannot be read. -/
def documentOf (path : String) (contents : Option ByteArray) : Except ReadFault Document :=
  match contents >>= String.fromUTF8? with
  | none => .error .unreadable
  | some text =>
    let text := String.ofList (unifyBreaks text.toList)
    if holdsJson path then (Json.read text).elim (.error .unreadable) (.ok ∘ .plain)
    else Yaml.read text

end LayoutGrammar.Command
