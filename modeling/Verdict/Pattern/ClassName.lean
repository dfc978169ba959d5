import Verdict.Text.Age
import Verdict.Text.Break
import Verdict.Text.ScriptExtension

/-!
# Names of sets

The names under which patterns know sets of characters: properties of the Unicode standard, whose
names are matched loosely, and the bracketed ASCII classes.
-/

namespace Verdict.Pattern.ClassName

open Verdict.Text

/-- Small letters without blanks, underscores, hyphens and a leading `is`. -/
private def normal (name : List Char) : String :=
  let cs := (name.filter fun c => c.toNat < 0x80 && c != ' ' && c != '_' && c != '-').map
    Char.toLower
  let stripped := if ['i', 's'].isPrefixOf (name.map Char.toLower) then cs.drop 2 else cs
  -- what is left of the name of a property must not be read as a category
  if String.ofList stripped == "c" && String.ofList cs == "isc" then "isc"
  else String.ofList stripped

/-- The set under a single name: a property, a category or a script. Three short names of
properties are categories first. -/
def single? (name : List Char) : Option CharSet :=
  let n := normal name
  if n == "cf" || n == "sc" || n == "lc" then Category.find? n
  else Property.find? n <|> Category.find? n <|> Script.find? n

def valued? (property value : List Char) : Option CharSet :=
  let value := normal value
  match normal property with
  | "gc" | "generalcategory" => Category.find? value
  | "sc" | "script" => Script.find? value
  | "scx" | "scriptextensions" => ScriptExtension.find? value
  | "age" => Age.find? value
  | "gcb" | "graphemeclusterbreak" => Break.grapheme? value
  | "wb" | "wordbreak" => Break.word? value
  | "sb" | "sentencebreak" => Break.sentence? value
  | _ => none

def asciiDigit : CharSet := .range 0x30 0x39
def asciiSpace : CharSet := .ofTable ["9-D 20"]
def asciiWord : CharSet := .ofTable ["30-39 41-5A 5F 61-7A"]

def bracketed? (name : String) : Option CharSet :=
  match name with
  | "alnum" => some (.ofTable ["30-39 41-5A 61-7A"])
  | "alpha" => some (.ofTable ["41-5A 61-7A"])
  | "ascii" => some (.ofTable ["0-7F"])
  | "blank" => some (.ofTable ["9 20"])
  | "cntrl" => some (.ofTable ["0-1F 7F"])
  | "digit" => some asciiDigit
  | "graph" => some (.ofTable ["21-7E"])
  | "lower" => some (.ofTable ["61-7A"])
  | "print" => some (.ofTable ["20-7E"])
  | "punct" => some (.ofTable ["21-2F 3A-40 5B-60 7B-7E"])
  | "space" => some asciiSpace
  | "upper" => some (.ofTable ["41-5A"])
  | "word" => some asciiWord
  | "xdigit" => some (.ofTable ["30-39 41-46 61-66"])
  | _ => none

end Verdict.Pattern.ClassName
