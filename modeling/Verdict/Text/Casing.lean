import Verdict.Text.Property

/-!
# Letter case

Capital and small forms of whole texts, and the classes of letters and numbers that names are
made of. Both follow version 17.0 of the Unicode standard, so what that version added to the
properties of version 16.0 is listed here.
-/

namespace Verdict.Text

namespace Newest

def alphabetic : CharSet := Property.alphabetic ∪ .ofTable
  ["88F C5C CDC A7CE-A7CF A7D2 A7D4 A7F1 10940-10959 10EC5-10EC7 10EFA-10EFB 11B60-11B67",
   "11DB0-11DDB 16EA0-16EB8 16EBB-16ED3 16FF2-16FF6 187F8-187FF 18D09-18D1E 18D80-18DF2",
   "1E6C0-1E6DE 1E6E0-1E6F5 1E6FE-1E6FF 2B73A-2B73F 2CEA2-2CEAD 323B0-33479"]

def number : CharSet := Category.number ∪ .ofTable ["11DE0-11DE9 16FF4-16FF6"]

def cased : CharSet :=
  (Property.cased ∪ .ofTable ["A7CE-A7CF A7D2 A7D4 A7F1 16EA0-16EB8 16EBB-16ED3"])
    \ .single '\u0295'

def caseIgnorable : CharSet := Property.caseIgnorable ∪ .ofTable
  ["1ACF-1ADD 1AE0-1AEB A7F1 10EC5 10EFA-10EFB 11B60 11B62-11B64 11B66 11DD9 16FF2-16FF3 1E6E3",
   "1E6E6 1E6EE-1E6EF 1E6F5 1E6FF"]

end Newest

private def casedNext (cs : List Char) : Bool :=
  match cs.dropWhile Newest.caseIgnorable.contains with
  | c :: _ => Newest.cased.contains c
  | [] => false

/-- Small letters; a capital sigma at the end of a word takes its final form. The characters
before the current one are kept in reverse. -/
private def lowerFrom (before : List Char) : List Char → List Char
  | [] => []
  | c :: rest =>
    let image :=
      if c == '\u03A3' then
        if casedNext before && !casedNext rest then ['\u03C2'] else ['\u03C3']
      else CaseMap.lower c
    image ++ lowerFrom (c :: before) rest

def toUpper (s : String) : String :=
  String.ofList (s.toList.flatMap CaseMap.upper)

def toLower (s : String) : String :=
  String.ofList (lowerFrom [] s.toList)

end Verdict.Text
