import Verdict.Text.Property
import Verdict.Text.Script

/-!
# Text segmentation

The classes by which version 16.0 of the Unicode standard divides a text into graphemes, words
and sentences. Each class is found under its short and its long name, in small letters.
-/

namespace Verdict.Text.Break

open Category Property

private def script (name : String) : CharSet :=
  (Script.find? name).getD .empty

private def extend : CharSet := graphemeExtend ∪ spacingMark

/-- Digits, the decimal separators of Arabic, and the signs that stand before numbers. -/
private def numeric : CharSet :=
  decimalNumber ∪ .ofTable ["600-605 66B 6DD 890-891 8E2 19DA 110BD 110CD"]

private def openSyllable : CharSet :=
  .ofRanges ((List.range 399).map fun i => (0xAC00 + 28 * i, 0xAC00 + 28 * i))

def grapheme? (name : String) : Option CharSet :=
  match name with
  | "cr" => some (.single '\r')
  | "lf" => some (.single '\n')
  | "cn" | "control" => some <|
    (control ∪ format ∪ lineSeparator ∪ paragraphSeparator ∪ (unassigned ∩ defaultIgnorable))
      \ (prependedConcatenationMark ∪ .ofTable ["A D 200C-200D E0020-E007F"])
  | "ex" | "extend" => some (graphemeExtend ∪ emojiModifier)
  | "l" => some (.ofTable ["1100-115F A960-A97C"])
  | "v" => some (.ofTable ["1160-11A7 D7B0-D7C6 16D63 16D67-16D6A"])
  | "t" => some (.ofTable ["11A8-11FF D7CB-D7FB"])
  | "lv" => some openSyllable
  | "lvt" => some (.range 0xAC00 0xD7A3 \ openSyllable)
  | "pp" | "prepend" => some (prependedConcatenationMark ∪ .ofTable
      ["D4E 111C2-111C3 113D1 1193F 11941 11A3A 11A84-11A89 11D46 11F02"])
  | "ri" | "regionalindicator" => some regionalIndicator
  | "sm" | "spacingmark" => some <|
    ((spacingMark \ graphemeExtend) \ .ofTable
      ["102B-102C 1038 1062-1064 1067-106D 1083 1087-108C 108F 109A-109C 1A61 1A63-1A64 AA7B",
       "AA7D 11720-11721"])
      ∪ .ofTable ["E33 EB3"]
  | "zwj" => some (.single '\u200D')
  | _ => none

private def hebrewLetter : CharSet := script "hebrew" ∩ otherLetter

private def wordLetter : CharSet :=
  let spoken := alphabetic \ (ideographic ∪ extend ∪ hebrewLetter)
  let spaced := ["katakana", "hiragana", "thai", "lao", "khmer", "myanmar"].foldl
    (fun s name => s \ script name) spoken
  (spaced \ .ofTable
    ["1950-196D 1970-1974 1980-19AB 19B0-19C9 1A20-1A54 1AA7 3031-3035 30FC AA80-AAAF AAB1",
     "AAB5-AAB6 AAB9-AABD AAC0 AAC2 AADB-AADD FF70 11700-1171A 11740-11746"])
    ∪ .ofTable
      ["2C2-2C5 2D2-2D7 2DE-2DF 2E5-2EB 2ED 2EF-2FF 55A-55C 55E 58A 5F3 70F A708-A716 A720-A721",
       "A789-A78A AB5B"]

def word? (name : String) : Option CharSet :=
  match name with
  | "cr" => some (.single '\r')
  | "lf" => some (.single '\n')
  | "nl" | "newline" => some (.ofTable ["B-C 85 2028-2029"])
  | "extend" => some (extend ∪ emojiModifier)
  | "zwj" => some (.single '\u200D')
  | "fo" | "format" => some <| format \ .ofTable
      ["600-605 6DD 70F 890-891 8E2 200B-200D 110BD 110CD E0020-E007F"]
  | "ka" | "katakana" => some (script "katakana" ∪ .ofTable ["3031-3035 309B-309C 30A0 30FC FF70"])
  | "hl" | "hebrewletter" => some hebrewLetter
  | "le" | "aletter" => some wordLetter
  | "sq" | "singlequote" => some (.single '\u0027')
  | "dq" | "doublequote" => some (.single '"')
  | "mb" | "midnumlet" => some (.ofTable ["2E 2018-2019 2024 FE52 FF07 FF0E"])
  | "ml" | "midletter" => some (.ofTable ["3A B7 387 55F 5F4 2027 FE13 FE55 FF1A"])
  | "mn" | "midnum" => some <| .ofTable
      ["2C 3B 37E 589 60C-60D 66C 7F8 2044 FE50 FE54 FF0C FF1B"]
  | "nu" | "numeric" => some numeric
  | "ex" | "extendnumlet" => some (connectorPunctuation ∪ .single '\u202F')
  | "ri" | "regionalindicator" => some regionalIndicator
  | "wsegspace" => some (.ofTable ["20 1680 2000-2006 2008-200A 205F 3000"])
  | _ => none

private def sentenceLower : CharSet :=
  (lowercase \ graphemeExtend) \ .ofTable ["10D0-10FA 10FD-10FF"]

private def sentenceUpper : CharSet :=
  (uppercase ∪ titleLetter) \ .ofTable ["1C90-1CBA 1CBD-1CBF"]

private def fullStop : CharSet := .ofTable ["2E 2024 FE52 FF0E"]

def sentence? (name : String) : Option CharSet :=
  match name with
  | "cr" => some (.single '\r')
  | "lf" => some (.single '\n')
  | "se" | "sep" => some (.ofTable ["85 2028-2029"])
  | "ex" | "extend" => some (extend ∪ .single '\u200D')
  | "fo" | "format" => some <| format \ .ofTable
      ["600-605 6DD 890-891 8E2 200C-200D 110BD 110CD E0020-E007F"]
  | "sp" => some (whiteSpace \ .ofTable ["A D 85 2028-2029"])
  | "lo" | "lower" => some sentenceLower
  | "up" | "upper" => some sentenceUpper
  | "le" | "oletter" => some <|
    (alphabetic \ (sentenceLower ∪ sentenceUpper ∪ extend)) ∪ .single '\u05F3'
  | "nu" | "numeric" => some (numeric ∪ .single '\u066C')
  | "at" | "aterm" => some fullStop
  | "st" | "sterm" => some (sentenceTerminal \ fullStop)
  | "cl" | "close" => some <|
    (openPunctuation ∪ closePunctuation ∪ quotationMark
      ∪ .ofTable ["275B-2760 2E00-2E0D 2E1C-2E1D 2E20-2E21 1F676-1F678"])
      \ .ofTable ["FF02 FF07"]
  | "sc" | "scontinue" => some <| .ofTable
      ["2C-2D 3A-3B 37E 55D 60C-60D 7F8 1802 1808 2013-2014 3001 FE10-FE11 FE13-FE14 FE31-FE32",
       "FE50-FE51 FE54-FE55 FE58 FE63 FF0C-FF0D FF1A-FF1B FF64"]
  | _ => none

end Verdict.Text.Break
