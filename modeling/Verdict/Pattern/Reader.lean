import Verdict.Decimal.Reading
import Verdict.Pattern.ClassName
import Verdict.Pattern.Expr
import Verdict.Text.Blank
import Verdict.Text.CaseClass
import Verdict.Text.Casing

/-!
# Reading patterns

The text of a pattern to its expression. Flags hold from where they are set to the end of the
group around them. A text that spells no expression has none; the reasons are not kept apart.
-/

namespace Verdict.Pattern

open Verdict.Text

structure Flags where
  ignoreCase : Bool := false
  multiLine : Bool := false
  dotAll : Bool := false
  swapGreed : Bool := false
  unicode : Bool := true
  crlf : Bool := false
  spaced : Bool := false

/-- What is left to read, with what has been met so far. -/
structure Cursor where
  rest : List Char
  flags : Flags := {}
  names : List (String × Nat) := []
  groups : Nat := 0

structure Spelled where
  expr : Expr
  height : Nat := 0

def maxHeight : Nat := 250

namespace Reader

/-! ## Blanks in spaced patterns -/

private def skipFrom (inComment : Bool) : List Char → List Char
  | [] => []
  | c :: cs =>
    if inComment then skipFrom (c != '\n') cs
    else if isBlank c then skipFrom false cs
    else if c == '#' then skipFrom true cs
    else c :: cs

/-- Leaves out blanks and comments, where the pattern is spaced. -/
def skip (spaced : Bool) (cs : List Char) : List Char :=
  if spaced then skipFrom false cs else cs

/-- The next character that is not blank behind the current one. -/
private def peekPast (spaced : Bool) (cs : List Char) : Option Char :=
  if !spaced then cs.head?
  else match cs.dropWhile isBlank with
    | '#' :: more => (more.dropWhile isBlank).head?
    | [] => cs.head?
    | more => more.head?

/-! ## Sets under flags -/

private def foldCase (flags : Flags) (s : CharSet) : CharSet :=
  let classes := if flags.unicode then CaseClass.all
    else (List.range 26).map fun i => [0x41 + i, 0x61 + i]
  let extra := classes.flatMap fun members =>
    if members.any fun n => s.contains (Char.ofNat n) then members.map fun n => (n, n) else []
  s ∪ .ofRanges extra

def foldIf (flags : Flags) (s : CharSet) : CharSet :=
  if flags.ignoreCase then foldCase flags s else s

private def checked (flags : Flags) (s : CharSet) : Option CharSet :=
  if flags.unicode || s.isAscii then some s else none

private def negateIf (negated : Bool) (s : CharSet) : CharSet :=
  if negated then s.complement else s

private def foldAndNegate (flags : Flags) (negated : Bool) (s : CharSet) : Option CharSet :=
  checked flags (negateIf negated (foldIf flags s))

/-! ## Escapes -/

inductive Escape where
  | char (c : Char) (byte : Bool)
  | set (s : CharSet)
  /-- A set of which it is known that it has several members. -/
  | several (s : CharSet)
  | look (l : Look)

def isMeta (c : Char) : Bool :=
  "\\.+*?()|[]\x7b\x7d^$#&-~".toList.contains c

def isEscapable (c : Char) : Bool :=
  isMeta c || (c.toNat < 0x80 && !c.isAlphanum && c != '<' && c != '>')

private def hexDigit? (c : Char) : Option Nat :=
  if c.isDigit then some (c.toNat - 0x30)
  else if 'a' ≤ c ∧ c ≤ 'f' then some (c.toNat - 0x57)
  else if 'A' ≤ c ∧ c ≤ 'F' then some (c.toNat - 0x37)
  else none

private def scalar? (n : Nat) : Option Char :=
  if n < 0xD800 ∨ (0xDFFF < n ∧ n < 0x110000) then some (Char.ofNat n) else none

private def fixedHex (spaced : Bool) : (count value : Nat) → List Char → Option (Nat × List Char)
  | 0, value, cs => some (value, cs)
  | count + 1, value, cs =>
    match cs with
    | c :: cs => do fixedHex spaced count (16 * value + (← hexDigit? c)) (skip spaced cs)
    | [] => none

private def bracedHex (spaced : Bool) : (fuel : Nat) → (digits : List Nat) → List Char →
    Option (Nat × List Char)
  | 0, _, _ => none
  | fuel + 1, digits, cs =>
    match skip spaced cs with
    | '\x7d' :: rest =>
      if digits.isEmpty then none
      else some (digits.reverse.foldl (fun n d => 16 * n + d) 0, skip spaced rest)
    | c :: rest => do bracedHex spaced fuel ((← hexDigit? c) :: digits) rest
    | [] => none

private def readHex (spaced : Bool) (count : Nat) (cs : List Char) :
    Option (Escape × List Char) :=
  match skip spaced cs with
  | '\x7b' :: rest => do
    let (n, rest) ← bracedHex spaced (rest.length + 1) [] rest
    return (.char (← scalar? n) false, rest)
  | rest => do
    let (n, rest) ← fixedHex spaced count 0 rest
    return (.char (← scalar? n) (count == 2), rest)

/-- The text up to a closing brace, without blanks where the pattern is spaced. -/
private def bracedName (spaced : Bool) : (fuel : Nat) → List Char → Option (List Char × List Char)
  | 0, _ => none
  | fuel + 1, cs =>
    match skip spaced cs with
    | '\x7d' :: rest => some ([], rest)
    | c :: rest => do
      let (name, rest) ← bracedName spaced fuel rest
      return (c :: name, rest)
    | [] => none

private def property? (name : List Char) : Option (CharSet × Bool) :=
  let splitAt := fun (n i : Nat) => ClassName.valued? (name.take i) (name.drop (i + n))
  let unequal := (List.range name.length).find? fun i => (name.drop i).take 2 == ['!', '=']
  match unequal, name.findIdx? (· == ':'), name.findIdx? (· == '=') with
  | some i, _, _ => (splitAt 2 i).map (·, true)
  | none, some i, _ => (splitAt 1 i).map (·, false)
  | none, none, some i => (splitAt 1 i).map (·, false)
  | none, none, none => (ClassName.single? name).map (·, false)

private def readProperty (flags : Flags) (negated : Bool) (cs : List Char) :
    Option (Escape × List Char) := do
  let (name, rest) ← match skip flags.spaced cs with
    | '\x7b' :: rest => bracedName flags.spaced (rest.length + 1) rest
    | c :: rest => if c == '\\' then none else some ([c], skip flags.spaced rest)
    | [] => none
  let (s, opposite) ← property? name
  if !flags.unicode then none
  return (.set (← foldAndNegate flags (negated != opposite) s), rest)

private def perlClass (flags : Flags) (c : Char) : Option CharSet :=
  let base := match c.toLower, flags.unicode with
    | 'd', true => Category.decimalNumber
    | 'd', false => ClassName.asciiDigit
    | 's', true => Property.whiteSpace
    | 's', false => ClassName.asciiSpace
    | _, true => Property.wordChar
    | _, false => ClassName.asciiWord
  checked flags (negateIf c.isUpper base)

private def boundaryName (ascii : Bool) (name : String) : Option Look :=
  match name with
  | "start" => some (.wordStart ascii)
  | "end" => some (.wordEnd ascii)
  | "start-half" => some (.wordStartHalf ascii)
  | "end-half" => some (.wordEndHalf ascii)
  | _ => none

private def isBoundaryChar (c : Char) : Bool :=
  c.isAlpha || c == '-'

private def boundaryChars (spaced : Bool) : (fuel : Nat) → List Char → List Char × List Char
  | 0, cs => ([], cs)
  | fuel + 1, cs =>
    match cs with
    | c :: rest =>
      if isBoundaryChar c then
        let (name, rest) := boundaryChars spaced fuel (skip spaced rest)
        (c :: name, rest)
      else ([], cs)
    | [] => ([], [])

private def readBoundary (flags : Flags) (cs : List Char) : Option (Escape × List Char) :=
  let ascii := !flags.unicode
  match cs with
  | '\x7b' :: rest =>
    match skip flags.spaced rest with
    | [] => none
    | c :: more =>
      if isBoundaryChar c then
        match boundaryChars flags.spaced (more.length + 1) (c :: more) with
        | (name, '\x7d' :: rest) =>
          (boundaryName ascii (String.ofList name)).map fun l => (.look l, rest)
        | _ => none
      else some (.look (.boundary ascii), cs)
  | _ => some (.look (.boundary ascii), cs)

def readEscape (flags : Flags) : List Char → Option (Escape × List Char)
  | [] => none
  | c :: cs =>
    let ascii := !flags.unicode
    let char := fun (c : Char) => some (Escape.char c false, cs)
    match c with
    | 'x' => readHex flags.spaced 2 cs
    | 'u' => readHex flags.spaced 4 cs
    | 'U' => readHex flags.spaced 8 cs
    | 'p' => readProperty flags false cs
    | 'P' => readProperty flags true cs
    | 'd' | 's' | 'w' | 'D' | 'S' | 'W' => (perlClass flags c).map fun s => (.several s, cs)
    | 'a' => char '\x07'
    | 'f' => char '\x0c'
    | 't' => char '\t'
    | 'n' => char '\n'
    | 'r' => char '\r'
    | 'v' => char '\x0b'
    | 'A' => some (.look .textStart, cs)
    | 'z' => some (.look .textEnd, cs)
    | 'b' => readBoundary flags cs
    | 'B' => some (.look (.notBoundary ascii), cs)
    | '<' => some (.look (.wordStart ascii), cs)
    | '>' => some (.look (.wordEnd ascii), cs)
    | c => if isEscapable c then char c else none

/-! ## Bracketed sets -/

private inductive SetOp where
  | inter
  | diff
  | symm

private def SetOp.apply (flags : Flags) (op : SetOp) (s t : CharSet) : CharSet :=
  let s := foldIf flags s
  let t := foldIf flags t
  match op with
  | .inter => s ∩ t
  | .diff => s \ t
  | .symm => s.symmDiff t

/-- The items read since the last operation, and their depth. -/
private structure Union where
  items : List CharSet := []
  height : Nat := 0

private def Union.add (u : Union) (s : CharSet) (height : Nat) : Union :=
  ⟨s :: u.items, max u.height height⟩

private def Union.set (u : Union) : CharSet :=
  .unions u.items

private def Union.depth (u : Union) : Nat :=
  if u.items.length > 1 then u.height + 1 else u.height

/-- What stands left of the current items, up to an operation. -/
private structure Pending where
  set : CharSet
  height : Nat
  op : SetOp

private def close (flags : Flags) (pending : Option Pending) (u : Union) : CharSet × Nat :=
  match pending with
  | none => (u.set, u.depth)
  | some p => (p.op.apply flags p.set u.set, max p.height u.depth + 1)

private def asciiClass (flags : Flags) (cs : List Char) : Option (CharSet × List Char) :=
  match cs with
  | ':' :: more => do
    let (negated, more) := match more with
      | '^' :: more => (true, more)
      | _ => (false, more)
    let name := more.takeWhile (· != ':')
    match more.dropWhile (· != ':') with
    | ':' :: ']' :: rest =>
      let s ← ClassName.bracketed? (String.ofList name)
      return (← foldAndNegate flags negated s, rest)
    | _ => none
  | _ => none

private def isAsciiClass (cs : List Char) : Bool :=
  match cs with
  | ':' :: more =>
    let more := if more.head? == some '^' then more.drop 1 else more
    match more.dropWhile (· != ':') with
    | ':' :: ']' :: _ =>
      (ClassName.bracketed? (String.ofList (more.takeWhile (· != ':')))).isSome
    | _ => false
  | _ => false

private def readMember (flags : Flags) : List Char → Option (Escape × List Char)
  | [] => none
  | '\\' :: cs => readEscape flags cs
  | c :: cs => some (.char c false, cs)

private def memberSet (flags : Flags) : Escape → Option CharSet
  | .char c _ => checked flags (.single c)
  | .set s | .several s => some s
  | .look _ => none

private def readRange (flags : Flags) (cs : List Char) : Option (CharSet × List Char) := do
  let (first, rest) ← readMember flags cs
  match skip flags.spaced rest with
  | [] => none
  | '-' :: more =>
    let next := peekPast flags.spaced more
    if next == some ']' || next == some '-' then
      return (← memberSet flags first, '-' :: more)
    let more := skip flags.spaced more
    if more.isEmpty then none
    let (second, rest) ← readMember flags more
    match first, second with
    | .char a _, .char b _ =>
      if b < a then none
      return (← checked flags (.range a.toNat b.toNat), rest)
    | _, _ => none
  | rest => return (← memberSet flags first, rest)

/-- Hyphens in front, and a closing bracket in front of everything else, are members. -/
private def leading (flags : Flags) : (fuel : Nat) → Union → List Char →
    Option (Union × List Char)
  | 0, _, _ => none
  | fuel + 1, u, cs =>
    match cs with
    | '-' :: rest =>
      match skip flags.spaced rest with
      | [] => none
      | rest => leading flags fuel (u.add (.single '-') 0) rest
    | ']' :: rest =>
      if u.items.isEmpty then
        match skip flags.spaced rest with
        | [] => none
        | rest => some (u.add (.single ']') 0, rest)
      else some (u, cs)
    | [] => none
    | _ => some (u, cs)

mutual
private def readSet (flags : Flags) : (fuel : Nat) → List Char →
    Option (CharSet × Nat × List Char)
  | 0, _ => none
  | fuel + 1, cs => do
    let cs := skip flags.spaced cs
    let (negated, cs) := match cs with
      | '^' :: rest => (true, skip flags.spaced rest)
      | _ => (false, cs)
    let (u, cs) ← leading flags (cs.length + 1) {} cs
    let (s, height, rest) ← readItems flags fuel none u cs
    return (← foldAndNegate flags negated s, height + 1, rest)

private def readItems (flags : Flags) : (fuel : Nat) → Option Pending → Union → List Char →
    Option (CharSet × Nat × List Char)
  | 0, _, _, _ => none
  | fuel + 1, pending, u, cs =>
    let operation := fun (op : SetOp) (rest : List Char) =>
      let (s, height) := close flags pending u
      readItems flags fuel (some ⟨s, height, op⟩) {} rest
    match skip flags.spaced cs with
    | [] => none
    | '[' :: rest =>
      if isAsciiClass rest then do
        let (s, rest) ← asciiClass flags rest
        readItems flags fuel pending (u.add s 0) rest
      else do
        let (s, height, rest) ← readSet flags fuel rest
        readItems flags fuel pending (u.add s height) rest
    | ']' :: rest =>
      let (s, height) := close flags pending u
      some (s, height, rest)
    | '&' :: '&' :: rest => operation .inter rest
    | '-' :: '-' :: rest => operation .diff rest
    | '~' :: '~' :: rest => operation .symm rest
    | cs => do
      let (s, rest) ← readRange flags cs
      readItems flags fuel pending (u.add s 0) rest
end

/-! ## Repetitions -/

private def readCount (spaced : Bool) (cs : List Char) : Option (Option Nat × List Char) :=
  let rec digits : (fuel : Nat) → List Char → List Char × List Char
    | 0, cs => ([], cs)
    | fuel + 1, cs =>
      match cs with
      | c :: rest =>
        if Decimal.isDigit c then
          let (ds, rest) := digits fuel (skip spaced rest)
          (c :: ds, rest)
        else ([], cs)
      | [] => ([], [])
  let (ds, rest) := digits (cs.length + 1) (cs.dropWhile isBlank)
  let rest := skip spaced (rest.dropWhile isBlank)
  if ds.isEmpty then some (none, rest)
  else if Decimal.natOf ds < 0x100000000 then some (some (Decimal.natOf ds), rest)
  else none

private def readBounds (spaced : Bool) (cs : List Char) :
    Option (Nat × Option Nat × List Char) := do
  let (least, rest) ← readCount spaced (skip spaced cs)
  match rest with
  | ',' :: rest =>
    match skip spaced rest with
    | '\x7d' :: rest => return (← least, none, rest)
    | rest =>
      let least ← least
      let (most, rest) ← readCount spaced rest
      let most ← most
      match rest with
      | '\x7d' :: rest => if most < least then none else return (least, some most, rest)
      | _ => none
  | '\x7d' :: rest =>
    let n ← least
    return (n, some n, rest)
  | _ => none

/-! ## Flags -/

private def setFlag (flags : Flags) (on : Bool) : Char → Option Flags
  | 'i' => some { flags with ignoreCase := on }
  | 'm' => some { flags with multiLine := on }
  | 's' => some { flags with dotAll := on }
  | 'U' => some { flags with swapGreed := on }
  | 'u' => some { flags with unicode := on }
  | 'R' => some { flags with crlf := on }
  | 'x' => some { flags with spaced := on }
  | _ => none

/-- Flags up to a colon or a closing parenthesis, which ends them: the flags, whether there were
any, and what ended them. -/
private def readFlags (seen : List Char) (on : Bool) (flags : Flags) :
    List Char → Option (Flags × Bool × Char × List Char)
  | [] => none
  | c :: rest =>
    if c == ':' || c == ')' then
      if seen.head? == some '-' then none else some (flags, !seen.isEmpty, c, rest)
    else if seen.contains c then none
    else if c == '-' then readFlags (c :: seen) false flags rest
    else match setFlag flags on c with
      | some flags => readFlags (c :: seen) on flags rest
      | none => none

/-! ## Groups and sequences -/

private def isNameChar (first : Bool) (c : Char) : Bool :=
  c == '_' || Newest.alphabetic.contains c ||
    (!first && (c == '.' || c == '[' || c == ']' || Newest.number.contains c))

private def readName (cs : List Char) : Option (String × List Char) :=
  let name := cs.takeWhile (· != '>')
  match name, cs.dropWhile (· != '>') with
  | c :: more, '>' :: rest =>
    if isNameChar true c && more.all (isNameChar false) then some (String.ofList name, rest)
    else none
  | _, _ => none

/-- Several spellings as one; more than one of them are a level deeper. -/
def together (join : List Expr → Expr) (count : Nat) (es : List Spelled) : Spelled :=
  let height := es.foldl (fun h e => max h e.height) 0
  ⟨join (es.map (·.expr)), if count > 1 then height + 1 else height⟩

def sequence (parts : List (Option Spelled)) : Spelled :=
  together .concat parts.length (parts.filterMap id)

def choice (branches : List Spelled) : Spelled :=
  together .choice branches.length branches

def literal (flags : Flags) (c : Char) (byte : Bool) : Option Expr :=
  if !flags.unicode && byte && c.toNat > 0x7F then none
  else some (.ofSet (foldIf flags (.single c)))

private def dot (flags : Flags) : Option Expr :=
  if !flags.unicode then none
  else if flags.dotAll then some (.set .all)
  else if flags.crlf then some (.set (CharSet.ofTable ["A D"]).complement)
  else some (.set (CharSet.ofTable ["A"]).complement)

private def lineLook (flags : Flags) (text line crlf : Look) : Expr :=
  if !flags.multiLine then .look text else if flags.crlf then .look crlf else .look line

def escapeExpr (flags : Flags) : Escape → Option Expr
  | .char c byte => literal flags c byte
  | .set s => some (.ofSet s)
  | .several s => some (.set s)
  | .look l => some (.look l)

/-- The last part, repeated; flags alone cannot be. Parts are kept in reverse. -/
def repeated (flags : Flags) (least : Nat) (most : Option Nat) (lazy : Bool) :
    List (Option Spelled) → Option (List (Option Spelled))
  | some e :: before =>
    some (some ⟨.repeated least most (lazy == flags.swapGreed) e.expr, e.height + 1⟩ :: before)
  | _ => none

/-- Whether a question mark follows, which makes a repetition prefer fewer rounds. -/
private def readLazy : List Char → Bool × List Char
  | '?' :: rest => (true, rest)
  | rest => (false, rest)

/-- The opening of a group, after its parenthesis. -/
private inductive Opening where
  | setFlags (flags : Flags)
  | plain (flags : Flags)
  | capture (name : Option String)

private def readOpening (c : Cursor) : Option (Opening × List Char) :=
  match skip c.flags.spaced c.rest with
  | '?' :: '=' :: _ | '?' :: '!' :: _ => none
  | '?' :: '<' :: '=' :: _ | '?' :: '<' :: '!' :: _ => none
  | '?' :: 'P' :: '<' :: rest | '?' :: '<' :: rest => do
    let (name, rest) ← readName rest
    if (c.names.lookup name).isSome then none
    return (.capture (some name), rest)
  | '?' :: rest => do
    let (flags, any, ending, rest) ← readFlags [] true c.flags rest
    if ending == ':' then return (.plain flags, rest)
    else if any then return (.setFlags flags, rest)
    else none
  | rest => some (.capture none, rest)

mutual
/-- Branches up to a closing parenthesis or the end of the text. Every round consumes a
character or goes down one level, so twice the length of the text is enough fuel. -/
def readBranches : (fuel : Nat) → List Spelled → Cursor → Option (Spelled × Cursor)
  | 0, _, _ => none
  | fuel + 1, branches, c => do
    let (e, c) ← readParts fuel [] c
    match c.rest with
    | '|' :: rest => readBranches fuel (e :: branches) { c with rest }
    | _ => return (choice (e :: branches).reverse, c)

/-- A sequence of parts, kept in reverse; flags leave an empty part. -/
def readParts : (fuel : Nat) → List (Option Spelled) → Cursor →
    Option (Spelled × Cursor)
  | 0, _, _ => none
  | fuel + 1, parts, c =>
    let rest := skip c.flags.spaced c.rest
    let push := fun (e : Option Expr) (rest : List Char) => do
      readParts fuel (some ⟨← e, 0⟩ :: parts) { c with rest }
    let repeats := fun (least : Nat) (most : Option Nat) (rest : List Char) => do
      let (lazy, rest) := readLazy rest
      readParts fuel (← repeated c.flags least most lazy parts) { c with rest }
    match rest with
    | [] | ')' :: _ | '|' :: _ => some (sequence parts.reverse, { c with rest })
    | '(' :: inner => do
      let (opening, inner) ← readOpening { c with rest := inner }
      match opening with
      | .setFlags flags => readParts fuel (none :: parts) { c with rest := inner, flags }
      | .plain flags =>
        let (e, after) ← readBranches fuel [] { c with rest := inner, flags }
        match after.rest with
        | ')' :: rest =>
          readParts fuel (some { e with height := e.height + 1 } :: parts)
            { after with rest, flags := c.flags }
        | _ => none
      | .capture name =>
        let index := c.groups + 1
        let names := match name with
          | some name => (name, index) :: c.names
          | none => c.names
        let (e, after) ← readBranches fuel [] { c with rest := inner, names, groups := index }
        match after.rest with
        | ')' :: rest =>
          readParts fuel (some ⟨.capture index e.expr, e.height + 1⟩ :: parts)
            { after with rest, flags := c.flags }
        | _ => none
    | '[' :: more => do
      let (s, height, rest) ← readSet c.flags (2 * more.length + 2) more
      readParts fuel (some ⟨.ofSet s, height⟩ :: parts) { c with rest }
    | '?' :: rest => repeats 0 (some 1) rest
    | '*' :: rest => repeats 0 none rest
    | '+' :: rest => repeats 1 none rest
    | '\x7b' :: more => do
      let (least, most, rest) ← readBounds c.flags.spaced more
      repeats least most (skip c.flags.spaced rest)
    | '\\' :: more => do
      let (escape, rest) ← readEscape c.flags more
      push (escapeExpr c.flags escape) rest
    | '.' :: rest => push (dot c.flags) rest
    | '^' :: rest => push (some (lineLook c.flags .textStart .lineStart .lineStartCrlf)) rest
    | '$' :: rest => push (some (lineLook c.flags .textEnd .lineEnd .lineEndCrlf)) rest
    | x :: rest => push (literal c.flags x false) rest
end

/-- The expression of a whole text, with the names of its groups and their number. -/
def read (text : String) : Option (Expr × List (String × Nat) × Nat) :=
  let cs := text.toList
  match readBranches (2 * cs.length + 3) [] { rest := cs } with
  | some (e, c) =>
    if c.rest.isEmpty && e.height ≤ maxHeight then some (e.expr, c.names, c.groups) else none
  | none => none

end Reader

end Verdict.Pattern
