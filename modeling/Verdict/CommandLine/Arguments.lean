/-!
# Arguments of the command line

Two commands, `evaluate` and `hash`, each with options of its own. What the arguments ask for is
a command to run, a text to show, or nothing that makes sense.
-/

namespace Verdict.CommandLine

structure Flag where
  short : Option Char
  long : String
  takesValue : Bool
  required : Bool
  about : String

/-- A command that arguments can name. -/
structure Verb where
  name : String
  about : String
  flags : List Flag

def program : String := "condition-engine"

def version : String := "0.1.0"

def evaluateVerb : Verb where
  name := "evaluate"
  about := "对记录评估条件，输出 JSON 追踪"
  flags := [
    ⟨some 'c', "condition", true, true, "条件定义文件"⟩,
    ⟨some 'r', "record", true, true, "记录文件"⟩,
    ⟨some 'e', "env", true, false, "环境变量文件（JSON 对象）"⟩,
    ⟨none, "pretty", false, false, "格式化输出"⟩]

def hashVerb : Verb where
  name := "hash"
  about := "输出条件的结构哈希"
  flags := [⟨some 'c', "condition", true, true, "条件定义文件"⟩]

def verbs : List Verb := [evaluateVerb, hashVerb]

/-! ## Help -/

/-- Rows of two columns; the second one starts two blanks behind the widest entry. -/
private def rows (pairs : List (String × String)) : List String :=
  let width := (pairs.map (·.1.length)).foldl max 0
  pairs.map fun (left, right) =>
    "  " ++ left ++ String.ofList (List.replicate (width - left.length + 2) ' ') ++ right

private def valueName (f : Flag) : String :=
  " <" ++ f.long.map Char.toUpper ++ ">"

private def flagRow (f : Flag) : String × String :=
  ((match f.short with
    | some c => "-" ++ String.singleton c ++ ", "
    | none => "    ") ++ "--" ++ f.long ++ (if f.takesValue then valueName f else ""), f.about)

private def commonRows : List (String × String) :=
  [("-h, --help", "Print help"), ("-V, --version", "Print version")]

private def paragraphs (blocks : List (List String)) : String :=
  "\n\n".intercalate (blocks.map ("\n".intercalate ·)) ++ "\n"

private def helpAbout : String :=
  "Print this message or the help of the given subcommand(s)"

def programHelp : String :=
  paragraphs [["声明式条件引擎"], ["Usage: " ++ program ++ " <COMMAND>"],
    "Commands:" :: rows (verbs.map (fun v => (v.name, v.about)) ++ [("help", helpAbout)]),
    "Options:" :: rows commonRows]

def verbHelp (v : Verb) : String :=
  let needed := (v.flags.filter (·.required)).map fun f => " --" ++ f.long ++ valueName f
  let free := if v.flags.any (!·.required) then " [OPTIONS]" else ""
  paragraphs [[v.about],
    ["Usage: " ++ program ++ " " ++ v.name ++ free ++ String.join needed],
    "Options:" :: rows (v.flags.map flagRow ++ commonRows)]

def helpHelp : String :=
  paragraphs [[helpAbout], ["Usage: " ++ program ++ " help [COMMAND]..."],
    "Arguments:" :: rows [("[COMMAND]...", "Print help for the subcommand(s)")]]

/-! ## Reading arguments -/

inductive Request where
  | evaluate (condition record : String) (env : Option String) (pretty : Bool)
  | hash (condition : String)
  /-- Shows a text. -/
  | display (text : String)
  /-- Wrong usage. -/
  | misuse
  deriving DecidableEq

/-- Why reading stops before the last argument. -/
private inductive Stop where
  | help
  | version
  | misuse

private abbrev Given := List (String × String)

/-- Records an option, which may be given once only; a value must not be empty. -/
private def record (given : Given) (f : Flag) (value : String) : Except Stop Given :=
  if (given.lookup f.long).isSome || (f.takesValue && value.isEmpty) then .error .misuse
  else .ok (given ++ [(f.long, value)])

private def startsFlag (arg : String) : Bool :=
  arg.startsWith "-" && arg != "-"

/-- An option that stands by itself: one of a long name, or a run of short ones. Answers the
option that still waits for its value. -/
private def readFlag (v : Verb) (given : Given) (arg : List Char) :
    Except Stop (Given × Option Flag) :=
  match arg with
  | '-' :: '-' :: text =>
    let (name, rest) := text.span (· != '=')
    match String.ofList name, rest with
    | "help", [] => .error .help
    | "version", [] => .error .version
    | name, rest =>
      match v.flags.find? (·.long == name), rest with
      | none, _ => .error .misuse
      | some f, [] => if f.takesValue then .ok (given, some f)
        else (record given f "").map (·, none)
      | some f, _ :: value => if f.takesValue then
          (record given f (String.ofList value)).map (·, none)
        else .error .misuse
  | '-' :: c :: letters => run given (c :: letters)
  | _ => .error .misuse
where
  run (given : Given) : List Char → Except Stop (Given × Option Flag)
    | [] => .ok (given, none)
    | c :: rest =>
      if c == 'h' then .error .help
      else if c == 'V' then .error .version
      else match v.flags.find? (·.short == some c) with
        | none => .error .misuse
        | some f =>
          if f.takesValue then
            match rest with
            | [] => .ok (given, some f)
            | '=' :: value => (record given f (String.ofList value)).map (·, none)
            | value => (record given f (String.ofList value)).map (·, none)
          else do run (← record given f "") rest

/-- The options of a command; there are no other arguments. -/
private def readFlags (v : Verb) (given : Given) (waiting : Option Flag) :
    List String → Except Stop Given
  | [] => if waiting.isSome then .error .misuse else .ok given
  | arg :: rest =>
    match waiting with
    | some f =>
      if startsFlag arg then .error .misuse
      else do readFlags v (← record given f arg) none rest
    | none =>
      if arg == "--" then (if rest.isEmpty then .ok given else .error .misuse)
      else do
        let (given, waiting) ← readFlag v given arg.toList
        readFlags v given waiting rest

private def stopped (help name : String) : Stop → Request
  | .help => .display help
  | .version => .display (name ++ " " ++ version ++ "\n")
  | .misuse => .misuse

/-- The request of a command; options that it requires have to be given. -/
private def readVerb (v : Verb) (args : List String) : Request :=
  match readFlags v [] none args with
  | .error stop => stopped (verbHelp v) (program ++ "-" ++ v.name) stop
  | .ok given =>
    if v.name == hashVerb.name then
      match given.lookup "condition" with
      | some c => .hash c
      | none => .misuse
    else
      match given.lookup "condition", given.lookup "record" with
      | some c, some r => .evaluate c r (given.lookup "env") (given.lookup "pretty").isSome
      | _, _ => .misuse

private def readHelp : List String → Request
  | [] => .display programHelp
  | [name] =>
    match verbs.find? (·.name == name) with
    | some v => .display (verbHelp v)
    | none => if name == "help" then .display helpHelp else .misuse
  | _ => .misuse

def Request.ofArguments : List String → Request
  | [] => .misuse
  | arg :: rest =>
    if startsFlag arg && arg != "--" then
      match readFlag ⟨"", "", []⟩ [] arg.toList with
      | .error stop => stopped programHelp program stop
      | .ok _ => .misuse
    else if arg == "help" then readHelp rest
    else match verbs.find? (·.name == arg) with
      | some v => readVerb v rest
      | none => .misuse

end Verdict.CommandLine
