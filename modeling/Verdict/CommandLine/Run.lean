import Verdict.CommandLine.Arguments
import Verdict.Rule.Compile
import Verdict.Settings.Basic

/-!
# Running a command line

What a command line answers, as a function of its arguments, the files that it can read and the
variables of the environment. Faults are reported in the order in which a run meets them: the
rule and its depth, the record, the environment, the evaluation.
-/

namespace Verdict.CommandLine

inductive Failure where
  | fileMissing (path : String)
  | notJson (path : String)
  | notDefinition (path : String)
  | notRule (path : String)
  | tooDeep (depth limit : Nat)
  | notEnvironment (path : String)
  | notEvaluated
  deriving DecidableEq

def Failure.message : Failure → String
  | fileMissing path => "读取文件失败: " ++ path
  | notJson path => "JSON 解析失败: " ++ path
  | notDefinition path => "条件格式错误: " ++ path
  | notRule path => "条件构建失败: " ++ path
  | tooDeep depth limit => "条件树深度 " ++ toString depth ++ " 超过上限 " ++ toString limit
  | notEnvironment path => "环境文件必须是 JSON 对象: " ++ path
  | notEvaluated => "条件评估失败"

/-- What a run leaves behind. -/
inductive Outcome where
  | printed (text : String)
  | failed (f : Failure)
  | misused
  deriving DecidableEq

def Outcome.exitCode : Outcome → Nat
  | printed _ => 0
  | failed _ => 1
  | misused => 2

/-- What a run can see: the files by their paths, the variables and the clock. -/
structure World where
  file : String → Option String
  vars : List (String × String)
  now : Instant

namespace World

def variableNames : List String :=
  ["CONDITION_ENV", "CONFIG_DIR"] ++ Settings.variableNames

private def envValue? (w : World) (name : String) : Option String :=
  w.vars.lookup name

private def inDirectory (directory name : String) : String :=
  if directory.isEmpty || directory.endsWith "/" then directory ++ name
  else directory ++ "/" ++ name

private def environment (w : World) : String :=
  (w.envValue? "CONDITION_ENV").getD "development"

private def settingsPath (w : World) (name : String) : String :=
  inDirectory ((w.envValue? "CONFIG_DIR").getD "config") name

/-- The settings of a run; settings that cannot be read leave the standard ones. -/
def settings (w : World) : Settings :=
  (Settings.load program w.environment (fun name => w.file (w.settingsPath name))
    w.vars).getD {}

def paths (w : World) (arguments : List String) : List String :=
  let given := match Request.ofArguments arguments with
    | .evaluate condition record env _ => [condition, record] ++ env.toList
    | .hash condition => [condition]
    | _ => []
  given ++ (Settings.fileNames program w.environment).map w.settingsPath

def readJson (w : World) (path : String) : Except Failure Json :=
  match w.file path with
  | none => .error (.fileMissing path)
  | some text =>
    match Json.read text with
    | some v => .ok v
    | none => .error (.notJson path)

def readRule (w : World) (scope : ScopeId) (limit : Nat) (path : String) :
    Except Failure Rule := do
  match Definition.ofJson (← w.readJson path) with
  | none => .error (.notDefinition path)
  | some d =>
    match Rule.ofDefinition scope d with
    | .error _ => .error (.notRule path)
    | .ok r => if limit < r.depth then .error (.tooDeep r.depth limit) else .ok r

private def readEnvironment (w : World) (path : Option String) : Except Failure Environment := do
  match path with
  | none => .ok []
  | some path =>
    match ← w.readJson path with
    | .obj members => .ok members
    | _ => .error (.notEnvironment path)

def evaluate (w : World) (condition record : String) (env : Option String) :
    Except Failure Trace := do
  let settings := w.settings
  let (scope, session) := Session.openScope {} settings.scope
  let r ← w.readRule scope settings.maxDepth condition
  let record ← w.readJson record
  let env ← w.readEnvironment env
  match (r.evaluate w.now record env session).1.1 with
  | .ok trace => .ok trace
  | .error _ => .error .notEvaluated

def hash (w : World) (condition : String) : Except Failure String := do
  let settings := w.settings
  let (scope, _) := Session.openScope {} settings.scope
  return (← w.readRule scope settings.maxDepth condition).digest

end World

def printed (result : Except Failure String) : Outcome :=
  match result with
  | .ok line => .printed (line ++ "\n")
  | .error f => .failed f

def run (w : World) (arguments : List String) : Outcome :=
  match Request.ofArguments arguments with
  | .misuse => .misused
  | .display text => .printed text
  | .hash condition => printed (w.hash condition)
  | .evaluate condition record env pretty =>
    printed <| (w.evaluate condition record env).map fun trace =>
      if pretty then trace.toJson.layout 0 else trace.toJson.text

end Verdict.CommandLine
