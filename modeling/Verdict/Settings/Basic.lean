import Verdict.Scope
import Verdict.Settings.Toml

/-!
# Settings

How the engine is set up: the capacity of its caches, its locale, the depth of the rules that it
takes, and what its log looks like. Settings come from files and from variables of the
environment; later layers override earlier ones.
-/

namespace Verdict

structure Settings where
  serviceName : String := "condition-engine"
  environment : String := "development"
  capacity : Option Nat := none
  locale : String := "en-US"
  /-- Deeper rules are refused. -/
  maxDepth : Nat := 64
  logService : String := "unknown-service"
  logLevel : String := "info"
  jsonLogs : Bool := false

namespace Settings

def scope (s : Settings) : Scope :=
  Scope.bounded s.capacity s.locale

/-! ## Variables -/

def variableNames : List String :=
  ["CONDITION_SERVICE_NAME", "CONDITION_ENVIRONMENT", "CONDITION_ENGINE",
    "CONDITION_ENGINE__PATH_CACHE_CAPACITY", "CONDITION_ENGINE__DEFAULT_LOCALE",
    "CONDITION_ENGINE__MAX_DEPTH", "CONDITION_OBSERVABILITY",
    "CONDITION_OBSERVABILITY__SERVICE_NAME", "CONDITION_OBSERVABILITY__LOG_LEVEL",
    "CONDITION_OBSERVABILITY__JSON_LOGS"]

/-- The name of the setting that a variable holds. The name of the variable starts with
`CONDITION_`, in any case, and two underscores stand for a point. -/
private def settingName? (name : String) : Option String :=
  let cs := (Text.toLower name).toList
  let mark := "condition_".toList
  if mark.isPrefixOf cs then
    some (".".intercalate ((String.ofList (cs.drop mark.length)).splitOn "__"))
  else none

private def ofVariables (vars : List (String × String)) : Entry :=
  .table (vars.filterMap fun (name, value) =>
    (settingName? name).map fun name => (name, Entry.ofText value))

/-! ## Settings of a table -/

/-- A setting that may be missing, but not be of another kind. -/
private def field {α : Type} (e : Entry) (name : String) (take : Entry → Option α) (otherwise : α) :
    Option α :=
  match e.entry? name with
  | some v => take v
  | none => some otherwise

/-- A table of settings that may be missing; the items of a list are settings in their order. -/
private def section? (root : Entry) (name : String) (settings : List String) : Option Entry :=
  match root.entry? name with
  | none => some (.table [])
  | some (.table es) => some (.table es)
  | some (.list es) => some (.table (settings.zip es))
  | some _ => none

/-- The capacity that an entry sets; nothing sets no bound. -/
private def capacity? : Entry → Option (Option Nat)
  | .nothing => some none
  | e => e.count?.map some

def ofEntry (root : Entry) : Option Settings := do
  let engine ← section? root "engine" ["path_cache_capacity", "default_locale", "max_depth"]
  let log ← section? root "observability" ["service_name", "log_level", "json_logs"]
  let standard : Settings := {}
  return {
    serviceName := ← field root "service_name" Entry.text? standard.serviceName
    environment := ← field root "environment" Entry.text? standard.environment
    capacity := ← field engine "path_cache_capacity" capacity? standard.capacity
    locale := ← field engine "default_locale" Entry.text? standard.locale
    maxDepth := ← field engine "max_depth" Entry.count? standard.maxDepth
    logService := ← field log "service_name" Entry.text? standard.logService
    logLevel := ← field log "log_level" Entry.text? standard.logLevel
    jsonLogs := ← field log "json_logs" Entry.flag? standard.jsonLogs }

/-- The files with settings of a service in an environment; later ones override earlier ones. -/
def fileNames (service environment : String) : List String :=
  ["default", environment, service].map (· ++ ".toml")

/-- The settings of a service in an environment, from files and then from variables. A file that
is missing is passed over; one that cannot be read spoils the settings. -/
def load (service environment : String) (file : String → Option String)
    (vars : List (String × String)) : Option Settings := do
  let base := Entry.table [("environment", .text environment), ("service_name", .text service)]
  let root ← (fileNames service environment).foldlM (fun root name => do
    match file name with
    | none => some root
    | some text => return root.layer (← Toml.read text)) base
  ofEntry (root.layer (ofVariables vars))

end Settings

end Verdict
