import ProbeCoverage.Config.Check
import ProbeCoverage.Decimal.Read
import ProbeCoverage.Yaml.Reader

/-!
Settings in JSON values and in settings files. Unknown names are passed over.
-/

namespace ProbeCoverage

namespace Config

def textsOfJson? : Json.Value → Option (List String)
  | .array items => items.mapM Json.Value.string?
  | _ => none

def floatOfJson? : Json.Value → Option Float
  | .number (.int value) => some (Decimal.nearest (value < 0) value.natAbs 1)
  | .number (.float value) => some value
  | _ => none

def thresholdOfJson? : Json.Value → Option (Option Float)
  | .null => some none
  | value => (floatOfJson? value).map some

def fieldOfJson? {α : Type} (read : Json.Value → Option α) (default : α) (value : Json.Value)
    (name : String) : Option α :=
  match value.member? name with
  | some found => read found
  | none => some default

def fieldNames : List String :=
  ["tracker_global", "local_prefix", "allow_partial", "ignore_uncovered", "excluded_paths",
   "threshold"]

def ofMembers? (value : Json.Value) : Option Config := do
  let defaults : Config := {}
  let trackerGlobal ←
    fieldOfJson? Json.Value.string? defaults.trackerGlobal value "tracker_global"
  let temporaryStem ←
    fieldOfJson? Json.Value.string? defaults.temporaryStem value "local_prefix"
  let allowPartial ← fieldOfJson? Json.Value.bool? defaults.allowPartial value "allow_partial"
  let ignoreUncovered ←
    fieldOfJson? textsOfJson? defaults.ignoreUncovered value "ignore_uncovered"
  let excludedPaths ← fieldOfJson? textsOfJson? defaults.excludedPaths value "excluded_paths"
  let threshold ← fieldOfJson? thresholdOfJson? defaults.threshold value "threshold"
  pure { trackerGlobal, temporaryStem, allowPartial, ignoreUncovered, excludedPaths, threshold }

def ofJson? (value : Json.Value) : Option Config :=
  match value with
  | .object _ => ofMembers? value
  | .array items =>
      if items.length ≤ fieldNames.length then ofMembers? (.record (fieldNames.zip items))
      else none
  | _ => none

def textOfYaml? : Yaml.Node → Option String
  | .scalar text _ => some text
  | _ => none

def boolOfYaml? : Yaml.Node → Option Bool
  | .scalar text true =>
      if ["true", "True", "TRUE"].contains text then some true
      else if ["false", "False", "FALSE"].contains text then some false
      else none
  | _ => none

def textsOfYaml? : Yaml.Node → Option (List String)
  | .scalar "" true => some []
  | .sequence items => items.mapM textOfYaml?
  | _ => none

def floatOfText? (text : String) : Option Float :=
  let unsigned :=
    match text.toList with
    | '+' :: rest =>
        if rest.head? == some '+' || rest.head? == some '-' then none else some rest
    | characters => some characters
  match unsigned with
  | none => none
  | some characters =>
      if [".inf", ".Inf", ".INF"].contains (String.ofList characters) then
        some (Decimal.infinity false)
      else if ["-.inf", "-.Inf", "-.INF"].contains text then some (Decimal.infinity true)
      else if [".nan", ".NaN", ".NAN"].contains text then some Decimal.notANumber
      else
        match Decimal.readFloat characters with
        | some value => if value.isFinite then some value else none
        | none => none

def thresholdOfYaml? : Yaml.Node → Option (Option Float)
  | .scalar text true =>
      if ["", "null", "Null", "NULL", "~"].contains text then some none
      else (floatOfText? text).map some
  | _ => none

def namedOfYaml (entries : List (Yaml.Node × Yaml.Node)) (name : String) : List Yaml.Node :=
  entries.filterMap fun (key, value) => if textOfYaml? key = some name then some value else none

/-- A value of a name, or the default where the name is missing. A name may stand only once. -/
def fieldOfYaml? {α : Type} (read : Yaml.Node → Option α) (default : α)
    (entries : List (Yaml.Node × Yaml.Node)) (name : String) : Option α :=
  match namedOfYaml entries name with
  | [] => some default
  | [value] => read value
  | _ => none

def ofEntries? (entries : List (Yaml.Node × Yaml.Node)) : Option Config := do
  let defaults : Config := {}
  if entries.any fun entry => (textOfYaml? entry.1).isNone then none
  let trackerGlobal ← fieldOfYaml? textOfYaml? defaults.trackerGlobal entries "tracker_global"
  let temporaryStem ← fieldOfYaml? textOfYaml? defaults.temporaryStem entries "local_prefix"
  let allowPartial ← fieldOfYaml? boolOfYaml? defaults.allowPartial entries "allow_partial"
  let ignoreUncovered ←
    fieldOfYaml? textsOfYaml? defaults.ignoreUncovered entries "ignore_uncovered"
  let excludedPaths ← fieldOfYaml? textsOfYaml? defaults.excludedPaths entries "excluded_paths"
  let threshold ← fieldOfYaml? thresholdOfYaml? defaults.threshold entries "threshold"
  pure { trackerGlobal, temporaryStem, allowPartial, ignoreUncovered, excludedPaths, threshold }

/-- Settings in the text of a settings file. A file without a document, or with nothing in it, has
the defaults. -/
def read (text : String) : Option Config :=
  match Yaml.read text with
  | some none => some {}
  | some (some (.scalar "" true)) => some {}
  | some (some (.mapping entries)) => ofEntries? entries
  | _ => none

end Config

end ProbeCoverage
