import ProbeCoverage.Decimal.Read

/-!
Reading the words of a command line. Options may stand anywhere behind their command, with their
values in the next word or attached; behind `--` every word is a path. A value is checked when the
next word shows that it is complete.
-/

namespace ProbeCoverage.CommandLine

inductive Usage where
  | help
  | version
  | nothing
  | missingCommand
  | unknownCommand
  | missingPath
  | unknownArgument
  /-- A value that is missing, or a path that is empty. -/
  | invalidValue
  | notANumber
  | repeated
  | unexpectedValue
  deriving DecidableEq, Repr

inductive Flag where
  | help
  | version
  | verbose
  | showSource
  deriving DecidableEq, Repr

inductive Setting where
  | config
  | outDir
  | root
  | format
  | threshold
  deriving DecidableEq, Repr

inductive Switch where
  | flag (flag : Flag)
  | setting (setting : Setting)
  deriving DecidableEq, Repr

inductive Level where
  | top
  | instrument
  | report
  deriving DecidableEq, Repr

namespace Level

def long? (level : Level) (name : String) : Option Switch :=
  match level, name with
  | _, "help" => some (.flag .help)
  | _, "verbose" => some (.flag .verbose)
  | .top, "version" => some (.flag .version)
  | .instrument, "out-dir" => some (.setting .outDir)
  | .instrument, "root" => some (.setting .root)
  | .instrument, "config" => some (.setting .config)
  | .report, "config" => some (.setting .config)
  | .report, "format" => some (.setting .format)
  | .report, "threshold" => some (.setting .threshold)
  | .report, "show-source" => some (.flag .showSource)
  | _, _ => none

def short? (level : Level) (letter : Char) : Option Switch :=
  match level, letter with
  | _, 'h' => some (.flag .help)
  | _, 'v' => some (.flag .verbose)
  | .top, 'V' => some (.flag .version)
  | .instrument, 'o' => some (.setting .outDir)
  | .instrument, 'c' => some (.setting .config)
  | .report, 'c' => some (.setting .config)
  | .report, 'f' => some (.setting .format)
  | .report, 't' => some (.setting .threshold)
  | _, _ => none

def takesPath : Level → Bool
  | .top => false
  | _ => true

end Level

inductive Pending where
  | nothing
  | awaiting (setting : Setting)
  | value (setting : Setting) (text : String)
  | path (text : String)
  deriving DecidableEq, Repr

structure Progress where
  flags : List Flag
  settings : List (Setting × String)
  path : Option String
  pending : Pending
  /-- A path was read, settled or not. -/
  pathRead : Bool
  /-- All words that follow are paths. -/
  pathsOnly : Bool

namespace Progress

def start : Progress := ⟨[], [], none, .nothing, false, false⟩

def setting? (progress : Progress) (setting : Setting) : Option String :=
  (progress.settings.find? fun given => given.1 == setting).map Prod.snd

def valueFault? (setting : Setting) (text : String) : Option Usage :=
  match setting with
  | .format => none
  | .threshold => if (Decimal.readFloat text.toList).isNone then some .notANumber else none
  | .config | .outDir | .root => if text.isEmpty then some .invalidValue else none

def accept (progress : Progress) (setting : Setting) (text : String) : Except Usage Progress :=
  if (progress.setting? setting).isSome then .error .repeated
  else
    match valueFault? setting text with
    | some fault => .error fault
    | none =>
        .ok { progress with
              settings := progress.settings ++ [(setting, text)], pending := .nothing }

def settle (progress : Progress) : Except Usage Progress :=
  match progress.pending with
  | .nothing => .ok progress
  | .awaiting _ => .error .invalidValue
  | .value setting text => progress.accept setting text
  | .path text =>
      if text.isEmpty then .error .invalidValue
      else .ok { progress with path := some text, pending := .nothing }

def takeFlag (progress : Progress) (flag : Flag) : Except Usage Progress :=
  match progress.settle with
  | .error usage => .error usage
  | .ok progress =>
      match flag with
      | .help => .error .help
      | .version => .error .version
      | _ =>
          if progress.flags.contains flag then .error .repeated
          else .ok { progress with flags := flag :: progress.flags }

def takeSetting (progress : Progress) (setting : Setting) (value : Option String) :
    Except Usage Progress :=
  match progress.settle with
  | .error usage => .error usage
  | .ok progress =>
      match value with
      | some text => progress.accept setting text
      | none => .ok { progress with pending := .awaiting setting }

def takeLong (level : Level) (progress : Progress) (body : List Char) : Except Usage Progress :=
  let name := String.ofList (body.takeWhile (· != '='))
  let value :=
    match body.dropWhile (· != '=') with
    | [] => none
    | _ :: rest => some (String.ofList rest)
  match level.long? name with
  | none => .error .unknownArgument
  | some (.setting setting) => progress.takeSetting setting value
  | some (.flag flag) =>
      if value.isSome then .error .unexpectedValue else progress.takeFlag flag

/-- Take options by their letters. The text behind the letter of an option with a value is its
value. -/
def takeLetters (level : Level) (progress : Progress) : List Char → Except Usage Progress
  | [] => .ok progress
  | letter :: rest =>
      match level.short? letter with
      | none => .error .unknownArgument
      | some (.flag flag) =>
          match progress.takeFlag flag with
          | .ok next => takeLetters level next rest
          | .error usage => .error usage
      | some (.setting setting) =>
          match rest with
          | [] => progress.takeSetting setting none
          | '=' :: value => progress.takeSetting setting (some (String.ofList value))
          | value => progress.takeSetting setting (some (String.ofList value))

def takePath (level : Level) (progress : Progress) (word : String) : Except Usage Progress :=
  if level.takesPath && !progress.pathRead then
    match progress.settle with
    | .error usage => .error usage
    | .ok progress => .ok { progress with pending := .path word, pathRead := true }
  else .error .unknownArgument

def takeWord (level : Level) (progress : Progress) (word : String) : Except Usage Progress :=
  if progress.pathsOnly then takePath level progress word
  else
    match word.toList with
    | ['-', '-'] => .ok { progress with pathsOnly := true }
    | '-' :: '-' :: body => takeLong level progress body
    | '-' :: letter :: rest => takeLetters level progress (letter :: rest)
    | _ =>
        match progress.pending with
        | .awaiting setting => .ok { progress with pending := .value setting word }
        | _ => takePath level progress word

def takeWords (level : Level) : Progress → List String → Except Usage Progress
  | progress, [] => progress.settle
  | progress, word :: rest =>
      match takeWord level progress word with
      | .ok next => takeWords level next rest
      | .error usage => .error usage

end Progress

structure InstrumentOptions where
  path : String
  outDir : Option String
  root : Option String
  config : Option String
  deriving DecidableEq, Repr

structure ReportOptions where
  path : String
  config : Option String
  format : String
  threshold : Option Float
  showSource : Bool

inductive Command where
  | instrument (options : InstrumentOptions)
  | report (options : ReportOptions)

structure Invocation where
  verbose : Bool
  command : Command

def commandLevel? (word : String) : Option Level :=
  match word with
  | "instrument" => some .instrument
  | "report" | "check" => some .report
  | _ => none

def commandOf (level : Level) (progress : Progress) : Except Usage Command :=
  match progress.path with
  | none => .error .missingPath
  | some path =>
      match level with
      | .instrument =>
          .ok (.instrument
            { path, outDir := progress.setting? .outDir, root := progress.setting? .root
              config := progress.setting? .config })
      | _ =>
          .ok (.report
            { path, config := progress.setting? .config
              format := (progress.setting? .format).getD "pretty"
              threshold :=
                (progress.setting? .threshold).bind fun text => Decimal.readFloat text.toList
              showSource := progress.flags.contains .showSource })

def helpOn (words : List String) : Usage :=
  match words with
  | [] => .help
  | [word] => if (commandLevel? word).isSome || word == "help" then .help else .unknownCommand
  | _ => .unknownCommand

def parseFrom : Progress → List String → Except Usage Invocation
  | progress, [] =>
      if progress.flags.isEmpty then .error .nothing else .error .missingCommand
  | progress, word :: rest =>
      if progress.pathsOnly then
        if (commandLevel? word).isSome || word == "help" then .error .unknownArgument
        else .error .unknownCommand
      else if word == "help" then .error (helpOn rest)
      else
        match commandLevel? word with
        | some level =>
            match Progress.takeWords level .start rest with
            | .error usage => .error usage
            | .ok inner =>
                match commandOf level inner with
                | .error usage => .error usage
                | .ok command =>
                    .ok { verbose := progress.flags.contains .verbose ||
                            inner.flags.contains .verbose
                          command }
        | none =>
            match word.toList with
            | '-' :: _ :: _ =>
                match Progress.takeWord .top progress word with
                | .ok next => parseFrom next rest
                | .error usage => .error usage
            | _ => .error .unknownCommand

def parse (words : List String) : Except Usage Invocation :=
  parseFrom .start words

end ProbeCoverage.CommandLine
