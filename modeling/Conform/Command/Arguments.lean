import Conform.Command.Settings

/-!
Arguments of the command line tool: a command with its options, among options that may stand
anywhere. They are read from left to right, so the first fault, or the first request for help,
decides.
-/

namespace Conform

inductive CommandName where
  | validate
  | render
  | list
deriving DecidableEq

def CommandName.name : CommandName → String
  | .validate => "validate"
  | .render => "render"
  | .list => "list"

def CommandName.ofName? (name : String) : Option CommandName :=
  [.validate, .render, .list].find? (·.name == name)

inductive Task where
  | validate (schema : String) (documents : List Path) (limit : Option Nat)
      (format : Option ReportFormat)
  | render (schema : String) (withNodes : Bool)
  | list

structure Invocation where
  verbosity : Nat
  config : Option Path
  jsonLog : Bool
  schemas : Option Path
  task : Task

inductive UsageFault where
  | unexpected (argument : String)
  | missingValue (option : String)
  | invalidValue (option value : String)
  | repeated (option : String)
  | missingCommand
  | missing (argument : String)

def UsageFault.message : UsageFault → String
  | .unexpected argument => s!"unexpected argument '{argument}' found"
  | .missingValue option => s!"a value is required for '{option}' but none was supplied"
  | .invalidValue option value => s!"invalid value '{value}' for '{option}'"
  | .repeated option => s!"the argument '{option}' cannot be used multiple times"
  | .missingCommand => "a command is required: validate, render or list"
  | .missing argument => s!"the required argument '{argument}' was not provided"

inductive Request where
  | run (invocation : Invocation)
  | help
  | version

namespace Arguments

private structure Options where
  verbosity : Nat
  config : Option Path
  jsonLog : Bool
  schema : Option String
  schemas : Option Path
  limit : Option Nat
  format : Option ReportFormat
  nodes : Bool
  /-- In reverse. -/
  documents : List Path

private def Options.none : Options :=
  ⟨0, .none, false, .none, .none, .none, .none, false, []⟩

private inductive OptionName where
  | help | version | verbose | logJson | nodes
  | config | schema | schemas | limit | format
deriving DecidableEq

private def optionName? (text : String) : Option OptionName :=
  [("--help", .help), ("--version", .version), ("--verbose", .verbose), ("--log-json", .logJson),
    ("--nodes", .nodes), ("--config", .config), ("--schema", .schema), ("--schemas", .schemas),
    ("--circular-limit", .limit), ("--format", .format)].lookup text

/-- Whether an option may stand behind a command, or before any. -/
private def isAllowed (command : Option CommandName) : OptionName → Bool
  | .help | .verbose | .logJson | .config => true
  | .version => command.isNone
  | .schemas => command.isSome
  | .schema => command == some .validate || command == some .render
  | .limit | .format => command == some .validate
  | .nodes => command == some .render

private def takesValue : OptionName → Bool
  | .config | .schema | .schemas | .limit | .format => true
  | _ => false

private def pathOf? (text : String) : Option Path := if text.isEmpty then none else some ⟨text⟩

private def limitOf? (text : String) : Option Nat := do
  let digits := match text.toList with
    | '+' :: rest => rest
    | chars => chars
  guard (!digits.isEmpty && digits.all Char.isDigit)
  let n := Numeral.digitsValue digits
  if n < 0x10000000000000000 then some n else none

private def once (text value : String) (current : Option α) (read : String → Option α) :
    Except UsageFault (Option α) :=
  if current.isSome then .error (.repeated text)
  else
    match read value with
    | some a => .ok (some a)
    | none => .error (.invalidValue text value)

private def setValue (options : Options) (name : OptionName) (text value : String) :
    Except UsageFault Options := do
  match name with
  | .config => return { options with config := ← once text value options.config pathOf? }
  | .schema => return { options with schema := ← once text value options.schema some }
  | .schemas => return { options with schemas := ← once text value options.schemas pathOf? }
  | .limit => return { options with limit := ← once text value options.limit limitOf? }
  | .format =>
    return { options with format := ← once text value options.format ReportFormat.ofName? }
  | _ => throw (.unexpected text)

private def setSwitch (options : Options) (name : OptionName) (text : String) :
    Except UsageFault Options := do
  match name with
  | .verbose => return { options with verbosity := options.verbosity + 1 }
  | .logJson =>
    if options.jsonLog then throw (.repeated text)
    return { options with jsonLog := true }
  | .nodes =>
    if options.nodes then throw (.repeated text)
    return { options with nodes := true }
  | _ => throw (.unexpected text)

/-- An argument that can be a value: it is no option, unless it is a lone `-`. -/
private def isValue (argument : String) : Bool :=
  argument == "-" || argument.toList.head? != some '-'

private def required (argument : String) : Option α → Except UsageFault α
  | some a => .ok a
  | none => .error (.missing argument)

private def task (options : Options) : CommandName → Except UsageFault Task
  | .validate => do
    let schema ← required "--schema" options.schema
    if options.documents.isEmpty then throw (.missing "DOCUMENT")
    return .validate schema options.documents.reverse options.limit options.format
  | .render => return .render (← required "--schema" options.schema) options.nodes
  | .list => return .list

private def finish (outer : Options) (command : Option CommandName) (options : Options) :
    Except UsageFault Request := do
  let some command := command | throw .missingCommand
  return .run {
    verbosity := if options.verbosity = 0 then outer.verbosity else options.verbosity
    config := options.config.or outer.config
    jsonLog := options.jsonLog || outer.jsonLog
    schemas := options.schemas
    task := ← task options command }

private def help : List String → Except UsageFault Request
  | [] => return .help
  | [name] =>
    if name = "help" ∨ (CommandName.ofName? name).isSome then return .help
    else throw (.unexpected name)
  | _ :: second :: _ => throw (.unexpected second)

/-- Reads letters that follow a single `-`; some request takes effect at once. -/
private def letters (command : Option CommandName) (text : String) (options : Options) :
    List Char → Except UsageFault (Options × Option Request)
  | [] => return (options, none)
  | 'v' :: rest => letters command text { options with verbosity := options.verbosity + 1 } rest
  | 'h' :: _ => return (options, some .help)
  | 'V' :: _ => if command.isNone then return (options, some .version) else throw (.unexpected text)
  | _ => throw (.unexpected text)

private def addDocument (options : Options) (text : String) : Except UsageFault Options :=
  match pathOf? text with
  | some path => .ok { options with documents := path :: options.documents }
  | none => .error (.invalidValue "DOCUMENT" text)

private def splitOption (argument : String) : String × Option String :=
  let chars := argument.toList
  let name := String.ofList (chars.takeWhile (· != '='))
  match chars.dropWhile (· != '=') with
  | _ :: value => (name, some (String.ofList value))
  | [] => (name, none)

/-- Goes on reading. Behind `--` there are no options (`plain`). -/
private def read (outer : Options) (command : Option CommandName) (options : Options)
    (plain : Bool) : List String → Except UsageFault Request
  | [] => finish outer command options
  | argument :: rest => do
    if plain || isValue argument then
      match command with
      | some .validate => read outer command (← addDocument options argument) plain rest
      | some _ => throw (.unexpected argument)
      | none =>
        if plain then throw (.unexpected argument)
        if argument = "help" then help rest
        else
          match CommandName.ofName? argument with
          | some name => read options (some name) .none false rest
          | none => throw (.unexpected argument)
    else if argument = "--" then read outer command options true rest
    else if argument.toList.take 2 = ['-', '-'] then
      let (text, attached) := splitOption argument
      let some name := optionName? text | throw (.unexpected argument)
      if !isAllowed command name then throw (.unexpected argument)
      if takesValue name then
        match attached with
        | some value => read outer command (← setValue options name text value) plain rest
        | none =>
          match rest with
          | value :: rest =>
            if !isValue value then throw (.missingValue text)
            read outer command (← setValue options name text value) plain rest
          | [] => throw (.missingValue text)
      else if attached.isSome then throw (.unexpected argument)
      else if name = .help then return .help
      else if name = .version then return .version
      else read outer command (← setSwitch options name text) plain rest
    else
      match ← letters command argument options argument.toList.tail with
      | (_, some request) => return request
      | (options, none) => read outer command options plain rest
termination_by arguments => arguments.length

end Arguments

def Request.ofArguments (arguments : List String) : Except UsageFault Request :=
  Arguments.read .none none .none false arguments

end Conform
