/-!
# Invocations

What the arguments of a command line ask for: generating a part of the artifact
of a block file, checking a block file, or running fixtures.

`Invocation.ofArguments` reads the arguments.  Options stand before or behind
the path; an option with a value takes the rest of its argument, or else the
next one.  An argument `--` ends the options.  Reading ends early where help or
the version is asked for, and where the arguments make no sense.
-/

namespace BlockForge

/-- What part of an artifact to print. -/
inductive Part where
  | definition
  | declaration
  | body
  /-- The declaration and the body in one text. -/
  | glue
  /-- The export object. -/
  | bundle
  /-- The definition, the declaration, the body and the export object. -/
  | all
deriving DecidableEq, Repr

namespace Part

/-- The part of a name. -/
def ofName? (name : String) : Option Part :=
  match name with
  | "definition" => some definition
  | "declaration" => some declaration
  | "body" => some body
  | "glue" => some glue
  | "export" => some bundle
  | "all" => some all
  | _ => none

end Part

/-- What to do. -/
inductive Action where
  /-- Generate a block and print a part of it. -/
  | generate (file : String) (part : Part)
  /-- Print the outline of a block file. -/
  | outline (file : String)
  /-- Generate a block and print nothing of it. -/
  | check (file : String)
  /-- Run the fixtures of some categories. -/
  | test (path : String) (categories : List String)
  /-- List the categories of fixtures. -/
  | listCategories (path : String)
deriving DecidableEq, Repr

/-- The path that an action is about. -/
def Action.path : Action → String
  | generate file _ => file
  | outline file => file
  | check file => file
  | test path _ => path
  | listCategories path => path

/-- What the arguments ask for. -/
structure Invocation where
  action : Action
  /-- Whether the report of fixtures has colours. -/
  colour : Bool
deriving DecidableEq, Repr

/-- Why arguments ask for nothing to be done. -/
inductive Interruption where
  | help
  | version
  /-- The arguments make no sense. -/
  | misuse
deriving DecidableEq, Repr

/-- The options. -/
inductive Setting where
  | noColour
  | verbose
  | help
  | version
  | part
  | tree
  | category
  | listCategories
deriving DecidableEq, Repr

namespace Setting

/-- The name of an option after two dashes. -/
def longName : Setting → String
  | noColour => "no-color"
  | verbose => "verbose"
  | help => "help"
  | version => "version"
  | part => "part"
  | tree => "tree"
  | category => "category"
  | listCategories => "list-categories"

/-- The letter of an option after one dash. -/
def letter? : Setting → Option Char
  | verbose => some 'v'
  | help => some 'h'
  | version => some 'V'
  | part => some 'p'
  | category => some 'c'
  | _ => none

/-- Whether an option has a value. -/
def hasValue : Setting → Bool
  | part | category => true
  | _ => false

end Setting

/-- The commands. -/
inductive CommandName where
  | generate
  | check
  | test
  | help
deriving DecidableEq, Repr

namespace CommandName

/-- The command of a name. -/
def ofText? (name : String) : Option CommandName :=
  match name with
  | "generate" => some generate
  | "check" => some check
  | "test" => some test
  | "help" => some help
  | _ => none

/-- The options of a command. -/
def settings : CommandName → List Setting
  | generate => [.part, .tree, .noColour, .verbose, .help]
  | check => [.noColour, .verbose, .help]
  | test => [.category, .listCategories, .noColour, .verbose, .help]
  | help => []

end CommandName

/-- The options that may stand before the command. -/
def commonSettings : List Setting := [.noColour, .verbose, .help, .version]

/-- What the arguments have said so far. -/
structure Choices where
  path : Option String
  part : Option Part
  tree : Bool
  categories : List String
  listCategories : Bool
  noColour : Bool
deriving DecidableEq, Repr

namespace Choices

/-- Nothing said yet. -/
def none : Choices := ⟨.none, .none, false, [], false, false⟩

/-- Set a switch, which may be set only once. -/
def setOnce (wasSet : Bool) (changed : Choices) :
    Except Interruption Choices :=
  if wasSet then .error .misuse else .ok changed

/-- Follow an option. -/
def set (choices : Choices) (setting : Setting) (value : String) :
    Except Interruption Choices :=
  match setting with
  | .noColour =>
    setOnce choices.noColour { choices with noColour := true }
  | .verbose => .ok choices
  | .help => .error .help
  | .version => .error .version
  | .tree => setOnce choices.tree { choices with tree := true }
  | .listCategories =>
    setOnce choices.listCategories { choices with listCategories := true }
  | .category =>
    .ok { choices with categories := choices.categories ++ [value] }
  | .part =>
    match Part.ofName? value with
    | some part => setOnce choices.part.isSome { choices with part := some part }
    | .none => .error .misuse

/-- Take an argument that is no option: the path. -/
def setPath (choices : Choices) (path : String) :
    Except Interruption Choices :=
  setOnce choices.path.isSome { choices with path := some path }

end Choices

namespace Invocation

/-- Whether an argument is an option: it starts with a dash, and is not just a
dash. -/
def isOption (argument : String) : Bool :=
  argument.toList.head? = some '-' && argument ≠ "-"

/-- Follow the letters of an argument with one dash.  An option with a value
takes the rest of the argument, without an equals sign at its start; if nothing
is left, the option waits for the next argument. -/
def followLetters (settings : List Setting) (choices : Choices) :
    List Char → Except Interruption (Choices × Option Setting)
  | [] => .ok (choices, none)
  | letter :: rest =>
    match settings.find? fun setting => setting.letter? = some letter with
    | none => .error .misuse
    | some setting =>
      if setting.hasValue then
        match rest with
        | [] => .ok (choices, some setting)
        | '=' :: value =>
          (choices.set setting (String.ofList value)).map (·, none)
        | value => (choices.set setting (String.ofList value)).map (·, none)
      else
        match choices.set setting "" with
        | .ok changed => followLetters settings changed rest
        | .error interruption => .error interruption

/-- Follow an argument with two dashes; the value of an option may follow after
an equals sign. -/
def followLong (settings : List Setting) (choices : Choices)
    (text : List Char) : Except Interruption (Choices × Option Setting) :=
  let name := text.takeWhile (· ≠ '=')
  let value := (text.drop name.length).tail?
  match settings.find? fun setting => setting.longName.toList = name with
  | none => .error .misuse
  | some setting =>
    match value with
    | some value =>
      if setting.hasValue then
        (choices.set setting (String.ofList value)).map (·, none)
      else .error .misuse
    | none =>
      if setting.hasValue then .ok (choices, some setting)
      else (choices.set setting "").map (·, none)

/-- Follow an argument that is an option; tell which option still waits for
its value. -/
def followOption (settings : List Setting) (choices : Choices)
    (argument : String) : Except Interruption (Choices × Option Setting) :=
  match argument.toList with
  | '-' :: '-' :: text => followLong settings choices text
  | _ :: letters => followLetters settings choices letters
  | [] => .error .misuse

/-- Follow the arguments of a command. -/
def followAll (settings : List Setting) (choices : Choices) :
    List String → Except Interruption Choices
  | [] => .ok choices
  | argument :: rest =>
    if argument = "--" then rest.foldlM Choices.setPath choices
    else if isOption argument then
      match followOption settings choices argument with
      | .error interruption => .error interruption
      | .ok (changed, none) => followAll settings changed rest
      | .ok (changed, some setting) =>
        match rest with
        | [] => .error .misuse
        | value :: others =>
          if isOption value then .error .misuse
          else
            match changed.set setting value with
            | .ok filled => followAll settings filled others
            | .error interruption => .error interruption
    else
      match choices.setPath argument with
      | .ok changed => followAll settings changed rest
      | .error interruption => .error interruption

/-- What a command is to do. -/
def actionOf (command : CommandName) (choices : Choices) :
    Except Interruption Action :=
  match command, choices.path with
  | _, none => .error .misuse
  | .generate, some file =>
    .ok (if choices.tree then .outline file
      else .generate file (choices.part.getD .all))
  | .check, some file => .ok (.check file)
  | .test, some path =>
    .ok (if choices.listCategories then .listCategories path
      else .test path choices.categories)
  | .help, some _ => .error .help

/-- Read the arguments of a command. -/
def ofCommand (command : CommandName) (common : Choices)
    (arguments : List String) : Except Interruption Invocation :=
  if command = .help then
    match arguments with
    | [] => .error .help
    | [topic] =>
      if (CommandName.ofText? topic).isSome then .error .help
      else .error .misuse
    | _ => .error .misuse
  else do
    let choices ← followAll command.settings Choices.none arguments
    let action ← actionOf command choices
    return ⟨action, !(common.noColour || choices.noColour)⟩

/-- Read arguments that start with options before the command. -/
def ofExplicit (common : Choices) :
    List String → Except Interruption Invocation
  | [] => .error .misuse
  | argument :: rest =>
    if argument = "--" then .error .misuse
    else if isOption argument then
      match followOption commonSettings common argument with
      | .ok (changed, none) => ofExplicit changed rest
      | .ok (_, some _) => .error .misuse
      | .error interruption => .error interruption
    else
      match CommandName.ofText? argument with
      | some command => ofCommand command common rest
      | none => .error .misuse

/-- Put the command `generate` before the first argument that does not start
with a dash, unless that is a command itself. -/
def withCommand : List String → List String
  | [] => []
  | argument :: rest =>
    if argument.toList.head? = some '-' then argument :: withCommand rest
    else if (CommandName.ofText? argument).isSome then argument :: rest
    else "generate" :: argument :: rest

/-- Read the arguments of a command line. -/
def ofArguments (arguments : List String) : Except Interruption Invocation :=
  ofExplicit Choices.none (withCommand arguments)

end Invocation

end BlockForge
