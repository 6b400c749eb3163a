import BranchCatalog.Command.Option

namespace BranchCatalog.Arguments

inductive Shape where
  | long (body : Text)
  | letters (letters : Text)
  | separator
  | plain
  deriving DecidableEq, Repr

/-- A lone dash is plain, and two lone dashes are the separator. -/
def shape : Text → Shape
  | ['-', '-'] => .separator
  | '-' :: '-' :: body => .long body
  | '-' :: letter :: letters => .letters (letter :: letters)
  | _ => .plain

/-- What is known after an argument: the options given so far and the one whose value must follow. -/
abbrev Progress : Type := Given × Option OptionForm

/-- Reads an option by its long name, with its value after an equals sign or in the next argument. -/
def readLong (forms : List OptionForm) (given : Given) (body : Text) : Except Refusal Progress :=
  let name := body.takeWhile (· ≠ '=')
  match forms.find? (·.long = name), body.drop name.length with
  | none, _ => .error .misuse
  | some form, [] =>
    if form.takes = .nothing then (given.takeOption form []).map (·, none)
    else .ok (given, some form)
  | some form, _ :: value =>
    if form.takes = .nothing then .error .misuse
    else (given.takeOption form value).map (·, none)

/-- Reads options by their letters. The first one that takes a value has the rest of the letters for
it, without an equals sign at the start, or the next argument when no letters are left. -/
def readLetters (forms : List OptionForm) : Given → Text → Except Refusal Progress
  | given, [] => .ok (given, none)
  | given, letter :: letters =>
    match forms.find? (·.letter = some letter) with
    | none => .error .misuse
    | some form =>
      if form.takes = .nothing then
        match given.takeOption form [] with
        | .error refusal => .error refusal
        | .ok given => readLetters forms given letters
      else
        match letters with
        | [] => .ok (given, some form)
        | '=' :: value => (given.takeOption form value).map (·, none)
        | value => (given.takeOption form value).map (·, none)

/-- Reads arguments from left to right. Without paths to take, reading stops at the separator or at a
plain argument that is no value, and gives the arguments from there on. -/
def readOptions (forms : List OptionForm) (takesPaths : Bool) :
    Progress → List Text → Except Refusal (Given × List Text)
  | (given, none), [] => .ok (given, [])
  | (_, some _), [] => .error .misuse
  | (given, some form), argument :: arguments =>
    match shape argument with
    | .plain => do readOptions forms takesPaths (← given.takeOption form argument, none) arguments
    | _ => .error .misuse
  | (given, none), argument :: arguments =>
    match shape argument with
    | .long body => do readOptions forms takesPaths (← readLong forms given body) arguments
    | .letters letters => do
      readOptions forms takesPaths (← readLetters forms given letters) arguments
    | .separator =>
      if takesPaths then do return (← arguments.foldlM Given.takePath given, [])
      else .ok (given, argument :: arguments)
    | .plain =>
      if takesPaths then do
        readOptions forms takesPaths (← given.takePath argument, none) arguments
      else .ok (given, argument :: arguments)

/-- Nothing but the separator may be left after the options of a command. -/
def isSpent (arguments : List Text) : Bool :=
  arguments = [] || arguments = [['-', '-']]

/-- Asks for help: either in general or on a single command. -/
def helpRefusal (arguments : List Text) : Refusal :=
  match arguments with
  | [] => .help
  | [name] => if name = "help".toList || (CommandName.ofText? name).isSome then .help else .misuse
  | _ => .misuse

/-- The invocation that arguments spell: options, the name of a command, and its own options. An
option that is given on both sides of the name counts as it stands after it. -/
def read (arguments : List Text) : Except Refusal Invocation := do
  let (leading, rest) ← readOptions OptionForm.leading false (.nothing, none) arguments
  match rest with
  | [] => throw .misuse
  | word :: rest =>
    if word = "help".toList then throw (helpRefusal rest)
    else
      match CommandName.ofText? word with
      | none => throw .misuse
      | some name =>
        let (given, left) ← readOptions name.options name.takesPaths (.nothing, none) rest
        if isSpent left then
          return {
            verbose := leading.has .verbose || given.has .verbose
            settingsPath := (given.value? .settings).or (leading.value? .settings)
            quiet := leading.has .quiet || given.has .quiet
            command := name.command given }
        else throw .misuse

end BranchCatalog.Arguments
