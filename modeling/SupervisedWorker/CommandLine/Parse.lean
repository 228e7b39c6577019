import SupervisedWorker.CommandLine

/-!
# Reading command lines

The options of a command follow its name, in any order. The value of an option follows as a word of
its own or is attached, behind a sign of equality after the long form and with or without one after
the short form. A value that comes as a word of its own is looked at when the next option comes or
the command line ends, so an argument that nobody expects is reported first. After two dashes there
are only arguments that nobody expects.
-/

namespace SupervisedWorker

namespace CommandLine

/-- The form of a word. -/
inductive Word
  /-- Two dashes and nothing else. -/
  | escape
  /-- A long option, perhaps with a value. -/
  | long (name : String) (value : Option String)
  /-- A short option and what is attached to it. -/
  | short (letter : Char) (tail : List Char)
  | plain
deriving DecidableEq, Repr

/-- Parts a text at its first sign of equality. -/
def splitValue (s : List Char) : String × Option String :=
  match s.span (· ≠ '=') with
  | (name, []) => (String.ofList name, none)
  | (name, _ :: value) => (String.ofList name, some (String.ofList value))

/-- The form of a word. -/
def Word.ofChars : List Char → Word
  | ['-', '-'] => .escape
  | '-' :: '-' :: s =>
    let (name, value) := splitValue s
    .long name value
  | '-' :: c :: tail => .short c tail
  | _ => .plain

/-- The value attached to a short option. -/
def attached : List Char → Option String
  | [] => none
  | '=' :: s => some (String.ofList s)
  | s => some (String.ofList s)

/-- What has been read of a command's options. -/
structure Draft where
  values : List (OptionSpec × String)
  /-- The last option if its value comes as a word of its own, and that word. -/
  pending : Option (OptionSpec × Option String)
deriving DecidableEq, Repr, Inhabited

namespace Draft

def empty : Draft := ⟨[], none⟩

/-- The value of an option. -/
def value? (d : Draft) (o : OptionSpec) : Option String := d.values.lookup o

/-- Gives an option its value. -/
def give (d : Draft) (o : OptionSpec) (value : String) : Except UsageError Draft :=
  if (d.value? o).isSome then .error (.repeated o)
  else if o.isPath && value = "" then .error (.missingValue o)
  else .ok ⟨d.values ++ [(o, value)], none⟩

/-- Looks at the value of the last option. -/
def settle (d : Draft) : Except UsageError Draft :=
  match d.pending with
  | none => .ok d
  | some (o, none) => .error (.missingValue o)
  | some (o, some value) => { d with pending := none }.give o value

/-- An option comes, with or without an attached value. -/
def meet (d : Draft) (o : OptionSpec) (value : Option String) : Except UsageError Draft := do
  let d ← d.settle
  match value with
  | some value => d.give o value
  | none => return { d with pending := some (o, none) }

/-- A word comes that is no option. -/
def accept (d : Draft) (word : String) : Except UsageError Draft :=
  match d.pending with
  | some (o, none) => .ok { d with pending := some (o, some word) }
  | _ => .error (.unexpectedArgument word)

end Draft

/-- What the words after a command's name amount to. -/
inductive Reading
  | options (d : Draft)
  | help (brief : Bool)
deriving DecidableEq, Repr

/-- Reads the words after a command's name. -/
def readOptions (c : Subcommand) (d : Draft) : List String → Except UsageError Reading
  | [] => d.settle.map .options
  | word :: rest =>
    match Word.ofChars word.toList with
    | .escape =>
      match rest with
      | [] => d.settle.map .options
      | word :: _ => .error (.unexpectedArgument word)
    | .long name value =>
      match c.options.find? (·.name == name) with
      | some o =>
        match d.meet o value with
        | .ok d => readOptions c d rest
        | .error e => .error e
      | none =>
        if name ≠ "help" then .error (.unexpectedArgument ("--" ++ name))
        else
          match value with
          | some value => .error (.unexpectedValue value "--help")
          | none => d.settle.map fun _ => .help false
    | .short letter tail =>
      match c.options.find? (·.letter == some letter) with
      | some o =>
        match d.meet o (attached tail) with
        | .ok d => readOptions c d rest
        | .error e => .error e
      | none =>
        if letter ≠ 'h' then .error (.unexpectedArgument (String.ofList ['-', letter]))
        else d.settle.map fun _ => .help true
    | .plain =>
      match d.accept word with
      | .ok d => readOptions c d rest
      | .error e => .error e

/-- The run that some options ask for; the two ids of the agent belong together. -/
def runRequest (d : Draft) : Except UsageError Request :=
  let options : RunOptions :=
    ⟨d.value? .config, d.value? .workDir, d.value? .services, d.value? .agentId,
      d.value? .serviceId⟩
  if options.agentId.isSome = options.serviceId.isSome then .ok (.run options)
  else .error .missingPartner

/-- What a command with its options asks for. -/
def Subcommand.request (c : Subcommand) (d : Draft) : Except UsageError Request :=
  match c with
  | .run => runRequest d
  | .validate => .ok (.validate (d.value? .config))
  | .version => .ok .version
  | .help => .ok (.help none false)

/-- What a request for help with the given words asks for. -/
def helpRequest : List String → Except UsageError Request
  | [] => .ok (.help none false)
  | word :: rest =>
    match Subcommand.ofWord? word, rest with
    | none, _ => .error (.unknownCommand word)
    | some c, [] => .ok (.help (some c) false)
    | some _, word :: _ => .error (.unknownCommand word)

/-- What a command line asks for whose first word names no command. -/
def programRequest (word : String) (rest : List String) : Except UsageError Request :=
  match Word.ofChars word.toList with
  | .escape =>
    match rest with
    | [] => .error .nothingAsked
    | word :: _ =>
      .error (if (Subcommand.ofWord? word).isSome then .unexpectedArgument word
        else .unknownCommand word)
  | .long "help" none => .ok (.help none false)
  | .long "help" (some value) => .error (.unexpectedValue value "--help")
  | .long "version" none => .ok .programVersion
  | .long "version" (some value) => .error (.unexpectedValue value "--version")
  | .long name _ => .error (.unexpectedArgument ("--" ++ name))
  | .short 'h' _ => .ok (.help none true)
  | .short 'V' _ => .ok .programVersion
  | .short letter _ => .error (.unexpectedArgument (String.ofList ['-', letter]))
  | .plain => .error (.unknownCommand word)

/-- What a command line asks for. -/
def parse : List String → Except UsageError Request
  | [] => .error .nothingAsked
  | word :: rest =>
    match Subcommand.ofWord? word with
    | some .help => helpRequest rest
    | some c =>
      match readOptions c .empty rest with
      | .error e => .error e
      | .ok (.help brief) => .ok (.help (some c) brief)
      | .ok (.options d) => c.request d
    | none => programRequest word rest

end CommandLine

end SupervisedWorker
