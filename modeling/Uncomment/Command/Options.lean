import Uncomment.Text.Basic

/-!
# Options of the command

The arguments of the command are flags, a configuration file, and paths. They are read from left to right,
and the first that ends the reading decides: a request for the version or for help, or a mistake. A flag
may be given once. Short flags can share a hyphen, and everything after two hyphens is a path.
-/

namespace Uncomment

/-- A choice that is off unless its flag is given. -/
inductive Flag where
  /-- Show what would change instead of changing it. -/
  | check
  /-- Search directories with everything below them. -/
  | recursive
  /-- Report progress. -/
  | verbose
  /-- Show why a text is not accepted. -/
  | printErrors
  /-- Strip the header of files too. -/
  | stripHeader
  /-- Leave documentation comments. -/
  | keepDocs
  deriving DecidableEq, Repr

namespace Flag

/-- All flags. -/
def all : List Flag := [check, recursive, verbose, printErrors, stripHeader, keepDocs]

/-- The flag after two hyphens. -/
def long : Flag → Text
  | check => "check".toList
  | recursive => "recursive".toList
  | verbose => "verbose".toList
  | printErrors => "print-parsing-errors".toList
  | stripHeader => "strip-file-header".toList
  | keepDocs => "keep-doc-comments".toList

/-- The letter after one hyphen. -/
def short? : Flag → Option Char
  | check => some 'c'
  | recursive => some 'r'
  | verbose => some 'v'
  | printErrors => some 'p'
  | stripHeader | keepDocs => none

end Flag

/-- What the arguments ask for. -/
structure Options where
  flags : List Flag := []
  config : Option Text := none
  paths : List Text := []
  deriving DecidableEq, Repr

/-- What is wrong with the arguments. -/
inductive Misuse where
  | unknown (argument : Text)
  | repeated (name : Text)
  | missingValue (name : Text)
  | unexpectedValue (name : Text)
  deriving DecidableEq, Repr

/-- The wording of a mistake. -/
def Misuse.message : Misuse → String
  | unknown argument => "unexpected argument '" ++ String.ofList argument ++ "' found"
  | repeated name => "the argument '" ++ String.ofList name ++ "' cannot be used multiple times"
  | missingValue name =>
    "a value is required for '" ++ String.ofList name ++ "' but none was supplied"
  | unexpectedValue name => "no value is expected for '" ++ String.ofList name ++ "'"

/-- What to do. -/
inductive Request where
  | run (options : Options)
  | version
  | help
  | misuse (reason : Misuse)
  deriving DecidableEq, Repr

namespace Options

/-- Whether a flag is given. -/
def has (options : Options) (flag : Flag) : Bool :=
  options.flags.contains flag

/-- One more flag. -/
def addFlag (options : Options) (flag : Flag) : Except Request Options :=
  if options.has flag then .error (.misuse (.repeated flag.long))
  else .ok { options with flags := flag :: options.flags }

/-- The name of the option that takes a configuration file. -/
def configName : Text := "config".toList

/-- The configuration file. -/
def setConfig (options : Options) (path : Text) : Except Request Options :=
  if path.isEmpty then .error (.misuse (.missingValue configName))
  else if options.config.isSome then .error (.misuse (.repeated configName))
  else .ok { options with config := some path }

/-- One more path. -/
def addPath (options : Options) (path : Text) : Options :=
  { options with paths := options.paths ++ [path] }

/-- Whether an argument is an option. A lone hyphen is not. -/
def isOption (argument : Text) : Bool :=
  argument.head? == some '-' && argument != ['-']

/-- Short flags that share a hyphen. -/
def readLetters (options : Options) : List Char → Except Request Options
  | [] => .ok options
  | 'V' :: _ => .error .version
  | 'h' :: _ => .error .help
  | letter :: rest =>
    match Flag.all.find? (·.short? == some letter) with
    | some flag => do readLetters (← options.addFlag flag) rest
    | none => .error (.misuse (.unknown ['-', letter]))

/-- A long option without a value of its own. -/
def readLong (options : Options) (name : Text) : Except Request Options :=
  if name = "version".toList then .error .version
  else if name = "help".toList then .error .help
  else
    match Flag.all.find? (·.long == name) with
    | some flag => options.addFlag flag
    | none => .error (.misuse (.unknown ('-' :: '-' :: name)))

/-- A long option with a value after an equals sign. -/
def readLongWith (options : Options) (name value : Text) : Except Request Options :=
  if name = configName then options.setConfig value
  else if name = "version".toList ∨ name = "help".toList ∨ Flag.all.any (·.long == name) then
    .error (.misuse (.unexpectedValue name))
  else .error (.misuse (.unknown ('-' :: '-' :: name)))

/-- Goes on with what has been read, unless the reading has ended. -/
def andThen (result : Except Request Options) (next : Options → Request) : Request :=
  match result with
  | .ok options => next options
  | .error request => request

/-- Reads arguments after those that gave `options`. -/
def readFrom (options : Options) : List Text → Request
  | [] => .run options
  | argument :: rest =>
    if !isOption argument then readFrom (options.addPath argument) rest
    else
      match argument.drop 1 with
      | ['-'] => .run { options with paths := options.paths ++ rest }
      | '-' :: name =>
        match Text.cutOnce? '=' name with
        | some (name, value) =>
          andThen (options.readLongWith name value) fun options => readFrom options rest
        | none =>
          if name = configName then
            match rest with
            | value :: rest =>
              if isOption value then .misuse (.missingValue configName)
              else andThen (options.setConfig value) fun options => readFrom options rest
            | [] => .misuse (.missingValue configName)
          else andThen (options.readLong name) fun options => readFrom options rest
      | letters => andThen (options.readLetters letters) fun options => readFrom options rest

/-- Reads the arguments of the command. -/
def read (arguments : List Text) : Request :=
  readFrom {} arguments

end Options

end Uncomment
