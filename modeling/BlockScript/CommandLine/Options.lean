import BlockScript.Text.Basic

/-!
# Options

What the arguments of a command line ask for: an input, an optional output, and options. A value
may be attached to its option by an equals sign or be the next argument, and two dashes alone end
the options. A value is looked at only once what follows it is known to be in order: an unknown
option is reported before a bad value that stands in front of it.
-/

namespace BlockScript

/-- Why a command line cannot be followed. -/
inductive UsageError where
  /-- The input is missing. -/
  | missingArgument
  /-- There is no such option, or there are too many paths. -/
  | unknownArgument
  /-- A value is missing or empty. -/
  | invalidValue
  /-- An option is given twice. -/
  | repeated
  /-- An option takes no value. -/
  | unexpectedValue
  /-- Help was asked for. -/
  | help
deriving DecidableEq, Repr

/-- What a command line asks for. -/
structure Options where
  /-- The file to read. -/
  input : String
  /-- The file to write. -/
  output : Option String := none
  /-- Whether a project is turned back into a source text. -/
  decompile : Bool := false
  /-- The file with the catalog of commands. -/
  catalog : Option String := none
  /-- The file for the document of the project. -/
  emitJson : Option String := none
  /-- Whether warnings count as errors. -/
  strict : Bool := false
deriving DecidableEq, Repr

namespace Options

/-- The arguments with a value. -/
inductive Parameter where
  | input
  | output
  | catalog
  | emitJson
deriving DecidableEq, Repr

/-- The arguments without a value. -/
inductive Flag where
  | decompile
  | strict
  | help
deriving DecidableEq, Repr

/-- What an option is. -/
inductive Kind where
  | parameter (p : Parameter)
  | flag (f : Flag)
deriving DecidableEq, Repr

/-- The option of a word. -/
def kindOf? (word : String) : Option Kind :=
  if word == "decompile" then some (.flag .decompile)
  else if word == "strict" then some (.flag .strict)
  else if word == "help" then some (.flag .help)
  else if word == "catalog" then some (.parameter .catalog)
  else if word == "emit-json" then some (.parameter .emitJson)
  else none

/-- An argument whose value was not looked at yet. -/
structure Pending where
  /-- The argument. -/
  parameter : Parameter
  /-- Its value, if it was given. -/
  value : Option String := none
deriving DecidableEq, Repr

/-- What is known after some arguments. -/
structure Reading where
  /-- The values so far. -/
  values : List (Parameter × String) := []
  /-- The flags so far. -/
  flags : List Flag := []
  /-- The last argument with a value. -/
  pending : Option Pending := none
  /-- How many paths were given. -/
  paths : Nat := 0
  /-- Whether the options have ended. -/
  ended : Bool := false
deriving DecidableEq, Repr

namespace Reading

/-- The value of an argument. -/
def value? (r : Reading) (p : Parameter) : Option String :=
  (r.values.find? (·.1 = p)).map (·.2)

/-- Takes a value for an argument that has none yet. -/
def store (r : Reading) (p : Parameter) (value : String) : Except UsageError Reading :=
  if (r.value? p).isSome then .error .repeated
  else if value.isEmpty then .error .invalidValue
  else .ok { r with values := r.values ++ [(p, value)] }

/-- Looks at the value that was put aside. -/
def settle (r : Reading) : Except UsageError Reading :=
  match r.pending with
  | none => .ok r
  | some ⟨_, none⟩ => .error .invalidValue
  | some ⟨p, some value⟩ => { r with pending := none }.store p value

/-- Takes a flag. -/
def addFlag (r : Reading) (f : Flag) : Except UsageError Reading := do
  let r ← r.settle
  if f = .help then throw .help
  else if r.flags.contains f then throw .repeated
  else return { r with flags := r.flags ++ [f] }

/-- Takes an option, given its word and the value attached to it. -/
def addOption (r : Reading) (word : String) (attached : Option String) :
    Except UsageError Reading :=
  match kindOf? word, attached with
  | none, _ => .error .unknownArgument
  | some (.flag _), some _ => .error .unexpectedValue
  | some (.flag f), none => r.addFlag f
  | some (.parameter p), some value => do (← r.settle).store p value
  | some (.parameter p), none => do return { ← r.settle with pending := some ⟨p, none⟩ }

/-- Takes a path: the input first, then the output. -/
def addPath (r : Reading) (path : String) : Except UsageError Reading :=
  match r.paths with
  | 0 => do return { ← r.settle with pending := some ⟨.input, some path⟩, paths := 1 }
  | 1 => do return { ← r.settle with pending := some ⟨.output, some path⟩, paths := 2 }
  | _ => .error .unknownArgument

/-- Takes a path or the value of the option before it. -/
def addValue (r : Reading) (value : String) : Except UsageError Reading :=
  match r.pending with
  | some ⟨p, none⟩ => .ok { r with pending := some ⟨p, some value⟩ }
  | _ => r.addPath value

/-- The word of a long option and the value attached to it. -/
def splitOption (cs : List Char) : String × Option String :=
  match Chars.splitFirst? ['='] cs with
  | some (word, value) => (String.ofList word, some (String.ofList value))
  | none => (String.ofList cs, none)

/-- Takes one argument. -/
def step (r : Reading) (argument : String) : Except UsageError Reading :=
  if r.ended then r.addPath argument
  else match argument.toList with
    | ['-', '-'] => .ok { r with ended := true }
    | '-' :: '-' :: rest =>
      let (word, attached) := splitOption rest
      r.addOption word attached
    | '-' :: c :: _ => if c = 'h' then r.addFlag .help else .error .unknownArgument
    | _ => r.addValue argument

/-- What all arguments ask for. -/
def finish (r : Reading) : Except UsageError Options := do
  let r ← r.settle
  match r.value? .input with
  | none => throw .missingArgument
  | some input => return {
      input
      output := r.value? .output
      decompile := r.flags.contains .decompile
      catalog := r.value? .catalog
      emitJson := r.value? .emitJson
      strict := r.flags.contains .strict }

end Reading

/-- What the arguments of a command line ask for. -/
def parse (arguments : List String) : Except UsageError Options := do
  (← arguments.foldlM Reading.step {}).finish

end Options

end BlockScript
