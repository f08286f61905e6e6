import ShaderIntake.Loader

/-!
# Arguments

The arguments of an inspection are a path and three options in any order:
`--max-blob-bytes` with a number behind it or after an equals sign,
`--structural-md5` and `--json`.  `--help` and `-h` ask for help, and after `--`
every argument is a path.

Arguments are judged from left to right.  A path, or an option that still waits for
its number, is *pending*: it is judged when the next one that is well formed begins,
or at the end.  So an argument that no option has is reported before a fault of the
argument in front of it.
-/

namespace ShaderIntake

/-- What an inspection is asked to do. -/
structure Args where
  input : String
  maxBlobBytes : Nat
  structuralMd5 : Bool
  json : Bool
deriving DecidableEq

/-- Why arguments do not lead to an inspection. -/
inductive ArgError where
  /-- No such option, or a second path. -/
  | unknownArgument
  /-- No path. -/
  | missingRequiredArgument
  /-- An empty path, or an option without its number. -/
  | invalidValue
  /-- A number that is not one, or too large. -/
  | valueValidation
  /-- An option given twice. -/
  | argumentConflict
  /-- A value for an option that has none. -/
  | tooManyValues
  /-- Help was asked for. -/
  | displayHelp
deriving DecidableEq

namespace CommandLine

/-! ## Single arguments -/

/-- An argument by its form. -/
inductive Token where
  /-- Two hyphens and nothing else. -/
  | separator
  /-- Two hyphens and a name, with a value after an equals sign or without. -/
  | long (name : List Char) (value : Option (List Char))
  /-- One hyphen and at least one letter. -/
  | short (letter : Char)
  /-- Anything else. -/
  | plain
deriving DecidableEq

/-- The form of an argument. -/
def Token.ofChars : List Char → Token
  | ['-', '-'] => .separator
  | '-' :: '-' :: body =>
    match body.dropWhile (· ≠ '=') with
    | [] => .long body none
    | _ :: value => .long (body.takeWhile (· ≠ '=')) (some value)
  | '-' :: letter :: _ => .short letter
  | _ => .plain

/-- The options. -/
inductive Choice where
  | maxBlobBytes
  | structuralMd5
  | json
  | help
deriving DecidableEq

/-- The option with a name; names are not shortened. -/
def Choice.ofName? (name : String) : Option Choice :=
  if name = "max-blob-bytes" then some maxBlobBytes
  else if name = "structural-md5" then some structuralMd5
  else if name = "json" then some json
  else if name = "help" then some help
  else none

/-- A size is written with at least one decimal digit, after a plus sign or without. -/
def parseSize? (s : List Char) : Option Nat :=
  let digits := match s with
    | '+' :: rest => rest
    | _ => s
  let value := Nat.ofDigitChars 10 digits 0
  if digits ≠ [] ∧ digits.all Char.isDigit ∧ value < Size.limit then
    some value
  else none

/-! ## Arguments from left to right -/

/-- An argument that is not judged yet. -/
inductive Pending where
  | nothing
  | path (text : String)
  | limit (value : Option (List Char))
deriving DecidableEq

/-- What the arguments so far come to. -/
structure Progress where
  pending : Pending
  input : Option String
  maxBlobBytes : Option Nat
  structuralMd5 : Bool
  json : Bool
deriving DecidableEq

namespace Progress

def start : Progress := ⟨.nothing, none, none, false, false⟩

/-- The limit, once. -/
def setLimit (p : Progress) (value : List Char) : Except ArgError Progress :=
  if p.maxBlobBytes.isSome then .error .argumentConflict
  else match parseSize? value with
    | some n => .ok { p with maxBlobBytes := some n }
    | none => .error .valueValidation

/-- Judges the pending argument. -/
def settle (p : Progress) : Except ArgError Progress :=
  match p.pending with
  | .nothing => .ok p
  | .path text =>
    if text = "" then .error .invalidValue
    else .ok { p with pending := .nothing, input := some text }
  | .limit none => .error .invalidValue
  | .limit (some value) => setLimit { p with pending := .nothing } value

/-- A path is there, judged or not. -/
def hasPath (p : Progress) : Bool :=
  p.input.isSome || match p.pending with
    | .path _ => true
    | _ => false

/-- One more path. -/
def addPath (p : Progress) (text : String) : Except ArgError Progress :=
  if p.hasPath then .error .unknownArgument
  else do
    let p ← p.settle
    return { p with pending := .path text }

/-- An argument that is no option: the number that an option waits for, or a path. -/
def addPlain (p : Progress) (text : String) : Except ArgError Progress :=
  match p.pending with
  | .limit none => .ok { p with pending := .limit (some text.toList) }
  | _ => p.addPath text

/-- An option with the value after its equals sign, if it has one. -/
def addOption (p : Progress) : Choice → Option (List Char) → Except ArgError Progress
  | .maxBlobBytes, some value => do
    let p ← p.settle
    p.setLimit value
  | .maxBlobBytes, none => do
    let p ← p.settle
    return { p with pending := .limit none }
  | _, some _ => .error .tooManyValues
  | .structuralMd5, none => do
    let p ← p.settle
    if p.structuralMd5 then .error .argumentConflict else return { p with structuralMd5 := true }
  | .json, none => do
    let p ← p.settle
    if p.json then .error .argumentConflict else return { p with json := true }
  | .help, none => do
    let _ ← p.settle
    .error .displayHelp

/-- An option by its name. -/
def addLong (p : Progress) (name : List Char) (value : Option (List Char)) :
    Except ArgError Progress :=
  match Choice.ofName? (String.ofList name) with
  | some choice => p.addOption choice value
  | none => .error .unknownArgument

/-- An option with a letter: only help has one. -/
def addShort (p : Progress) (letter : Char) : Except ArgError Progress :=
  if letter = 'h' then p.addOption .help none else .error .unknownArgument

/-- The arguments after the separator. -/
def addPaths : Progress → List String → Except ArgError Progress
  | p, [] => .ok p
  | p, text :: rest => do
    let p ← p.addPath text
    addPaths p rest

/-- The arguments from left to right. -/
def addAll : Progress → List String → Except ArgError Progress
  | p, [] => .ok p
  | p, text :: rest =>
    match Token.ofChars text.toList with
    | .separator => p.addPaths rest
    | .long name value => do
      let p ← p.addLong name value
      addAll p rest
    | .short letter => do
      let p ← p.addShort letter
      addAll p rest
    | .plain => do
      let p ← p.addPlain text
      addAll p rest

/-- The arguments as a whole. -/
def finish (p : Progress) : Except ArgError Args := do
  let p ← p.settle
  match p.input with
  | some input =>
    return ⟨input, p.maxBlobBytes.getD defaultMaxBlobBytes, p.structuralMd5, p.json⟩
  | none => .error .missingRequiredArgument

end Progress

/-- The arguments of an inspection. -/
def parse (args : List String) : Except ArgError Args := do
  let p ← Progress.start.addAll args
  p.finish

end CommandLine

end ShaderIntake
