import BoundedPools.Config.Reader
import BoundedPools.Text.Alphanumeric
import BoundedPools.Text.Blank
import BoundedPools.Text.Quoted

/-!
# Configuration from the environment

The configuration text stands in one environment variable.  Before it is looked
up, the assignments of a settings file are taken in for variables that are not
set, line by line up to the first line that is not an assignment.

A line of the file assigns a value to a name.  Single quotes keep everything
between them, line ends included; double quotes and bare values know backslash
escapes and substitute `$name` and `${name}` by variables that are already set.  A
bare blank ends the value, and a number sign after a blank begins a comment.
-/

namespace BoundedPools.Config.Settings

open BoundedPools.Text (isAlphanumeric isBlank trimEnd)

abbrev Variables := List (String × String)

/-- The quote that keeps everything. -/
def singleQuote : Char := '\x27'

/-- What a line of the file is in the middle of, for finding where it ends. -/
inductive LineState
  | plain | afterBlank | escaped
  | single | singleEscaped
  | double | doubleEscaped
  deriving DecidableEq, Repr, Inhabited

/-- The state after a bare character. -/
def LineState.ofBare (c : Char) (otherwise : LineState) : LineState :=
  if c = '\\' then escaped
  else if c = '"' then double
  else if c = singleQuote then single
  else otherwise

/-- Read on to the end of a physical line; gives the state there and, if a
comment begins in it, the characters before the comment. -/
def LineState.advance : LineState → List Char → LineState × Option (List Char)
  | s, [] => (s, none)
  | s, c :: rest =>
    let go (s' : LineState) : LineState × Option (List Char) :=
      let (last, cut) := advance s' rest
      (last, cut.map (c :: ·))
    match s with
    | afterBlank => if c = '#' then (afterBlank, some []) else go (ofBare c plain)
    | escaped => go plain
    | plain => go (ofBare c (if isBlank c && c != '\n' && c != '\r' then afterBlank else plain))
    | double => go (if c = '\\' then doubleEscaped else if c = '"' then plain else double)
    | doubleEscaped => go double
    | single =>
      go (if c = '\\' then singleEscaped
        else if c = singleQuote then plain else single)
    | singleEscaped => go single

/-- The physical lines of a file, each with its line end. -/
def physicalLines : List Char → List (List Char)
  | [] => []
  | c :: rest =>
    if c = '\n' then [c] :: physicalLines rest
    else match physicalLines rest with
      | [] => [[c]]
      | line :: lines => (c :: line) :: lines

/-- A line without its line end. -/
def chomp (line : List Char) : List Char :=
  match line.reverse with
  | '\n' :: '\r' :: before => before.reverse
  | '\n' :: before => before.reverse
  | _ => line

/-- The lines of a file, quotes joined over line ends; `none` stands for a file
that ends inside a line. -/
def logicalLines : LineState → List Char → List (List Char) → List (Option (List Char))
  | state, _, [] => if state = .plain then [] else [none]
  | state, before, line :: lines =>
    let buffer := before ++ line
    if (buffer.dropWhile isBlank).head? = some '#' then some [] :: logicalLines .plain [] lines
    else
      match state.advance line with
      | (_, some kept) => some (before ++ kept) :: logicalLines .plain [] lines
      | (.plain, none) => some (chomp buffer) :: logicalLines .plain [] lines
      | (state', none) => logicalLines state' buffer lines

/-- What follows a name and an equal sign in the entry of a variable, which is its
own name, an equal sign and its value.  A name with an equal sign in it reaches
into the value: `a=x` finds `y` in `a=x=y`. -/
def valueOf? (name : List Char) (entry : String × String) : Option (List Char) :=
  (name ++ ['=']).isPrefixOf? (entry.1.toList ++ '=' :: entry.2.toList)

/-- The value of a variable inside a value; what is not set is empty. -/
def substitute (vars : Variables) (name : List Char) : List Char :=
  (vars.findSome? (valueOf? name)).getD []

/-- Which form of substitution a value is in. -/
inductive Substituting
  | no | bare | braced
  deriving DecidableEq, Repr, Inhabited

/-- A value being read. -/
structure ValueState where
  single : Bool := false
  double : Bool := false
  escaped : Bool := false
  /-- A blank has ended the value. -/
  ended : Bool := false
  substituting : Substituting := .no
  /-- The name being substituted, last character first. -/
  name : List Char := []
  /-- What the value comes to so far, last character first. -/
  output : List Char := []
  deriving DecidableEq, Repr, Inhabited

/-- Put the substituted variable into the value. -/
def ValueState.expand (vars : Variables) (s : ValueState) : ValueState :=
  { s with output := (substitute vars s.name.reverse).reverseAux s.output, name := [] }

/-- Read the characters of a value. -/
def readValue (vars : Variables) : ValueState → List Char → Option (List Char)
  | s, [] =>
    if s.substituting = .braced || s.single || s.double then none
    else some (s.expand vars).output.reverse
  | s, c :: rest =>
    let go (s' : ValueState) : Option (List Char) := readValue vars s' rest
    let keep (s' : ValueState) : ValueState := { s' with output := c :: s'.output }
    if s.ended then
      if c = ' ' ∨ c = '\t' then go s
      else if c = '#' then
        if s.substituting = .braced || s.single || s.double then none
        else some (s.expand vars).output.reverse
      else none
    else if s.escaped then
      if c = '\\' ∨ c = singleQuote ∨ c = '"' ∨ c = '$' ∨ c = ' ' then
        go (keep { s with escaped := false })
      else if c = 'n' then go { s with escaped := false, output := '\n' :: s.output }
      else none
    else if s.single then
      if c = singleQuote then go { s with single := false } else go (keep s)
    else if s.substituting ≠ .no then
      if isAlphanumeric c then go { s with name := c :: s.name }
      else if s.substituting = .braced then
        if c = '\x7d' then go { s.expand vars with substituting := .no }
        else go { s with name := c :: s.name }
      else if c = '\x7b' ∧ s.name = [] then go { s with substituting := .braced }
      else if c = '$' then go { s.expand vars with substituting := .bare }
      else go (keep { s.expand vars with substituting := .no })
    else if c = '$' then go { s with substituting := .bare }
    else if s.double then
      if c = '"' then go { s with double := false }
      else if c = '\\' then go { s with escaped := true }
      else go (keep s)
    else if c = singleQuote then go { s with single := true }
    else if c = '"' then go { s with double := true }
    else if c = '\\' then go { s with escaped := true }
    else if c = ' ' ∨ c = '\t' then go { s with ended := true }
    else go (keep s)

/-- The name at the head of a line, with what follows it. -/
def readName (line : List Char) : Option (List Char × List Char) :=
  match line with
  | [] => none
  | c :: _ =>
    if c.isAlpha || c == '_' then
      let isPart (c : Char) : Bool := c.isAlphanum || c == '_' || c == '.'
      some (line.takeWhile isPart, line.dropWhile isPart)
    else none

/-- What follows an equal sign and blanks. -/
def afterEqual (line : List Char) : Option (List Char) :=
  match line with
  | '=' :: rest => some (rest.dropWhile isBlank)
  | _ => none

/-- Read a line: nothing, or an assignment; `none` if it is neither. -/
def readLine (vars : Variables) (line : List Char) : Option (Option (String × String)) :=
  let body := (trimEnd line).dropWhile isBlank
  if body.isEmpty || body.head? == some '#' then some none
  else do
    let (first, rest) ← readName body
    let rest := rest.dropWhile isBlank
    let (name, value) ←
      match afterEqual rest with
      | some value => some (first, value)
      | none =>
        if first = "export".toList then do
          let (second, rest) ← readName rest
          let value ← afterEqual (rest.dropWhile isBlank)
          some (second, value)
        else none
    if value.isEmpty || value.head? == some '#' then some (some (String.ofList name, ""))
    else do
      let text ← readValue vars {} value
      some (some (String.ofList name, String.ofList text))

/-- An assignment that the environment cannot take in: the value contains the
character that ends every value there. -/
structure Unsettable where
  name : String
  value : String
  deriving DecidableEq, Repr, Inhabited

/-- The wording of the panic in which the attempt ends. -/
def Unsettable.message (u : Unsettable) : String :=
  "failed to set environment variable `" ++ Text.quoted u.name ++ "` to `" ++ Text.quoted u.value
    ++ "`: file name contained an unexpected NUL byte"

/-- Take in an assignment if the variable is not set. -/
def assign (vars : Variables) (name value : String) : Except Unsettable Variables :=
  if (vars.lookup name).isSome then .ok vars
  else if value.toList.contains '\x00' then .error ⟨name, value⟩
  else .ok (vars ++ [(name, value)])

/-- Take in the assignments of lines for variables that are not set, up to the
first line that cannot be read. -/
def load (vars : Variables) : List (Option (List Char)) → Except Unsettable Variables
  | [] => .ok vars
  | none :: _ => .ok vars
  | some line :: lines =>
    match readLine vars line with
    | none => .ok vars
    | some none => load vars lines
    | some (some (name, value)) =>
      match assign vars name value with
      | .error u => .error u
      | .ok vars => load vars lines

/-- Take in the assignments of a file; a byte order mark at its head is
skipped. -/
def loadFile (vars : Variables) (file : String) : Except Unsettable Variables :=
  let text := match file.toList with
    | c :: rest => if c.toNat = 0xFEFF then rest else c :: rest
    | [] => []
  load vars (logicalLines .plain [] (physicalLines text))

end BoundedPools.Config.Settings

namespace BoundedPools.Config

/-- The variable that holds the configuration. -/
def configVariable : String := "POOLKIT_CONFIG"

/-- The value of an environment variable. -/
inductive Variable
  | unset
  | text (s : String)
  /-- Bytes that encode no text. -/
  | bytes (bs : List Nat)
  deriving DecidableEq, Repr, Inhabited

/-- The value of a variable given by its bytes. -/
def Variable.ofBytes (bs : List Nat) : Variable :=
  match Text.decodeBytes? bs with
  | some s => text s
  | none => bytes bs

/-- The value of the configuration variable after a settings file, if there is
one, has been taken in.  A value that is no text counts as not set for that. -/
def Variable.afterSettings (v : Variable) (file : Option String) :
    Except Settings.Unsettable Variable :=
  match file with
  | none => .ok v
  | some f =>
    let set : Settings.Variables := match v with
      | text s => [(configVariable, s)]
      | _ => []
    (Settings.loadFile set f).map fun vars =>
      match vars.lookup configVariable with
      | some s => text s
      | none => v

/-- Why the environment gives no configuration. -/
inductive EnvironmentFault
  /-- The variable holds bytes that encode no text. -/
  | noText (bs : List Nat)
  /-- The text is refused. -/
  | refused (fault : ConfigFault)
  /-- The settings file holds a value that cannot be set, which ends in a panic. -/
  | unsettable (assignment : Settings.Unsettable)
  deriving Inhabited

/-- The wording of a fault; it names the variable. -/
def EnvironmentFault.message : EnvironmentFault → String
  | noText bs =>
    configVariable ++ ": environment variable was not valid unicode: " ++ Text.quotedBytes bs
  | refused fault => configVariable ++ ": " ++ fault.message
  | unsettable assignment => assignment.message

/-- The configuration that the environment gives: that of the variable's text,
or the defaults if the variable is not set. -/
def PoolingConfig.fromEnvironment (cpus : Nat) (v : Variable) (file : Option String) :
    Except EnvironmentFault PoolingConfig :=
  match v.afterSettings file with
  | .error u => .error (.unsettable u)
  | .ok .unset => (PoolingConfig.default cpus).validate.mapError .refused
  | .ok (.text s) => (PoolingConfig.parse cpus s).mapError .refused
  | .ok (.bytes bs) => .error (.noText bs)

end BoundedPools.Config
