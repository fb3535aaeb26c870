/-! Words of a command line, sorted into options and operands. A word that starts with a hyphen is an option,
or several options of one letter each, unless it is a hyphen alone; all words after two hyphens are operands.
The value of an option follows in the same word or is the next word, and no option is given twice. -/

namespace TreeStore.Cli

/-- Why words do not amount to a command. -/
inductive Refusal where
  /-- A text is asked for instead. -/
  | help
  | version
  | misuse
deriving DecidableEq, Repr

inductive SwitchKind where
  | flag
  /-- An option with a value, if it is acceptable. -/
  | value (accepts : String → Bool)
  /-- An option that ends the reading of words. -/
  | ask (refusal : Refusal)

structure Switch where
  long : String
  short? : Option Char
  kind : SwitchKind

/-- What options there are, and how many operands. -/
structure Usage where
  switches : List Switch
  maxOperands : Option Nat
  /-- Whether the words from the first operand on are left as they are. -/
  leading : Bool := false

/-- Options with their values, and operands. -/
structure Arguments where
  options : List (String × String) := []
  operands : List String := []
deriving DecidableEq, Repr

namespace Arguments

def has (a : Arguments) (option : String) : Bool := a.options.any (·.1 = option)

def value? (a : Arguments) (option : String) : Option String := a.options.lookup option

def addOption (a : Arguments) (option value : String) : Except Refusal Arguments :=
  if a.has option then .error .misuse else .ok { a with options := a.options ++ [(option, value)] }

def addOperand (u : Usage) (a : Arguments) (word : String) : Except Refusal Arguments :=
  if u.maxOperands.any (· ≤ a.operands.length) then .error .misuse
  else .ok { a with operands := a.operands ++ [word] }

def addValue (a : Arguments) (s : Switch) (value : String) : Except Refusal Arguments :=
  match s.kind with
  | .value accepts => if accepts value then a.addOption s.long value else .error .misuse
  | _ => .error .misuse

def isOption (word : String) : Bool := word.startsWith "-" && word ≠ "-"

/-- The arguments up to some word, and the option whose value is to follow. -/
abbrev Step := Except Refusal (Arguments × Option Switch)

/-- Reads options of one letter each, without their hyphen. -/
def addLetters (u : Usage) (a : Arguments) : List Char → Step
  | [] => .ok (a, none)
  | c :: rest =>
    match u.switches.find? (·.short? = some c) with
    | none => .error .misuse
    | some s => match s.kind, rest with
      | .ask refusal, _ => .error refusal
      | .flag, rest => do addLetters u (← a.addOption s.long "") rest
      | .value _, [] => .ok (a, some s)
      | .value _, '=' :: value => do return (← a.addValue s (String.ofList value), none)
      | .value _, value => do return (← a.addValue s (String.ofList value), none)

/-- Reads an option by its name, without the hyphens. -/
def addNamed (u : Usage) (a : Arguments) (word : List Char) : Step :=
  let name := String.ofList (word.takeWhile (· ≠ '='))
  match u.switches.find? (·.long = name) with
  | none => .error .misuse
  | some s => match s.kind, word.dropWhile (· ≠ '=') with
    | .ask refusal, [] => .error refusal
    | .flag, [] => do return (← a.addOption s.long "", none)
    | .value _, [] => .ok (a, some s)
    | .value _, _ :: value => do return (← a.addValue s (String.ofList value), none)
    | _, _ => .error .misuse

/-- Reads words, given those before them and the option whose value is to follow. -/
def addWords (u : Usage) (a : Arguments) : Option Switch → List String → Except Refusal Arguments
  | some _, [] => .error .misuse
  | some s, word :: rest => do
    if isOption word then throw .misuse
    addWords u (← a.addValue s word) none rest
  | none, [] => .ok a
  | none, word :: rest =>
    if word = "--" then (if u.leading then .error .misuse else rest.foldlM (addOperand u) a)
    else if isOption word then do
      let (a, pending) ← match word.toList.drop 1 with
        | '-' :: name => addNamed u a name
        | letters => addLetters u a letters
      addWords u a pending rest
    else if u.leading then .ok { a with operands := word :: rest }
    else do addWords u (← addOperand u a word) none rest

def ofWords (u : Usage) (words : List String) : Except Refusal Arguments := addWords u {} none words

end Arguments

end TreeStore.Cli
