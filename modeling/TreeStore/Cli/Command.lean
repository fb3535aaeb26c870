import TreeStore.Cli.Arguments
import TreeStore.Number.Numeral

/-! The commands, and how they are given in words. Some options hold for all commands; they may stand before
the name of the command and after it, and there they count more. -/

namespace TreeStore.Cli

/-- What is shown of a compiled schema. -/
inductive Listing where
  | script
  /-- A line for each statement. -/
  | summary
deriving DecidableEq, Repr

inductive Command where
  | compile (model : String) (listing : Listing) (file : Option String)
  | apply (model : String)
  | load (tree : String) (junctions : Bool)
  /-- Applies a model, loads trees and shows the tables. -/
  | run (model : String) (trees : List String) (shown : Bool)
  | infer (input root : String) (modelFile treeFile : Option String)
  | diagram (model : String) (file : Option String)
  /-- Shows tables, all of them if none is named. -/
  | display (tables : List String) (limit : Option Nat)
deriving DecidableEq, Repr

/-- A command with the options that hold for all commands. -/
structure Invocation where
  verbose : Bool
  config : Option String
  database : Option String
  command : Command
deriving DecidableEq, Repr

def textSwitch (long : String) (short? : Option Char := none) : Switch :=
  ⟨long, short?, .value fun _ => true⟩

def commonSwitches : List Switch :=
  [ ⟨"verbose", some 'v', .flag⟩, textSwitch "config" (some 'c'), textSwitch "database" (some 'd'),
    ⟨"help", some 'h', .ask .help⟩ ]

def leadingUsage : Usage where
  switches := ⟨"version", some 'V', .ask .version⟩ :: commonSwitches
  maxOperands := none
  leading := true

def Listing.ofWord? : String → Option Listing
  | "sql" => some .script
  | "summary" => some .summary
  | _ => none

/-- The name of a command, the words that may follow it, and what it is then. -/
structure CommandForm where
  name : String
  switches : List Switch
  maxOperands : Option Nat
  command? : Arguments → Option Command

def CommandForm.usage (f : CommandForm) : Usage where
  switches := f.switches ++ commonSwitches
  maxOperands := f.maxOperands

def commandForms : List CommandForm :=
  [ { name := "compile"
      switches :=
        [⟨"output", some 'o', .value (Listing.ofWord? · |>.isSome)⟩, textSwitch "file" (some 'f')]
      maxOperands := some 1
      command? := fun a => match a.operands with
        | [model] =>
          some (.compile model (((a.value? "output").bind Listing.ofWord?).getD .script) (a.value? "file"))
        | _ => none },
    { name := "apply"
      switches := []
      maxOperands := some 1
      command? := fun a => match a.operands with
        | [model] => some (.apply model)
        | _ => none },
    { name := "load"
      switches := [⟨"no-junctions", none, .flag⟩]
      maxOperands := some 1
      command? := fun a => match a.operands with
        | [tree] => some (.load tree (!a.has "no-junctions"))
        | _ => none },
    { name := "run"
      switches := [⟨"no-show", none, .flag⟩]
      maxOperands := none
      command? := fun a => match a.operands with
        | model :: tree :: trees => some (.run model (tree :: trees) (!a.has "no-show"))
        | _ => none },
    { name := "infer"
      switches := [textSwitch "root" (some 'r'), textSwitch "model-out", textSwitch "instance-out"]
      maxOperands := some 1
      command? := fun a => match a.operands with
        | [input] =>
          some (.infer input ((a.value? "root").getD "Root") (a.value? "model-out")
            (a.value? "instance-out"))
        | _ => none },
    { name := "diagram"
      switches := [textSwitch "file" (some 'f')]
      maxOperands := some 1
      command? := fun a => match a.operands with
        | [model] => some (.diagram model (a.value? "file"))
        | _ => none },
    { name := "show"
      switches := [⟨"limit", some 'l', .value (Numeral.nat64? · |>.isSome)⟩]
      maxOperands := none
      command? := fun a => some (.display a.operands ((a.value? "limit").bind Numeral.nat64?)) } ]

def commandForm? (name : String) : Option CommandForm := commandForms.find? (·.name = name)

namespace Invocation

/-- What the words amount to that ask for help on commands. -/
def helpOn : List String → Refusal
  | [] => .help
  | [name] => if name = "help" ∨ (commandForm? name).isSome then .help else .misuse
  | _ => .misuse

def ofWords (words : List String) : Except Refusal Invocation := do
  let before ← Arguments.ofWords leadingUsage words
  match before.operands with
  | [] => throw .misuse
  | name :: rest =>
    match commandForm? name with
    | none => throw (if name = "help" then helpOn rest else .misuse)
    | some form =>
      let after ← Arguments.ofWords form.usage rest
      match form.command? after with
      | none => throw .misuse
      | some command =>
        let option (o : String) : Option String := (after.value? o).or (before.value? o)
        return { verbose := after.has "verbose" || before.has "verbose", config := option "config"
                 database := option "database", command }

end Invocation

end TreeStore.Cli
