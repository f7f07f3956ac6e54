import InventorySync.Settings.Draft

/-! # The command line and the environment

A flag is written `--name value` or `--name=value`. Arguments are looked at from left to right. A
value that stands in an argument of its own is put in when the next flag arrives or the arguments
end, so a mistake in it goes unnoticed when an unknown argument follows. A flag that was not given
takes its variable, if that is set. -/

namespace InventorySync

/-- One argument, by its form. -/
inductive Argument where
  /-- Two hyphens alone: no flags after this. -/
  | endOfFlags
  | long (name : String) (value : Option String)
  /-- One hyphen and at least one letter. -/
  | short (letter : Char)
  | plain (text : String)
deriving DecidableEq, Repr

namespace Argument

/-- The part before the first equals sign, and the part after it if there is one. -/
def cutAtEquals (cs : List Char) : String × Option String :=
  let name := cs.takeWhile (· ≠ '=')
  (String.ofList name,
    match cs.drop name.length with
    | _ :: value => some (String.ofList value)
    | [] => none)

/-- The form of an argument. -/
def ofText (text : String) : Argument :=
  match text.toList with
  | ['-', '-'] => .endOfFlags
  | '-' :: '-' :: rest => .long (cutAtEquals rest).1 (cutAtEquals rest).2
  | '-' :: letter :: _ => .short letter
  | _ => .plain text

end Argument

namespace Settings

/-- A flag that waits for its value, or for its value to be put in. -/
structure Pending where
  flag : Flag
  value : Option String
deriving DecidableEq, Repr

/-- The draft with the pending flag put in. -/
def settle (d : Draft) : Option Pending → Except UsageError Draft
  | none => .ok d
  | some ⟨flag, some text⟩ => d.give flag text
  | some ⟨flag, none⟩ => .error (.missingValue flag)

/-- Read the arguments that are left. -/
def readArguments (d : Draft) (pending : Option Pending) : List String → Except UsageError Draft
  | [] => settle d pending
  | text :: rest =>
    match Argument.ofText text with
    | .endOfFlags =>
      match rest with
      | [] => settle d pending
      | next :: _ => .error (.unknownArgument next)
    | .short letter =>
      if letter = 'h' then (settle d pending).bind fun _ => .error .help
      else if letter = 'V' then (settle d pending).bind fun _ => .error .version
      else .error (.unknownArgument text)
    | .long name value =>
      match Flag.ofName? name, value with
      | some flag, some value => do
        readArguments (← (← settle d pending).give flag value) none rest
      | some flag, none => do
        readArguments (← settle d pending) (some ⟨flag, none⟩) rest
      | none, value =>
        if name = "help" ∨ name = "version" then
          if value.isSome then .error (.unexpectedValue name)
          else (settle d pending).bind fun _ =>
            .error (if name = "help" then .help else .version)
        else .error (.unknownArgument text)
    | .plain text =>
      match pending with
      | some ⟨flag, none⟩ => readArguments d (some ⟨flag, some text⟩) rest
      | _ => .error (.unknownArgument text)

/-- The draft with the variable of a flag, if that is set and the flag was not given. -/
def readVariable (environment : String → Option String) (d : Draft) (flag : Flag) :
    Except UsageError Draft :=
  match environment flag.variableName with
  | some text => if d.has flag then .ok d else d.assign flag text
  | none => .ok d

/-- The draft with the variables of the flags that were not given. -/
def readVariables (d : Draft) (environment : String → Option String) : Except UsageError Draft :=
  Flag.all.foldlM (readVariable environment) d

/-- The settings that arguments and environment give. -/
def read (arguments : List String) (environment : String → Option String) :
    Except UsageError Settings := do
  let draft ← readArguments {} none arguments
  (← readVariables draft environment).finish

end Settings
end InventorySync
