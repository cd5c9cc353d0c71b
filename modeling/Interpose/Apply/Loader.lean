/-
Interpose.Apply.Loader — from an entry point to an init callback.

Entry points built into the host are found by key; everything else is a
library to be opened. Loading a library's entry point calls a constructor
in it, which is module code and may panic.
-/
import Interpose.Apply.Init
import Interpose.Module
import Interpose.Defaults
import Interpose.Text.Cut

namespace Interpose

inductive LoadError where
  | unknownBuiltin (key : String)
  /-- No such library. -/
  | library (path : String)
  | missingSymbol (path symbol : String)
  | unsupported (codePath : String)
  deriving DecidableEq, Repr

/-- The message, up to where the system's own text would follow. -/
def LoadError.message : LoadError → String
  | unknownBuiltin key => "no builtin entry point named '" ++ key ++ "'"
  | library path => "cannot open " ++ path
  | missingSymbol path symbol => path ++ " does not export '" ++ symbol ++ "'"
  | unsupported path => "no loader handles code path '" ++ path ++ "'"

/-- What loading comes to. -/
inductive Loaded (ν : Type) where
  | ready (init : Init ν)
  | refused (e : LoadError)
  | panicked (message : Option String)

/-- Where entry points are loaded from; `σ` is what a load may depend on and change. -/
abbrev Source (ν σ : Type) := EntryPoint → σ → Loaded ν × σ

/-- A loader answers every entry point, and always in the same way. -/
abbrev Loader (ν : Type) := EntryPoint → Loaded ν

namespace Loader

variable {ν : Type}

/-- A loader as a source: its loads change nothing. -/
def source {σ : Type} (loader : Loader ν) : Source ν σ := fun e s => (loader e, s)

/-- The key of an entry point built into the host: what follows the scheme,
with the symbol, if there is one, after a number sign. -/
def builtinKey? (e : EntryPoint) : Option String :=
  (Text.dropLead? Defaults.builtinScheme.toList e.codePath.toList).map fun name =>
    let name := String.ofList name
    if e.symbol.isEmpty then name else name ++ "#" ++ e.symbol

/-- Entry points built into the host. -/
def builtins (entries : List (String × Init ν)) : Loader ν := fun e =>
  match builtinKey? e with
  | none => .refused (.unsupported e.codePath)
  | some key =>
    match entries.lookup key with
    | some init => .ready init
    | none => .refused (.unknownBuiltin key)

/-- Libraries, each with the constructors it exports. An entry point that
names no symbol means the default one. -/
def libraries (libs : List (String × List (String × Loaded ν))) : Loader ν := fun e =>
  match libs.lookup e.codePath with
  | none => .refused (.library e.codePath)
  | some symbols =>
    let symbol := if e.symbol.isEmpty then Defaults.entrySymbol else e.symbol
    match symbols.lookup symbol with
    | some loaded => loaded
    | none => .refused (.missingSymbol e.codePath symbol)

/-- What is built in first, libraries for all else. -/
def either (builtin native : Loader ν) : Loader ν := fun e =>
  if (Text.dropLead? Defaults.builtinScheme.toList e.codePath.toList).isSome then builtin e
  else native e

end Loader

/-- How many distinct libraries have been opened once these entry points
have been asked for: those that exist. -/
def librariesOpened (exist : List String) (asked : List EntryPoint) : Nat :=
  (exist.filter fun path => asked.any (·.codePath == path)).length

end Interpose
