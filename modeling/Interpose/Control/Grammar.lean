/-
Interpose.Control.Grammar — command lines of nested commands.

A grammar is data: the parameters of a command, which of them exclude one
another, and the commands that may follow. One walk over the words settles
them one by one. A value that has been read is not judged at once, but when
the next parameter begins or the line ends; so of two mistakes the one that
shows first is told. What a command itself lacks is found last, after
everything behind it.
-/
import Interpose.Control.Argument

namespace Interpose.Control

/-! ## Grammars -/

structure Parameter where
  name : String
  /-- The name behind two hyphens. A parameter without names goes by its place. -/
  long : Option String := none
  short : Option Char := none
  /-- What it takes; a switch takes nothing. -/
  value : Option ValueKind := none
  /-- Whether it may be given more than once. -/
  repeated : Bool := false
  /-- Whether a place takes all words that follow. -/
  many : Bool := false
  required : Bool := false
  /-- Whether a word with a hyphen in front can be its value. -/
  hyphens : Bool := false
  /-- What it asks for instead of the command. -/
  asks : Option UsageFault := none

def Parameter.isPlace (p : Parameter) : Bool := p.long.isNone && p.short.isNone

/-- Parameters of which at most one may be given. -/
structure Choice where
  required : Bool := false
  members : List String

structure Grammar where
  name : String
  parameters : List Parameter
  choices : List Choice := []
  /-- The commands of which one has to follow, if there are any. -/
  commands : List Grammar := []

namespace Grammar

def parameter? (g : Grammar) (name : String) : Option Parameter :=
  g.parameters.find? (·.name = name)

def ofLong? (g : Grammar) (long : String) : Option Parameter :=
  g.parameters.find? (·.long = some long)

def ofShort? (g : Grammar) (c : Char) : Option Parameter :=
  g.parameters.find? (·.short = some c)

def place? (g : Grammar) (n : Nat) : Option Parameter := (g.parameters.filter (·.isPlace))[n]?

def command? (g : Grammar) (name : String) : Option Grammar := g.commands.find? (·.name = name)

/-- Whether a word is a command here; each command that has others also has help. -/
def isCommand (g : Grammar) (word : String) : Bool :=
  (g.command? word).isSome || (word = "help" && !g.commands.isEmpty)

end Grammar

/-! ## One command -/

/-- What has been read for one command. -/
structure Reading where
  given : List (String × List Argument) := []
  /-- A parameter whose values have been read but not judged. -/
  pending : Option (String × List String) := none
  /-- The parameter that may go on: an option without its value, or a place
  that takes many words. -/
  awaited : Option String := none
  /-- Whether what is open is an option. -/
  inOption : Bool := false
  place : Nat := 0
  /-- Two hyphens have been read; only words for places follow. -/
  onlyPlaces : Bool := false

namespace Reading

def has (r : Reading) (name : String) : Bool := r.given.any (·.1 = name)

/-- Gives a parameter its values. One that is given twice is a conflict,
whatever its second value. -/
def put (r : Reading) (p : Parameter) (words : List String) : Except UsageFault Reading := do
  if r.has p.name && !p.repeated then .error .conflict
  let kind := p.value.getD .text
  let values ← words.mapM kind.read
  let before := (r.given.lookup p.name).getD []
  .ok { r with given := r.given.filter (·.1 ≠ p.name) ++ [(p.name, before ++ values)] }

/-- Judges what is pending. -/
def settle (g : Grammar) (r : Reading) : Except UsageFault Reading :=
  match r.pending with
  | none => .ok r
  | some (name, words) =>
    let r := { r with pending := none }
    match g.parameter? name with
    | none => .ok r
    | some p => if words.isEmpty then .error .missingValue else r.put p words

/-- Takes a switch. -/
def takeSwitch (g : Grammar) (r : Reading) (p : Parameter) : Except UsageFault Reading := do
  let r ← r.settle g
  match p.asks with
  | some ask => .error ask
  | none => ({ r with awaited := none, inOption := false } : Reading).put p []

/-- Takes an option with its value, or leaves it open for the next word. -/
def takeOption (g : Grammar) (r : Reading) (p : Parameter) (value : Option String) :
    Except UsageFault Reading := do
  let r ← r.settle g
  match value with
  | some v => ({ r with awaited := none, inOption := false } : Reading).put p [v]
  | none => .ok { r with pending := some (p.name, []), awaited := some p.name, inOption := true }

/-- Takes a word for the next place. -/
def takePlace (g : Grammar) (r : Reading) (word : String) : Except UsageFault Reading :=
  match g.place? r.place with
  | none =>
    if r.onlyPlaces && g.isCommand word then .error .unknownArgument
    else if g.commands.isEmpty then .error .unknownArgument
    else .error .unknownCommand
  | some p =>
    if p.many then do
      let r ← if r.pending.any (·.1 = p.name) then .ok r else r.settle g
      let words := (r.pending.map (·.2)).getD []
      .ok { r with pending := some (p.name, words ++ [word]), awaited := some p.name, inOption := false }
    else do
      let r ← r.settle g
      .ok { r with pending := some (p.name, [word]), awaited := none, inOption := false,
                   place := r.place + 1 }

/-- Takes a word that names nothing: the value of an open option, or a place. -/
def takeWord (g : Grammar) (r : Reading) (word : String) : Except UsageFault Reading :=
  if r.inOption then
    let words := (r.pending.map (·.2)).getD []
    .ok { r with pending := (r.awaited).map (·, words ++ [word]), awaited := none, inOption := false }
  else r.takePlace g word

/-- Whether what is open takes words with hyphens in front. -/
def opensHyphens (g : Grammar) (r : Reading) : Bool :=
  ((r.awaited).bind g.parameter?).any (·.hyphens)

/-- Whether the next place takes words with hyphens in front. -/
def placeTakesHyphens (g : Grammar) (r : Reading) : Bool := (g.place? r.place).any (·.hyphens)

/-- Takes a word with two hyphens in front, which are cut off. -/
def takeLong (g : Grammar) (r : Reading) (word : String) (body : List Char) :
    Except UsageFault Reading :=
  let (flag, value) := match Text.cutFirst? '=' body with
    | some (f, v) => (f, some (String.ofList v))
    | none => (body, none)
  match g.ofLong? (String.ofList flag) with
  | some p =>
    if p.value.isSome then r.takeOption g p value
    else if value.isSome then .error .unwantedValue
    else r.takeSwitch g p
  | none => if r.placeTakesHyphens g then r.takeWord g word else .error .unknownArgument

/-- Takes letters behind one hyphen: switches, and at the end maybe an option,
to which the letters that are left belong. -/
def takeLetters (g : Grammar) (r : Reading) : List Char → Except UsageFault Reading
  | [] => .ok r
  | c :: rest =>
    match g.ofShort? c with
    | none => .error .unknownArgument
    | some p =>
      if p.value.isSome then
        r.takeOption g p (match rest with
          | [] => none
          | '=' :: v => some (String.ofList v)
          | v => some (String.ofList v))
      else do
        let r ← r.takeSwitch g p
        r.takeLetters g rest

/-- Takes a word that is no command. -/
def take (g : Grammar) (r : Reading) (word : String) : Except UsageFault Reading :=
  if r.onlyPlaces then r.takePlace g word
  else if r.opensHyphens g then r.takeWord g word
  else match word.toList with
    | ['-', '-'] => .ok { r with onlyPlaces := true }
    | '-' :: '-' :: body => r.takeLong g word body
    | '-' :: c :: rest =>
      if r.placeTakesHyphens g && (c :: rest).any (fun c => (g.ofShort? c).isNone) then
        r.takeWord g word
      else r.takeLetters g (c :: rest)
    | _ => r.takeWord g word

/-- Judges a command after its last word. `ambient` are the parameters the
environment gives where the line does not. -/
def finish (g : Grammar) (ambient : List String) (r : Reading) (followed : Bool) :
    Except UsageFault Reading := do
  let r ← r.settle g
  if !followed && !g.commands.isEmpty then
    .error (if r.given.isEmpty && ambient.isEmpty then .nothingGiven else .missingCommand)
  if g.choices.any fun c => 1 < (c.members.filter r.has).length then .error .conflict
  if g.parameters.any (fun p => p.required && !r.has p.name)
      || g.choices.any (fun c => c.required && !c.members.any r.has) then
    .error .missingArgument
  .ok r

end Reading

/-! ## The whole line -/

/-- What help is asked for about: it must lead to a command. -/
def helpAbout (g : Grammar) : List String → UsageFault
  | [] => .help
  | w :: rest =>
    match g.command? w with
    | some sub => helpAbout sub rest
    | none => if w = "help" && !g.commands.isEmpty && rest.isEmpty then .help else .unknownCommand

/-- Walks over the words. Answers what each command on the way was given, the
outermost first. -/
def walk (g : Grammar) (ambient : List String) (r : Reading) :
    List String → Except UsageFault (List (String × List (String × List Argument)))
  | [] => (r.finish g ambient false).map fun r => [(g.name, r.given)]
  | w :: rest =>
    if !r.onlyPlaces && r.awaited.isNone && g.isCommand w then
      match g.command? w with
      | none => .error (helpAbout g rest)
      | some sub => do
        let below ← walk sub ambient {} rest
        let r ← r.finish g ambient true
        .ok ((g.name, r.given) :: below)
    else do
      let r ← r.take g w
      walk g ambient r rest

end Interpose.Control
