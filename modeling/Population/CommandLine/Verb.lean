import Population.CommandLine.Flag

namespace Population

inductive Shell
  | bash
  | zsh
  | fish
  | powershell
  deriving DecidableEq, Repr

namespace Shell

def all : List Shell :=
  [.bash, .zsh, .fish, .powershell]

def name : Shell → Text
  | .bash => "bash"
  | .zsh => "zsh"
  | .fish => "fish"
  | .powershell => "powershell"

def ofName? (t : Text) : Option Shell :=
  all.find? (·.name = t)

end Shell

inductive Verb
  | run
  | check
  | compile
  | schema
  | help
  | completion (shell : Option Shell)
  | complete
  deriving DecidableEq, Repr

namespace Verb

def words : List (Text × Verb) :=
  [("run", .run), ("check", .check), ("compile", .compile), ("schema", .schema), ("help", .help),
    ("completion", .completion none), ("__complete", .complete), ("__completeNoDesc", .complete)]

def ofWord? (t : Text) : Option Verb :=
  words.lookup t

def name : Verb → Text
  | .run => "run"
  | .check => "check"
  | .compile => "compile"
  | .schema => "schema"
  | .help => "help"
  | .completion none => "completion"
  | .completion (some shell) => "completion " ++ shell.name
  | .complete => "__complete"

def ownFlags : Verb → List Flag
  | .check => [.watch]
  | .compile => [.format]
  | .completion (some _) => [.noDescriptions]
  | _ => []

def flags (v : Verb) : List Flag :=
  Flag.common ++ v.ownFlags

end Verb

structure Invocation where
  /-- Without a command word, files are run. -/
  verb : Option Verb
  words : List Text
  deriving DecidableEq, Repr

namespace Invocation

def program : Text := "mitext"

/-- Whether the word after this one belongs to it. As long as the command is not known, every flag without
an equals sign is taken to have a value. -/
def takesNext (t : Text) : Bool :=
  !t.contains "=" && (t.startsWith "--" || (t.startsWith "-" && t.length = 2))

/-- The first word that is neither a flag nor the value of one. -/
def firstWord? : List Text → Option Text
  | [] => none
  | t :: rest =>
    if t = "--" then none
    else if takesNext t then
      match rest with
      | _ :: next :: rest => firstWord? (next :: rest)
      | _ => none
    else if t.isEmpty || t.startsWith "-" then firstWord? rest
    else some t

def without (name : Text) : List Text → List Text
  | [] => []
  | t :: rest =>
    if t = "--" then t :: rest
    else if takesNext t then
      match rest with
      | value :: rest => t :: value :: without name rest
      | [] => [t]
    else if t = name then rest
    else t :: without name rest

def ofShellWords (words : List Text) : Invocation :=
  match firstWord? words with
  | some t => match Shell.ofName? t with
    | some shell => ⟨some (.completion (some shell)), without t words⟩
    | none => ⟨some (.completion none), words⟩
  | none => ⟨some (.completion none), words⟩

def ofWords (words : List Text) : Invocation :=
  match firstWord? words with
  | some t => match Verb.ofWord? t with
    | some (.completion _) => ofShellWords (without t words)
    | some v => ⟨some v, without t words⟩
    | none => ⟨none, words⟩
  | none => ⟨none, words⟩

def path (i : Invocation) : Text :=
  match i.verb with
  | some v => program ++ " " ++ v.name
  | none => program

def flags (i : Invocation) : List Flag :=
  (i.verb.map Verb.flags).getD Flag.common

/-- The flags and the other words. What is to be completed is not looked into. -/
def parse (i : Invocation) : Except FlagError Arguments :=
  if i.verb = some .complete then .ok ⟨[], i.words⟩ else Arguments.parse i.flags i.words

end Invocation

end Population
