import Population.Text.Quoted

namespace Population

inductive FaultKind
  | schema
  | syntactic
  | semantic
  | execution
  | unknown (code : Int)
  deriving DecidableEq, Repr

namespace FaultKind

def name : FaultKind → Text
  | .schema => "schema"
  | .syntactic => "syntax"
  | .semantic => "semantic"
  | .execution => "execution"
  | .unknown _ => "unknown"

def summary : FaultKind → Text
  | .schema => "Schema error"
  | .syntactic => "Syntax error"
  | .semantic => "Semantic error"
  | .execution => "Execution error"
  | .unknown _ => []

end FaultKind

structure Fault where
  kind : FaultKind
  /-- Empty for a fault without a place. -/
  file : Text
  line : Int
  text : Text
  summary : Text
  cause : Option Text
  deriving DecidableEq, Repr

/-- A range of a source file; columns count from one and bytes from zero. -/
structure Region where
  file : Text
  line : Int
  startByte : Int
  endColumn : Int
  endByte : Int
  deriving DecidableEq, Repr

structure Diagnostic where
  summary : Text
  detail : Text
  subject : Option Region
  deriving DecidableEq, Repr

namespace Fault

def plain (kind : FaultKind) (summary : Text) : Fault :=
  ⟨kind, [], 0, [], summary, none⟩

def causedBy (kind : FaultKind) (summary cause : Text) : Fault :=
  ⟨kind, [], 0, [], summary, some cause⟩

/-- What went wrong, with the cause after a colon. -/
def detail (f : Fault) : Text :=
  match f.cause with
  | none => f.summary
  | some cause => f.summary ++ ": " ++ cause

def placeText (f : Fault) : Text :=
  if f.file.isEmpty then []
  else if 0 < f.line then f.file ++ ":" ++ Text.ofInt f.line ++ ": "
  else f.file ++ ": "

def textSuffix (f : Fault) : Text :=
  if f.text.isEmpty then [] else ": " ++ f.text.quoted

def message (f : Fault) : Text :=
  f.placeText ++ f.kind.name ++ " error: " ++ f.detail ++ f.textSuffix

/-- Puts a fault at a place. A file or a line that it already has is kept. -/
def locate (f : Fault) (file : Text) (line : Int) (text : Text) : Fault :=
  let named := if f.file.isEmpty then { f with file } else f
  if f.line = 0 then { named with line, text } else named

def diagnostic (f : Fault) (offset : Int) : Diagnostic where
  summary := f.kind.summary
  detail := f.detail
  subject :=
    if !f.file.isEmpty && 0 < f.line then
      some ⟨f.file, f.line, offset, f.text.length + 1, offset + f.text.length⟩
    else none

end Fault

inductive Failure
  | plain (message : Text)
  | fault (f : Fault)
  | within (outer : Text) (inner : Failure)
  | input (path message : Text)
  deriving DecidableEq, Repr

namespace Failure

def message : Failure → Text
  | .plain message => message
  | .fault f => f.message
  | .within outer inner => outer ++ ": " ++ inner.message
  | .input _ message => "input error: " ++ message

def fault? : Failure → Option Fault
  | .fault f => some f
  | .within _ inner => inner.fault?
  | _ => none

def kind? (f : Failure) : Option FaultKind :=
  f.fault?.map (·.kind)

/-- The fault of a failure at a place. A failure without a fault becomes the cause of one. -/
def locate (f : Failure) (kind : FaultKind) (file : Text) (line : Int) (text : Text) : Fault :=
  match f.fault? with
  | some known => known.locate file line text
  | none => ⟨kind, file, line, text, "failed", some f.message⟩

end Failure

end Population
