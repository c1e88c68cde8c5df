import Population.Compile.Walker
import Population.Grammar.Statement
import Population.Source.Line

namespace Population

namespace Check

def line (w : Walker) (text : Text) : Except Fault Walker :=
  match Section.header? text with
  | some word => ((w.enter word).mapError WalkError.fault).map (·.2)
  | none => do
    let (home, w) ← w.statement.mapError WalkError.fault
    let _ ← (Statement.matchLine home.name text).mapError MatchError.fault
    return w

def lines (name : Text) : Walker → List Line → Except Fault Walker
  | w, [] => .ok w
  | w, l :: rest => match line w l.trimmed with
    | .ok w => lines name w rest
    | .error f => .error (f.locate name l.number l.trimmed)

def file (f : SourceFile) : Except Fault Unit :=
  (lines f.name .start f.lines).map fun _ => ()

def files (fs : List SourceFile) : Except Fault Unit :=
  fs.forM file

end Check

end Population
