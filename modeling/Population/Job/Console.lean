import Population.Log

namespace Population

/-- A piece of the log: a record, or a text as it is. -/
inductive Note
  | record (r : LogRecord)
  | plain (t : Text)
  deriving DecidableEq, Repr

structure LogStyle where
  level : LogLevel
  json : Bool
  time : Option Text

/-- A note as it is written; records below the level are left out. -/
def Note.toText (style : LogStyle) : Note → Text
  | .plain t => t
  | .record r =>
    if r.level.rank < style.level.rank then []
    else if style.json then r.toJsonLine style.time
    else r.toLine style.time

structure Console where
  context : List (Text × LogValue)
  printed : Text
  /-- Last note first. -/
  notes : List Note

namespace Console

def start (context : List (Text × LogValue)) : Console :=
  ⟨context, [], []⟩

def print (c : Console) (t : Text) : Console :=
  { c with printed := c.printed ++ t }

def add (c : Console) (r : LogRecord) : Console :=
  { c with notes := .record (r.under c.context) :: c.notes }

def note (c : Console) (level : LogLevel) (message : Text) (attrs : List (Text × LogValue)) : Console :=
  c.add ⟨level, message, attrs⟩

def addAll (c : Console) (rs : List LogRecord) : Console :=
  rs.foldl add c

def tell (c : Console) (t : Text) : Console :=
  { c with notes := .plain t :: c.notes }

def logText (style : LogStyle) (c : Console) : Text :=
  c.notes.reverse.flatMap (Note.toText style)

end Console

end Population
