/-!
# Log sessions

A session has a threshold, handlers that write records, the id of the run, and
the source file at hand.  Opening the scope of a file keeps the value from before,
and closing it puts that value back.

A handler writes the bare message until the session is configured; then it writes a
line with time, level, run, file and name.  Run and file come from the record, into
which a filter of the handler has to put them.
-/

namespace HaskellTags
namespace Log

/-- What stands for a run or a file that is not known. -/
def unknown : String := "-"

/-- The rank from which records are written even without a handler. -/
def warningRank : Int := 30

/-- The name of a rank. -/
def rankName (rank : Int) : String :=
  if rank = 0 then "NOTSET"
  else if rank = 10 then "DEBUG"
  else if rank = 20 then "INFO"
  else if rank = 30 then "WARNING"
  else if rank = 40 then "ERROR"
  else if rank = 50 then "CRITICAL"
  else "Level " ++ toString rank

/-- Where a handler writes. -/
inductive Target
  | buffer
  | errorStream
  deriving DecidableEq, Repr

/-- How a handler writes a record. -/
inductive Style
  /-- The bare message. -/
  | plain
  /-- A line with time, level, run, file and name. -/
  | structured
  deriving DecidableEq, Repr

/-- What is logged. -/
structure Message where
  /-- The name of the logger. -/
  name : String
  rank : Int
  text : String
  deriving DecidableEq, Repr

/-- The run and the source file that a record belongs to. -/
structure Context where
  runId : String
  file : String
  deriving DecidableEq, Repr

namespace Message

/-- The name that a logger shows. -/
def shownName (m : Message) : String :=
  if m.name.isEmpty then "root" else m.name

/-- The line of the bare message. -/
def plainLine (m : Message) : String :=
  m.text ++ "\n"

/-- The line with time, level, run, file and name. -/
def structuredLine (time : String) (c : Context) (m : Message) : String :=
  time ++ " | " ++ rankName m.rank ++ " | run_id=" ++ c.runId ++ " | file=" ++ c.file ++
    " | " ++ m.shownName ++ " | " ++ m.text ++ "\n"

end Message

/-- A handler of records. -/
structure Handler where
  target : Target
  style : Style
  /-- The number of filters that put run and file into its records. -/
  filters : Nat
  deriving DecidableEq, Repr

namespace Handler

/-- A handler with a buffer of its own that writes bare messages. -/
def fresh : Handler := ⟨.buffer, .plain, 0⟩

/-- A handler on the error stream that writes structured lines. -/
def errorLines : Handler := ⟨.errorStream, .structured, 0⟩

/-- A handler with another style. -/
def withStyle (style : Style) (h : Handler) : Handler :=
  { h with style }

/-- A handler with a filter; one that is there already is enough. -/
def withFilter (h : Handler) : Handler :=
  { h with filters := if h.filters = 0 then 1 else h.filters }

/-- The context of a record when it has passed the filters of a handler. -/
def filtered (current : Context) (known : Option Context) (h : Handler) : Option Context :=
  if h.filters = 0 then known else some current

/-- What a handler writes for a record; a structured line needs the context. -/
def line? (time : String) (m : Message) (known : Option Context) (h : Handler) :
    Option String :=
  match h.style with
  | .plain => some m.plainLine
  | .structured => known.map fun c => m.structuredLine time c

end Handler

/-- What each handler writes for a message, in order.  All handlers share the
record, so a context that one filter has put into it is still there for the next. -/
def deliver (current : Context) (time : String) (m : Message) :
    Option Context → List Handler → List (Handler × Option String)
  | _, [] => []
  | known, h :: rest =>
    let known := h.filtered current known
    (h, h.line? time m known) :: deliver current time m known rest

/-- A session. -/
structure Session where
  threshold : Int
  /-- The handlers in order of creation. -/
  handlers : List Handler
  runId : String
  /-- The source file at hand, if one has been set. -/
  sourceFile : Option String
  /-- For each open scope the source file from before it, the innermost scope first. -/
  saved : List (Option String)
  deriving DecidableEq, Repr

namespace Session

/-- A session with some handlers, each with a buffer of its own. -/
def start (handlers : Nat) : Session where
  threshold := warningRank
  handlers := List.replicate handlers .fresh
  runId := unknown
  sourceFile := none
  saved := []

/-- Set the threshold, and let all handlers write structured lines with run and
file; without a handler there will be one on the error stream. -/
def configure (threshold : Int) (s : Session) : Session :=
  let styled :=
    if s.handlers.isEmpty then [.errorLines]
    else s.handlers.map (Handler.withStyle .structured)
  { s with threshold, handlers := styled.map Handler.withFilter }

/-- Set the id of the run; a fresh one if none is given. -/
def setRunId (given : Option String) (fresh : String) (s : Session) : Session :=
  let id := given.getD ""
  { s with runId := if id.isEmpty then fresh else id }

/-- The source file at hand. -/
def file (s : Session) : String :=
  s.sourceFile.getD unknown

/-- Open the scope of a source file. -/
def enter (path : String) (s : Session) : Session :=
  { s with sourceFile := some path, saved := s.sourceFile :: s.saved }

/-- Close the innermost scope. -/
def leave (s : Session) : Session :=
  match s.saved with
  | [] => s
  | before :: rest => { s with sourceFile := before, saved := rest }

/-- Close some scopes, as a failure does on its way out of them. -/
def unwind : Nat → Session → Session
  | 0, s => s
  | count + 1, s => s.leave.unwind count

/-- Add a handler with a buffer of its own. -/
def addHandler (s : Session) : Session :=
  { s with handlers := s.handlers ++ [.fresh] }

/-- Whether a message of a rank passes. -/
def passes (s : Session) (rank : Int) : Bool :=
  0 < rank && s.threshold ≤ rank

/-- What each handler writes for a message, in order. -/
def delivered (s : Session) (time : String) (m : Message) : List (Handler × Option String) :=
  if s.passes m.rank then deliver ⟨s.runId, s.file⟩ time m none s.handlers
  else s.handlers.map fun h => (h, none)

/-- What a message writes to the handlers with a target, in order. -/
def writtenTo (s : Session) (target : Target) (time : String) (m : Message) : List String :=
  ((s.delivered time m).filter fun d => d.1.target = target).map fun d => d.2.getD ""

/-- What a message writes when there is no handler. -/
def lastResort (s : Session) (m : Message) : String :=
  if s.handlers.isEmpty && s.passes m.rank && warningRank ≤ m.rank then m.plainLine else ""

/-- What a message writes to each buffer, and last to the error stream. -/
def written (s : Session) (time : String) (m : Message) : List String :=
  s.writtenTo .buffer time m ++
    [String.join (s.writtenTo .errorStream time m) ++ s.lastResort m]

end Session
end Log
end HaskellTags
