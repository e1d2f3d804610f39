import HaskellTags.Proofs.Journal
import HaskellTags.Proofs.Log.History

/-!
# Scopes of source files

A computation that reports gives a file to its records where it is put into the scope of
the file.  In a session the file is not known to the record: opening a scope changes the
session, closing it changes the session back, and each message is logged with the source
file that the session has at the time.

Here the second way is written down as a computation that leaves the steps of a session as
its notes.  It follows a computation of the first kind if it has the same outcome, logs in
every session what the records say, and leaves every session as it was.  Steps that follow
can be composed, a scope can be put around them, and a failure can be caught; a failure
inside a scope closes the scope on its way out.
-/

namespace HaskellTags
namespace Log

/-- What a session is told by a record. -/
def Record.toMessage (r : Record) : Message :=
  ⟨r.component.name, r.level.rank, r.message⟩

/-- A message with the source file at hand when it was logged. -/
structure Entry where
  file : String
  message : Message
  deriving DecidableEq, Repr

/-- The entry of a record where the source file outside is known. -/
def Record.entry (outer : String) (r : Record) : Entry :=
  ⟨r.file.getD outer, r.toMessage⟩

theorem Record.entry_of_file_eq_none
    {r : Record}
    (h : r.file = none)
    (outer : String) :
    r.entry outer = ⟨outer, r.toMessage⟩ := by
  rw [Record.entry, h, Option.getD_none]

/-- The message that a step logs. -/
def Step.message? : Step → Option Message
  | .log m => some m
  | _ => none

namespace Session

/-- The messages that steps log, each with the source file at hand. -/
def logged (s : Session) : List Step → List Entry
  | [] => []
  | step :: rest => (step.message?.map (Entry.mk s.file)).toList ++ (s.step step).logged rest

theorem run_append
    (s : Session)
    (steps more : List Step) :
    s.run (steps ++ more) = (s.run steps).run more :=
  List.foldl_append

theorem logged_append
    (s : Session)
    (steps more : List Step) :
    s.logged (steps ++ more) = s.logged steps ++ (s.run steps).logged more := by
  induction steps generalizing s with
  | nil =>
      rfl
  | cons step rest ih =>
      rw [List.cons_append, logged, logged, ih, List.append_assoc]
      rfl

theorem run_map_log
    (s : Session)
    (messages : List Message) :
    s.run (messages.map Step.log) = s := by
  induction messages with
  | nil =>
      rfl
  | cons m rest ih =>
      exact ih

theorem logged_map_log
    (s : Session)
    (messages : List Message) :
    s.logged (messages.map Step.log) = messages.map (Entry.mk s.file) := by
  induction messages with
  | nil =>
      rfl
  | cons m rest ih =>
      exact congrArg (⟨s.file, m⟩ :: ·) ih

/-- Closing a scope puts back what was there before it. -/
theorem leave_enter
    (s : Session)
    (path : String) :
    (s.enter path).leave = s := by
  rfl

theorem file_enter
    (s : Session)
    (path : String) :
    (s.enter path).file = path := by
  rfl

end Session
end Log

/-- A failure that is caught becomes a result. -/
def Journal.attempt {ω ε δ α : Type} (x : Journal ω ε α) : Journal ω δ (Except ε α) :=
  ⟨.ok x.outcome, x.notes⟩

/-- A computation that takes steps in a session. -/
abbrev Traced := Journal Log.Step

namespace Traced

open Log

variable {ε δ α β : Type}

/-- The records of a computation, logged where no scope is opened. -/
def ofLogged (x : Logged ε α) : Traced ε α :=
  x.mapNotes fun records => records.map fun r => Step.log r.toMessage

/-- The step that closes a scope: a failure inside it closes it on its way out. -/
def closing : Except ε α → Step
  | .ok _ => .leave
  | .error _ => .fail 1

/-- A computation in the scope of a source file, which is closed however the computation
ends. -/
def inScope (path : String) (x : Traced ε α) : Traced ε α :=
  x.mapNotes fun steps => .enter path :: steps ++ [closing x.outcome]

theorem run_closing
    (s : Session)
    (outcome : Except ε α) :
    s.run [closing outcome] = s.leave := by
  cases outcome <;> rfl

theorem logged_closing
    (s : Session)
    (outcome : Except ε α) :
    s.logged [closing outcome] = [] := by
  cases outcome <;> rfl

/-- A computation in sessions does what a computation with records says. -/
structure Follows (x : Traced ε α) (y : Logged ε α) : Prop where
  outcome_eq : x.outcome = y.outcome
  /-- No scope stays open, and none from outside is closed. -/
  run_eq : ∀ s : Session, s.run x.notes = s
  logged_eq : ∀ s : Session, s.logged x.notes = y.notes.map (Record.entry s.file)

theorem follows_pure
    (a : α) :
    Follows (pure a : Traced ε α) (pure a) where
  outcome_eq := rfl
  run_eq _ := rfl
  logged_eq _ := rfl

theorem follows_fail
    (e : ε) :
    Follows (.fail e : Traced ε α) (.fail e) where
  outcome_eq := rfl
  run_eq _ := rfl
  logged_eq _ := rfl

theorem follows_ofLogged
    {y : Logged ε α}
    (hfile : ∀ r ∈ y.notes, r.file = none) :
    Follows (ofLogged y) y := by
  have hsteps : (ofLogged y).notes = (y.notes.map Record.toMessage).map Step.log := by
    rw [List.map_map]
    rfl
  refine ⟨rfl, ?_, ?_⟩
  · intro s
    rw [hsteps, Session.run_map_log]
  · intro s
    rw [hsteps, Session.logged_map_log, List.map_map]
    apply List.map_congr_left
    intro r hr
    exact (Record.entry_of_file_eq_none (hfile r hr) s.file).symm

variable {x : Traced ε α} {y : Logged ε α}

/-- A scope around a computation gives its file to the records. -/
theorem Follows.inScope
    (h : Follows x y)
    (path : String) :
    Follows (x.inScope path) (y.inFile path) where
  outcome_eq := h.outcome_eq
  run_eq s := by
    change (s.enter path).run (x.notes ++ [closing x.outcome]) = s
    rw [Session.run_append, h.run_eq, run_closing, s.leave_enter path]
  logged_eq s := by
    change (s.enter path).logged (x.notes ++ [closing x.outcome]) =
      (y.notes.map (Record.within path)).map (Record.entry s.file)
    rw [Session.logged_append, h.logged_eq, s.file_enter, logged_closing, List.append_nil,
      List.map_map]
    -- A record within the scope has a file, so what is outside does not matter to it.
    rfl

theorem Follows.bind
    {f : α → Traced ε β} {g : α → Logged ε β}
    (h : Follows x y)
    (hfg : ∀ a, Follows (f a) (g a)) :
    Follows (x >>= f) (y >>= g) := by
  cases houtcome : y.outcome with
  | error e =>
      rw [Journal.bind_of_error houtcome, Journal.bind_of_error (h.outcome_eq.trans houtcome)]
      exact ⟨rfl, h.run_eq, h.logged_eq⟩
  | ok a =>
      rw [Journal.bind_of_ok houtcome, Journal.bind_of_ok (h.outcome_eq.trans houtcome)]
      refine ⟨(hfg a).outcome_eq, ?_, ?_⟩
      · intro s
        rw [Session.run_append, h.run_eq, (hfg a).run_eq]
      · intro s
        rw [Session.logged_append, h.run_eq, h.logged_eq, (hfg a).logged_eq, List.map_append]

/-- A caught failure has closed its scopes. -/
theorem Follows.attempt
    (h : Follows x y) :
    Follows (x.attempt : Traced δ (Except ε α)) y.attempt where
  outcome_eq := congrArg Except.ok h.outcome_eq
  run_eq := h.run_eq
  logged_eq := h.logged_eq

end Traced
end HaskellTags
