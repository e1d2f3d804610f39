import HaskellTags.Log.Session

/-!
# Histories of log sessions

A session is driven by steps.  What it should be after them can be read off the
steps themselves: which scopes of source files are still open, which id the run was
given last, and which threshold was set last.  The session does not keep this history.
It knows one source file and, for each open scope, the file to go back to, and its
handlers have a style and a number of filters that are set separately.

Three things are shown of one step and then of all: the session has the file of the
innermost open scope, the last values that were set, and handlers whose style and
filters fit each other.  From the last it follows that every handler can write every
record that passes.
-/

namespace HaskellTags
namespace Log

/-- What can happen in a session. -/
inductive Step
  | configure (threshold : Int)
  | setRunId (given : Option String) (fresh : String)
  | enter (path : String)
  | leave
  /-- A failure that is caught outside the innermost scopes, as many as are counted. -/
  | fail (count : Nat)
  | addHandler
  | log (m : Message)
  deriving DecidableEq, Repr

namespace Session

/-- The session after a step; a message does not change it. -/
def step (s : Session) : Step → Session
  | .configure threshold => s.configure threshold
  | .setRunId given fresh => s.setRunId given fresh
  | .enter path => s.enter path
  | .leave => s.leave
  | .fail count => s.unwind count
  | .addHandler => s.addHandler
  | .log _ => s

/-- The session after some steps. -/
def run (s : Session) (steps : List Step) : Session :=
  steps.foldl step s

theorem leave_eq
    (s : Session) :
    s.leave =
      { s with sourceFile := (s.saved.head?).getD s.sourceFile, saved := s.saved.tail } := by
  unfold leave
  rcases hsaved : s.saved with _ | ⟨before, rest⟩
  · cases s
    cases hsaved
    rfl
  · rfl

/-- A failure changes the file at hand and the files to go back to, and nothing else. -/
theorem unwind_eq
    (s : Session)
    (count : Nat) :
    s.unwind count =
      { s with
        sourceFile := (s.unwind count).sourceFile
        saved := (s.unwind count).saved } := by
  induction count generalizing s with
  | zero =>
      rfl
  | succ count ih =>
      rw [unwind, ih s.leave, leave_eq]

/-- What each step keeps is kept by all of them. -/
theorem run_induction
    {P : Session → Prop}
    (hstep : ∀ (s : Session) (step : Step), P s → P (s.step step))
    {s : Session}
    (hs : P s)
    (steps : List Step) :
    P (s.run steps) := by
  induction steps generalizing s with
  | nil =>
      exact hs
  | cons step rest ih =>
      exact ih (hstep s step hs)

end Session

section Settings

/-- The id that a step gives to the run. -/
def Step.runId? : Step → Option String
  | .setRunId none fresh => some fresh
  | .setRunId (some id) fresh => some (if id = "" then fresh else id)
  | _ => none

/-- The threshold that a step sets. -/
def Step.threshold? : Step → Option Int
  | .configure threshold => some threshold
  | _ => none

/-- The value that was set last, or the first one. -/
def latest {α : Type} (value? : Step → Option α) (first : α) (steps : List Step) : α :=
  (steps.filterMap value?).getLastD first

theorem latest_cons
    {α : Type}
    (value? : Step → Option α)
    (first : α)
    (step : Step)
    (rest : List Step) :
    latest value? first (step :: rest) = latest value? ((value? step).getD first) rest := by
  unfold latest
  cases hvalue : value? step with
  | none =>
      rw [List.filterMap_cons_none hvalue, Option.getD_none]
  | some a =>
      rw [List.filterMap_cons_some hvalue, List.getLastD_cons, Option.getD_some]

namespace Session

/-- What a step sets to a new value or keeps has in the end the last value. -/
theorem get_run_eq_latest
    {α : Type}
    {get : Session → α} {value? : Step → Option α}
    (hstep : ∀ (s : Session) (step : Step), get (s.step step) = (value? step).getD (get s))
    (s : Session)
    (steps : List Step) :
    get (s.run steps) = latest value? (get s) steps := by
  induction steps generalizing s with
  | nil =>
      rfl
  | cons step rest ih =>
      rw [latest_cons, ← hstep]
      exact ih (s.step step)

theorem runId_step
    (s : Session)
    (step : Step) :
    (s.step step).runId = step.runId?.getD s.runId := by
  cases step with
  | setRunId given fresh =>
      cases given with
      | none =>
          rfl
      | some id =>
          simp [Session.step, setRunId, Step.runId?]
  | leave =>
      simp [Session.step, leave_eq, Step.runId?]
  | fail count =>
      rw [Session.step, unwind_eq]
      rfl
  | _ =>
      rfl

theorem threshold_step
    (s : Session)
    (step : Step) :
    (s.step step).threshold = step.threshold?.getD s.threshold := by
  cases step with
  | leave =>
      simp [Session.step, leave_eq, Step.threshold?]
  | fail count =>
      rw [Session.step, unwind_eq]
      rfl
  | _ =>
      rfl

end Session

end Settings

section Scopes

/-- The open scopes after a step, the innermost first.  A step that closes scopes
needs as many that are open. -/
def Step.scopes? (scopes : List String) : Step → Option (List String)
  | .enter path => some (path :: scopes)
  | .leave => if scopes.isEmpty then none else some scopes.tail
  | .fail count => if scopes.length < count then none else some (scopes.drop count)
  | _ => some scopes

/-- The scopes that are open after steps that nest properly. -/
def openScopes? (scopes : List String) (steps : List Step) : Option (List String) :=
  steps.foldlM Step.scopes? scopes

/-- The source files to go back to when scopes are closed. -/
def outerFiles : List String → List (Option String)
  | [] => []
  | _ :: rest => rest.head? :: outerFiles rest

namespace Session

/-- A session that knows the file of the innermost of some scopes, and those to go
back to. -/
structure Tracks (s : Session) (scopes : List String) : Prop where
  file_eq : s.sourceFile = scopes.head?
  saved_eq : s.saved = outerFiles scopes

theorem Tracks.enter
    {s : Session} {scopes : List String}
    (h : s.Tracks scopes)
    (path : String) :
    (s.enter path).Tracks (path :: scopes) where
  file_eq := rfl
  saved_eq := by
    simp only [Session.enter, outerFiles, h.file_eq, h.saved_eq]

theorem Tracks.leave
    {s : Session} {path : String} {scopes : List String}
    (h : s.Tracks (path :: scopes)) :
    s.leave.Tracks scopes := by
  constructor
  · simp [leave_eq, h.saved_eq, outerFiles]
  · simp [leave_eq, h.saved_eq, outerFiles]

theorem Tracks.unwind
    {s : Session} {scopes : List String} {count : Nat}
    (h : s.Tracks scopes)
    (hcount : count ≤ scopes.length) :
    (s.unwind count).Tracks (scopes.drop count) := by
  induction count generalizing s scopes with
  | zero =>
      exact h
  | succ count ih =>
      cases scopes with
      | nil =>
          cases hcount
      | cons path outer =>
          exact ih h.leave (Nat.le_of_succ_le_succ hcount)

theorem Tracks.step
    {s : Session} {scopes inner : List String} {step : Step}
    (h : s.Tracks scopes)
    (hstep : step.scopes? scopes = some inner) :
    (s.step step).Tracks inner := by
  cases step with
  | enter path =>
      cases hstep
      exact h.enter path
  | leave =>
      rcases scopes with _ | ⟨path, outer⟩
      · cases hstep
      · cases hstep
        exact h.leave
  | fail count =>
      by_cases hcount : scopes.length < count
      · rw [Step.scopes?, if_pos hcount] at hstep
        cases hstep
      · rw [Step.scopes?, if_neg hcount] at hstep
        cases hstep
        exact h.unwind (Nat.le_of_not_lt hcount)
  | _ =>
      cases hstep
      exact ⟨h.file_eq, h.saved_eq⟩

theorem Tracks.run
    {s : Session} {scopes inner : List String} {steps : List Step}
    (h : s.Tracks scopes)
    (hsteps : openScopes? scopes steps = some inner) :
    (s.run steps).Tracks inner := by
  induction steps generalizing s scopes with
  | nil =>
      cases hsteps
      exact h
  | cons step rest ih =>
      rw [openScopes?, List.foldlM_cons] at hsteps
      obtain ⟨next, hnext, hrest⟩ := Option.bind_eq_some_iff.1 hsteps
      exact ih (h.step hnext) hrest

theorem Tracks.file
    {s : Session} {scopes : List String}
    (h : s.Tracks scopes) :
    s.file = scopes.headD unknown := by
  rw [Session.file, h.file_eq, List.headD_eq_head?_getD]

end Session

end Scopes

section Handlers

namespace Handler

/-- A handler that has not been configured. -/
def IsPlain (h : Handler) : Prop :=
  h.style = .plain ∧ h.filters = 0

/-- A handler that has been configured. -/
def IsStructured (h : Handler) : Prop :=
  h.style = .structured ∧ h.filters = 1

/-- A handler whose style and filters fit each other. -/
def Fits (h : Handler) : Prop :=
  h.IsPlain ∨ h.IsStructured

theorem isStructured_errorLines :
    errorLines.withFilter.IsStructured := by
  exact ⟨rfl, rfl⟩

/-- The number of filters is one, whether the handler had none or one. -/
theorem Fits.configured
    {h : Handler}
    (hfits : h.Fits) :
    ((h.withStyle .structured).withFilter).IsStructured := by
  refine ⟨rfl, ?_⟩
  rcases hfits with ⟨-, hfilters⟩ | ⟨-, hfilters⟩
  · simp [withFilter, withStyle, hfilters]
  · simp [withFilter, withStyle, hfilters]

/-- What a handler is to write for a record with a context. -/
def shown (time : String) (c : Context) (m : Message) (h : Handler) : String :=
  match h.style with
  | .plain => m.plainLine
  | .structured => m.structuredLine time c

/-- The filter of a handler that fits puts the context there when it is needed. -/
theorem Fits.line?_filtered
    {h : Handler}
    (hfits : h.Fits)
    (current : Context)
    (known : Option Context)
    (time : String)
    (m : Message) :
    h.line? time m (h.filtered current known) = some (h.shown time current m) := by
  rcases hfits with ⟨hstyle, -⟩ | ⟨hstyle, hfilters⟩
  · simp [line?, shown, hstyle]
  · simp [line?, shown, filtered, hstyle, hfilters]

end Handler

/-- Handlers that fit write one line each. -/
theorem deliver_eq_map
    {handlers : List Handler}
    (hfit : ∀ h ∈ handlers, h.Fits)
    (current : Context)
    (known : Option Context)
    (time : String)
    (m : Message) :
    deliver current time m known handlers =
      handlers.map fun h => (h, some (h.shown time current m)) := by
  -- What earlier handlers have put into the record does not matter, so it stays general.
  induction handlers generalizing known with
  | nil =>
      rfl
  | cons h rest ih =>
      have hh : h.Fits := hfit h List.mem_cons_self
      have hrest : ∀ h' ∈ rest, h'.Fits := fun h' hmem =>
        hfit h' (List.mem_cons_of_mem h hmem)
      rw [deliver, List.map_cons, hh.line?_filtered, ih hrest]

namespace Session

/-- A session all of whose handlers fit. -/
def HandlersFit (s : Session) : Prop :=
  ∀ h ∈ s.handlers, h.Fits

theorem HandlersFit.isStructured_configure
    {s : Session}
    (hs : s.HandlersFit)
    (threshold : Int) :
    ∀ h ∈ (s.configure threshold).handlers, h.IsStructured := by
  intro h hmem
  obtain ⟨styled, hstyled, rfl⟩ := List.mem_map.1 hmem
  split at hstyled
  · cases List.mem_singleton.1 hstyled
    exact Handler.isStructured_errorLines
  · obtain ⟨before, hbefore, rfl⟩ := List.mem_map.1 hstyled
    exact (hs before hbefore).configured

/-- Configuring a session replaces no handler. -/
theorem map_target_configure
    {s : Session}
    (hs : s.handlers ≠ [])
    (threshold : Int) :
    (s.configure threshold).handlers.map Handler.target = s.handlers.map Handler.target := by
  have hsome : s.handlers.isEmpty = false := List.isEmpty_eq_false_iff.2 hs
  simp only [configure, hsome, Bool.false_eq_true, if_false, List.map_map]
  rfl

/-- Without a handler there will be one, on the error stream. -/
theorem map_target_configure_nil
    {s : Session}
    (hs : s.handlers = [])
    (threshold : Int) :
    (s.configure threshold).handlers.map Handler.target = [.errorStream] := by
  rw [configure, hs]
  rfl

theorem HandlersFit.step
    {s : Session}
    (hs : s.HandlersFit)
    (step : Step) :
    (s.step step).HandlersFit := by
  cases step with
  | configure threshold =>
      exact fun h hmem => .inr (hs.isStructured_configure threshold h hmem)
  | addHandler =>
      intro h hmem
      rcases List.mem_append.1 hmem with hold | hnew
      · exact hs h hold
      · cases List.mem_singleton.1 hnew
        exact .inl ⟨rfl, rfl⟩
  | leave =>
      simp only [Session.step, leave_eq]
      exact hs
  | fail count =>
      rw [Session.step, unwind_eq]
      exact hs
  | _ =>
      exact hs

end Session

end Handlers

section Records

namespace Session

/-- The handlers with a target. -/
def handlersOn (s : Session) (target : Target) : List Handler :=
  s.handlers.filter fun h => h.target = target

theorem passes_eq_true_iff
    {s : Session} {rank : Int} :
    s.passes rank = true ↔ 0 < rank ∧ s.threshold ≤ rank := by
  simp [passes]

theorem HandlersFit.writtenTo
    {s : Session}
    (hs : s.HandlersFit)
    {m : Message}
    (hpasses : s.passes m.rank = true)
    (target : Target)
    (time : String) :
    s.writtenTo target time m =
      (s.handlersOn target).map (Handler.shown time ⟨s.runId, s.file⟩ m) := by
  simp only [Session.writtenTo, delivered, hpasses, if_true, deliver_eq_map hs,
    List.filter_map, List.map_map, handlersOn]
  rfl

/-- A message that passes is written by every handler. -/
theorem HandlersFit.written
    {s : Session}
    (hs : s.HandlersFit)
    (hsome : s.handlers ≠ [])
    {m : Message}
    (hpasses : s.passes m.rank = true)
    (time : String) :
    s.written time m =
      (s.handlersOn .buffer).map (Handler.shown time ⟨s.runId, s.file⟩ m) ++
        [String.join ((s.handlersOn .errorStream).map
          (Handler.shown time ⟨s.runId, s.file⟩ m))] := by
  have hresort : s.lastResort m = "" := by
    simp [lastResort, hsome]
  rw [Session.written, hs.writtenTo hpasses, hs.writtenTo hpasses, hresort,
    String.append_empty]

theorem writtenTo_of_not_passes
    {s : Session} {m : Message}
    (hpasses : s.passes m.rank = false)
    (target : Target)
    (time : String) :
    s.writtenTo target time m = (s.handlersOn target).map fun _ => "" := by
  simp only [writtenTo, delivered, hpasses, Bool.false_eq_true, if_false,
    List.filter_map, List.map_map, handlersOn]
  rfl

theorem join_map_empty
    (handlers : List Handler) :
    String.join (handlers.map fun _ => "") = "" := by
  induction handlers with
  | nil =>
      rfl
  | cons h rest ih =>
      rw [List.map_cons, String.join_cons, ih, String.append_empty]

/-- A message that does not pass is written nowhere. -/
theorem written_of_not_passes
    {s : Session} {m : Message}
    (hpasses : s.passes m.rank = false)
    (time : String) :
    ∀ text ∈ s.written time m, text = "" := by
  have hresort : s.lastResort m = "" := by
    simp [lastResort, hpasses]
  intro text hmem
  rw [written, writtenTo_of_not_passes hpasses, writtenTo_of_not_passes hpasses,
    join_map_empty, hresort] at hmem
  rcases List.mem_append.1 hmem with hbuffer | hstream
  · obtain ⟨h, -, rfl⟩ := List.mem_map.1 hbuffer
    rfl
  · exact List.mem_singleton.1 hstream

/-- A session that has not been configured and in which no scope is open. -/
structure IsFresh (s : Session) : Prop where
  plain : ∀ h ∈ s.handlers, h.IsPlain
  unset : s.sourceFile = none
  closed : s.saved = []

theorem isFresh_start
    (handlers : Nat) :
    (start handlers).IsFresh where
  plain := by
    intro h hmem
    rw [List.eq_of_mem_replicate hmem]
    exact ⟨rfl, rfl⟩
  unset := rfl
  closed := rfl

/-- After any steps that nest properly, the source file is that of the innermost open
scope, and style and filters of every handler fit.  Configuring the session makes all
handlers structured, and a message of a positive rank that reaches the threshold is
written once by every handler, with the run and the file at hand. -/
theorem session_follows_history
    {s : Session} {steps : List Step} {scopes : List String}
    (hs : s.IsFresh)
    (hsteps : openScopes? [] steps = some scopes) :
    let t := s.run steps
    let c : Context := ⟨latest Step.runId? s.runId steps, scopes.headD unknown⟩
    t.file = c.file ∧ t.runId = c.runId ∧
      t.threshold = latest Step.threshold? s.threshold steps ∧
      (∀ h ∈ t.handlers, h.IsPlain ∨ h.IsStructured) ∧
      (∀ threshold : Int,
        (∀ h ∈ (t.configure threshold).handlers, h.IsStructured) ∧
          (t.handlers ≠ [] →
            (t.configure threshold).handlers.map Handler.target =
              t.handlers.map Handler.target) ∧
          (t.handlers = [] →
            (t.configure threshold).handlers.map Handler.target = [.errorStream])) ∧
      ∀ (time : String) (m : Message),
        (0 < m.rank ∧ t.threshold ≤ m.rank → t.handlers ≠ [] →
          t.written time m =
            (t.handlersOn .buffer).map (Handler.shown time c m) ++
              [String.join ((t.handlersOn .errorStream).map (Handler.shown time c m))]) ∧
        (¬(0 < m.rank ∧ t.threshold ≤ m.rank) → ∀ text ∈ t.written time m, text = "") := by
  intro t c
  have hfile : t.file = c.file := by
    have htracks : s.Tracks [] := ⟨hs.unset, hs.closed⟩
    exact (htracks.run hsteps).file
  have hrunId : t.runId = c.runId := get_run_eq_latest runId_step s steps
  have hfit : t.HandlersFit := by
    have hplain : s.HandlersFit := fun h hmem => .inl (hs.plain h hmem)
    exact run_induction (fun _ step hfit => hfit.step step) hplain steps
  have hcontext : (⟨t.runId, t.file⟩ : Context) = c := by
    rw [hrunId, hfile]
  refine ⟨hfile, hrunId, get_run_eq_latest threshold_step s steps, hfit, ?_, ?_⟩
  · intro threshold
    exact ⟨hfit.isStructured_configure threshold,
      fun hsome => map_target_configure hsome threshold,
      fun hnone => map_target_configure_nil hnone threshold⟩
  · intro time m
    constructor
    · intro hpasses hsome
      rw [← hcontext]
      exact hfit.written hsome (passes_eq_true_iff.2 hpasses) time
    · intro hpasses
      exact written_of_not_passes (Bool.eq_false_iff.2 (mt passes_eq_true_iff.1 hpasses)) time

namespace Sample

/-- A scope that stays open around a configuration, a failure out of two scopes within
it, and a scope of another file. -/
def steps : List Step :=
  [.enter "A.hs", .configure 10, .enter "B.hs", .enter "D.hs", .fail 2, .addHandler,
    .setRunId (some "r1") "r0", .enter "C.hs", .log ⟨"a", 20, "inside"⟩, .leave]

end Sample

theorem session_follows_history_sample :
    let t := (start 1).run Sample.steps
    (start 1).IsFresh ∧ openScopes? [] Sample.steps = some ["A.hs"] ∧ t.file = "A.hs" ∧
      t.written "now" ⟨"a", 20, "hello"⟩ =
        ["now | INFO | run_id=r1 | file=A.hs | a | hello\n", "hello\n", ""] := by
  intro t
  have hfresh : (start 1).IsFresh := isFresh_start 1
  have hsteps : openScopes? [] Sample.steps = some ["A.hs"] := by rfl
  obtain ⟨hfile, -, -, -, -, hwritten⟩ := session_follows_history hfresh hsteps
  refine ⟨hfresh, hsteps, hfile, ?_⟩
  rw [(hwritten "now" ⟨"a", 20, "hello"⟩).1 (by decide) (by decide)]
  rfl

/-- A message of rank zero is dropped even where the threshold is zero. -/
theorem rank_zero_unwritten_at_threshold_zero :
    let t := (start 1).run [.configure 0]
    t.threshold ≤ 0 ∧ t.handlers = [⟨.buffer, .structured, 1⟩] ∧
      t.written "now" ⟨"a", 0, "hello"⟩ = ["", ""] := by
  decide

end Session

end Records

end Log
end HaskellTags
