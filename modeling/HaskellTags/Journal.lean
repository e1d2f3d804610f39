/-!
# Journals

The outcome of a computation together with the notes that it left on the way.
A failure ends the computation and keeps the notes left before it.
-/

namespace HaskellTags

/-- An outcome and the notes left on the way to it. -/
structure Journal (ω ε α : Type) where
  outcome : Except ε α
  notes : List ω

namespace Journal

variable {ω ε α β : Type}

/-- Success without a note. -/
def done (a : α) : Journal ω ε α :=
  ⟨.ok a, []⟩

/-- Failure without a note. -/
def fail (e : ε) : Journal ω ε α :=
  ⟨.error e, []⟩

/-- One note. -/
def note (n : ω) : Journal ω ε Unit :=
  ⟨.ok (), [n]⟩

/-- Several notes. -/
def noteAll (ns : List ω) : Journal ω ε Unit :=
  ⟨.ok (), ns⟩

/-- An outcome without a note. -/
def ofExcept (r : Except ε α) : Journal ω ε α :=
  ⟨r, []⟩

/-- One computation after another. -/
def andThen (x : Journal ω ε α) (f : α → Journal ω ε β) : Journal ω ε β :=
  match x.outcome with
  | .error e => ⟨.error e, x.notes⟩
  | .ok a => ⟨(f a).outcome, x.notes ++ (f a).notes⟩

instance : Monad (Journal ω ε) where
  pure := done
  bind := andThen

/-- What a computation leaves in place of its failure. -/
def mapFault {δ : Type} (f : ε → δ) (x : Journal ω ε α) : Journal ω δ α :=
  ⟨x.outcome.mapError f, x.notes⟩

/-- A computation with its notes changed. -/
def mapNotes {υ : Type} (f : List ω → List υ) (x : Journal ω ε α) : Journal υ ε α :=
  ⟨x.outcome, f x.notes⟩

/-- A computation that leaves one more note if it fails. -/
def noteFault (n : ε → ω) (x : Journal ω ε α) : Journal ω ε α :=
  match x.outcome with
  | .ok _ => x
  | .error e => ⟨.error e, x.notes ++ [n e]⟩

end Journal
end HaskellTags
