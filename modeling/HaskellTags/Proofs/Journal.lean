import HaskellTags.Log.Record
import Mathlib.Data.List.Forall2

/-!
# Outcomes of journals

A journal runs like a computation that may fail; its notes do not change what
comes out.  The equations here take the outcome of a composed journal apart, so
that a statement about outcomes never has to look at notes.  Where the notes matter,
`bind_of_ok` and `bind_of_error` say which steps have run.

One journal refines another if whatever it comes to with success, the other one
comes to as well.  Composed journals refine each other part by part.
-/

namespace HaskellTags

namespace Outcome

variable {ε α β : Type}

@[simp] theorem ok_bind
    (a : α)
    (f : α → Except ε β) :
    (Except.ok a >>= f) = f a := by
  rfl

@[simp] theorem error_bind
    (e : ε)
    (f : α → Except ε β) :
    (Except.error e >>= f) = .error e := by
  rfl

/-- A computation in two steps succeeds if both steps do. -/
theorem bind_eq_ok_iff
    {x : Except ε α}
    {f : α → Except ε β}
    {b : β} :
    x >>= f = .ok b ↔ ∃ a : α, x = .ok a ∧ f a = .ok b := by
  cases x with
  | error e =>
      simp
  | ok a =>
      simp

theorem mapError_eq_ok_iff
    {δ : Type}
    {x : Except ε α}
    {f : ε → δ}
    {a : α} :
    x.mapError f = .ok a ↔ x = .ok a := by
  cases x with
  | error e =>
      simp [Except.mapError]
  | ok b =>
      simp [Except.mapError]

theorem mapError_eq_error_iff
    {δ : Type}
    {x : Except ε α}
    {f : ε → δ}
    {d : δ} :
    x.mapError f = .error d ↔ ∃ e : ε, x = .error e ∧ f e = d := by
  cases x with
  | error e =>
      simp [Except.mapError]
  | ok a =>
      simp [Except.mapError]

theorem map_eq_error_iff
    {f : α → β}
    {x : Except ε α}
    {e : ε} :
    x.map f = .error e ↔ x = .error e := by
  cases x with
  | error d =>
      simp [Except.map]
  | ok a =>
      simp [Except.map]

theorem map_eq_ok_iff
    {f : α → β}
    {x : Except ε α}
    {b : β} :
    x.map f = .ok b ↔ ∃ a : α, x = .ok a ∧ f a = b := by
  cases x with
  | error e =>
      simp [Except.map]
  | ok a =>
      simp [Except.map]

theorem exists_map_eq_ok_iff
    {f : α → β}
    {x : Except ε α} :
    (∃ b : β, x.map f = .ok b) ↔ ∃ a : α, x = .ok a := by
  simp [map_eq_ok_iff]

theorem toOption_eq_some_iff
    {x : Except ε α}
    {a : α} :
    x.toOption = some a ↔ x = .ok a := by
  cases x with
  | error e =>
      simp [Except.toOption]
  | ok b =>
      simp [Except.toOption]

/-- A computation on every element succeeds if each one does. -/
theorem mapM_eq_ok_iff
    {f : α → Except ε β}
    {xs : List α} {ys : List β} :
    xs.mapM f = .ok ys ↔
      List.Forall₂ (fun x y => f x = .ok y) xs ys := by
  induction xs generalizing ys with
  | nil =>
      constructor
      · intro h
        cases h
        exact .nil
      · intro h
        cases h
        rfl
  | cons x xs ih =>
      rw [List.mapM_cons, bind_eq_ok_iff]
      constructor
      · rintro ⟨y, hy, htail⟩
        obtain ⟨rest, hrest, hys⟩ := bind_eq_ok_iff.mp htail
        cases hys
        exact .cons hy (ih.mp hrest)
      · intro h
        cases h with
        | cons hy hrest =>
            refine ⟨_, hy, ?_⟩
            rw [ih.mpr hrest]
            rfl

/-- A computation on every element fails with the failure of one of them. -/
theorem exists_mem_of_mapM_eq_error
    {f : α → Except ε β}
    {xs : List α} {e : ε}
    (h : xs.mapM f = .error e) :
    ∃ x ∈ xs, f x = .error e := by
  induction xs with
  | nil =>
      cases h
  | cons x xs ih =>
      rw [List.mapM_cons] at h
      cases hx : f x with
      | error e' =>
          rw [hx] at h
          cases h
          exact ⟨x, List.mem_cons_self, hx⟩
      | ok y =>
          rw [hx, ok_bind] at h
          cases hrest : xs.mapM f with
          | error e' =>
              rw [hrest] at h
              cases h
              obtain ⟨x', hmem, hx'⟩ := ih hrest
              exact ⟨x', List.mem_cons_of_mem x hmem, hx'⟩
          | ok ys =>
              rw [hrest] at h
              cases h

/-- A computation that succeeds on each element succeeds on all. -/
theorem exists_mapM_eq_ok
    {f : α → Except ε β}
    {xs : List α}
    (h : ∀ x ∈ xs, ∃ y : β, f x = .ok y) :
    ∃ ys : List β, xs.mapM f = .ok ys := by
  induction xs with
  | nil =>
      exact ⟨[], rfl⟩
  | cons x xs ih =>
      obtain ⟨y, hy⟩ := h x List.mem_cons_self
      obtain ⟨ys, hys⟩ := ih fun x' hx' => h x' (List.mem_cons_of_mem x hx')
      refine ⟨y :: ys, ?_⟩
      rw [List.mapM_cons, hy, hys]
      rfl

end Outcome

namespace Journal

variable {ω ε δ α β : Type}

@[simp] theorem outcome_pure
    (a : α) :
    (pure a : Journal ω ε α).outcome = .ok a := by
  rfl

@[simp] theorem outcome_fail
    (e : ε) :
    (fail e : Journal ω ε α).outcome = .error e := by
  rfl

@[simp] theorem outcome_note
    (n : ω) :
    (note n : Journal ω ε Unit).outcome = .ok () := by
  rfl

@[simp] theorem outcome_noteAll
    (ns : List ω) :
    (noteAll ns : Journal ω ε Unit).outcome = .ok () := by
  rfl

@[simp] theorem outcome_ofExcept
    (r : Except ε α) :
    (ofExcept r : Journal ω ε α).outcome = r := by
  rfl

@[simp] theorem outcome_bind
    (x : Journal ω ε α)
    (f : α → Journal ω ε β) :
    (x >>= f).outcome = x.outcome >>= fun a => (f a).outcome := by
  change (andThen x f).outcome = _
  unfold andThen
  cases x.outcome <;> rfl

/-- After a success the next step runs and adds its notes. -/
theorem bind_of_ok
    {x : Journal ω ε α} {a : α}
    (h : x.outcome = .ok a)
    (f : α → Journal ω ε β) :
    x >>= f = ⟨(f a).outcome, x.notes ++ (f a).notes⟩ := by
  change andThen x f = _
  simp only [andThen, h]

/-- After a failure nothing runs any more. -/
theorem bind_of_error
    {x : Journal ω ε α} {e : ε}
    (h : x.outcome = .error e)
    (f : α → Journal ω ε β) :
    x >>= f = ⟨.error e, x.notes⟩ := by
  change andThen x f = _
  simp only [andThen, h]

/-- A step that only changes the result leaves no note. -/
theorem notes_bind_pure
    (x : Journal ω ε α)
    (g : α → β) :
    (x >>= fun a => pure (g a)).notes = x.notes := by
  cases h : x.outcome with
  | error e =>
      rw [bind_of_error h]
  | ok a =>
      rw [bind_of_ok h]
      exact List.append_nil _

@[simp] theorem outcome_mapFault
    (f : ε → δ)
    (x : Journal ω ε α) :
    (x.mapFault f).outcome = x.outcome.mapError f := by
  rfl

section Notes

variable {P : ω → Prop}

/-- A journal all of whose notes have a property. -/
def Leaves (P : ω → Prop) (x : Journal ω ε α) : Prop :=
  ∀ n ∈ x.notes, P n

theorem leaves_ofExcept
    (r : Except ε α) :
    Leaves P (ofExcept r : Journal ω ε α) := by
  intro n hn
  cases hn

theorem leaves_pure
    (a : α) :
    Leaves P (pure a : Journal ω ε α) :=
  leaves_ofExcept (.ok a)

theorem leaves_fail
    (e : ε) :
    Leaves P (fail e : Journal ω ε α) :=
  leaves_ofExcept (.error e)

theorem leaves_noteAll
    {ns : List ω}
    (h : ∀ n ∈ ns, P n) :
    Leaves P (noteAll ns : Journal ω ε Unit) :=
  h

theorem leaves_note
    {n : ω}
    (h : P n) :
    Leaves P (note n : Journal ω ε Unit) := by
  intro m hm
  rw [List.mem_singleton.1 hm]
  exact h

theorem Leaves.bind
    {x : Journal ω ε α} {f : α → Journal ω ε β}
    (hx : Leaves P x)
    (hf : ∀ a, Leaves P (f a)) :
    Leaves P (x >>= f) := by
  cases houtcome : x.outcome with
  | error e =>
      rw [bind_of_error houtcome]
      exact hx
  | ok a =>
      rw [bind_of_ok houtcome]
      intro n hn
      rcases List.mem_append.1 hn with hfirst | hnext
      · exact hx n hfirst
      · exact hf a n hnext

end Notes

section Refinement

/-- A journal whose success is also that of another one. -/
def Refines (x y : Journal ω ε α) : Prop :=
  ∀ a, x.outcome = .ok a → y.outcome = .ok a

theorem refines_refl
    (x : Journal ω ε α) :
    Refines x x :=
  fun _ h => h

/-- A failure refines everything. -/
theorem refines_fail
    (e : ε)
    (y : Journal ω ε α) :
    Refines (fail e) y := by
  intro a h
  cases h

theorem Refines.bind
    {x y : Journal ω ε α} {f g : α → Journal ω ε β}
    (hxy : Refines x y)
    (hfg : ∀ a, Refines (f a) (g a)) :
    Refines (x >>= f) (y >>= g) := by
  intro b h
  rw [outcome_bind, Outcome.bind_eq_ok_iff] at h ⊢
  obtain ⟨a, hx, hf⟩ := h
  exact ⟨a, hxy a hx, hfg a b hf⟩

theorem Refines.mapFault
    {x y : Journal ω ε α}
    (hxy : Refines x y)
    (f : ε → δ) :
    Refines (x.mapFault f) (y.mapFault f) := by
  intro a h
  rw [outcome_mapFault, Outcome.mapError_eq_ok_iff] at h ⊢
  exact hxy a h

end Refinement

end Journal

namespace Logged

variable {ε α : Type}

@[simp] theorem outcome_report
    (level : Log.Level)
    (component : Log.Component)
    (message : String) :
    (report level component message : Logged ε Unit).outcome = .ok () := by
  rfl

@[simp] theorem outcome_inFile
    (path : String)
    (x : Logged ε α) :
    (x.inFile path).outcome = x.outcome := by
  rfl

end Logged
end HaskellTags
