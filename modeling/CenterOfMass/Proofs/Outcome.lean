import CenterOfMass.Failure

namespace CenterOfMass

variable {ε α β : Type}

@[simp] theorem ok_bind (a : α) (f : α → Except ε β) : (Except.ok a >>= f) = f a := rfl

@[simp] theorem error_bind (e : ε) (f : α → Except ε β) : (Except.error e >>= f) = .error e := rfl

@[simp] theorem pure_eq_ok (a : α) : (pure a : Except ε α) = .ok a := rfl

@[simp] theorem map_ok (f : α → β) (a : α) : (Except.ok a : Except ε α).map f = .ok (f a) := rfl

@[simp] theorem map_error (f : α → β) (e : ε) : (Except.error e).map f = .error e := rfl

/-- Two steps succeed when the first does and then the second. -/
theorem bind_eq_ok_iff {x : Except ε α} {f : α → Except ε β} {b : β} :
    x >>= f = .ok b ↔ ∃ a, x = .ok a ∧ f a = .ok b := by
  cases x <;> simp

theorem mapError_eq_ok_iff {ε' : Type} {x : Except ε α} {f : ε → ε'} {a : α} :
    x.mapError f = .ok a ↔ x = .ok a := by
  constructor <;> intro h
  all_goals cases x with
    | error => cases h
    | ok => exact congrArg Except.ok (Except.ok.inj h)

theorem toOption_bind (x : Except ε α) (f : α → Except ε β) :
    (x >>= f).toOption = x.toOption.bind fun a => (f a).toOption := by
  cases x <;> rfl

theorem toOption_map (x : Except ε α) (f : α → β) : (x.map f).toOption = x.toOption.map f := by
  cases x <;> rfl

/-- What is reported when there is no outcome is of one kind. -/
def FailsOnly (reported : ε → Prop) (x : Except ε α) : Prop := ∀ e, x = .error e → reported e

namespace FailsOnly

variable {reported : ε → Prop}

theorem ok (a : α) : FailsOnly reported (.ok a : Except ε α) := by
  intro e h
  cases h

theorem error {e : ε} (h : reported e) : FailsOnly reported (.error e : Except ε α) := by
  intro e' he
  cases he
  exact h

theorem mono {reported' : ε → Prop} {x : Except ε α} (hx : FailsOnly reported x)
    (himp : ∀ e, reported e → reported' e) : FailsOnly reported' x := by
  intro e h
  exact himp e (hx e h)

theorem bind {x : Except ε α} {f : α → Except ε β} (hx : FailsOnly reported x)
    (hf : ∀ a, FailsOnly reported (f a)) : FailsOnly reported (x >>= f) := by
  intro e h
  cases x with
  | ok a => exact hf a e h
  | error e' =>
    cases h
    exact hx e rfl

theorem map {x : Except ε α} (hx : FailsOnly reported x) (f : α → β) :
    FailsOnly reported (x.map f) := by
  intro e h
  cases x with
  | ok a => cases h
  | error e' =>
    cases h
    exact hx e rfl

end FailsOnly

/-- Two outcomes are both there, and related, or both are missed for one reason of some kind. -/
inductive Agree (reported : ε → Prop) (rel : α → β → Prop) : Except ε α → Except ε β → Prop
  | ok {a : α} {b : β} (h : rel a b) : Agree reported rel (.ok a) (.ok b)
  | error {e : ε} (h : reported e) : Agree reported rel (.error e) (.error e)

namespace Agree

variable {α' β' γ : Type} {reported : ε → Prop} {rel : α → β → Prop} {x : Except ε α}
  {y : Except ε β}

theorem refl {rel : α → α → Prop} (hx : FailsOnly reported x) (h : ∀ a, rel a a) :
    Agree reported rel x x := by
  cases x with
  | ok a => exact .ok (h a)
  | error e => exact .error (hx e rfl)

theorem mono {rel' : α → β → Prop} (h : Agree reported rel x y)
    (himp : ∀ a b, rel a b → rel' a b) : Agree reported rel' x y := by
  cases h with
  | ok h => exact .ok (himp _ _ h)
  | error h => exact .error h

theorem failsOnly (h : Agree reported rel x y) : FailsOnly reported x := by
  cases h with
  | ok => exact .ok _
  | error h => exact .error h

theorem bind {rel' : α' → β' → Prop} {f : α → Except ε α'} {g : β → Except ε β'}
    (h : Agree reported rel x y) (hnext : ∀ a b, rel a b → Agree reported rel' (f a) (g b)) :
    Agree reported rel' (x >>= f) (y >>= g) := by
  cases h with
  | ok h => exact hnext _ _ h
  | error h => exact .error h

/-- Two loops over the same steps stay related when one step keeps them so. -/
theorem foldlM {f : α → γ → Except ε α} {g : β → γ → Except ε β} (steps : List γ)
    (hstep : ∀ a b c, rel a b → Agree reported rel (f a c) (g b c)) {a : α} {b : β}
    (h : rel a b) : Agree reported rel (steps.foldlM f a) (steps.foldlM g b) := by
  induction steps generalizing a b with
  | nil => exact .ok h
  | cons c steps ih =>
    rw [List.foldlM_cons, List.foldlM_cons]
    apply bind (hstep a b c h)
    intro a' b' h'
    exact ih h'

end Agree

/-- The failures that are met once a signal and the parameters have been accepted. -/
def Failure.Later : Failure → Prop
  | .unsupportedGeometry _ => False
  | .invalidParameter _ _ => False
  | _ => True

section Stateful

variable {σ : Type} {s s' : σ}

/-- With a state, the second of two steps begins where the first has ended, if it succeeds. -/
theorem run_bind {ε α β : Type} (x : ExceptT ε (StateM σ) α) (f : α → ExceptT ε (StateM σ) β)
    (s : σ) : (x >>= f).run.run s = match x.run.run s with
      | (.ok a, between) => (f a).run.run between
      | (.error e, between) => (.error e, between) := by
  have hbind : (x >>= f).run.run s =
      (ExceptT.bindCont f (x.run.run s).1).run (x.run.run s).2 := rfl
  rw [hbind]
  cases x.run.run s with
  | mk made between => cases made <;> rfl

theorem run_bind_of_ok {ε α β : Type} {x : ExceptT ε (StateM σ) α} {a : α}
    (h : x.run.run s = (.ok a, s')) (f : α → ExceptT ε (StateM σ) β) :
    (x >>= f).run.run s = (f a).run.run s' := by rw [run_bind, h]

theorem run_bind_of_error {ε α β : Type} {x : ExceptT ε (StateM σ) α} {e : ε}
    (h : x.run.run s = (.error e, s')) (f : α → ExceptT ε (StateM σ) β) :
    (x >>= f).run.run s = (.error e, s') := by rw [run_bind, h]

theorem run_bind_eq_ok {ε α β : Type} {x : ExceptT ε (StateM σ) α}
    {f : α → ExceptT ε (StateM σ) β} {b : β} (h : (x >>= f).run.run s = (.ok b, s')) :
    ∃ a between, x.run.run s = (.ok a, between) ∧ (f a).run.run between = (.ok b, s') := by
  rw [run_bind] at h
  split at h
  · exact ⟨_, _, by assumption, h⟩
  · cases h

theorem run_liftM {ε α : Type} {x : StateM σ α} {a : α}
    (h : (liftM x : ExceptT ε (StateM σ) α).run.run s = (.ok a, s')) : x.run s = (a, s') := by
  obtain ⟨hvalue, hstate⟩ := Prod.mk.inj h
  exact Prod.ext (Except.ok.inj hvalue) hstate

end Stateful

end CenterOfMass
