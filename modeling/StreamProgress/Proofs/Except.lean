/-!
# Results that may be faults

The operations on cursors are steps that pass on the first fault. These lemmas take a chain of such
steps apart, so that no proof has to unfold the monad.

`Except.Ends` is what is said of an operation that may fail: what its value is if it has one, and
which faults it may have otherwise. With no fault allowed it says that the operation succeeds.
-/

namespace Except

variable {ε α β γ δ : Type}

@[simp] theorem ok_bind (a : α) (f : α → Except ε β) : (ok a >>= f) = f a := rfl

@[simp] theorem error_bind (e : ε) (f : α → Except ε β) : (error e >>= f) = error e := rfl

@[simp] theorem pure_eq_ok (a : α) : (pure a : Except ε α) = ok a := rfl

theorem map_map (x : Except ε α) (f : α → β) (g : β → γ) :
    (x.map f).map g = x.map fun a => g (f a) := by
  cases x <;> rfl

/-- A chain gives a result exactly when each of its steps does. -/
theorem bind_eq_ok_iff {x : Except ε α} {f : α → Except ε β} {b : β} :
    (x >>= f) = ok b ↔ ∃ a, x = ok a ∧ f a = ok b := by
  cases x with
  | error e => simp
  | ok a => simp

/-- Chains from results that look alike give results that look alike, if the second step does not
tell results apart that look alike. -/
theorem map_bind_congr {x y : Except ε α} {f : α → γ} {k l : α → Except ε β} {g : β → δ}
    (h : x.map f = y.map f) (hkl : ∀ a b, f a = f b → (k a).map g = (l b).map g) :
    (x >>= k).map g = (y >>= l).map g := by
  cases x with
  | error e =>
    cases y with
    | error e' => exact congrArg error (error.inj h)
    | ok b => cases h
  | ok a =>
    cases y with
    | error e => cases h
    | ok b => exact hkl a b (ok.inj h)

/-- Chains from results that look alike are equal, if the second step does not tell results apart that
look alike. -/
theorem bind_congr_of_map {x y : Except ε α} {f : α → γ} {k l : α → Except ε β}
    (h : x.map f = y.map f) (hkl : ∀ a b, f a = f b → k a = l b) : (x >>= k) = (y >>= l) := by
  have hmap : (x >>= k).map id = (y >>= l).map id :=
    map_bind_congr h fun a b hab => congrArg (Except.map id) (hkl a b hab)
  rwa [Except.map_id] at hmap

/-- Of two results that look alike, if one is a value so is the other. -/
theorem exists_eq_ok_of_map {x y : Except ε α} {f : α → γ} {b : α} (h : x.map f = y.map f)
    (hy : y = ok b) : ∃ a, x = ok a ∧ f a = f b := by
  subst hy
  cases x with
  | error e => cases h
  | ok a => exact ⟨a, rfl, ok.inj h⟩

/-- Two results that look alike in one way do so in another, if their values do. -/
theorem map_eq_map_of_ok {x y : Except ε α} {f : α → γ} {g : α → δ} (h : x.map f = y.map f)
    (hok : ∀ b, y = ok b → ∃ a, x = ok a ∧ g a = g b) : x.map g = y.map g := by
  cases y with
  | error e =>
    cases x with
    | error e' => exact congrArg error (error.inj h)
    | ok a => cases h
  | ok b =>
    obtain ⟨a, rfl, hab⟩ := hok b rfl
    exact congrArg ok hab

theorem map_congr_of_map {x y : Except ε α} {f : α → γ} {g : α → δ} (h : x.map f = y.map f)
    (hfg : ∀ a b, f a = f b → g a = g b) : x.map g = y.map g := by
  refine map_eq_map_of_ok h ?_
  intro b hb
  obtain ⟨a, ha, hab⟩ := exists_eq_ok_of_map h hb
  exact ⟨a, ha, hfg a b hab⟩

/-! ### How a result ends -/

/-- A fault that is `E`, or a value that is `P`. -/
def Ends (E : ε → Prop) (P : α → Prop) : Except ε α → Prop
  | error e => E e
  | ok a => P a

variable {E : ε → Prop} {P : α → Prop} {Q : β → Prop} {x : Except ε α}

@[simp] theorem ends_ok_iff (a : α) : (ok a : Except ε α).Ends E P ↔ P a := Iff.rfl

/-- This says nothing. -/
theorem ends_true (x : Except ε α) : x.Ends (fun _ => True) fun _ => True := by
  cases x <;> trivial

theorem ends_true_iff : x.Ends (fun _ => True) P ↔ ∀ a, x = ok a → P a := by
  cases x with
  | error e => simp [Ends]
  | ok a => simp

theorem Ends.mono {F : ε → Prop} {R : α → Prop} (h : x.Ends E P) (hEF : ∀ e, E e → F e)
    (hPR : ∀ a, P a → R a) : x.Ends F R := by
  cases x with
  | error e => exact hEF e h
  | ok a => exact hPR a h

/-- A chain ends well if its first step does, and its second one after every value of the first. -/
theorem Ends.bind {f : α → Except ε β} (h : x.Ends E P) (hf : ∀ a, P a → (f a).Ends E Q) :
    (x >>= f).Ends E Q := by
  cases x with
  | error e => exact h
  | ok a => exact hf a h

theorem Ends.map {f : α → β} (h : x.Ends E P) (hf : ∀ a, P a → Q (f a)) : (x.map f).Ends E Q := by
  cases x with
  | error e => exact h
  | ok a => exact hf a h

theorem Ends.of_eq_ok {a : α} (h : x.Ends E P) (ha : x = ok a) : P a := by
  subst ha
  exact h

theorem Ends.of_eq_error {e : ε} (h : x.Ends E P) (he : x = error e) : E e := by
  subst he
  exact h

/-- Where no fault is allowed there is a value. -/
theorem Ends.exists_eq_ok (h : x.Ends (fun _ => False) P) : ∃ a, x = ok a ∧ P a := by
  cases x with
  | error e => exact h.elim
  | ok a => exact ⟨a, rfl, h⟩

end Except
