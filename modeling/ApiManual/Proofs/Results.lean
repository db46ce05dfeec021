import Mathlib.Data.List.Forall2

/-!
# Results

Results of `Except` and of lists that are read item by item.

* `SameOutcome`: two results that fail in the same way or hold related values.
* `mapM_eq_error_iff`: reading a list fails as its first item that fails.
* `mapM_eq_ok_iff`: reading a list gives what its items give.
* `exists_mapM_ok`, `exists_foldlM_ok`, `exists_bind_ok`: a run of steps succeeds if each step does.
* `of_bind_ok`, `foldlM_invariant`: what is known of a run of steps that succeeded; `of_foldlM_error`: of one
  that failed.
-/

namespace ApiManual

variable {ε ε' α β : Type}

@[simp]
theorem mapError_ok (f : ε → ε') (a : α) : (Except.ok a).mapError f = .ok a := rfl

@[simp]
theorem mapError_error (f : ε → ε') (e : ε) : (Except.error e : Except ε α).mapError f = .error (f e) := rfl

theorem of_mapError_ok {x : Except ε α} {f : ε → ε'} {a : α} (h : x.mapError f = .ok a) : x = .ok a := by
  cases x with
  | error e => cases h
  | ok b => exact congrArg Except.ok (Except.ok.inj h)

theorem of_map_ok {x : Except ε α} {f : α → β} {b : β} (h : x.map f = .ok b) : ∃ a, x = .ok a ∧ f a = b := by
  cases x with
  | error e => cases h
  | ok a => exact ⟨a, rfl, Except.ok.inj h⟩

/-- If a step and what follows it succeed, both do. -/
theorem of_bind_ok {x : Except ε α} {f : α → Except ε β} {b : β} (h : x >>= f = .ok b) :
    ∃ a, x = .ok a ∧ f a = .ok b := by
  cases x with
  | error e => exact absurd h (by simp [bind, Except.bind])
  | ok a => exact ⟨a, rfl, h⟩

theorem exists_of_isOk {x : Except ε α} (h : x.isOk = true) : ∃ a, x = .ok a := by
  cases x with
  | error e => exact absurd h Bool.false_ne_true
  | ok a => exact ⟨a, rfl⟩

theorem mem_toOption {x : Except ε α} {a : α} : a ∈ x.toOption ↔ x = .ok a := by
  cases x <;> simp [Except.toOption]

/-- Two results that fail in the same way or hold related values. -/
inductive SameOutcome (related : α → α → Prop) : Except ε α → Except ε α → Prop where
  | error (e : ε) : SameOutcome related (.error e) (.error e)
  | ok {a b : α} (h : related a b) : SameOutcome related (.ok a) (.ok b)

namespace SameOutcome

variable {related : α → α → Prop} {x y : Except ε α}

theorem error_iff (h : SameOutcome related x y) (e : ε) : x = .error e ↔ y = .error e := by
  cases h <;> simp

theorem ok_iff (h : SameOutcome related x y) : (∃ a, x = .ok a) ↔ ∃ b, y = .ok b := by
  cases h <;> simp

theorem imp {related' : α → α → Prop} (h : SameOutcome related x y) (himp : ∀ a b, related a b → related' a b) :
    SameOutcome related' x y := by
  cases h with
  | error e => exact .error e
  | ok h => exact .ok (himp _ _ h)

/-- Steps that fail in the same way or give related values go on together. -/
theorem bind {f g : α → Except ε α} (h : SameOutcome related x y)
    (hnext : ∀ a b, related a b → SameOutcome related (f a) (g b)) : SameOutcome related (x >>= f) (y >>= g) := by
  cases h with
  | error e => exact .error e
  | ok h => exact hnext _ _ h

theorem of_map_eq {f : α → β} (h : x.map f = y.map f) : SameOutcome (fun a b => f a = f b) x y := by
  cases x <;> cases y <;> simp_all [Except.map]
  · exact .error _
  · exact .ok h

end SameOutcome

/-! ## Lists side by side -/

theorem exists_of_forall₂ {related : α → β → Prop} {xs : List α} {ys : List β}
    (h : List.Forall₂ related xs ys) {y : β} (hy : y ∈ ys) : ∃ x ∈ xs, related x y := by
  induction h with
  | nil => simp at hy
  | cons hxy _ ih =>
    rcases List.mem_cons.mp hy with rfl | hy
    · exact ⟨_, List.mem_cons_self, hxy⟩
    · obtain ⟨x, hx, hrelated⟩ := ih hy
      exact ⟨x, List.mem_cons_of_mem _ hx, hrelated⟩

theorem exists_of_forall₂_append {related : α → β → Prop} {xs xs' : List α} {ys : List β}
    (h : List.Forall₂ related (xs ++ xs') ys) :
    ∃ zs zs', ys = zs ++ zs' ∧ List.Forall₂ related xs zs ∧ List.Forall₂ related xs' zs' := by
  induction xs generalizing ys with
  | nil => exact ⟨[], ys, rfl, .nil, h⟩
  | cons x xs ih =>
    cases h with
    | @cons _ y _ ys hxy h =>
      obtain ⟨zs, zs', rfl, hzs, hzs'⟩ := ih h
      exact ⟨y :: zs, zs', rfl, .cons hxy hzs, hzs'⟩

theorem forall₂_comp {γ : Type} {related : α → β → Prop} {related' : β → γ → Prop} {xs : List α} {ys : List β}
    {zs : List γ} (h : List.Forall₂ related xs ys) (h' : List.Forall₂ related' ys zs) :
    List.Forall₂ (fun x z => ∃ y, related x y ∧ related' y z) xs zs := by
  induction h generalizing zs with
  | nil =>
    cases h'
    exact .nil
  | cons hxy _ ih =>
    cases h' with
    | cons hyz h' => exact .cons ⟨_, hxy, hyz⟩ (ih h')

/-! ## Lists read item by item -/

section Lists

variable {f : α → Except ε β}

theorem mapM_cons_eq (x : α) (xs : List α) :
    (x :: xs).mapM f = match f x with
      | .error e => .error e
      | .ok y => match xs.mapM f with
        | .error e => .error e
        | .ok ys => .ok (y :: ys) := by
  rw [List.mapM_cons]
  cases f x with
  | error e => rfl
  | ok y => cases xs.mapM f <;> rfl

theorem mapM_eq_error_iff {xs : List α} {e : ε} :
    xs.mapM f = .error e ↔ ∃ before x after, xs = before ++ x :: after ∧
      (∀ y ∈ before, ∃ z, f y = .ok z) ∧ f x = .error e := by
  induction xs with
  | nil => simp [pure, Except.pure]
  | cons x xs ih =>
    rw [mapM_cons_eq]
    constructor
    · intro h
      cases hx : f x with
      | error e' =>
        obtain rfl : e' = e := by simpa [hx] using h
        exact ⟨[], x, xs, rfl, by simp, hx⟩
      | ok y =>
        obtain ⟨before, x', after, rfl, hb, he⟩ := ih.mp (by
          cases hr : xs.mapM f <;> simp_all)
        exact ⟨x :: before, x', after, rfl, by simpa using ⟨⟨y, hx⟩, hb⟩, he⟩
    · rintro ⟨before, x', after, heq, hb, he⟩
      cases before with
      | nil =>
        obtain ⟨rfl, rfl⟩ : x = x' ∧ xs = after := by simpa using heq
        simp [he]
      | cons b before =>
        obtain ⟨rfl, rfl⟩ : x = b ∧ xs = before ++ x' :: after := by simpa using heq
        obtain ⟨y, hy⟩ := hb x (by simp)
        simp [hy, ih.mpr ⟨before, x', after, rfl, fun z hz => hb z (by simp [hz]), he⟩]

theorem mapM_eq_ok_iff {xs : List α} {ys : List β} :
    xs.mapM f = .ok ys ↔ List.Forall₂ (fun x y => f x = .ok y) xs ys := by
  induction xs generalizing ys with
  | nil => cases ys <;> simp [pure, Except.pure]
  | cons x xs ih =>
    rw [mapM_cons_eq]
    cases hx : f x with
    | error e => cases ys <;> simp [hx]
    | ok y => cases hr : xs.mapM f <;> cases ys <;> simp [hx, ← ih, hr]

theorem exists_mapM_ok {xs : List α} (h : ∀ x ∈ xs, ∃ y, f x = .ok y) : ∃ ys, xs.mapM f = .ok ys := by
  cases hread : xs.mapM f with
  | ok ys => exact ⟨ys, rfl⟩
  | error e =>
    obtain ⟨before, x, after, rfl, -, hx⟩ := mapM_eq_error_iff.mp hread
    obtain ⟨y, hy⟩ := h x (by simp)
    simp [hy] at hx

/-- A fold that fails does so at one of its steps. -/
theorem of_foldlM_error {step : β → α → Except ε β} {xs : List α} {init : β} {e : ε}
    (h : xs.foldlM step init = .error e) :
    ∃ before x after b, xs = before ++ x :: after ∧ before.foldlM step init = .ok b ∧ step b x = .error e := by
  induction xs generalizing init with
  | nil => cases h
  | cons x xs ih =>
    rw [List.foldlM_cons] at h
    cases hx : step init x with
    | error e' =>
      rw [hx] at h
      obtain rfl := Except.error.inj h
      exact ⟨[], x, xs, init, rfl, rfl, hx⟩
    | ok b =>
      rw [hx] at h
      obtain ⟨before, y, after, b', rfl, hbefore, hy⟩ := ih h
      refine ⟨x :: before, y, after, b', rfl, ?_, hy⟩
      rw [List.foldlM_cons, hx]
      exact hbefore

/-- What each step keeps, a fold that succeeds keeps. -/
theorem foldlM_invariant {step : β → α → Except ε β} {P : β → Prop} {xs : List α} {init out : β} (hinit : P init)
    (hstep : ∀ b, ∀ x ∈ xs, ∀ b', P b → step b x = .ok b' → P b') (h : xs.foldlM step init = .ok out) : P out := by
  induction xs generalizing init with
  | nil =>
    obtain rfl := Except.ok.inj h
    exact hinit
  | cons x xs ih =>
    rw [List.foldlM_cons] at h
    obtain ⟨b, hb, hrest⟩ := of_bind_ok h
    obtain ⟨hfirst, hstep⟩ : (∀ b', P init → step init x = .ok b' → P b') ∧
        ∀ b, ∀ y ∈ xs, ∀ b', P b → step b y = .ok b' → P b' :=
      ⟨hstep init x List.mem_cons_self, fun b y hy => hstep b y (List.mem_cons_of_mem _ hy)⟩
    exact ih (hfirst b hinit hb) hstep hrest

end Lists

end ApiManual
