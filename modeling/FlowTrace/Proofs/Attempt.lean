import Mathlib.Data.List.Forall2

/-! # Attempts

Computations that come to a value or to an error. What holds of a value that was come to is told
from the computations it was come to by. -/

namespace FlowTrace

variable {ε α β : Type}

/-- A computation in two parts comes to a value when both of them do. -/
theorem bind_eq_ok {x : Except ε α} {f : α → Except ε β} {b : β} :
    x >>= f = .ok b ↔ ∃ a, x = .ok a ∧ f a = .ok b := by
  cases x with
  | error e => exact ⟨nofun, by rintro ⟨a, same, -⟩; cases same⟩
  | ok a => exact ⟨fun h => ⟨a, rfl, h⟩, by rintro ⟨a, same, h⟩; cases same; exact h⟩

/-- A computation that comes to a value, told by what is computed from the value. -/
theorem exists_of_toOption_map {x : Except ε α} {f : α → β} {b : β}
    (h : x.toOption.map f = some b) : ∃ a, x = .ok a ∧ f a = b := by
  cases x with
  | error e => cases h
  | ok a => exact ⟨a, rfl, Option.some.inj h⟩

/-- A computation that comes to nothing has failed. -/
theorem exists_of_toOption_map_none {x : Except ε α} {f : α → β}
    (h : x.toOption.map f = none) : ∃ e, x = .error e := by
  cases x with
  | error e => exact ⟨e, rfl⟩
  | ok a => cases h

/-- A computation that comes to something has succeeded. -/
theorem exists_of_isSome_toOption {x : Except ε α} (h : x.toOption.isSome = true) :
    ∃ a, x = .ok a := by
  cases x with
  | error e => cases h
  | ok a => exact ⟨a, rfl⟩

/-- What holds of each value that is come to holds of all values of a row of computations. -/
theorem forall_mem_of_mapM {P : β → Prop} {f : α → Except ε β}
    (each : ∀ {a : α} {b : β}, f a = .ok b → P b) {as : List α} {bs : List β}
    (all : as.mapM f = .ok bs) : ∀ b ∈ bs, P b := by
  induction as generalizing bs with
  | nil =>
    cases all
    exact fun _ => nofun
  | cons a as ih =>
    rw [List.mapM_cons] at all
    obtain ⟨b, first, all⟩ := bind_eq_ok.1 all
    obtain ⟨rest, later, same⟩ := bind_eq_ok.1 all
    cases same
    exact List.forall_mem_cons.2 ⟨each first, ih later⟩

/-- What holds at the beginning, and is kept by each step, holds at the end. -/
theorem foldlM_keeps {P : β → Prop} {f : β → α → Except ε β}
    (step : ∀ {b b' : β} {a : α}, P b → f b a = .ok b' → P b') {as : List α} {first last : β}
    (holds : P first) (run : as.foldlM f first = .ok last) : P last := by
  induction as generalizing first with
  | nil =>
    cases run
    exact holds
  | cons a as ih =>
    rw [List.foldlM_cons] at run
    obtain ⟨next, once, run⟩ := bind_eq_ok.1 run
    exact ih (step holds once) run

/-! ## Errors -/

/-- All errors that a computation may come to **satisfy** `P`. -/
def ErrsBy (P : ε → Prop) (x : Except ε α) : Prop := ∀ e, x = .error e → P e

namespace ErrsBy

variable {P : ε → Prop}

/-- A value is no error. -/
theorem ok (a : α) : ErrsBy P (.ok a : Except ε α) := by
  intro e same
  cases same

/-- An error satisfies what holds of it. -/
theorem error {e : ε} (holds : P e) : ErrsBy P (.error e : Except ε α) := by
  intro e' same
  cases same
  exact holds

/-- Computations in two parts. -/
theorem bind {x : Except ε α} {f : α → Except ε β} (first : ErrsBy P x)
    (second : ∀ a, x = .ok a → ErrsBy P (f a)) : ErrsBy P (x >>= f) := by
  cases x with
  | error e => exact .error (first e rfl)
  | ok a => exact second a rfl

/-- Rows of computations. -/
theorem mapM {f : α → Except ε β} (each : ∀ a, ErrsBy P (f a)) (as : List α) :
    ErrsBy P (as.mapM f) := by
  induction as with
  | nil => exact .ok []
  | cons a as ih =>
    rw [List.mapM_cons]
    exact (each a).bind fun _ _ => ih.bind fun _ _ => .ok _

end ErrsBy

/-! ## Attempts side by side -/

/-- One computation **follows** another when it comes to a related value whenever the other comes
to one. -/
def Follows (R : α → β → Prop) (x : Except ε α) (x' : Except ε β) : Prop :=
  ∀ a, x = .ok a → ∃ b, x' = .ok b ∧ R a b

namespace Follows

variable {γ δ : Type} {R : α → β → Prop} {S : γ → δ → Prop} {x : Except ε α} {x' : Except ε β}
  {f : α → Except ε γ} {f' : β → Except ε δ}

/-- A value follows a related one. -/
theorem ok {a : α} {b : β} (related : R a b) :
    Follows R (.ok a : Except ε α) (.ok b : Except ε β) := by
  rintro _ ⟨⟩
  exact ⟨b, rfl, related⟩

/-- Anything follows a failure. -/
theorem error (e : ε) (x' : Except ε β) : Follows R (.error e) x' := nofun

/-- Computations in two parts. -/
theorem bind (first : Follows R x x') (second : ∀ {a b}, R a b → Follows S (f a) (f' b)) :
    Follows S (x >>= f) (x' >>= f') := by
  intro c both
  obtain ⟨a, once, later⟩ := bind_eq_ok.1 both
  obtain ⟨b, once', related⟩ := first a once
  obtain ⟨d, later', related'⟩ := second related c later
  exact ⟨d, bind_eq_ok.2 ⟨b, once', later'⟩, related'⟩

/-- Rows of computations. -/
theorem mapM {as : List α} {bs : List β} (all : List.Forall₂ R as bs)
    (each : ∀ {a b}, R a b → Follows S (f a) (f' b)) :
    Follows (List.Forall₂ S) (as.mapM f) (bs.mapM f') := by
  induction all with
  | nil => exact .ok .nil
  | cons related _ ih =>
    rw [List.mapM_cons, List.mapM_cons]
    exact (each related).bind fun first => ih.bind fun rest => .ok (.cons first rest)

/-- Computations step by step. -/
theorem foldlM {as : List α} {bs : List β} (all : List.Forall₂ R as bs) {c : γ} {d : δ}
    (related : S c d) {g : γ → α → Except ε γ} {g' : δ → β → Except ε δ}
    (step : ∀ {c d a b}, S c d → R a b → Follows S (g c a) (g' d b)) :
    Follows S (as.foldlM g c) (bs.foldlM g' d) := by
  induction all generalizing c d with
  | nil => exact .ok related
  | cons first _ ih =>
    rw [List.foldlM_cons, List.foldlM_cons]
    exact (step related first).bind ih

end Follows

end FlowTrace
