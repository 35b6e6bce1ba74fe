import Mathlib.Data.List.Forall2
/-! Two computations step by step. -/
namespace LinkedSchema

variable {α β : Type} {m k : Type → Type} [Monad m] [LawfulMonad m] [Monad k] [LawfulMonad k]

/-- A relation of the computations of two monads that computations of several steps are in when
their steps are. -/
structure Lockstep (R : (γ : Type) → m γ → k γ → Prop) : Prop where
  pure : ∀ {γ : Type} (a : γ), R γ (Pure.pure a) (Pure.pure a)
  bind : ∀ {γ δ : Type} {x : m γ} {y : k γ} {f : γ → m δ} {h : γ → k δ}, R γ x y →
    (∀ a, R δ (f a) (h a)) → R δ (x >>= f) (y >>= h)

namespace Lockstep

variable {R : (γ : Type) → m γ → k γ → Prop} (lockstep : Lockstep R) {f : α → m β} {h : α → k β}
include lockstep

theorem mapM_forall₂ {γ : Type} {xs : List α} {ys : List γ} {h : γ → k β}
    (each : List.Forall₂ (fun a b => R β (f a) (h b)) xs ys) :
    R (List β) (xs.mapM f) (ys.mapM h) := by
  induction each with
  | nil =>
    rw [List.mapM_nil, List.mapM_nil]
    exact lockstep.pure []
  | cons first _ ih =>
    rw [List.mapM_cons, List.mapM_cons]
    apply lockstep.bind first
    intro r
    apply lockstep.bind ih
    exact fun rs => lockstep.pure (r :: rs)

theorem mapM {xs : List α} (each : ∀ a ∈ xs, R β (f a) (h a)) :
    R (List β) (xs.mapM f) (xs.mapM h) :=
  lockstep.mapM_forall₂ (List.forall₂_same.mpr each)

theorem option {x : Option α} (each : ∀ a ∈ x, R β (f a) (h a)) :
    R (Option β) (x.mapM f) (x.mapM h) := by
  cases x with
  | none => exact lockstep.pure none
  | some a =>
    rw [Option.mapM_some, Option.mapM_some, ← bind_pure_comp, ← bind_pure_comp]
    exact lockstep.bind (each a rfl) fun r => lockstep.pure (some r)

end Lockstep
end LinkedSchema
