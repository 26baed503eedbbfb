import Mathlib.Data.List.Induction

/-! # Runs

A system whose moves cannot always be made runs through a list of moves by `List.foldlM`, and the
run exists if each move can be made when it is its turn.  What is said of the moves made so far and
of the state they led to holds of the whole run if every next move keeps it (`run_induction`). -/

namespace ControlPlane

variable {σ μ : Type} {step : σ → μ → Option σ} {s t : σ} {moves : List μ}

/-- The last move of a run is made where the others led. -/
theorem run_concat (step : σ → μ → Option σ) (s : σ) (moves : List μ) (m : μ) :
    (moves ++ [m]).foldlM step s = (moves.foldlM step s).bind fun q => step q m := by
  simp [List.foldlM_append, Option.bind_eq_bind]

/-- Induction along a run, on the moves that were made and the state that they led to. -/
theorem run_induction {P : List μ → σ → Prop} (hnil : P [] s)
    (hnext : ∀ before m after q r, moves = before ++ m :: after →
      before.foldlM step s = some q → P before q → step q m = some r → P (before ++ [m]) r)
    (hrun : moves.foldlM step s = some t) : P moves t := by
  induction moves using List.reverseRecOn generalizing t with
  | nil =>
      obtain rfl := Option.some.inj hrun
      exact hnil
  | append_singleton rest m ih =>
      rw [run_concat] at hrun
      obtain ⟨q, hq, hm⟩ := Option.bind_eq_some_iff.mp hrun
      refine hnext rest m [] q t rfl hq (ih ?_ hq) hm
      rintro before m' after q' r rfl
      exact hnext before m' (after ++ [m]) q' r (by simp)

/-- What each move keeps, the run keeps. -/
theorem run_keeps {P : σ → Prop} (hs : P s)
    (hstep : ∀ m ∈ moves, ∀ q r, P q → step q m = some r → P r)
    (hrun : moves.foldlM step s = some t) : P t := by
  apply run_induction (P := fun _ q => P q) hs _ hrun
  rintro before m after q r rfl -
  exact hstep m (by simp) q r

end ControlPlane
