import Mathlib.Data.List.Basic
/-!
# Machines that answer calls

A machine takes a call in a state, answers it and goes on in another state. Two machines over the same
calls, a concrete and an abstract one, that start related and whose steps answer alike and stay related
(`Refines`) cannot be told apart by any sequence of calls (`Refines.answers_eq`). The steps may need
something of the call and of the state it finds (`RefinesOn`); then so does the sequence (`Along`,
`RefinesOn.answers_eq`).
-/
namespace Machine

variable {σ τ α β : Type*}

/-- The answers to a sequence of calls. -/
def answers (step : σ → α → β × σ) : σ → List α → List β
  | _, [] => []
  | s, a :: as => (step s a).1 :: answers step (step s a).2 as

/-- Related machines answer a call alike and stay related. -/
def Refines (R : σ → τ → Prop) (concrete : σ → α → β × σ) (abstract : τ → α → β × τ) : Prop :=
  ∀ s t a, R s t → (concrete s a).1 = (abstract t a).1 ∧ R (concrete s a).2 (abstract t a).2

/-- The same for the calls that meet `C` in the state they find. -/
def RefinesOn (C : σ → α → Prop) (R : σ → τ → Prop) (concrete : σ → α → β × σ)
    (abstract : τ → α → β × τ) : Prop :=
  ∀ s t a, R s t → C s a →
    (concrete s a).1 = (abstract t a).1 ∧ R (concrete s a).2 (abstract t a).2

/-- Every call of a sequence meets `C` in the state it finds. -/
def Along (C : σ → α → Prop) (step : σ → α → β × σ) : σ → List α → Prop
  | _, [] => True
  | s, a :: as => C s a ∧ Along C step (step s a).2 as

variable {R : σ → τ → Prop} {concrete : σ → α → β × σ} {abstract : τ → α → β × τ} {s : σ} {t : τ}

theorem RefinesOn.answers_eq {C : σ → α → Prop} (h : RefinesOn C R concrete abstract) (hst : R s t)
    {as : List α} (hC : Along C concrete s as) : answers concrete s as = answers abstract t as := by
  induction as generalizing s t with
  | nil => rfl
  | cons a as ih =>
    obtain ⟨ha, has⟩ := hC
    obtain ⟨hanswer, hnext⟩ := h s t a hst ha
    rw [answers, answers, hanswer, ih hnext has]

theorem along_true (step : σ → α → β × σ) (s : σ) (as : List α) :
    Along (fun _ _ => True) step s as := by
  induction as generalizing s with
  | nil => trivial
  | cons a as ih => exact ⟨trivial, ih _⟩

theorem Refines.answers_eq (h : Refines R concrete abstract) (hst : R s t) (as : List α) :
    answers concrete s as = answers abstract t as :=
  RefinesOn.answers_eq (fun s t a hst _ => h s t a hst) hst (along_true concrete s as)

end Machine
