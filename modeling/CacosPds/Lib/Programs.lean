import CacosPds.Lib.Run
import CacosPds.Lib.Stages
/-!
# Programs whose statements are interleaved

A program ends in an answer or an error, or takes one statement on the shared state and goes on
from what the statement gave (`Prog`). Between two statements the others may do what they like. What
a program is known by is therefore a rely and a guarantee (`Meets`): each statement that it takes in
a state where `I` holds changes that state within `R`, and an answer that it gives meets `Q`. The
rule for a program under way (`Meets.step`) leaves the same judgement for the rest of it, so that a
pool of programs each of which meets its own is described by one step lemma. `Relies` says the same of
a program that acts on what it has read: it carries the state that was last looked at along.
-/
namespace Programs

open Stages

/-- `γ` is what the environment decides in a statement: faults, clocks, random texts. -/
inductive Prog (γ σ ε α : Type) where
  | done (r : Except ε α)
  | act (f : γ → σ → σ) (next : γ → σ → Prog γ σ ε α)

variable {γ σ ε ε' α β : Type}

namespace Prog

protected def bind : Prog γ σ ε α → (α → Prog γ σ ε β) → Prog γ σ ε β
  | .done (.ok a), k => k a
  | .done (.error e), _ => .done (.error e)
  | .act f next, k => .act f fun c s => (next c s).bind k

instance : Monad (Prog γ σ ε) where
  pure a := .done (.ok a)
  bind := Prog.bind

def fail (e : ε) : Prog γ σ ε α := .done (.error e)

/-- An error, under another name. -/
def mapError (f : ε → ε') : Prog γ σ ε α → Prog γ σ ε' α
  | .done r => .done (r.mapError f)
  | .act g next => .act g fun c s => (next c s).mapError f

/-- One statement. -/
def stmt (x : γ → Call σ ε α) : Prog γ σ ε α :=
  .act (fun c s => ((x c).exec s).2) fun c s => .done ((x c).exec s).1

/-- Two statements side by side: the environment says which goes first. -/
def both (first : γ → Bool) (x y : γ → Call σ ε Unit) : Prog γ σ ε Unit := do
  if ← stmt fun c => pure (first c) then
    stmt x
    stmt y
  else
    stmt y
    stmt x

/-- The next statement, as the environment decides it; an ended program takes none. -/
def step (c : γ) (s : σ) : Prog γ σ ε α → Option (σ × Prog γ σ ε α)
  | .done _ => none
  | .act f next => some (f c s, next c s)

end Prog

open Prog

/-! ## What a program keeps to -/

/-- Statements taken where `I` holds stay within `R`, and an answer meets `Q`. -/
def Meets (I : σ → Prop) (R : σ → σ → Prop) (Q : α → Prop) : Prog γ σ ε α → Prop
  | .done (.ok a) => Q a
  | .done (.error _) => True
  | .act f next => ∀ c s, I s → R s (f c s) ∧ Meets I R Q (next c s)

variable {I J : σ → Prop} {R S : σ → σ → Prop} {Q P : α → Prop}

theorem meets_pure {a : α} (h : Q a) : Meets I R Q (pure a : Prog γ σ ε α) := h

theorem meets_fail (e : ε) : Meets I R Q (fail e : Prog γ σ ε α) := trivial

theorem meets_done {r : Except ε α} (h : ∀ a, r = .ok a → Q a) :
    Meets I R Q (.done r : Prog γ σ ε α) := by
  cases r with
  | ok a => exact h a rfl
  | error e => trivial

theorem Meets.mono {p : Prog γ σ ε α} (h : Meets I R Q p) (hI : ∀ s, J s → I s)
    (hR : ∀ s t, J s → R s t → S s t) (hQ : ∀ a, Q a → P a) : Meets J S P p := by
  induction p with
  | done r =>
    cases r with
    | ok a => exact hQ a h
    | error e => trivial
  | act f next ih =>
    intro c s hs
    obtain ⟨hstep, hnext⟩ := h c s (hI s hs)
    exact ⟨hR _ _ hs hstep, ih c s hnext⟩

/-- The answer's condition may be forgotten. -/
theorem Meets.any {p : Prog γ σ ε α} (h : Meets I R Q p) : Meets I R (fun _ => True) p :=
  h.mono (fun _ hs => hs) (fun _ _ _ hr => hr) fun _ _ => trivial

theorem Meets.bind {p : Prog γ σ ε α} {k : α → Prog γ σ ε β} {P : β → Prop} (h : Meets I R Q p)
    (hk : ∀ a, Q a → Meets I R P (k a)) : Meets I R P (p >>= k) := by
  induction p with
  | done r =>
    cases r with
    | ok a => exact hk a h
    | error e => trivial
  | act f next ih =>
    intro c s hs
    obtain ⟨hstep, hnext⟩ := h c s hs
    exact ⟨hstep, ih c s hnext⟩

theorem Meets.mapError {p : Prog γ σ ε α} (h : Meets I R Q p) (f : ε → ε') :
    Meets I R Q (p.mapError f) := by
  induction p with
  | done r =>
    cases r with
    | ok a => exact h
    | error e => trivial
  | act g next ih =>
    intro c s hs
    obtain ⟨hstep, hnext⟩ := h c s hs
    exact ⟨hstep, ih c s hnext⟩

theorem meets_stmt {x : γ → Call σ ε α} (h : ∀ c s, I s → R s ((x c).exec s).2)
    (hQ : ∀ c s a t, I s → (x c).exec s = (.ok a, t) → Q a) : Meets I R Q (stmt x) := by
  intro c s hs
  exact ⟨h c s hs, meets_done fun a ha => hQ c s a _ hs (Prod.ext ha rfl)⟩

/-- A statement whose answer is not looked at. -/
theorem meets_stmt_any {x : γ → Call σ ε α} (h : ∀ c s, I s → R s ((x c).exec s).2) :
    Meets I R (fun _ => True) (stmt x) :=
  meets_stmt h fun _ _ _ _ _ _ => trivial

/-- A statement that only reads. -/
theorem meets_reads (refl : ∀ s, R s s) {x : γ → Call σ ε α} (h : ∀ c, Reads (x c)) :
    Meets I R (fun _ => True) (stmt x) := by
  refine meets_stmt_any fun c s _ => ?_
  rw [h c s]
  exact refl s

theorem meets_both (refl : ∀ s, R s s) (first : γ → Bool) {x y : γ → Call σ ε Unit}
    (hx : ∀ c s, I s → R s ((x c).exec s).2) (hy : ∀ c s, I s → R s ((y c).exec s).2) :
    Meets I R (fun _ => True) (both first x y) := by
  refine Meets.bind (meets_reads refl fun _ _ => rfl) fun b _ => ?_
  cases b with
  | true => exact Meets.bind (meets_stmt_any hx) fun _ _ => meets_stmt_any hy
  | false => exact Meets.bind (meets_stmt_any hy) fun _ _ => meets_stmt_any hx

/-- A program under way: its next statement keeps to `R`, and the rest of it meets what it met. -/
theorem Meets.step {p p' : Prog γ σ ε α} {c : γ} {s t : σ} (h : Meets I R Q p) (hs : I s)
    (hp : p.step c s = some (t, p')) : R s t ∧ Meets I R Q p' := by
  cases p with
  | done r => cases hp
  | act f next =>
    cases hp
    exact h c s hs

/-! ## What a program has seen -/

/-- From the state `s` that the program last looked at, while the others keep to `G` and the environment
decides within `K`: each statement changes the state within `R`, and an answer meets `Q` in the state
where it is given. -/
def Relies (K : γ → Prop) (G R : σ → σ → Prop) (Q : σ → α → Prop) : σ → Prog γ σ ε α → Prop
  | s, .done (.ok a) => Q s a
  | _, .done (.error _) => True
  | s, .act f next =>
    ∀ c t, K c → G s t → R t (f c t) ∧ Relies K G R Q (f c t) (next c t)

section

variable {K : γ → Prop} {G R : σ → σ → Prop} {Q : σ → α → Prop} {P : σ → β → Prop} {s t u : σ}

theorem relies_pure {a : α} (h : Q s a) : Relies K G R Q s (pure a : Prog γ σ ε α) := h

theorem relies_fail (e : ε) : Relies K G R Q s (fail e : Prog γ σ ε α) := trivial

/-- What a program relies on stands while the others keep to it. -/
theorem Relies.stable (trans : ∀ s t u, G s t → G t u → G s u)
    (hQ : ∀ s t a, G s t → Q s a → Q t a) {p : Prog γ σ ε α} (h : Relies K G R Q s p)
    (hst : G s t) : Relies K G R Q t p := by
  cases p with
  | done r =>
    cases r with
    | ok a => exact hQ s t a hst h
    | error e => trivial
  | act f next =>
    intro c u hc htu
    exact h c u hc (trans s t u hst htu)

theorem Relies.bind {p : Prog γ σ ε α} {k : α → Prog γ σ ε β} (h : Relies K G R Q s p)
    (hk : ∀ t a, Q t a → Relies K G R P t (k a)) : Relies K G R P s (p >>= k) := by
  induction p generalizing s with
  | done r =>
    cases r with
    | ok a => exact hk s a h
    | error e => trivial
  | act f next ih =>
    intro c t hc hst
    obtain ⟨hstep, hnext⟩ := h c t hc hst
    exact ⟨hstep, ih c t hnext⟩

theorem relies_stmt {x : γ → Call σ ε α} (h : ∀ c t, K c → G s t → R t ((x c).exec t).2)
    (hQ : ∀ c t a u, K c → G s t → (x c).exec t = (.ok a, u) → Q u a) :
    Relies K G R Q s (stmt x) := by
  intro c t hc hst
  refine ⟨h c t hc hst, ?_⟩
  show Relies K G R Q ((x c).exec t).2 (.done ((x c).exec t).1)
  cases hr : ((x c).exec t).1 with
  | ok a => exact hQ c t a _ hc hst (Prod.ext hr rfl)
  | error e => trivial

/-- A statement that only reads is known by what it read. -/
theorem relies_reads (refl : ∀ s, R s s) {x : γ → Call σ ε α} (h : ∀ c, Reads (x c))
    (hQ : ∀ c t a, K c → G s t → (x c).exec t = (.ok a, t) → Q t a) :
    Relies K G R Q s (stmt x) := by
  refine relies_stmt (fun c t _ _ => ?_) fun c t a u hc hst hx => ?_
  · rw [h c t]
    exact refl t
  · cases (h c).eq hx
    exact hQ c t a hc hst hx

/-- A program under way, after the others have moved the state on from `s` to `t`. -/
theorem Relies.step {p p' : Prog γ σ ε α} {c : γ} (h : Relies K G R Q s p) (hc : K c) (hst : G s t)
    (hp : p.step c t = some (u, p')) : R t u ∧ Relies K G R Q u p' := by
  cases p with
  | done r => cases hp
  | act f next =>
    cases hp
    exact h c t hc hst

end

end Programs
