import Mathlib.Data.List.Basic
/-!
# Runs of a labelled system

A system is a partial step function `step : σ → α → Option σ`: the label resolves every choice
(which party moves, what the environment answers), `none` means the step is not enabled. A run is
a list of labels. The library gives two ways to speak about a whole run and the rules that reduce
both to single steps:

* `Always step P s as` — `P` holds in every state the run visits, the first one included;
* `Along step C s as` — every step the run takes meets the condition `C` on the state before it.

`always_of_along` is the invariant rule for runs whose steps meet a condition. `always_iff_along`
is the rule for a condition that is exact: a step that meets `C` keeps the invariant, a step that
does not breaks `P` at once. `always_of_keep` is the rule for an invariant every step keeps. A last
section is about the parties of such a system, kept in a list.
-/
namespace Runs

variable {σ α : Type*} (step : σ → α → Option σ)

/-- Take the steps of a label list, one after another. -/
def run : σ → List α → Option σ
  | s, [] => some s
  | s, a :: as => (step s a).bind fun t => run t as

/-- `P` holds in every state the run visits. -/
def Always (P : σ → Prop) : σ → List α → Prop
  | s, [] => P s
  | s, a :: as => P s ∧ ∀ t, step s a = some t → Always P t as

/-- Every step the run takes meets `C`. -/
def Along (C : σ → α → Prop) : σ → List α → Prop
  | _, [] => True
  | s, a :: as => ∀ t, step s a = some t → C s a ∧ Along C t as

variable {step} {P Q I : σ → Prop} {C : σ → α → Prop}

@[simp] theorem run_nil (s : σ) : run step s [] = some s := rfl

theorem run_cons (s : σ) (a : α) (as : List α) :
    run step s (a :: as) = (step s a).bind fun t => run step t as := rfl

theorem run_cons_some {s t : σ} {a : α} {as : List α} (h : run step s (a :: as) = some t) :
    ∃ u, step s a = some u ∧ run step u as = some t := by
  rw [run_cons] at h
  exact Option.bind_eq_some_iff.1 h

theorem run_append (as bs : List α) (s : σ) :
    run step s (as ++ bs) = (run step s as).bind fun t => run step t bs := by
  induction as generalizing s with
  | nil => rfl
  | cons a as ih =>
    simp only [List.cons_append, run_cons, Option.bind_assoc]
    congr 1
    funext t
    exact ih t

theorem run_trans {s t u : σ} {as bs : List α} (h : run step s as = some t)
    (k : run step t bs = some u) : run step s (as ++ bs) = some u := by
  rw [run_append, h]; exact k

theorem along_cons_of_some {s t : σ} {a : α} {as : List α} (h : step s a = some t) :
    Along step C s (a :: as) ↔ C s a ∧ Along step C t as := by
  constructor
  · exact fun hC => hC t h
  · intro hC u hu
    rw [h, Option.some.injEq] at hu
    exact hu ▸ hC

theorem Along.mono {D : σ → α → Prop} (hCD : ∀ s a, C s a → D s a) :
    ∀ {s : σ} {as : List α}, Along step C s as → Along step D s as
  | _, [], _ => trivial
  | _, _ :: _, h => fun t ht => ⟨hCD _ _ (h t ht).1, (h t ht).2.mono hCD⟩

/-- What every step meets holds along every run. -/
theorem along_of_forall (h : ∀ s a, C s a) : ∀ (s : σ) (as : List α), Along step C s as
  | _, [] => trivial
  | _, _ :: as => fun t _ => ⟨h _ _, along_of_forall h t as⟩

/-- Conditions that agree at every step taken agree along a run. -/
theorem along_congr {D : σ → α → Prop} (h : ∀ s a t, step s a = some t → (C s a ↔ D s a)) (s : σ)
    (as : List α) : Along step C s as ↔ Along step D s as := by
  induction as generalizing s with
  | nil => exact Iff.rfl
  | cons a as ih =>
    exact forall_congr' fun t => imp_congr_right fun ht => and_congr (h s a t ht) (ih t)

/-- The condition at the end of a run that got there. -/
theorem Along.last {s t u : σ} {a : α} {as : List α} (h : Along step C s (as ++ [a]))
    (hr : run step s as = some t) (ha : step t a = some u) : C t a := by
  induction as generalizing s with
  | nil =>
    cases hr
    exact (h u ha).1
  | cons b as ih =>
    obtain ⟨v, hv, hr⟩ := run_cons_some hr
    exact ih (h v hv).2 hr

instance decidableAlong [∀ s a, Decidable (C s a)] :
    ∀ (s : σ) (as : List α), Decidable (Along step C s as)
  | _, [] => isTrue trivial
  | s, a :: as =>
    match h : step s a with
    | none => isTrue fun t ht => by rw [h] at ht; cases ht
    | some t =>
      have := decidableAlong t as
      decidable_of_iff _ (along_cons_of_some h).symm

instance decidableAlways [DecidablePred P] :
    ∀ (s : σ) (as : List α), Decidable (Always step P s as)
  | s, [] => inferInstanceAs (Decidable (P s))
  | s, a :: as =>
    match h : step s a with
    | none => decidable_of_iff (P s) (by simp [Always, h])
    | some t =>
      have := decidableAlways t as
      decidable_of_iff (P s ∧ Always step P t as) (by simp [Always, h])

theorem Always.head {s : σ} : ∀ {as : List α}, Always step P s as → P s
  | [], h => h
  | _ :: _, h => h.1

theorem Always.mono (hPQ : ∀ s, P s → Q s) :
    ∀ {s : σ} {as : List α}, Always step P s as → Always step Q s as
  | _, [], h => hPQ _ h
  | _, _ :: _, h => ⟨hPQ _ h.1, fun t ht => (h.2 t ht).mono hPQ⟩

/-- What agrees in every invariant state agrees along a run that keeps the invariant. -/
theorem Always.congr (iff : ∀ s, I s → (P s ↔ Q s)) {s : σ} {as : List α}
    (hI : Always step I s as) : Always step P s as ↔ Always step Q s as := by
  induction as generalizing s with
  | nil => exact iff s hI
  | cons a as ih =>
    refine and_congr (iff s hI.1) (forall_congr' fun t => imp_congr_right fun ht => ?_)
    exact ih (hI.2 t ht)

/-- `Always` covers every prefix of the run. -/
theorem always_iff_take (s : σ) (as : List α) :
    Always step P s as ↔ ∀ n t, run step s (as.take n) = some t → P t := by
  induction as generalizing s with
  | nil => simp [Always]
  | cons a as ih =>
    constructor
    · intro h n t hn
      cases n with
      | zero => simp only [List.take_zero, run_nil, Option.some.injEq] at hn; exact hn ▸ h.1
      | succ n =>
        obtain ⟨u, hu, hr⟩ := run_cons_some hn
        exact (ih u).1 (h.2 u hu) n t hr
    · intro h
      refine ⟨h 0 s rfl, fun u hu => (ih u).2 fun n t hn => h (n + 1) t ?_⟩
      rw [List.take_succ_cons, run_cons, hu]
      exact hn

/-- `Along` covers every step the run takes. -/
theorem along_iff_take (s : σ) (as : List α) : Along step C s as ↔
    ∀ n t a u, run step s (as.take n) = some t → as[n]? = some a → step t a = some u → C t a := by
  induction as generalizing s with
  | nil => simp [Along]
  | cons b as ih =>
    constructor
    · intro h n t a u hn ha hu
      cases n with
      | zero =>
        cases hn
        cases ha
        exact (h u hu).1
      | succ n =>
        obtain ⟨v, hv, hr⟩ := run_cons_some hn
        exact (ih v).1 (h v hv).2 n t a u hr ha hu
    · intro h t ht
      refine ⟨h 0 s b t rfl rfl ht, (ih t).2 fun n v a u hn ha hu => h (n + 1) v a u ?_ ha hu⟩
      rw [List.take_succ_cons, run_cons, ht]
      exact hn

theorem Always.last {s t : σ} {as : List α} (h : Always step P s as)
    (hr : run step s as = some t) : P t :=
  (always_iff_take s as).1 h as.length t (by rwa [List.take_length])

/-- Invariant rule: an invariant that every step of the run keeps holds all along. -/
theorem always_of_along (keep : ∀ s a t, I s → C s a → step s a = some t → I t)
    {s : σ} (hs : I s) (as : List α) (hC : Along step C s as) : Always step I s as := by
  induction as generalizing s with
  | nil => exact hs
  | cons a as ih =>
    exact ⟨hs, fun t ht => ih (keep s a t hs (hC t ht).1 ht) (hC t ht).2⟩

/-- An invariant that every step keeps, whatever it is. -/
theorem always_of_keep (keep : ∀ s a t, I s → step s a = some t → I t) {s : σ} (hs : I s)
    (as : List α) : Always step I s as := by
  induction as generalizing s with
  | nil => exact hs
  | cons a as ih => exact ⟨hs, fun t ht => ih (keep s a t hs ht)⟩

/-- A relation that every step keeps relates the ends of a run. -/
theorem related_of_steps {R : σ → σ → Prop} (refl : ∀ s, R s s)
    (trans : ∀ s t u, R s t → R t u → R s u) (h : ∀ s a t, step s a = some t → R s t) {s t : σ}
    {as : List α} (hr : run step s as = some t) : R s t := by
  induction as generalizing s with
  | nil =>
    cases hr
    exact refl t
  | cons a as ih =>
    obtain ⟨u, hu, hr⟩ := run_cons_some hr
    exact trans s u t (h s a u hu) (ih hr)

/-- Exactness rule: a step that meets `C` keeps the invariant `I`, which gives `P`; a step from
an invariant state that does not meet `C` leads to a state without `P`. Then `P` holds all along
a run exactly when the run's steps all meet `C`. -/
theorem always_iff_along (give : ∀ s, I s → P s)
    (keep : ∀ s a t, I s → C s a → step s a = some t → I t)
    (breaks : ∀ s a t, I s → ¬ C s a → step s a = some t → ¬ P t)
    {s : σ} (hs : I s) (as : List α) : Always step P s as ↔ Along step C s as := by
  constructor
  · intro h
    induction as generalizing s with
    | nil => trivial
    | cons a as ih =>
      intro t ht
      have hC : C s a := Classical.byContradiction fun hn => breaks s a t hs hn ht (h.2 t ht).head
      exact ⟨hC, ih (keep s a t hs hC ht) (h.2 t ht)⟩
  · exact fun h => (always_of_along keep hs as h).mono give

/-- What a condition gives in every invariant state holds along the run too. -/
theorem along_of_along {D : σ → α → Prop} (keep : ∀ s a t, I s → C s a → step s a = some t → I t)
    (give : ∀ s a, I s → C s a → D s a) {s : σ} (hs : I s) (as : List α)
    (hC : Along step C s as) : Along step D s as := by
  induction as generalizing s with
  | nil => trivial
  | cons a as ih =>
    intro t ht
    obtain ⟨hCa, hrest⟩ := hC t ht
    exact ⟨give s a hs hCa, ih (keep s a t hs hCa ht) hrest⟩

/-- Two conditions that agree in every invariant state agree along a run, if one of them keeps the
invariant. -/
theorem along_iff_along {D : σ → α → Prop}
    (keep : ∀ s a t, I s → D s a → step s a = some t → I t) (iff : ∀ s a, I s → (C s a ↔ D s a))
    {s : σ} (hs : I s) (as : List α) : Along step C s as ↔ Along step D s as := by
  induction as generalizing s with
  | nil => exact Iff.rfl
  | cons a as ih =>
    refine forall_congr' fun t => imp_congr_right fun ht => ?_
    rw [iff s a hs]
    exact and_congr_right fun hD => ih (keep s a t hs hD ht)

/-! ## Parties

A system of many calls keeps them in a list; a step changes one of them. -/

variable {τ : Type*} {l : List τ} {i : Nat} {a b : τ}

theorem forall_mem_set {R : τ → Prop} (hb : R b) (h : ∀ x ∈ l, R x) : ∀ x ∈ l.set i b, R x := by
  intro x hx
  rcases List.mem_or_eq_of_mem_set hx with hx | rfl
  · exact h x hx
  · exact hb

/-- Whom one finds after a party has changed. -/
theorem getElem?_set_eq_some {j : Nat} {x : τ} (h : (l.set i b)[j]? = some x) :
    i = j ∧ x = b ∨ i ≠ j ∧ l[j]? = some x := by
  rw [List.getElem?_set] at h
  by_cases hij : i = j
  · rw [if_pos hij] at h
    split at h
    · exact .inl ⟨hij, (Option.some.inj h).symm⟩
    · cases h
  · rw [if_neg hij] at h
    exact .inr ⟨hij, h⟩

/-- Related parties are one and the same. They are so after one has changed that is then related to
no other. -/
theorem eq_of_set {R : τ → τ → Prop} (symm : ∀ x y, R x y → R y x)
    (h : ∀ (j k : Nat) (x y : τ), l[j]? = some x → l[k]? = some y → R x y → j = k)
    (hb : ∀ (j : Nat) (x : τ), i ≠ j → l[j]? = some x → ¬ R b x) {j k : Nat} {x y : τ}
    (hx : (l.set i b)[j]? = some x) (hy : (l.set i b)[k]? = some y) (hR : R x y) : j = k := by
  rcases getElem?_set_eq_some hx with ⟨hij, rfl⟩ | ⟨hij, hx'⟩ <;>
    rcases getElem?_set_eq_some hy with ⟨hik, rfl⟩ | ⟨hik, hy'⟩
  · exact hij.symm.trans hik
  · exact absurd hR (hb k y hik hy')
  · exact absurd (symm _ _ hR) (hb j x hij hx')
  · exact h j k x y hx' hy' hR

/-- Whom one finds after a party has joined. -/
theorem getElem?_concat_eq_some {j : Nat} {x : τ} (h : (l ++ [b])[j]? = some x) :
    x = b ∨ l[j]? = some x := by
  rw [List.getElem?_append] at h
  split at h
  · exact .inr h
  · exact .inl (List.mem_singleton.1 (List.mem_of_getElem? h))

/-- How a count changes when one party does. -/
theorem countP_set_add (p : τ → Bool) (h : l[i]? = some a) :
    (l.set i b).countP p + (p a).toNat = l.countP p + (p b).toNat := by
  induction l generalizing i with
  | nil => simp at h
  | cons x l ih =>
    cases i with
    | zero =>
      simp only [List.getElem?_cons_zero, Option.some.injEq] at h
      subst h
      simp only [List.set_cons_zero, List.countP_cons]
      cases p x <;> cases p b <;> simp
    | succ i =>
      simp only [List.getElem?_cons_succ] at h
      have := ih h
      simp only [List.set_cons_succ, List.countP_cons]
      omega

/-- A count split along a property that implies it. -/
theorem countP_split {p q : τ → Bool} (h : ∀ x ∈ l, q x = true → p x = true) :
    l.countP p = l.countP q + l.countP fun x => p x && !q x := by
  induction l with
  | nil => rfl
  | cons x l ih =>
    obtain ⟨hx, hl⟩ := List.forall_mem_cons.1 h
    simp only [List.countP_cons, ih hl]
    cases hp : p x <;> cases hq : q x <;> simp [hp, hq] at hx ⊢ <;> omega

end Runs
