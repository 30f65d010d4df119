import Mathlib.Data.List.Induction
import Mathlib.Data.List.Nodup
import Mathlib.Logic.Function.Basic
/-!
# One-time tokens that hand over

Under each key at most one token is current. It is created, it is spent for the next one (`spend`), and
it may be dropped with its key. A history is `Legal` if every event finds what it needs: a token is
spent while it is current and still valid, and nothing is created where a token is current.

If no token is issued twice, a legal history spends each at most once (`Legal.nodup_spent`). What is
spent has been issued for its key before, and is still valid (`Legal.issued_before`); what is spent
under a key without a drop in between is a chain (`Legal.chain`).
-/
namespace OneTime

variable {κ ν τ : Type}

inductive Event (κ ν τ : Type) where
  | create (k : κ) (n : ν) (t : τ)
  /-- `n` is spent, `m` is issued for it. -/
  | spend (k : κ) (n m : ν) (t : τ)
  | drop (k : κ)
  deriving DecidableEq

def Event.key : Event κ ν τ → κ
  | .create k .. | .spend k .. | .drop k => k

/-- What is issued, and when. -/
def Event.issue : Event κ ν τ → Option (ν × τ)
  | .create _ n t => some (n, t)
  | .spend _ _ m t => some (m, t)
  | .drop _ => none

def Event.spends : Event κ ν τ → Option ν
  | .spend _ n _ _ => some n
  | .create .. | .drop _ => none

/-- The tokens a history issues. -/
def issued (es : List (Event κ ν τ)) : List ν := es.filterMap fun e => e.issue.map Prod.fst

/-- The tokens it spends. -/
def spent (es : List (Event κ ν τ)) : List ν := es.filterMap Event.spends

theorem issued_concat (es : List (Event κ ν τ)) (e : Event κ ν τ) :
    issued (es ++ [e]) = issued es ++ (e.issue.map Prod.fst).toList := by
  rw [issued, List.filterMap_append, issued]
  cases h : e.issue <;> simp [h]

theorem spent_concat (es : List (Event κ ν τ)) (e : Event κ ν τ) :
    spent (es ++ [e]) = spent es ++ e.spends.toList := by
  rw [spent, List.filterMap_append, spent]
  cases h : e.spends <;> simp [h]

theorem mem_issued_concat {es : List (Event κ ν τ)} {e : Event κ ν τ} {n : ν} :
    n ∈ issued (es ++ [e]) ↔ n ∈ issued es ∨ ∃ t, e.issue = some (n, t) := by
  rw [issued_concat, List.mem_append, Option.mem_toList, Option.map_eq_some_iff]
  simp

/-- A new token keeps them distinct. -/
theorem nodup_issued_concat {es : List (Event κ ν τ)} {e : Event κ ν τ} (hd : (issued es).Nodup)
    (hnew : ∀ n t, e.issue = some (n, t) → n ∉ issued es) : (issued (es ++ [e])).Nodup := by
  rw [issued_concat]
  cases hissue : e.issue with
  | none => simpa using hd
  | some issue =>
    refine List.nodup_append.2 ⟨hd, by simp, fun a ha b hb hab => ?_⟩
    obtain rfl : b = issue.1 := by simpa using hb
    exact hnew issue.1 issue.2 hissue (hab ▸ ha)

theorem mem_spent_concat {es : List (Event κ ν τ)} {e : Event κ ν τ} {n : ν} :
    n ∈ spent (es ++ [e]) ↔ n ∈ spent es ∨ e.spends = some n := by
  rw [spent_concat, List.mem_append, Option.mem_toList]

/-- The event spends a token of the key, or drops the key. -/
def Event.Ends (k : κ) : Event κ ν τ → Prop
  | .spend j .. | .drop j => j = k
  | .create .. => False

/-- The event finds what it needs. -/
def Allows (valid : τ → τ → Prop) (c : κ → Option (ν × τ)) : Event κ ν τ → Prop
  | .create k _ _ => c k = none
  | .spend k n _ t => ∃ t₀, c k = some (n, t₀) ∧ valid t₀ t
  | .drop _ => True

variable [DecidableEq κ]

def Event.after (c : κ → Option (ν × τ)) (e : Event κ ν τ) : κ → Option (ν × τ) :=
  Function.update c e.key e.issue

/-- The history is legal, and leaves these tokens with the times they were issued at. -/
inductive Legal (valid : τ → τ → Prop) : List (Event κ ν τ) → (κ → Option (ν × τ)) → Prop where
  | nil : Legal valid [] fun _ => none
  | concat {es c e} : Legal valid es c → Allows valid c e → Legal valid (es ++ [e]) (e.after c)

variable {valid : τ → τ → Prop} {es fs : List (Event κ ν τ)} {e : Event κ ν τ}
  {c : κ → Option (ν × τ)} {k : κ} {n m : ν} {t : τ}

theorem Legal.of_concat (h : Legal valid (es ++ [e]) c) :
    ∃ c', Legal valid es c' ∧ Allows valid c' e ∧ c = e.after c' := by
  generalize hes : es ++ [e] = gs at h
  cases h with
  | nil => simp at hes
  | concat h hallows =>
    obtain ⟨rfl, he⟩ := List.append_inj' hes rfl
    cases he
    exact ⟨_, h, hallows, rfl⟩

theorem Legal.of_append (h : Legal valid (es ++ fs) c) : ∃ c', Legal valid es c' := by
  induction fs using List.reverseRecOn generalizing c with
  | nil => exact ⟨c, by rwa [List.append_nil] at h⟩
  | append_singleton fs e ih =>
    rw [← List.append_assoc] at h
    obtain ⟨c', h', -⟩ := h.of_concat
    exact ih h'

/-- The current token of a key has been issued for it. -/
theorem Legal.issued_current (h : Legal valid es c) (hk : c k = some (n, t)) :
    ∃ e ∈ es, e.key = k ∧ e.issue = some (n, t) := by
  induction h generalizing n t with
  | nil => cases hk
  | @concat es c e h _ ih =>
    by_cases hkey : k = e.key
    · subst hkey
      rw [Event.after, Function.update_self] at hk
      exact ⟨e, by simp, rfl, hk⟩
    · rw [Event.after, Function.update_of_ne hkey] at hk
      obtain ⟨e', he', hissue⟩ := ih hk
      exact ⟨e', List.mem_append_left _ he', hissue⟩

omit [DecidableEq κ] in
theorem mem_issued : n ∈ issued es ↔ ∃ e ∈ es, ∃ t, e.issue = some (n, t) := by
  simp only [issued, List.mem_filterMap, Option.map_eq_some_iff, Prod.exists, exists_and_right,
    exists_eq_right]

/-- **What is spent has been issued for its key before, and is still valid.** -/
theorem Legal.issued_before (h : Legal valid (es ++ .spend k n m t :: fs) c) :
    ∃ e ∈ es, e.key = k ∧ ∃ t₀, e.issue = some (n, t₀) ∧ valid t₀ t := by
  rw [List.append_cons] at h
  obtain ⟨c', h'⟩ := h.of_append
  obtain ⟨c'', h'', ⟨t₀, hk, hv⟩, -⟩ := h'.of_concat
  obtain ⟨e, he, hkey, hissue⟩ := h''.issued_current hk
  exact ⟨e, he, hkey, t₀, hissue, hv⟩

/-- A token stays current as long as nothing is spent or dropped under its key. -/
theorem Legal.current_of_not_ends (h : Legal valid (es ++ [.spend k n m t] ++ fs) c)
    (hno : ∀ e ∈ fs, ¬ e.Ends k) : c k = some (m, t) := by
  induction fs using List.reverseRecOn generalizing c with
  | nil =>
    rw [List.append_nil] at h
    obtain ⟨c', -, -, rfl⟩ := h.of_concat
    exact Function.update_self ..
  | append_singleton fs e ih =>
    rw [← List.append_assoc] at h
    obtain ⟨c', h', hallows, rfl⟩ := h.of_concat
    have hk := ih h' fun e he => hno e (List.mem_append_left _ he)
    have hends : ¬ e.Ends k := hno e (by simp)
    -- the key's token is current, so nothing is created there
    have hkey : k ≠ e.key := by
      rintro rfl
      cases e with
      | create j _ _ => cases hk.symm.trans hallows
      | spend j _ _ _ => exact hends rfl
      | drop j => exact hends rfl
    rw [Event.after, Function.update_of_ne hkey]
    exact hk

/-- **Between two spendings of one key, with no spending or drop of it in between, the token is handed
over.** -/
theorem Legal.chain {gs : List (Event κ ν τ)} {n' m' : ν} {t' : τ}
    (h : Legal valid (es ++ .spend k n m t :: (fs ++ .spend k n' m' t' :: gs)) c)
    (hno : ∀ e ∈ fs, ¬ e.Ends k) : n' = m := by
  have hsplit : es ++ .spend k n m t :: (fs ++ .spend k n' m' t' :: gs) =
      es ++ [.spend k n m t] ++ fs ++ [.spend k n' m' t'] ++ gs := by simp
  rw [hsplit] at h
  obtain ⟨c', h'⟩ := h.of_append
  obtain ⟨c'', h'', ⟨t₀, hk, -⟩, -⟩ := h'.of_concat
  rw [h''.current_of_not_ends hno] at hk
  cases hk
  rfl

/-! ## Spent once -/

/-- What holds of a history that issues no token twice. -/
structure Fresh (es : List (Event κ ν τ)) (c : κ → Option (ν × τ)) : Prop where
  nodup : (spent es).Nodup
  issued : ∀ n ∈ spent es, n ∈ issued es
  current : ∀ k n t, c k = some (n, t) → n ∈ OneTime.issued es ∧ n ∉ spent es
  one : ∀ k k' n t t', c k = some (n, t) → c k' = some (n, t') → k = k'

theorem Legal.fresh (h : Legal valid es c) (hd : (issued es).Nodup) : Fresh es c := by
  induction h with
  | nil => exact ⟨List.nodup_nil, nofun, nofun, nofun⟩
  | @concat es c e h hallows ih =>
    rw [issued_concat, List.nodup_append] at hd
    obtain ⟨hold, -, hnew⟩ := hd
    obtain ⟨hnodup, hissued, hcurrent, hone⟩ := ih hold
    have hnewest : ∀ n t, e.issue = some (n, t) → n ∉ issued es := by
      intro n t hissue hn
      exact hnew n hn n (by simp [hissue]) rfl
    have hspends : ∀ n, e.spends = some n → ∃ t, c e.key = some (n, t) := by
      intro n hn
      cases e with
      | create _ _ _ => cases hn
      | spend k n' m t =>
        cases hn
        obtain ⟨t₀, hk, -⟩ := hallows
        exact ⟨t₀, hk⟩
      | drop _ => cases hn
    have hafter : ∀ k n t, e.after c k = some (n, t) →
        k = e.key ∧ e.issue = some (n, t) ∨ k ≠ e.key ∧ c k = some (n, t) := by
      intro k n t hk
      by_cases hkey : k = e.key
      · subst hkey
        rw [Event.after, Function.update_self] at hk
        exact .inl ⟨rfl, hk⟩
      · rw [Event.after, Function.update_of_ne hkey] at hk
        exact .inr ⟨hkey, hk⟩
    refine ⟨?_, ?_, ?_, ?_⟩
    · rw [spent_concat, List.nodup_append]
      refine ⟨hnodup, by cases e.spends <;> simp, fun a ha b hb hab => ?_⟩
      subst hab
      obtain ⟨t, hk⟩ := hspends a (Option.mem_toList.1 hb)
      exact (hcurrent _ _ _ hk).2 ha
    · intro n hn
      rcases mem_spent_concat.1 hn with hn | hn
      · exact mem_issued_concat.2 (.inl (hissued n hn))
      · obtain ⟨t, hk⟩ := hspends n hn
        exact mem_issued_concat.2 (.inl (hcurrent _ _ _ hk).1)
    · intro k n t hk
      rcases hafter k n t hk with ⟨-, hissue⟩ | ⟨hkey, hk⟩
      · refine ⟨mem_issued_concat.2 (.inr ⟨t, hissue⟩), fun hn => ?_⟩
        rcases mem_spent_concat.1 hn with hn | hn
        · exact hnewest n t hissue (hissued n hn)
        · obtain ⟨t', hk'⟩ := hspends n hn
          exact hnewest n t hissue (hcurrent _ _ _ hk').1
      · refine ⟨mem_issued_concat.2 (.inl (hcurrent _ _ _ hk).1), fun hn => ?_⟩
        rcases mem_spent_concat.1 hn with hn | hn
        · exact (hcurrent _ _ _ hk).2 hn
        · obtain ⟨t', hk'⟩ := hspends n hn
          exact hkey (hone _ _ _ _ _ hk hk')
    · intro k k' n t t' hk hk'
      rcases hafter k n t hk with ⟨hkey, hissue⟩ | ⟨-, hold⟩ <;>
        rcases hafter k' n t' hk' with ⟨hkey', hissue'⟩ | ⟨-, hold'⟩
      · exact hkey.trans hkey'.symm
      · exact absurd (hcurrent _ _ _ hold').1 (hnewest n t hissue)
      · exact absurd (hcurrent _ _ _ hold).1 (hnewest n t' hissue')
      · exact hone _ _ _ _ _ hold hold'

/-- **No token is spent twice.** -/
theorem Legal.nodup_spent (h : Legal valid es c) (hd : (issued es).Nodup) : (spent es).Nodup :=
  (h.fresh hd).nodup

end OneTime
