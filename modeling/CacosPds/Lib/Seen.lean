import Mathlib.Data.List.Basic
import Mathlib.Logic.Function.Basic
import Mathlib.Order.Lattice
/-!
# Keys seen until a time

A memory keeps keys, each until a time. To see a key is to ask whether it is kept and to keep it if
it is not: the answer is that it is fresh, or that it is not, and what is kept stays as it was. A
sweep at `n` drops what is kept until a time before `n`.

A history is `Legal` if its answers are those of the memory, and `Timely` if no sweep is ahead of
the time at which a key is seen after it. Then a key found fresh is not fresh again before its time
is over (`Legal.once`); of all who see a key that is not kept exactly one finds it fresh, if no
sweep comes between (`Legal.exactly_one`); and after a sweep that drops it a key is fresh again
(`Legal.again`).
-/
namespace Seen

variable {κ τ : Type} [DecidableEq κ] [LinearOrder τ]

inductive Event (κ τ : Type) where
  | see (k : κ) (till now : τ) (fresh : Bool)
  | sweep (n : τ)

/-- What is kept, and until when. -/
abbrev Memory (κ τ : Type) := κ → Option τ

def after (c : Memory κ τ) : Event κ τ → Memory κ τ
  | .see k till _ _ => if (c k).isSome then c else Function.update c k (some till)
  | .sweep n => fun k => (c k).filter fun till => decide (n ≤ till)

def memory (c : Memory κ τ) (es : List (Event κ τ)) : Memory κ τ := es.foldl after c

/-- The answer is the memory's. -/
def Answers (c : Memory κ τ) : Event κ τ → Prop
  | .see k _ _ fresh => fresh = (c k).isNone
  | .sweep _ => True

def Legal (c : Memory κ τ) (es : List (Event κ τ)) : Prop :=
  ∀ before e rest, es = before ++ e :: rest → Answers (memory c before) e

/-- A sweep is not ahead of what comes after it. -/
def Timely (es : List (Event κ τ)) : Prop :=
  es.Pairwise fun a b => ∀ n, a = .sweep n → ∀ k till now fresh, b = .see k till now fresh → n ≤ now

def Event.IsSee (k : κ) : Event κ τ → Bool
  | .see j .. => decide (j = k)
  | .sweep _ => false

/-- The key is found fresh. -/
def Event.IsFresh (k : κ) : Event κ τ → Bool
  | .see j _ _ fresh => decide (j = k) && fresh
  | .sweep _ => false

variable {c : Memory κ τ} {es fs gs : List (Event κ τ)} {e : Event κ τ} {k : κ} {till now n : τ}
  {fresh : Bool}

theorem memory_append (c : Memory κ τ) (es fs : List (Event κ τ)) :
    memory c (es ++ fs) = memory (memory c es) fs := List.foldl_append

theorem legal_nil (c : Memory κ τ) : Legal c [] := by
  intro before e rest h
  simp at h

theorem Legal.concat (h : Legal c es) (he : Answers (memory c es) e) : Legal c (es ++ [e]) := by
  intro before e' rest hsplit
  rcases List.eq_nil_or_concat rest with rfl | ⟨rest, last, rfl⟩
  · obtain ⟨rfl, hlast⟩ := List.append_inj' hsplit rfl
    cases hlast
    exact he
  · rw [List.concat_eq_append, ← List.cons_append, ← List.append_assoc] at hsplit
    exact h before e' rest (List.append_inj' hsplit rfl).1

theorem Legal.of_append (h : Legal c (es ++ fs)) : Legal (memory c es) fs := by
  rintro before e rest rfl
  have hanswer := h (es ++ before) e rest (by simp)
  rwa [memory_append] at hanswer

theorem after_see_of_ne {j : κ} (hj : j ≠ k) : after c (.see j till now fresh) k = c k := by
  by_cases hkept : (c j).isSome
  · rw [after, if_pos hkept]
  · rw [after, if_neg hkept]
    exact Function.update_of_ne (Ne.symm hj) _ _

/-- What is kept stays, unless a sweep comes when its time is over. -/
theorem memory_kept (hkept : c k = some till) (hsweep : ∀ n, .sweep n ∈ es → n ≤ till) :
    memory c es k = some till := by
  induction es generalizing c with
  | nil => exact hkept
  | cons e es ih =>
    refine ih ?_ fun n hn => hsweep n (List.mem_cons_of_mem _ hn)
    cases e with
    | see j till' now fresh =>
      by_cases hj : j = k
      · subst hj
        rw [after, if_pos (by rw [hkept]; rfl)]
        exact hkept
      · rw [after_see_of_ne hj]
        exact hkept
    | sweep n =>
      show (c k).filter _ = _
      rw [hkept, Option.filter_some_pos]
      exact decide_eq_true (hsweep n List.mem_cons_self)

/-- A key is kept only after it has been seen. -/
theorem memory_absent (habsent : c k = none) (hno : ∀ e ∈ es, e.IsSee k = false) :
    memory c es k = none := by
  induction es generalizing c with
  | nil => exact habsent
  | cons e es ih =>
    refine ih ?_ fun e he => hno e (List.mem_cons_of_mem _ he)
    cases e with
    | see j till' now fresh =>
      have hj : j ≠ k := by simpa [Event.IsSee] using hno _ List.mem_cons_self
      rw [after_see_of_ne hj]
      exact habsent
    | sweep n =>
      show (c k).filter _ = _
      rw [habsent]
      rfl

/-- A key that is seen is kept from then on. -/
theorem memory_see (habsent : c k = none) : after c (.see k till now fresh) k = some till := by
  rw [after, if_neg (by rw [habsent]; exact Bool.false_ne_true)]
  exact Function.update_self ..

/-- While a key is kept nobody finds it fresh. -/
theorem Legal.not_fresh (h : Legal c es) (hkept : c k = some till)
    (hsweep : ∀ n, .sweep n ∈ es → n ≤ till) : ∀ e ∈ es, e.IsFresh k = false := by
  intro e he
  obtain ⟨before, rest, rfl⟩ := List.append_of_mem he
  have hanswer := h before e rest rfl
  cases e with
  | sweep n => rfl
  | see j till' now fresh =>
    by_cases hj : j = k
    · subst hj
      rw [Answers, memory_kept hkept fun n hn => hsweep n (List.mem_append_left _ hn)] at hanswer
      simp [Event.IsFresh, hanswer]
    · simp [Event.IsFresh, hj]

/-- What is not kept, and not found fresh by anyone, is not kept afterwards. -/
theorem Legal.absent (h : Legal c es) (habsent : c k = none) (hno : ∀ e ∈ es, e.IsFresh k = false) :
    memory c es k = none := by
  refine memory_absent habsent fun e he => ?_
  by_contra hsee
  -- the first to see the key would find it fresh
  obtain ⟨first, hfirst⟩ := Option.isSome_iff_exists.1
    (List.find?_isSome.2 ⟨e, he, by simpa using hsee⟩ : (es.find? (Event.IsSee k)).isSome)
  obtain ⟨hisSee, before, rest, rfl, hbefore⟩ := List.find?_eq_some_iff_append.1 hfirst
  have hanswer := h before first rest rfl
  have hnot := hno first (by simp)
  cases first with
  | sweep n => cases hisSee
  | see j till now fresh =>
    obtain rfl : j = k := by simpa [Event.IsSee] using hisSee
    rw [Answers, memory_absent habsent fun e he => by simpa using hbefore e he] at hanswer
    simp [Event.IsFresh, hanswer] at hnot

/-- **A key found fresh is not found fresh again before its time is over.** -/
theorem Legal.once {till' now' : τ} {fresh' : Bool}
    (h : Legal c (es ++ .see k till now true :: (fs ++ .see k till' now' fresh' :: gs)))
    (htimely : Timely (es ++ .see k till now true :: (fs ++ .see k till' now' fresh' :: gs)))
    (hnow : now' ≤ till) : fresh' = false := by
  have hrest : Legal (memory c es)
      (.see k till now true :: (fs ++ .see k till' now' fresh' :: gs)) := h.of_append
  have hfresh : memory c es k = none :=
    Option.isNone_iff_eq_none.1 (hrest [] _ _ rfl : true = (memory c es k).isNone).symm
  have hlater : Legal (after (memory c es) (.see k till now true))
      (fs ++ .see k till' now' fresh' :: gs) :=
    (show Legal _ ([.see k till now true] ++ (fs ++ .see k till' now' fresh' :: gs)) from
      hrest).of_append
  have hsweep : ∀ m, .sweep m ∈ fs → m ≤ till := by
    intro m hm
    have hpair := (List.pairwise_append.1 (List.pairwise_cons.1
      (List.pairwise_append.1 htimely).2.1).2).2.2 _ hm _ List.mem_cons_self
    exact le_trans (hpair m rfl _ _ _ _ rfl) hnow
  have hanswer := hlater fs _ gs rfl
  rw [Answers, memory_kept (memory_see hfresh) hsweep] at hanswer
  exact hanswer

/-- **Of all who see a key that is not kept exactly one finds it fresh, if no sweep comes after a
time until which they keep it.** -/
theorem Legal.exactly_one (h : Legal c (es ++ (fs ++ gs))) (habsent : memory c es k = none)
    (hsome : ∃ e ∈ fs, e.IsSee k = true)
    (hsweep : ∀ n, .sweep n ∈ fs → ∀ till now fresh, .see k till now fresh ∈ fs → n ≤ till) :
    fs.countP (Event.IsFresh k) = 1 := by
  have hfs : Legal (memory c es) fs := by
    rintro before e rest rfl
    exact h.of_append before e (rest ++ gs) (by simp)
  obtain ⟨first, hfirst⟩ := Option.isSome_iff_exists.1
    (List.find?_isSome.2 hsome : (fs.find? (Event.IsSee k)).isSome)
  obtain ⟨hisSee, before, rest, rfl, hbefore⟩ := List.find?_eq_some_iff_append.1 hfirst
  have hnone : memory (memory c es) before k = none :=
    memory_absent habsent fun e he => by simpa using hbefore e he
  have hanswer := hfs before first rest rfl
  cases first with
  | sweep n => cases hisSee
  | see j till now fresh =>
    obtain rfl : j = k := by simpa [Event.IsSee] using hisSee
    rw [Answers, hnone] at hanswer
    subst hanswer
    have hrest : Legal (after (memory (memory c es) before) (.see j till now true)) rest :=
      (show Legal _ ([.see j till now true] ++ rest) from hfs.of_append).of_append
    have hzero : before.countP (Event.IsFresh j) = 0 := by
      refine List.countP_eq_zero.2 fun e he hfresh => ?_
      have hsee := hbefore e he
      cases e with
      | sweep n => cases hfresh
      | see i till' now' fresh' => simp_all [Event.IsSee, Event.IsFresh]
    have hnot := hrest.not_fresh (memory_see hnone) fun n hn =>
      hsweep n (by simp [hn]) till now true (by simp)
    have hlater : rest.countP (Event.IsFresh j) = 0 :=
      List.countP_eq_zero.2 fun e he => by simp [hnot e he]
    rw [List.countP_append, List.countP_cons, hzero, hlater]
    simp [Event.IsFresh]

/-- **After a sweep that drops it a key is fresh for the first who sees it.** -/
theorem Legal.again {till' : τ}
    (h : Legal c (es ++ .sweep n :: (fs ++ .see k till now fresh :: gs)))
    (hkept : memory c es k = some till') (hover : till' < n)
    (hno : ∀ e ∈ fs, e.IsFresh k = false) : fresh = true := by
  have hlater : Legal (after (memory c es) (.sweep n)) (fs ++ .see k till now fresh :: gs) :=
    (show Legal _ ([.sweep n] ++ (fs ++ .see k till now fresh :: gs)) from h.of_append).of_append
  have hfs : Legal (after (memory c es) (.sweep n)) fs := by
    rintro before e rest rfl
    exact hlater before e (rest ++ .see k till now fresh :: gs) (by simp)
  have hdropped : after (memory c es) (.sweep n) k = none := by
    show Option.filter _ (memory c es k) = none
    rw [hkept, Option.filter_some_neg]
    simpa using hover
  have hanswer := hlater fs _ gs rfl
  rw [Answers, hfs.absent hdropped hno] at hanswer
  exact hanswer

end Seen
