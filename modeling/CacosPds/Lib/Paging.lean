import Mathlib.Data.List.Pairwise
import Mathlib.Data.List.Lattice
import Mathlib.Data.Finset.Sort
/-!
# Keyset pagination

A reader walks a listing page by page: the last row it got gives the cursor of the next page, and an
empty page ends the walk. A page is the first rows behind the cursor, so the walk is right when the
cursor of a row has behind it exactly the rows that come after that row (`Keyset`).
-/
namespace Paging

variable {α γ ε : Type*}

/-- Read from cursor `c` to the first empty page, with at most `n` reads; `none` when the reads run
out. -/
def walk (page : γ → Except ε (List α)) (next : α → γ) : Nat → γ → Option (Except ε (List α))
  | 0, _ => none
  | n + 1, c =>
    match page c with
    | .error e => some (.error e)
    | .ok rows =>
      match rows.getLast? with
      | none => some (.ok [])
      | some last => (walk page next n (next last)).map fun r => r.map (rows ++ ·)

/-- The rows come in the order `R`, a page is the first `limit` of them behind its cursor, and behind
the cursor of a row are the rows after it. -/
structure Keyset (R : α → α → Prop) (page : γ → Except ε (List α)) (next : α → γ)
    (behind : γ → α → Bool) (limit : Nat) (rows : List α) : Prop where
  sorted : rows.Pairwise R
  irrefl : ∀ a, ¬ R a a
  asymm : ∀ a b, R a b → ¬ R b a
  page_eq : ∀ c, page c = .ok ((rows.filter (behind c)).take limit)
  behind_next : ∀ a b, behind (next a) b = true ↔ R a b

variable {R : α → α → Prop} {page : γ → Except ε (List α)} {next : α → γ} {behind : γ → α → Bool}
  {limit : Nat} {rows : List α}

/-- Behind the cursor of a row is what follows it. -/
theorem Keyset.filter_next (h : Keyset R page next behind limit rows) {xs ys : List α} {a : α}
    (hrows : rows = xs ++ a :: ys) : rows.filter (behind (next a)) = ys := by
  have hs := h.sorted
  rw [hrows, List.pairwise_append] at hs
  obtain ⟨-, hays, hxs⟩ := hs
  have hdrop : ∀ x ∈ xs, ¬ behind (next a) x = true := by
    intro x hx hb
    exact h.asymm x a (hxs x hx a List.mem_cons_self) ((h.behind_next a x).1 hb)
  have hself : ¬ behind (next a) a = true := fun hb => h.irrefl a ((h.behind_next a a).1 hb)
  have hkeep : ∀ y ∈ ys, behind (next a) y = true := by
    intro y hy
    exact (h.behind_next a y).2 (List.rel_of_pairwise_cons hays hy)
  rw [hrows, List.filter_append, List.filter_eq_nil_iff.2 hdrop, List.nil_append,
    List.filter_cons_of_neg hself, List.filter_eq_self.2 hkeep]

/-- **From a cursor the walk ends, and it gives the rows behind the cursor.** -/
theorem Keyset.walk_suffix (h : Keyset R page next behind limit rows) (hlimit : 0 < limit) :
    ∀ (n : Nat) (c : γ) (xs ys : List α), rows = xs ++ ys → rows.filter (behind c) = ys →
      ys.length < n → walk page next n c = some (.ok ys) := by
  intro n
  induction n with
  | zero =>
    intro _ _ ys _ _ hn
    exact absurd hn (Nat.not_lt_zero _)
  | succ n ih =>
    intro c xs ys hrows hys hn
    have hpage := h.page_eq c
    rw [hys] at hpage
    by_cases hnil : ys = []
    · subst hnil
      simp [walk, hpage]
    · have htake : ys.take limit ≠ [] := by
        rw [Ne, List.take_eq_nil_iff, not_or]
        exact ⟨by omega, hnil⟩
      obtain ⟨last, hlast⟩ := Option.ne_none_iff_exists'.1 (mt List.getLast?_eq_none_iff.1 htake)
      obtain ⟨front, hfront⟩ := List.getLast?_eq_some_iff.1 hlast
      have hsplit : rows = (xs ++ front) ++ last :: ys.drop limit := by
        calc rows = xs ++ (ys.take limit ++ ys.drop limit) := by rw [List.take_append_drop, hrows]
          _ = (xs ++ front) ++ last :: ys.drop limit := by rw [hfront]; simp
      have hshort : (ys.drop limit).length < n := by
        have : 0 < ys.length := List.length_pos_iff.2 hnil
        rw [List.length_drop]
        omega
      have hrest := ih (next last) ((xs ++ front) ++ [last]) (ys.drop limit)
        (by rw [hsplit]; simp) (h.filter_next hsplit) hshort
      simp only [walk, hpage, hlast, hrest, Option.map_some, Except.map, List.take_append_drop]

/-- A walk from the start gives every row, in order. -/
theorem Keyset.walk_all (h : Keyset R page next behind limit rows) (hlimit : 0 < limit) {c : γ}
    (hc : ∀ a ∈ rows, behind c a = true) {n : Nat} (hn : rows.length < n) :
    walk page next n c = some (.ok rows) :=
  h.walk_suffix hlimit n c [] rows rfl (List.filter_eq_self.2 hc) hn

/-! ## A set in ascending order -/

section

variable {κ : Type*} [LinearOrder κ]

/-- Filtering commutes with sorting. -/
theorem sort_filter (S : Finset κ) (p : κ → Prop) [DecidablePred p] :
    (S.filter p).sort = S.sort.filter p := by
  have hmem : ∀ a, a ∈ (S.filter p).sort ↔ a ∈ S.sort.filter p := by
    intro a
    simp only [Finset.mem_sort, Finset.mem_filter, List.mem_filter, decide_eq_true_eq]
  refine ((List.perm_ext_iff_of_nodup (Finset.sort_nodup _ _)
    ((Finset.sort_nodup _ _).filter _)).2 hmem).eq_of_pairwise ?_ (Finset.pairwise_sort _ _)
    ((Finset.pairwise_sort _ _).filter _)
  intro a b _ _ hab hba
  exact le_antisymm hab hba

/-- `key > cursor`, or no condition without a cursor. -/
def above (cursor : Option κ) (k : κ) : Bool := cursor.all (· < k)

/-- A row for each key of a set, in the order of the keys, paged with `key > cursor`. -/
theorem keyset_sort {β : Type*} (S : Finset κ) (f : κ → β) (key : β → κ) (hf : ∀ k, key (f k) = k)
    {page : Option κ → Except ε (List β)} {limit : Nat}
    (hpage : ∀ c, page c = .ok ((((S.filter fun k => above c k = true).sort).take limit).map f)) :
    Keyset (fun a b => key a < key b) page (fun a => some (key a)) (fun c a => above c (key a)) limit
      (S.sort.map f) where
  sorted := by
    refine List.pairwise_map.2 ((Finset.sortedLT_sort S).pairwise.imp ?_)
    intro a b hab
    rwa [hf, hf]
  irrefl a := lt_irrefl (key a)
  asymm a b hab := lt_asymm hab
  page_eq c := by
    rw [hpage, sort_filter, List.filter_map, List.map_take]
    refine congrArg (fun l => Except.ok (List.take limit (List.map f l)))
      (List.filter_congr fun k _ => ?_)
    simp [hf]
  behind_next a b := by simp [above]

end

end Paging
