import Mathlib.Data.List.Basic
/-!
# Replacing what is not there

`String.replace` leaves a string as it is where the pattern does not occur.
-/
namespace Text

open String String.Slice.Pattern Model.ForwardStringSearcher

variable {pattern : String} {s : String.Slice}

theorem copy_slice_append {a b : s.Pos} (h : a ≤ b) :
    (s.slice a b h).copy ++ (s.sliceFrom b).copy = (s.sliceFrom a).copy := by
  obtain ⟨front, back, ha, hb⟩ := Slice.copy_slice_eq_iff_splits.1 ⟨h, rfl⟩
  rw [ha.copy_sliceFrom_eq, hb.copy_sliceFrom_eq]

/-- A search without a match goes through the rest of the slice. -/
theorem foldl_search (hnone : ∀ pos : s.Pos, ¬ Model.MatchesAt pattern pos) {pos : s.Pos}
    {steps : List (SearchStep s)} (h : Model.IsValidSearchFrom pattern pos steps)
    (replacement sofar : String) :
    steps.foldl (fun
      | sofar, .matched .. => sofar ++ ToSlice.toSlice replacement
      | sofar, .rejected start stop => sofar ++ s.slice! start stop) sofar =
        sofar ++ (s.sliceFrom pos).copy := by
  induction h generalizing sofar with
  | endPos => simp
  | matched hmatch _ _ => exact absurd hmatch.matchesAt (hnone _)
  | mismatched hlt _ _ ih =>
    rw [List.foldl_cons, ih, ← copy_slice_append (Std.le_of_lt hlt), ← String.append_assoc,
      Slice.slice_eq_slice!]
    rfl

theorem replace_eq_self {text : String} (hne : pattern ≠ "")
    (h : ∀ front back, text ≠ front ++ pattern ++ back) (replacement : String) :
    text.replace pattern replacement = text := by
  have hnone : ∀ pos : text.toSlice.Pos, ¬ Model.MatchesAt pattern pos := by
    intro pos hpos
    obtain ⟨front, back, heq⟩ := exists_matchesAt_iff_eq_append.1 ⟨pos, hpos⟩
    exact h front back (by simpa using heq)
  have hvalid := (lawfulToForwardSearcherModel hne).isValidSearchFrom_toList text.toSlice
  have hfold := foldl_search hnone hvalid replacement ""
  rw [Std.Iter.foldl_toList] at hfold
  refine hfold.trans ?_
  simp

end Text
