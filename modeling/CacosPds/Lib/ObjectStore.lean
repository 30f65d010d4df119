import CacosPds.Lib.Table
/-!
# Flat object stores

An object store maps keys, which are strings, to contents. It has no directories: a key is removed
by a recursive delete of a path when the path is a prefix of its characters (`deletePrefix`). A key
of the form `p ++ owner ++ "/" ++ rest` belongs to `owner`; owners without a slash are told apart by
their keys (`prefix_segment`), while a path without the closing slash also catches every owner whose
name it begins (`prefix_open_segment`).
-/
namespace Sql.Table

variable {β : Type}

/-- Move an object; `none` if there is none. What was at the target is replaced. -/
def rename (src dst : String) (s : Table String β) : Option (Table String β) :=
  (s.lookup src).map fun b => (s.erase src).insert dst b

/-- The recursive delete of a path. -/
def deletePrefix (path : String) (s : Table String β) : Table String β :=
  s.deleteWhere fun key _ => path.toList.isPrefixOf key.toList

theorem lookup_rename {s t : Table String β} {src dst : String} (h : s.rename src dst = some t)
    (k : String) :
    t.lookup k = if k = dst then s.lookup src else if k = src then none else s.lookup k := by
  obtain ⟨b, hb, rfl⟩ := Option.map_eq_some_iff.1 h
  rw [lookup_insert_eq, lookup_erase_eq, hb]

theorem lookup_deletePrefix (path : String) (s : Table String β) (k : String) :
    (s.deletePrefix path).lookup k = if path.toList <+: k.toList then none else s.lookup k := by
  split
  · rename_i h
    exact lookup_deleteWhere_eq_none.2 fun _ _ => List.isPrefixOf_iff_prefix.2 h
  · rename_i h
    ext b
    rw [deletePrefix, lookup_deleteWhere_eq_some, and_iff_left]
    rw [← Bool.not_eq_true, List.isPrefixOf_iff_prefix]
    exact h

end Sql.Table

namespace Keys

/-- Two words before a separator that neither of them has. -/
theorem prefix_segment {α : Type*} {sep : α} {xs ys zs ws : List α} (hx : sep ∉ xs) (hy : sep ∉ ys)
    (h : xs ++ sep :: zs <+: ys ++ sep :: ws) : xs = ys ∧ zs <+: ws := by
  induction xs generalizing ys with
  | nil =>
    cases ys with
    | nil => exact ⟨rfl, (List.cons_prefix_cons.1 h).2⟩
    | cons y ys =>
      obtain ⟨rfl, -⟩ := List.cons_prefix_cons.1 h
      exact absurd List.mem_cons_self hy
  | cons x xs ih =>
    cases ys with
    | nil =>
      obtain ⟨rfl, -⟩ := List.cons_prefix_cons.1 h
      exact absurd List.mem_cons_self hx
    | cons y ys =>
      rw [List.cons_append, List.cons_append, List.cons_prefix_cons] at h
      obtain ⟨rfl, h⟩ := h
      have hx' : sep ∉ xs := fun hm => hx (List.mem_cons_of_mem _ hm)
      have hy' : sep ∉ ys := fun hm => hy (List.mem_cons_of_mem _ hm)
      obtain ⟨rfl, hzs⟩ := ih hx' hy' h
      exact ⟨rfl, hzs⟩

theorem segment_inj {α : Type*} {sep : α} {xs ys zs ws : List α} (hx : sep ∉ xs) (hy : sep ∉ ys)
    (h : xs ++ sep :: zs = ys ++ sep :: ws) : xs = ys ∧ zs = ws := by
  obtain ⟨rfl, -⟩ := prefix_segment hx hy ⟨[], by rw [List.append_nil, h]⟩
  exact ⟨rfl, List.cons_injective (List.append_cancel_left h)⟩

/-- A word without the separator that begins a separated one begins its first segment. -/
theorem prefix_open_segment {α : Type*} {sep : α} {xs ys ws : List α} (hx : sep ∉ xs) :
    xs <+: ys ++ sep :: ws ↔ xs <+: ys := by
  constructor
  · intro h
    rcases List.prefix_or_prefix_of_prefix h (List.prefix_append ys _) with h' | ⟨r, rfl⟩
    · exact h'
    rw [List.prefix_append_right_inj] at h
    cases r with
    | nil => simp
    | cons c r =>
      obtain ⟨rfl, -⟩ := List.cons_prefix_cons.1 h
      exact absurd (by simp) hx
  · exact fun h => h.trans (List.prefix_append ys _)

end Keys
