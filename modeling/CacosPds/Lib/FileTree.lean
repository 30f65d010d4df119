import Mathlib.Data.List.Infix
import CacosPds.Lib.Stages
/-!
# Paths and file trees

A path is a text; `join` appends to it, and `resolve` says which names it leads through from a
working directory (a tree has no symbolic links). A text that is a name, and not a path of its own,
goes one step down wherever it is joined (`resolve_join`).

A tree says what is at each list of names. Its operations are those of the operating system, each
with the faults it can have, and each with what it leaves alone, failing or not: `createDirAll` only
adds directories on the way (`AddsDirs`), the others touch one place or what is below one
(`Changes`). Either way what was there before stays elsewhere (`Preserves`), and that composes.
-/
namespace Files

open Stages

abbrev Path := List String

/-! ## Paths as texts -/

def join (p part : String) : String :=
  if part.toList.head? = some '/' then part
  else if p.toList = [] ∨ p.toList.getLast? = some '/' then p ++ part
  else p ++ "/" ++ part

/-- One piece between slashes. -/
def enter (dir : Path) (piece : List Char) : Path :=
  if piece = [] ∨ piece = ['.'] then dir
  else if piece = ['.', '.'] then dir.dropLast
  else dir ++ [String.ofList piece]

def resolve (cwd : Path) (p : String) : Path :=
  (p.toList.splitOn '/').foldl enter (if p.toList.head? = some '/' then [] else cwd)

/-- A text that names an entry of a directory. -/
def IsName (part : String) : Prop :=
  part.toList ≠ [] ∧ '/' ∉ part.toList ∧ part.toList ≠ ['.'] ∧ part.toList ≠ ['.', '.']

instance (part : String) : Decidable (IsName part) :=
  inferInstanceAs (Decidable (_ ∧ _ ∧ _ ∧ _))

theorem IsName.enter {part : String} (h : IsName part) (dir : Path) :
    enter dir part.toList = dir ++ [part] := by
  obtain ⟨hne, -, hdot, hdots⟩ := h
  unfold Files.enter
  rw [if_neg (by simp [hne, hdot]), if_neg hdots, String.ofList_toList]

/-- A piece behind the last slash. -/
theorem foldl_enter_append (dir : Path) (cs : List Char) {part : String} (h : IsName part) :
    ((cs ++ '/' :: part.toList).splitOn '/').foldl enter dir =
      (cs.splitOn '/').foldl enter dir ++ [part] := by
  rw [List.splitOn_append_cons_self, List.splitOn_eq_singleton h.2.1, List.foldl_append]
  exact h.enter _

/-- A name goes one step down, and nowhere else. -/
theorem resolve_join (cwd : Path) (p : String) {part : String} (h : IsName part) :
    resolve cwd (join p part) = resolve cwd p ++ [part] := by
  have hrel : part.toList.head? ≠ some '/' := by
    intro hh
    exact h.2.1 (List.mem_of_mem_head? hh)
  have hhead : ∀ cs cs' : List Char, cs ≠ [] → (cs ++ cs').head? = cs.head? := by
    intro cs cs' hcs
    rw [List.head?_append]
    cases cs with
    | nil => exact absurd rfl hcs
    | cons c cs => rfl
  unfold join
  rw [if_neg hrel]
  split
  · rename_i hp
    rcases hp with hp | hp
    · have hall : (p ++ part).toList = part.toList := by
        rw [String.toList_append, hp, List.nil_append]
      unfold resolve
      rw [hall, hp, if_neg hrel, List.splitOn_eq_singleton h.2.1]
      exact h.enter cwd
    · obtain ⟨cs, hcs⟩ := List.getLast?_eq_some_iff.1 hp
      have hall : (p ++ part).toList = cs ++ '/' :: part.toList := by
        rw [String.toList_append, hcs, List.append_assoc]
        rfl
      have habs : (cs ++ '/' :: part.toList).head? = (cs ++ ['/']).head? := by
        cases cs <;> rfl
      unfold resolve
      rw [hall, hcs, foldl_enter_append _ _ h, habs, List.splitOn_append_cons_self,
        List.foldl_append, List.splitOn_nil]
      rfl
  · rename_i hp
    have hall : (p ++ "/" ++ part).toList = p.toList ++ '/' :: part.toList := by
      rw [String.toList_append, String.toList_append, List.append_assoc]
      rfl
    have hne : p.toList ≠ [] := fun hnil => hp (.inl hnil)
    unfold resolve
    rw [hall, foldl_enter_append _ _ h, hhead _ _ hne]

/-! ## Places -/

/-- `p` is in `dir`, and not `dir` itself. -/
def StrictlyInside (dir p : Path) : Prop := dir <+: p ∧ p ≠ dir

/-- Neither contains the other. -/
def Apart (p q : Path) : Prop := ¬ p <+: q ∧ ¬ q <+: p

theorem strictlyInside_append (dir : Path) {names : Path} (h : names ≠ []) :
    StrictlyInside dir (dir ++ names) :=
  ⟨List.prefix_append dir names, fun he => h (List.append_right_eq_self.1 he)⟩

theorem apart_of_length {p q : Path} (hlen : p.length = q.length) (hne : p ≠ q) : Apart p q :=
  ⟨fun h => hne (h.eq_of_length hlen), fun h => hne (h.eq_of_length hlen.symm).symm⟩

theorem apart_of_name {dir : Path} {a b : String} {as bs : Path} (hne : a ≠ b) :
    Apart (dir ++ a :: as) (dir ++ b :: bs) := by
  constructor
  · rw [List.prefix_append_right_inj, List.cons_prefix_cons]
    exact fun h => hne h.1
  · rw [List.prefix_append_right_inj, List.cons_prefix_cons]
    exact fun h => hne h.1.symm

/-- What is in one of two such places is not in the other. -/
theorem Apart.not_inside {p q r : Path} (h : Apart p q) (hr : q <+: r) : ¬ p <+: r := by
  intro hp
  rcases List.prefix_or_prefix_of_prefix hp hr with hpq | hqp
  · exact h.1 hpq
  · exact h.2 hqp

/-! ## Trees -/

inductive Node (β : Type) where
  | dir
  | file (content : β)
  deriving DecidableEq

abbrev Tree (β : Type) := Path → Option (Node β)

variable {β : Type}

/-- The error of a call is its text. -/
abbrev Op (β α : Type) := Call (Tree β) String α

def put (p : Path) (n : Option (Node β)) (t : Tree β) : Tree β := fun q => if q = p then n else t q

/-- `mkdir`; a directory that is there already is none of its failures. -/
def makeDir (fault : Option String) (p : Path) : Op β Unit := do
  attempt fault
  let t ← get
  match t p with
  | none => modify (put p (some .dir))
  | some .dir => pure ()
  | some (.file _) => throw "File exists"

def createDirAll (faults : Path → Option String) (p : Path) : Op β Unit :=
  forM p.inits fun q => makeDir (faults q) q

def tryExists (fault : Option String) (p : Path) : Op β Bool := do
  attempt fault
  let t ← get
  pure (t p).isSome

def read (fault : Option String) (p : Path) : Op β (Option β) := do
  attempt fault
  let t ← get
  match t p with
  | none => pure none
  | some (.file content) => pure (some content)
  | some .dir => throw "Is a directory"

/-- Where a write stops: before the file is opened, or behind that with so much of it written. -/
inductive WriteFault (β : Type) where
  | opening (err : String)
  | writing (err : String) (written : β)

/-- The file is made or truncated, and written. -/
def write (fault : Option (WriteFault β)) (p : Path) (content : β) : Op β Unit := do
  let t ← get
  match t p, t p.dropLast with
  | some .dir, _ => throw "Is a directory"
  | _, some .dir =>
    match fault with
    | none => modify (put p (some (.file content)))
    | some (.opening err) => throw err
    | some (.writing err written) => do
      modify (put p (some (.file written)))
      throw err
  | _, _ => throw "No such file or directory"

def removeFile (fault : Option String) (p : Path) : Op β Unit := do
  attempt fault
  let t ← get
  match t p with
  | some (.file _) => modify (put p none)
  | some .dir => throw "Is a directory"
  | none => throw "No such file or directory"

def prune (gone : Path → Bool) (t : Tree β) : Tree β := fun q => if gone q then none else t q

/-- A `remove_dir_all` that fails, and what it has removed by then. -/
structure PartialRemoval where
  err : String
  removed : Path → Bool

def removeDirAll (fault : Option PartialRemoval) (p : Path) : Op β Unit := do
  let t ← get
  match t p, fault with
  | none, _ => throw "No such file or directory"
  | some (.file _), _ => throw "Not a directory"
  | some .dir, none => modify (prune fun q => p.isPrefixOf q)
  | some .dir, some r => do
    modify (prune fun q => p.isPrefixOf q && r.removed q)
    throw r.err

/-! ## What they leave alone -/

/-- Nothing changes but directories that were not there, on the way to `p`. -/
def AddsDirs (p : Path) (t u : Tree β) : Prop :=
  ∀ q, u q = t q ∨ t q = none ∧ u q = some .dir ∧ q <+: p

/-- Nothing changes outside `inside`. -/
def Changes (inside : Path → Prop) (t u : Tree β) : Prop := ∀ q, ¬ inside q → u q = t q

theorem addsDirs_refl (p : Path) (t : Tree β) : AddsDirs p t t := fun _ => .inl rfl

theorem addsDirs_trans (p : Path) (t u v : Tree β) (h : AddsDirs p t u) (k : AddsDirs p u v) :
    AddsDirs p t v := by
  intro q
  rcases k q with hk | ⟨hnone, hdir, hq⟩
  · rw [hk]
    exact h q
  · rcases h q with hh | ⟨-, hh, -⟩
    · exact .inr ⟨hh.symm.trans hnone, hdir, hq⟩
    · rw [hh] at hnone
      cases hnone

theorem changes_refl (inside : Path → Prop) (t : Tree β) : Changes inside t t := fun _ _ => rfl

theorem changes_trans (inside : Path → Prop) (t u v : Tree β) (h : Changes inside t u)
    (k : Changes inside u v) : Changes inside t v :=
  fun q hq => (k q hq).trans (h q hq)

/-- What is there outside `touched` stays as it is. -/
def Preserves (touched : Path → Prop) (t u : Tree β) : Prop :=
  ∀ q n, ¬ touched q → t q = some n → u q = some n

theorem preserves_refl (touched : Path → Prop) (t : Tree β) : Preserves touched t t :=
  fun _ _ _ h => h

theorem preserves_trans (touched : Path → Prop) (t u v : Tree β) (h : Preserves touched t u)
    (k : Preserves touched u v) : Preserves touched t v :=
  fun q n hq ht => k q n hq (h q n hq ht)

theorem Changes.preserves {inside touched : Path → Prop} {t u : Tree β} (h : Changes inside t u)
    (hin : ∀ q, inside q → touched q) : Preserves touched t u := by
  intro q n hq ht
  rw [h q fun hi => hq (hin q hi)]
  exact ht

theorem AddsDirs.preserves {p : Path} {t u : Tree β} (h : AddsDirs p t u) (touched : Path → Prop) :
    Preserves touched t u := by
  intro q n _ ht
  rcases h q with hq | ⟨hnone, -, -⟩
  · rw [hq]
    exact ht
  · rw [hnone] at ht
    cases ht

theorem changes_put (p : Path) (n : Option (Node β)) (t : Tree β) :
    Changes (· = p) t (put p n t) :=
  fun _ hq => if_neg hq

theorem changes_prune {p : Path} {gone : Path → Bool} (h : ∀ q, gone q = true → p <+: q)
    (t : Tree β) : Changes (p <+: ·) t (prune gone t) := by
  intro q hq
  exact if_neg fun hgone => hq (h q hgone)

theorem addsDirs_makeDir (fault : Option String) {p q : Path} (hq : q <+: p) :
    Keeps (makeDir fault q : Op β Unit) (AddsDirs p) := by
  refine (keeps_attempt (addsDirs_refl p) fault).bind (addsDirs_trans p) fun _ =>
    keeps_get_bind fun t => ?_
  split
  · rename_i hnone
    intro r
    by_cases hr : r = q
    · subst hr
      exact .inr ⟨hnone, if_pos rfl, hq⟩
    · exact .inl (if_neg hr)
  · exact addsDirs_refl p t
  · exact addsDirs_refl p t

theorem addsDirs_createDirAll (faults : Path → Option String) (p : Path) :
    Keeps (createDirAll faults p : Op β Unit) (AddsDirs p) :=
  Keeps.forM (addsDirs_refl p) (addsDirs_trans p) fun q hq =>
    addsDirs_makeDir (faults q) ((List.mem_inits q p).1 hq)

theorem reads_tryExists (fault : Option String) (p : Path) :
    Reads (tryExists fault p : Op β Bool) :=
  (reads_attempt fault).bind fun _ => keeps_get_bind fun _ => rfl

theorem reads_read (fault : Option String) (p : Path) :
    Reads (read fault p : Op β (Option β)) := by
  refine (reads_attempt fault).bind fun _ => keeps_get_bind fun t => ?_
  split <;> rfl

theorem changes_write (fault : Option (WriteFault β)) (p : Path) (content : β) :
    Keeps (write fault p content) (Changes (· = p)) := by
  refine keeps_get_bind fun t => ?_
  split
  · exact changes_refl _ t
  · cases fault with
    | none => exact changes_put p _ t
    | some f =>
      cases f with
      | opening err => exact changes_refl _ t
      | writing err written => exact changes_put p _ t
  · exact changes_refl _ t

theorem changes_removeFile (fault : Option String) (p : Path) :
    Keeps (removeFile fault p : Op β Unit) (Changes (· = p)) := by
  refine (keeps_attempt (changes_refl _) fault).bind (changes_trans _) fun _ =>
    keeps_get_bind fun t => ?_
  split
  · exact changes_put p none t
  · exact changes_refl _ t
  · exact changes_refl _ t

theorem changes_removeDirAll (fault : Option PartialRemoval) (p : Path) :
    Keeps (removeDirAll fault p : Op β Unit) (Changes (p <+: ·)) := by
  refine keeps_get_bind fun t => ?_
  split
  · exact changes_refl _ t
  · exact changes_refl _ t
  · exact changes_prune (fun q hq => List.isPrefixOf_iff_prefix.1 hq) t
  · exact changes_prune (fun q hq => List.isPrefixOf_iff_prefix.1 (Bool.and_eq_true_iff.1 hq).1) t

end Files
