import Mathlib.Data.List.Basic
/-!
# Calls that fail half way

A call on a state gives an answer or an error; what it wrote before the error stays written
(`Call`). A call is known by three facts: where it succeeds and what it then does (`Does`), what it
changes nothing of when it fails (`Clean`), and what it never changes, failing or not (`Keeps`).
Each composes along `>>=` and along a loop over a list, so that a procedure of several committed
stages is described by those of its stages.
-/
namespace Stages

/-- A computation over a state `σ`; the state also stands after an error. -/
abbrev Call (σ ε α : Type) := ExceptT ε (StateM σ) α

variable {σ ε α β : Type}

/-- The answer or the error of a call from a state, and the state it leaves. -/
def Call.exec (x : Call σ ε α) (s : σ) : Except ε α × σ := x.run s

@[simp] theorem exec_pure (a : α) (s : σ) : (pure a : Call σ ε α).exec s = (.ok a, s) := rfl

@[simp] theorem exec_throw (e : ε) (s : σ) :
    (throw e : Call σ ε α).exec s = (.error e, s) := rfl

@[simp] theorem exec_get (s : σ) : (get : Call σ ε σ).exec s = (.ok s, s) := rfl

@[simp] theorem exec_modify (f : σ → σ) (s : σ) :
    (modify f : Call σ ε PUnit).exec s = (.ok ⟨⟩, f s) := rfl

theorem exec_bind (x : Call σ ε α) (f : α → Call σ ε β) (s : σ) :
    (x >>= f).exec s = match x.exec s with
      | (.ok a, t) => (f a).exec t
      | (.error e, t) => (.error e, t) := by
  show (ExceptT.bindCont f (x.run s).1).run (x.run s).2 = _
  unfold Call.exec
  rcases x.run s with ⟨_ | _, _⟩ <;> rfl

theorem exec_bind_ok {x : Call σ ε α} {f : α → Call σ ε β} {s u : σ} {b : β} :
    (x >>= f).exec s = (.ok b, u) ↔
      ∃ a t, x.exec s = (.ok a, t) ∧ (f a).exec t = (.ok b, u) := by
  rw [exec_bind]
  rcases x.exec s with ⟨e | a, t⟩
  · simp
  · simp [eq_comm]

theorem exec_bind_error {x : Call σ ε α} {f : α → Call σ ε β} {s u : σ} {e : ε} :
    (x >>= f).exec s = (.error e, u) ↔ x.exec s = (.error e, u) ∨
      ∃ a t, x.exec s = (.ok a, t) ∧ (f a).exec t = (.error e, u) := by
  rw [exec_bind]
  rcases x.exec s with ⟨e' | a, t⟩
  · simp
  · simp [eq_comm]

/-- Fail with the given error, if there is one. -/
def attempt (err : Option ε) : Call σ ε Unit :=
  match err with
  | some e => throw e
  | none => pure ()

@[simp] theorem exec_attempt (err : Option ε) (s : σ) :
    (attempt err : Call σ ε Unit).exec s = (err.elim (.ok ()) .error, s) := by
  cases err <;> rfl

/-- One statement: refused where it stands, or applied. -/
def statement (refuse : σ → Option ε) (f : σ → σ) : Call σ ε Unit := do
  let s ← get
  match refuse s with
  | some e => throw e
  | none => modify f

theorem exec_statement (refuse : σ → Option ε) (f : σ → σ) (s : σ) :
    (statement refuse f).exec s = (refuse s).elim (.ok (), f s) fun e => (.error e, s) := by
  rw [statement, exec_bind, exec_get]
  dsimp only
  cases refuse s <;> rfl

/-- A call whose error is looked at. -/
def outcome (x : Call σ ε α) : Call σ ε (Except ε α) := ExceptT.lift x.run

@[simp] theorem exec_outcome (x : Call σ ε α) (s : σ) :
    (outcome x).exec s = (.ok (x.exec s).1, (x.exec s).2) := rfl

/-! ## Pure answers -/

@[simp] theorem exec_ofExcept (x : Except ε α) (s : σ) :
    (ofExcept x : Call σ ε α).exec s = (x, s) := by
  cases x <;> rfl

theorem except_bind_ok {x : Except ε α} {f : α → Except ε β} {b : β} :
    (x >>= f) = .ok b ↔ ∃ a, x = .ok a ∧ f a = .ok b := by
  cases x <;> simp [bind, Except.bind]

theorem except_mapError_ok {f : ε → β} {x : Except ε α} {a : α} :
    x.mapError f = .ok a ↔ x = .ok a := by
  cases x <;> simp [Except.mapError]

/-- A traversal each of whose rounds answers `g` or fails. -/
theorem mapM_ok {f : α → Except ε β} {ok : α → Prop} {g : α → β}
    (h : ∀ a b, f a = .ok b ↔ ok a ∧ b = g a) (as : List α) (bs : List β) :
    as.mapM f = .ok bs ↔ (∀ a ∈ as, ok a) ∧ bs = as.map g := by
  induction as generalizing bs with
  | nil => simp [pure, Except.pure, eq_comm]
  | cons a as ih =>
    simp only [List.mapM_cons, except_bind_ok, h, ih, pure, Except.pure, Except.ok.injEq]
    constructor
    · rintro ⟨b, ⟨ha, rfl⟩, cs, ⟨has, rfl⟩, rfl⟩
      exact ⟨List.forall_mem_cons.2 ⟨ha, has⟩, rfl⟩
    · rintro ⟨hall, rfl⟩
      obtain ⟨ha, has⟩ := List.forall_mem_cons.1 hall
      exact ⟨_, ⟨ha, rfl⟩, _, ⟨has, rfl⟩, rfl⟩

/-- A loop of calls that change nothing. -/
theorem exec_mapM {f : α → Call σ ε β} {g : α → Except ε β} {s : σ} (h : ∀ a, (f a).exec s = (g a, s))
    (as : List α) : (as.mapM f).exec s = (as.mapM g, s) := by
  induction as with
  | nil => rfl
  | cons a as ih =>
    rw [List.mapM_cons, List.mapM_cons, exec_bind, h]
    cases g a with
    | error e => rfl
    | ok b =>
      dsimp only
      rw [exec_bind, ih]
      cases as.mapM g <;> rfl

/-! ## Success -/

/-- `x` succeeds exactly where `ok` holds, and then does `g`. -/
def Does (x : Call σ ε Unit) (ok : σ → Prop) (g : σ → σ) : Prop :=
  ∀ s t, x.exec s = (.ok (), t) ↔ ok s ∧ t = g s

theorem Does.exists_iff {x : Call σ ε Unit} {ok : σ → Prop} {g : σ → σ} (h : Does x ok g) (s : σ) :
    (∃ t, x.exec s = (.ok (), t)) ↔ ok s := by
  constructor
  · rintro ⟨t, ht⟩
    exact ((h s t).1 ht).1
  · exact fun hok => ⟨g s, (h s _).2 ⟨hok, rfl⟩⟩

theorem Does.fst_eq_ok_iff {x : Call σ ε Unit} {ok : σ → Prop} {g : σ → σ} (h : Does x ok g)
    (s : σ) : (x.exec s).1 = .ok () ↔ ok s := by
  rw [← h.exists_iff s]
  constructor
  · exact fun hx => ⟨(x.exec s).2, Prod.ext hx rfl⟩
  · rintro ⟨t, ht⟩
    rw [ht]

theorem does_modify (f : σ → σ) : Does (modify f : Call σ ε Unit) (fun _ => True) f := by
  intro s t
  rw [exec_modify, Prod.mk.injEq]
  exact ⟨fun h => ⟨trivial, h.2.symm⟩, fun h => ⟨rfl, h.2.symm⟩⟩

theorem does_attempt_modify (err : Option ε) (f : σ → σ) :
    Does (attempt err >>= fun _ => modify f : Call σ ε Unit) (fun _ => err = none) f := by
  intro s t
  rw [exec_bind, exec_attempt]
  cases err <;> simp [eq_comm]

theorem does_statement (refuse : σ → Option ε) (f : σ → σ) :
    Does (statement refuse f) (fun s => refuse s = none) f := by
  intro s t
  rw [exec_statement]
  cases hr : refuse s <;> simp [hr, eq_comm]

theorem does_pure : Does (pure () : Call σ ε Unit) (fun _ => True) id := by
  intro s t
  rw [exec_pure, Prod.mk.injEq]
  exact ⟨fun h => ⟨trivial, h.2.symm⟩, fun h => ⟨rfl, h.2.symm⟩⟩

theorem Does.congr {x : Call σ ε Unit} {p q : σ → Prop} {f g : σ → σ} (h : Does x p f)
    (hpq : ∀ s, p s ↔ q s) (hfg : ∀ s, q s → f s = g s) : Does x q g := by
  intro s t
  rw [h s t, hpq s]
  exact and_congr_right fun hq => by rw [hfg s hq]

theorem Does.bind {x y : Call σ ε Unit} {p q : σ → Prop} {f g : σ → σ} (hx : Does x p f)
    (hy : Does y q g) : Does (x >>= fun _ => y) (fun s => p s ∧ q (f s)) (fun s => g (f s)) := by
  intro s u
  rw [exec_bind_ok]
  constructor
  · rintro ⟨_, t, h₁, h₂⟩
    obtain ⟨hp, rfl⟩ := (hx s t).1 h₁
    obtain ⟨hq, rfl⟩ := (hy (f s) u).1 h₂
    exact ⟨⟨hp, hq⟩, rfl⟩
  · rintro ⟨⟨hp, hq⟩, rfl⟩
    exact ⟨(), f s, (hx s _).2 ⟨hp, rfl⟩, (hy (f s) _).2 ⟨hq, rfl⟩⟩

/-- A loop succeeds when every round does, each from where the rounds before it got. -/
theorem Does.forM {f : α → Call σ ε Unit} {ok : α → σ → Prop} {g : σ → α → σ}
    (h : ∀ a, Does (f a) (ok a) (g · a)) (as : List α) :
    Does (forM as f)
      (fun s => ∀ n a, as[n]? = some a → ok a ((as.take n).foldl g s)) (as.foldl g) := by
  induction as with
  | nil =>
    intro s t
    rw [List.forM_nil]
    constructor
    · rintro ⟨⟩
      exact ⟨fun n a hn => by simp at hn, rfl⟩
    · rintro ⟨-, rfl⟩
      rfl
  | cons a as ih =>
    intro s t
    rw [List.forM_cons, (h a).bind ih s t]
    refine and_congr_left fun _ => ⟨?_, ?_⟩
    · rintro ⟨h₀, hrest⟩ n b hn
      cases n with
      | zero => cases hn; exact h₀
      | succ n => exact hrest n b hn
    · intro hall
      exact ⟨hall 0 a rfl, fun n b hn => hall (n + 1) b hn⟩

/-- What a loop over numbered elements meets in round `n`. -/
theorem getElem?_zipIdx_eq_some {as : List α} {n : Nat} {an : α × Nat} :
    as.zipIdx[n]? = some an ↔ as[n]? = some an.1 ∧ an.2 = n := by
  obtain ⟨a, k⟩ := an
  rw [List.getElem?_zipIdx, Option.map_eq_some_iff]
  constructor
  · rintro ⟨b, hb, he⟩
    cases he
    exact ⟨hb, Nat.zero_add n⟩
  · rintro ⟨ha, rfl⟩
    exact ⟨a, ha, by rw [Nat.zero_add]⟩

/-- A loop over numbered elements succeeds when every round does. -/
theorem does_forM_zipIdx {f : α × Nat → Call σ ε Unit} {ok : α × Nat → σ → Prop}
    {g : σ → α × Nat → σ} (h : ∀ an, Does (f an) (ok an) (g · an)) (as : List α) :
    Does (forM as.zipIdx f)
      (fun s => ∀ n a, as[n]? = some a → ok (a, n) ((as.zipIdx.take n).foldl g s))
      (as.zipIdx.foldl g) := by
  refine (Does.forM h as.zipIdx).congr (fun s => ?_) fun _ _ => rfl
  constructor
  · intro hall n a ha
    exact hall n (a, n) (getElem?_zipIdx_eq_some.2 ⟨ha, rfl⟩)
  · rintro hall n ⟨a, k⟩ hn
    obtain ⟨ha, rfl⟩ := getElem?_zipIdx_eq_some.1 hn
    exact hall _ a ha

/-! ## Failure -/

/-- Where `x` fails it has changed nothing. -/
def Clean (x : Call σ ε α) : Prop := ∀ s e t, x.exec s = (.error e, t) → t = s

theorem clean_statement (refuse : σ → Option ε) (f : σ → σ) : Clean (statement refuse f) := by
  intro s e t h
  rw [exec_statement] at h
  cases hr : refuse s <;> rw [hr] at h <;> cases h
  rfl

/-- A clean access, and then an update that cannot fail. -/
theorem Clean.bind_modify {x : Call σ ε Unit} (hx : Clean x) (f : σ → σ) :
    Clean (x >>= fun _ => modify f) := by
  intro s e t h
  rcases exec_bind_error.1 h with h | ⟨_, u, -, h⟩
  · exact hx s e t h
  · cases h

/-- A loop of clean rounds fails at its first round that does, after the rounds before it. -/
theorem forM_error {f : α → Call σ ε Unit} {ok : α → σ → Prop} {g : σ → α → σ}
    (h : ∀ a, Does (f a) (ok a) (g · a)) (hc : ∀ a, Clean (f a)) {as : List α} {s t : σ} {e : ε}
    (he : (forM as f).exec s = (.error e, t)) :
    ∃ n a, as[n]? = some a ∧ (∀ m b, m < n → as[m]? = some b → ok b ((as.take m).foldl g s)) ∧
      ¬ ok a ((as.take n).foldl g s) ∧ t = (as.take n).foldl g s := by
  induction as generalizing s with
  | nil => cases he
  | cons a as ih =>
    rw [List.forM_cons, exec_bind_error] at he
    rcases he with h₀ | ⟨_, u, h₁, h₂⟩
    · have hs := hc a s e t h₀
      subst hs
      refine ⟨0, a, rfl, fun m b hm => absurd hm (Nat.not_lt_zero m), fun hok => ?_, rfl⟩
      have hgood := (h a t _).2 ⟨hok, rfl⟩
      rw [h₀] at hgood
      cases hgood
    · obtain ⟨hok, rfl⟩ := (h a s u).1 h₁
      obtain ⟨n, b, hn, hbefore, hfail, ht⟩ := ih h₂
      refine ⟨n + 1, b, hn, fun m c hm hc' => ?_, hfail, ht⟩
      cases m with
      | zero => cases hc'; exact hok
      | succ m => exact hbefore m c (Nat.lt_of_succ_lt_succ hm) hc'

/-! ## Frames -/

/-- What `x` leaves stands in `R` to what it found, failing or not. -/
def Keeps (x : Call σ ε α) (R : σ → σ → Prop) : Prop := ∀ s, R s (x.exec s).2

variable {R : σ → σ → Prop}

theorem Keeps.mono {x : Call σ ε α} {Q : σ → σ → Prop} (h : Keeps x R) (hq : ∀ s t, R s t → Q s t) :
    Keeps x Q :=
  fun s => hq _ _ (h s)

theorem keeps_pure (refl : ∀ s, R s s) (a : α) : Keeps (pure a : Call σ ε α) R := refl

theorem keeps_throw (refl : ∀ s, R s s) (e : ε) : Keeps (throw e : Call σ ε α) R := refl

theorem keeps_attempt (refl : ∀ s, R s s) (err : Option ε) : Keeps (attempt err : Call σ ε Unit) R := by
  intro s
  rw [exec_attempt]
  exact refl s

theorem keeps_get (refl : ∀ s, R s s) : Keeps (get : Call σ ε σ) R := refl

theorem keeps_modify {f : σ → σ} (h : ∀ s, R s (f s)) : Keeps (modify f : Call σ ε PUnit) R := h

theorem keeps_statement (refl : ∀ s, R s s) (refuse : σ → Option ε) {f : σ → σ}
    (h : ∀ s, refuse s = none → R s (f s)) : Keeps (statement refuse f) R := by
  intro s
  rw [exec_statement]
  cases hr : refuse s with
  | none => exact h s hr
  | some e => exact refl s

theorem keeps_bind_from (trans : ∀ s t u, R s t → R t u → R s u) {x : Call σ ε α}
    {f : α → Call σ ε β} {s : σ} (hx : R s (x.exec s).2) (hf : ∀ a, Keeps (f a) R) :
    R s ((x >>= f).exec s).2 := by
  rw [exec_bind]
  split
  · rename_i a t ht
    rw [ht] at hx
    exact trans _ _ _ hx (hf a t)
  · rename_i e t ht
    rw [ht] at hx
    exact hx

theorem Keeps.bind (trans : ∀ s t u, R s t → R t u → R s u) {x : Call σ ε α}
    {f : α → Call σ ε β} (hx : Keeps x R) (hf : ∀ a, Keeps (f a) R) : Keeps (x >>= f) R :=
  fun s => keeps_bind_from trans (hx s) hf

/-- A call that reads the state it goes on from. -/
theorem keeps_get_bind {f : σ → Call σ ε α} (h : ∀ s, R s ((f s).exec s).2) :
    Keeps (get >>= f) R := by
  intro s
  rw [exec_bind, exec_get]
  exact h s

/-- A call that goes on with a pure answer, if there is one. -/
theorem keeps_ofExcept_bind (refl : ∀ s, R s s) {x : Except ε α} {f : α → Call σ ε β}
    (h : ∀ a, x = .ok a → Keeps (f a) R) : Keeps (ofExcept x >>= f) R := by
  intro s
  rw [exec_bind, exec_ofExcept]
  cases x with
  | error e => exact refl s
  | ok a => exact h a rfl s

theorem Keeps.forM (refl : ∀ s, R s s) (trans : ∀ s t u, R s t → R t u → R s u)
    {f : α → Call σ ε Unit} {as : List α} (hf : ∀ a ∈ as, Keeps (f a) R) : Keeps (forM as f) R := by
  induction as with
  | nil => exact refl
  | cons a as ih =>
    obtain ⟨ha, has⟩ := List.forall_mem_cons.1 hf
    rw [List.forM_cons]
    exact ha.bind trans fun _ => ih has

/-! ## Reading -/

/-- The call changes nothing. -/
def Reads (x : Call σ ε α) : Prop := Keeps x fun s t => t = s

theorem reads_pure (a : α) : Reads (pure a : Call σ ε α) := fun _ => rfl

theorem reads_throw (e : ε) : Reads (throw e : Call σ ε α) := fun _ => rfl

theorem reads_attempt (err : Option ε) : Reads (attempt err : Call σ ε Unit) :=
  keeps_attempt (R := fun s t => t = s) (fun _ => rfl) err

theorem Reads.bind {x : Call σ ε α} {f : α → Call σ ε β} (hx : Reads x) (hf : ∀ a, Reads (f a)) :
    Reads (x >>= f) :=
  Keeps.bind (fun _ _ _ h k => k.trans h) hx hf

theorem Reads.eq {x : Call σ ε α} (h : Reads x) {s t : σ} {r : Except ε α}
    (ht : x.exec s = (r, t)) : t = s := by
  have hs := h s
  rw [ht] at hs
  exact hs

theorem Reads.keeps {x : Call σ ε α} (h : Reads x) (refl : ∀ s, R s s) : Keeps x R := by
  intro s
  rw [show (x.exec s).2 = s from h s]
  exact refl s

theorem Reads.clean {x : Call σ ε α} (h : Reads x) : Clean x := fun _ _ _ ht => h.eq ht

theorem reads_ofExcept (x : Except ε α) : Reads (ofExcept x : Call σ ε α) := by
  intro s
  rw [exec_ofExcept]

theorem Reads.bind_clean {x : Call σ ε α} {f : α → Call σ ε β} (hx : Reads x)
    (hf : ∀ a, Clean (f a)) : Clean (x >>= f) := by
  intro s e t h
  rcases exec_bind_error.1 h with hfail | ⟨a, u, hu, hfail⟩
  · exact hx.eq hfail
  · obtain rfl := hx.eq hu
    exact hf a u e t hfail

/-- A clean call, and then its answer. -/
theorem Clean.bind_pure {x : Call σ ε α} (hx : Clean x) (g : α → β) :
    Clean (x >>= fun a => pure (g a)) := by
  intro s e t h
  rcases exec_bind_error.1 h with h | ⟨a, u, -, h⟩
  · exact hx s e t h
  · cases h

theorem exec_bind_pure_ok {x : Call σ ε α} {g : α → β} {s t : σ} {b : β} :
    (x >>= fun a => pure (g a)).exec s = (.ok b, t) ↔ ∃ a, x.exec s = (.ok a, t) ∧ b = g a := by
  rw [exec_bind_ok]
  constructor
  · rintro ⟨a, u, hx, hb⟩
    cases hb
    exact ⟨a, hx, rfl⟩
  · rintro ⟨a, hx, rfl⟩
    exact ⟨a, t, hx, rfl⟩

/-! ## Changes that come with success -/

variable {τ : Type}

/-- What `read` sees becomes `g` of it where the call succeeds, and else stays. -/
structure Sets (read : σ → τ) (g : τ → τ) (x : Call σ ε α) : Prop where
  error : ∀ {s e t}, x.exec s = (.error e, t) → read t = read s
  ok : ∀ {s a t}, x.exec s = (.ok a, t) → read t = g (read s)

section

variable {read : σ → τ} {g : τ → τ}

theorem Keeps.sets {x : Call σ ε α} (h : Keeps x fun s t => read t = read s) : Sets read id x := by
  constructor
  · intro s e t hx
    have hs := h s
    rwa [hx] at hs
  · intro s a t hx
    have hs := h s
    rwa [hx] at hs

theorem sets_statement (refuse : σ → Option ε) {f : σ → σ} (h : ∀ s, read (f s) = g (read s)) :
    Sets read g (statement refuse f) := by
  constructor
  · intro s e t hx
    rw [clean_statement refuse f s e t hx]
  · intro s a t hx
    obtain ⟨-, rfl⟩ := (does_statement refuse f s t).1 hx
    exact h s

/-- The change is that of the last call. -/
theorem Sets.bind {x : Call σ ε α} {f : α → Call σ ε β} (hx : Sets read id x)
    (hf : ∀ a, Sets read g (f a)) : Sets read g (x >>= f) := by
  constructor
  · intro s e t h
    rcases exec_bind_error.1 h with h | ⟨a, u, hu, h⟩
    · exact hx.error h
    · exact ((hf a).error h).trans (hx.ok hu)
  · intro s b t h
    obtain ⟨a, u, hu, h⟩ := exec_bind_ok.1 h
    exact ((hf a).ok h).trans (congrArg g (hx.ok hu))

theorem Sets.bind_pure {x : Call σ ε α} (hx : Sets read g x) (h : α → β) :
    Sets read g (x >>= fun a => pure (h a)) := by
  constructor
  · intro s e t hs
    rcases exec_bind_error.1 hs with hs | ⟨a, u, -, hs⟩
    · exact hx.error hs
    · cases hs
  · intro s b t hs
    obtain ⟨a, hs, -⟩ := exec_bind_pure_ok.1 hs
    exact hx.ok hs

end

/-! ## Errors caught, and calls on a part of the state -/

variable {ε' : Type}

/-- `match x { Err(e) => h(e), .. }`. -/
def rescue (x : Call σ ε α) (h : ε → Call σ ε' α) : Call σ ε' α :=
  ExceptT.mk fun s =>
    match x.exec s with
    | (.ok a, t) => (.ok a, t)
    | (.error e, t) => (h e).exec t

theorem exec_rescue (x : Call σ ε α) (h : ε → Call σ ε' α) (s : σ) :
    (rescue x h).exec s = match x.exec s with
      | (.ok a, t) => (.ok a, t)
      | (.error e, t) => (h e).exec t := rfl

/-- The same call under another error. -/
def mapError (f : ε → ε') (x : Call σ ε α) : Call σ ε' α := rescue x fun e => throw (f e)

theorem exec_mapError (f : ε → ε') (x : Call σ ε α) (s : σ) :
    (mapError f x).exec s = ((x.exec s).1.mapError f, (x.exec s).2) := by
  rw [mapError, exec_rescue]
  rcases x.exec s with ⟨_ | _, _⟩ <;> rfl

/-- A call whose failure does not matter. -/
def ignore (x : Call σ ε Unit) : Call σ ε' Unit := rescue x fun _ => pure ()

theorem exec_ignore (x : Call σ ε Unit) (s : σ) :
    (ignore x : Call σ ε' Unit).exec s = (.ok (), (x.exec s).2) := by
  rw [ignore, exec_rescue]
  rcases x.exec s with ⟨_ | _, _⟩ <;> rfl

/-- A call on a part of the state. -/
def zoom (read : σ → τ) (write : τ → σ → σ) (x : Call τ ε α) : Call σ ε α :=
  ExceptT.mk fun s => ((x.exec (read s)).1, write (x.exec (read s)).2 s)

theorem exec_zoom (read : σ → τ) (write : τ → σ → σ) (x : Call τ ε α) (s : σ) :
    (zoom read write x).exec s = ((x.exec (read s)).1, write (x.exec (read s)).2 s) := rfl

/-- A transaction: the call in full, or nothing of it. -/
def atomically (x : Call σ ε α) : Call σ ε α :=
  ExceptT.mk fun s =>
    match x.exec s with
    | (.ok a, t) => (.ok a, t)
    | (.error e, _) => (.error e, s)

theorem exec_atomically (x : Call σ ε α) (s : σ) :
    (atomically x).exec s = match x.exec s with
      | (.ok a, t) => (.ok a, t)
      | (.error e, _) => (.error e, s) := rfl

theorem atomically_ok {x : Call σ ε α} {s t : σ} {a : α} :
    (atomically x).exec s = (.ok a, t) ↔ x.exec s = (.ok a, t) := by
  rw [exec_atomically]
  rcases x.exec s with ⟨_ | _, _⟩ <;> simp

theorem clean_atomically (x : Call σ ε α) : Clean (atomically x) := by
  intro s e t h
  rw [exec_atomically] at h
  split at h <;> cases h
  rfl

theorem Keeps.rescue (trans : ∀ s t u, R s t → R t u → R s u) {x : Call σ ε α}
    {h : ε → Call σ ε' α} (hx : Keeps x R) (hh : ∀ e, Keeps (h e) R) : Keeps (rescue x h) R := by
  intro s
  have hs := hx s
  rw [exec_rescue]
  split
  · rename_i a t ht
    rw [ht] at hs
    exact hs
  · rename_i e t ht
    rw [ht] at hs
    exact trans _ _ _ hs (hh e t)

theorem Keeps.mapError {x : Call σ ε α} (hx : Keeps x R) (f : ε → ε') : Keeps (mapError f x) R := by
  intro s
  rw [exec_mapError]
  exact hx s

theorem Keeps.ignore {x : Call σ ε Unit} (hx : Keeps x R) :
    Keeps (ignore x : Call σ ε' Unit) R := by
  intro s
  rw [exec_ignore]
  exact hx s

/-- What a call keeps of the part. -/
theorem Keeps.zoom {Q : τ → τ → Prop} {read : σ → τ} {write : τ → σ → σ} {x : Call τ ε α}
    (hx : Keeps x Q) (h : ∀ s t, Q (read s) t → R s (write t s)) : Keeps (zoom read write x) R :=
  fun s => h s _ (hx (read s))

theorem keeps_zoom {read : σ → τ} {write : τ → σ → σ} (x : Call τ ε α)
    (h : ∀ s t, R s (write t s)) : Keeps (zoom read write x) R :=
  fun s => h s _

theorem Does.mapError {x : Call σ ε Unit} {ok : σ → Prop} {g : σ → σ} (h : Does x ok g)
    (f : ε → ε') : Does (mapError f x) ok g := by
  intro s t
  rw [exec_mapError, Prod.mk.injEq, except_mapError_ok, ← h s t, Prod.ext_iff]

theorem does_ignore (x : Call σ ε Unit) :
    Does (ignore x : Call σ ε' Unit) (fun _ => True) fun s => (x.exec s).2 := by
  intro s t
  rw [exec_ignore, Prod.mk.injEq]
  exact ⟨fun h => ⟨trivial, h.2.symm⟩, fun h => ⟨rfl, h.2.symm⟩⟩

theorem Does.zoom {read : σ → τ} {write : τ → σ → σ} {x : Call τ ε Unit} {ok : τ → Prop}
    {g : τ → τ} (h : Does x ok g) :
    Does (zoom read write x) (fun s => ok (read s)) fun s => write (g (read s)) s := by
  intro s t
  rw [exec_zoom, Prod.mk.injEq]
  constructor
  · rintro ⟨hx, rfl⟩
    obtain ⟨hok, hg⟩ := (h (read s) _).1 (Prod.ext hx rfl)
    exact ⟨hok, congrArg (write · s) hg⟩
  · rintro ⟨hok, rfl⟩
    rw [(h (read s) _).2 ⟨hok, rfl⟩]
    exact ⟨rfl, rfl⟩

end Stages
