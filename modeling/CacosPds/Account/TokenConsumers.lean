import CacosPds.Account.EmailTokens
/-!
# Who uses up an email token (`account/mod.rs:496-573`)

| here | there |
| --- | --- |
| `Consumer`      | the calls of `reset_password`, `confirm_email` and `assert_valid_email_token_and_cleanup` |
| `check`         | their first statement |
| `statements`    | what comes after it, in `try_join!` where there is more than one |
| `Step.create`   | `create_email_token`, at any time |

A call reads the token in one statement and deletes it, under the DID and the purpose, in a later
one; nothing is between the two. What a statement does to the other tables is left out, but not that
it may fail. Of the calls that come with a token at most one succeeds as long as none reads it
between the two statements of another and no used text is drawn again (`atMostOnce_of_apart`); where
one does, two may succeed (`not_atMostOnce_of_overlap`).
-/
namespace CacosPds.Account.EmailTokens

open Sql Runs

/-! ## The calls -/

inductive Consumer where
  | resetPassword (token : String)
  | confirmEmail (did token : String)
  | assertValidEmailTokenAndCleanup (did : String) (purpose : EmailTokenPurpose) (token : String)
  deriving DecidableEq

def Consumer.purpose : Consumer → EmailTokenPurpose
  | .resetPassword _ => .resetPassword
  | .confirmEmail _ _ => .confirmEmail
  | .assertValidEmailTokenAndCleanup _ purpose _ => purpose

def Consumer.token : Consumer → String
  | .resetPassword token => token
  | .confirmEmail _ token => token
  | .assertValidEmailTokenAndCleanup _ _ token => token

inductive Statement where
  | updateUserPassword | deleteEmailToken | revokeRefreshTokensByDid | setEmailConfirmedAt
  deriving DecidableEq

def Consumer.statements : Consumer → List Statement
  | .resetPassword _ => [.updateUserPassword, .deleteEmailToken, .revokeRefreshTokensByDid]
  | .confirmEmail _ _ => [.deleteEmailToken, .setEmailConfirmedAt]
  | .assertValidEmailTokenAndCleanup _ _ _ => [.deleteEmailToken]

theorem Consumer.deleteEmailToken_mem (what : Consumer) :
    .deleteEmailToken ∈ what.statements := by
  cases what <;> simp [Consumer.statements]

inductive Phase where
  | called
  | refused
  /-- The token was this DID's; `ok` while nothing has failed. -/
  | checked (did : String) (left : List Statement) (ok : Bool)
  deriving DecidableEq

structure Use where
  what : Consumer
  phase : Phase
  deriving DecidableEq

def Use.Succeeded (u : Use) : Prop := ∃ did, u.phase = .checked did [] true

/-- The table, and the calls in the order they began. -/
structure Site where
  tokens : TokenTable
  uses : List Use

def Site.start : Site := ⟨∅, []⟩

inductive Step where
  | create (now : Int) (sample : List Char) (did : String) (purpose : EmailTokenPurpose)
  | call (what : Consumer)
  | check (i : Nat) (now : Int) (fails : Bool)
  /-- The salt or the hash of a new password: none of the statements runs. -/
  | hashFails (i : Nat)
  | statement (i : Nat) (which : Statement) (fails : Bool)

variable (C : Clock) (L : Library)

/-- The DID whose token it is. -/
def check (now : Int) (tokens : TokenTable) : Consumer → Except String String
  | .resetPassword token =>
    assertValidTokenAndFindDid (libraryAt C L now) .resetPassword token tokens
  | .confirmEmail did token =>
    (assertValidToken (libraryAt C L now) did .confirmEmail token tokens).map fun _ => did
  | .assertValidEmailTokenAndCleanup did purpose token =>
    (assertValidToken (libraryAt C L now) did purpose token tokens).map fun _ => did

def checkStep (s : Site) (i : Nat) (now : Int) (fails : Bool) : Option Site :=
  match s.uses[i]? with
  | some ⟨what, .called⟩ =>
    let phase := if fails then .refused else
      match check C L now s.tokens what with
      | .error _ => .refused
      | .ok did => .checked did what.statements true
    some { s with uses := s.uses.set i ⟨what, phase⟩ }
  | _ => none

/-- With one failure the call has failed; a statement that is under way may still run. -/
def statementStep (s : Site) (i : Nat) (which : Statement) (fails : Bool) : Option Site :=
  match s.uses[i]? with
  | some ⟨what, .checked did left ok⟩ =>
    if which ∈ left then
      let phase := .checked did (left.filter fun x => decide (x ≠ which)) (ok && !fails)
      let tokens :=
        if which = .deleteEmailToken ∧ !fails then s.tokens.erase (what.purpose, did) else s.tokens
      some { s with tokens, uses := s.uses.set i ⟨what, phase⟩ }
    else none
  | _ => none

def hashStep (s : Site) (i : Nat) : Option Site :=
  match s.uses[i]? with
  | some ⟨.resetPassword token, .checked did left _⟩ =>
    if left = (Consumer.resetPassword token).statements then
      some { s with uses := s.uses.set i ⟨.resetPassword token, .checked did [] false⟩ }
    else none
  | _ => none

def consumerStep (s : Site) : Step → Option Site
  | .create now sample did purpose =>
    match createEmailToken C L now sample did purpose s.tokens with
    | none => some s
    | some (_, tokens) => some { s with tokens }
  | .call what => some { s with uses := s.uses ++ [⟨what, .called⟩] }
  | .check i now fails => checkStep C L s i now fails
  | .hashFails i => hashStep s i
  | .statement i which fails => statementStep s i which fails

/-! ## Single use -/

/-- The token a call comes with. -/
def Consumer.presented (what : Consumer) : EmailTokenPurpose × String :=
  (what.purpose, L.toUppercase what.token)

def AtMostOnce (s : Site) : Prop :=
  ∀ (i j : Nat) (u v : Use), s.uses[i]? = some u → s.uses[j]? = some v → u.Succeeded → v.Succeeded →
    u.what.presented L = v.what.presented L → i = j

/-- It has read the token and is to delete it. -/
def Use.Open (u : Use) : Prop :=
  ∃ did left, u.phase = .checked did left true ∧ .deleteEmailToken ∈ left

/-- No call reads a token that another one has read and is to delete. No text is drawn of a call
that has deleted it, or is to delete it for another account. -/
def Apart (s : Site) : Step → Prop
  | .create _ sample did purpose => ∀ random, getRandomToken sample = some random →
      ∀ u ∈ s.uses, u.what.presented L = (purpose, L.toUppercase random) →
        ∀ did' left, u.phase = .checked did' left true → did' = did ∧ .deleteEmailToken ∈ left
  | .check i now false => ∀ u : Use, s.uses[i]? = some u →
      ∀ did, check C L now s.tokens u.what = .ok did →
        ∀ v ∈ s.uses, v.what.presented L = u.what.presented L → ¬ v.Open
  | _ => True

/-! ## What a check has read -/

variable {C L} {s t : Site}

theorem lookup_of_findToken {purpose : EmailTokenPurpose} {token did : String} {row : EmailTokenRow}
    {tokens : TokenTable} (h : findToken purpose token tokens = some (did, row)) :
    tokens.lookup (purpose, did) = some row ∧ row.token = token := by
  obtain ⟨d, hhead, h⟩ := Option.bind_eq_some_iff.1 h
  obtain ⟨r, hrow, hpure⟩ := Option.bind_eq_some_iff.1 h
  cases hpure
  have hmem := List.mem_of_head? hhead
  rw [Multiset.mem_sort, Table.mem_select] at hmem
  obtain ⟨⟨p, d'⟩, r', hlookup, hp, hd⟩ := hmem
  simp only [Bool.and_eq_true, decide_eq_true_eq] at hp
  obtain ⟨rfl, htoken⟩ := hp
  obtain rfl : d' = did := hd
  obtain rfl := Option.some.inj (hrow.symm.trans hlookup)
  exact ⟨hrow, htoken⟩

theorem lookup_of_assertValidToken {now : Int} {did token : String} {purpose : EmailTokenPurpose}
    {tokens : TokenTable}
    (h : assertValidToken (libraryAt C L now) did purpose token tokens = .ok ()) :
    ∃ row, tokens.lookup (purpose, did) = some row ∧ row.token = L.toUppercase token := by
  unfold assertValidToken at h
  split at h
  · cases h
  · rename_i row hrow
    obtain ⟨hlookup, htoken⟩ := Option.filter_eq_some_iff.1 hrow
    exact ⟨row, hlookup, of_decide_eq_true htoken⟩

theorem map_ok {ε α β : Type} {x : Except ε α} {f : α → β} {b : β} (h : x.map f = .ok b) :
    ∃ a, x = .ok a ∧ f a = b := by
  cases x with
  | error e => cases h
  | ok a => exact ⟨a, rfl, Except.ok.inj h⟩

theorem lookup_of_check {now : Int} {tokens : TokenTable} {what : Consumer} {did : String}
    (h : check C L now tokens what = .ok did) :
    ∃ row, tokens.lookup (what.purpose, did) = some row ∧ row.token = (what.presented L).2 := by
  cases what with
  | resetPassword token =>
    change assertValidTokenAndFindDid (libraryAt C L now) .resetPassword token tokens = .ok did at h
    unfold assertValidTokenAndFindDid at h
    split at h
    · cases h
    · rename_i found row hfind
      obtain ⟨hlookup, htoken⟩ := lookup_of_findToken hfind
      obtain ⟨fresh, -, hdid⟩ := Stages.except_bind_ok.1 h
      split at hdid
      · cases hdid
        exact ⟨row, hlookup, htoken⟩
      · cases hdid
  | confirmEmail did' token =>
    obtain ⟨_, hvalid, rfl⟩ := map_ok h
    exact lookup_of_assertValidToken hvalid
  | assertValidEmailTokenAndCleanup did' purpose token =>
    obtain ⟨_, hvalid, rfl⟩ := map_ok h
    exact lookup_of_assertValidToken hvalid

theorem createEmailToken_some {now : Int} {sample : List Char} {did token : String}
    {purpose : EmailTokenPurpose} {tokens tokens' : TokenTable}
    (h : createEmailToken C L now sample did purpose tokens = some (token, tokens')) :
    (∃ random, getRandomToken sample = some random ∧ token = L.toUppercase random) ∧
      tokenTaken purpose did token tokens = false ∧
      tokens' = tokens.insert (purpose, did) ⟨token, C.now now⟩ := by
  unfold createEmailToken at h
  split at h
  · cases h
  · rename_i random hrandom
    dsimp only at h
    split at h
    · cases h
    · rename_i hfree
      cases h
      exact ⟨⟨random, hrandom, rfl⟩, Bool.eq_false_of_not_eq_true hfree, rfl⟩

/-! ## The invariant -/

/-- Nothing has failed since its token was accepted. -/
def Use.Viable (u : Use) : Prop := ∃ did left, u.phase = .checked did left true

/-- The token is this DID's; once it is deleted no row has it. -/
structure Use.Read (L : Library) (s : Site) (u : Use) (did : String) (left : List Statement) :
    Prop where
  home : ∀ d row, s.tokens.lookup (u.what.purpose, d) = some row →
    row.token = (u.what.presented L).2 → d = did
  gone : .deleteEmailToken ∉ left → ∀ d row, s.tokens.lookup (u.what.purpose, d) = some row →
    row.token ≠ (u.what.presented L).2

structure Single (L : Library) (s : Site) : Prop where
  unique : ∀ p d d' r r', s.tokens.lookup (p, d) = some r → s.tokens.lookup (p, d') = some r' →
    r.token = r'.token → d = d'
  read : ∀ u ∈ s.uses, ∀ did left, u.phase = .checked did left true → u.Read L s did left
  one : ∀ (i j : Nat) (u v : Use), s.uses[i]? = some u → s.uses[j]? = some v → u.Viable → v.Viable →
    u.what.presented L = v.what.presented L → i = j

theorem single_start (L : Library) : Single L .start where
  unique _ _ _ _ _ h := by cases h
  read := nofun
  one _ _ _ _ h := by cases h

theorem Single.atMostOnce (h : Single L s) : AtMostOnce L s := by
  rintro i j u v hu hv ⟨did, hdid⟩ ⟨did', hdid'⟩ hsame
  exact h.one i j u v hu hv ⟨did, _, hdid⟩ ⟨did', _, hdid'⟩ hsame

/-- A table with no other rows. -/
theorem Use.Read.mono {u : Use} {did : String} {left : List Statement} (h : u.Read L s did left)
    (hsub : ∀ k row, t.tokens.lookup k = some row → s.tokens.lookup k = some row) :
    u.Read L t did left where
  home d row hrow := h.home d row (hsub _ _ hrow)
  gone hleft d row hrow := h.gone hleft d row (hsub _ _ hrow)

/-- One use goes on; if it is viable, no other one is with its token. -/
theorem Single.set (h : Single L s) {i : Nat} {v : Use} (huses : t.uses = s.uses.set i v)
    (hsub : ∀ k row, t.tokens.lookup k = some row → s.tokens.lookup k = some row)
    (hrivals : v.Viable → ∀ (j : Nat) (w : Use), i ≠ j → s.uses[j]? = some w → w.Viable →
      w.what.presented L ≠ v.what.presented L)
    (hread : ∀ did left, v.phase = .checked did left true → v.Read L t did left) : Single L t where
  unique p d d' r r' hr hr' := h.unique p d d' r r' (hsub _ _ hr) (hsub _ _ hr')
  read := by
    rw [huses]
    refine forall_mem_set hread fun x hx did left hphase => ?_
    exact (h.read x hx did left hphase).mono hsub
  one j k x y hx hy hxv hyv hsame := by
    rw [huses] at hx hy
    let R (x y : Use) : Prop := x.Viable ∧ y.Viable ∧ x.what.presented L = y.what.presented L
    have hone : ∀ (j k : Nat) (x y : Use), s.uses[j]? = some x → s.uses[k]? = some y → R x y →
        j = k := fun j k x y hx hy hR => h.one j k x y hx hy hR.1 hR.2.1 hR.2.2
    refine eq_of_set (R := R) (fun x y hR => ⟨hR.2.1, hR.1, hR.2.2.symm⟩) hone ?_ hx hy
      ⟨hxv, hyv, hsame⟩
    exact fun m w him hw hR => hrivals hR.1 m w him hw hR.2.1 hR.2.2.symm

/-- A viable use is the only one with its token. -/
theorem Single.rivals (h : Single L s) {i : Nat} {u : Use} (hu : s.uses[i]? = some u)
    (hviable : u.Viable) (j : Nat) (w : Use) (hij : i ≠ j) (hw : s.uses[j]? = some w)
    (hwv : w.Viable) : w.what.presented L ≠ u.what.presented L := by
  intro hsame
  exact hij (h.one i j u w hu hw hviable hwv hsame.symm)

theorem not_viable_refused (what : Consumer) : ¬ (Use.mk what .refused).Viable := by
  rintro ⟨did, left, hphase⟩
  cases hphase

theorem not_viable_failed (what : Consumer) (did : String) (left : List Statement) :
    ¬ (Use.mk what (.checked did left false)).Viable := by
  rintro ⟨did', left', hphase⟩
  cases hphase

/-! ## The steps -/

theorem tokenTaken_ne {purpose : EmailTokenPurpose} {did did' token : String} {row : EmailTokenRow}
    {tokens : TokenTable} (hfree : tokenTaken purpose did token tokens = false)
    (hrow : tokens.lookup (purpose, did') = some row) (hne : did' ≠ did) : row.token ≠ token := by
  intro htoken
  have hno := Table.anyRow_eq_false.1 hfree _ _ hrow
  simp only [decide_true, Bool.true_and, Bool.and_eq_false_iff, decide_eq_false_iff_not] at hno
  exact hno.elim (fun h => h hne) fun h => h htoken

theorem Single.create (h : Single L s) {purpose : EmailTokenPurpose} {did token : String}
    (requestedAt : String) (hfree : tokenTaken purpose did token s.tokens = false)
    (hnew : ∀ u ∈ s.uses, u.what.presented L = (purpose, token) →
      ∀ did' left, u.phase = .checked did' left true → did' = did ∧ .deleteEmailToken ∈ left) :
    Single L { s with tokens := s.tokens.insert (purpose, did) ⟨token, requestedAt⟩ } where
  unique p d d' r r' hr hr' hsame := by
    rcases Table.lookup_insert_eq_some.1 hr with ⟨hk, rfl⟩ | ⟨-, hold⟩ <;>
      rcases Table.lookup_insert_eq_some.1 hr' with ⟨hk', rfl⟩ | ⟨-, hold'⟩
    · exact (Prod.mk.inj hk).2.trans (Prod.mk.inj hk').2.symm
    · obtain ⟨rfl, rfl⟩ := Prod.mk.inj hk
      by_contra hne
      exact tokenTaken_ne hfree hold' (Ne.symm hne) hsame.symm
    · obtain ⟨rfl, rfl⟩ := Prod.mk.inj hk'
      by_contra hne
      exact tokenTaken_ne hfree hold hne hsame
    · exact h.unique p d d' r r' hold hold' hsame
  read u hu d left hphase := by
    obtain ⟨hhome, hgone⟩ := h.read u hu d left hphase
    have hrows : ∀ d' row, (s.tokens.insert (purpose, did) ⟨token, requestedAt⟩).lookup
        (u.what.purpose, d') = some row → row.token = (u.what.presented L).2 →
        d' = d ∧ .deleteEmailToken ∈ left ∨ s.tokens.lookup (u.what.purpose, d') = some row := by
      intro d' row hrow htoken
      rcases Table.lookup_insert_eq_some.1 hrow with ⟨hk, rfl⟩ | ⟨-, hrow⟩
      · obtain ⟨hpurpose, rfl⟩ := Prod.mk.inj hk
        obtain ⟨rfl, hleft⟩ := hnew u hu (Prod.ext hpurpose htoken.symm) d left hphase
        exact Or.inl ⟨rfl, hleft⟩
      · exact Or.inr hrow
    constructor
    · intro d' row hrow htoken
      exact (hrows d' row hrow htoken).elim And.left fun hold => hhome d' row hold htoken
    · intro hleft d' row hrow htoken
      exact (hrows d' row hrow htoken).elim (fun hopen => hleft hopen.2)
        fun hold => hgone hleft d' row hold htoken
  one := h.one

/-- Who reads a token that nobody is about to delete is the only one: whoever had it has deleted
it. -/
theorem Single.check (h : Single L s) {i : Nat} {what : Consumer} {did : String} {now : Int}
    (hcheck : EmailTokens.check C L now s.tokens what = .ok did)
    (hapart : ∀ v ∈ s.uses, v.what.presented L = what.presented L → ¬ v.Open) :
    Single L { s with uses := s.uses.set i ⟨what, .checked did what.statements true⟩ } := by
  obtain ⟨row, hrow, htoken⟩ := lookup_of_check hcheck
  refine h.set rfl (fun _ _ hrow => hrow) ?_ ?_
  · rintro - j v - hv ⟨did', left, hphase⟩ hsame
    have hmem := List.mem_of_getElem? hv
    have hleft : .deleteEmailToken ∉ left := fun hopen =>
      hapart v hmem hsame ⟨did', left, hphase, hopen⟩
    obtain ⟨hpurpose, htext⟩ := Prod.mk.inj hsame
    refine (h.read v hmem did' left hphase).gone hleft did row (hpurpose ▸ hrow) ?_
    rw [htoken, hsame]
  · intro d left hphase
    cases hphase
    refine ⟨fun d row' hrow' htoken' => ?_, fun hleft => absurd what.deleteEmailToken_mem hleft⟩
    exact h.unique _ d did row' row hrow' hrow (htoken'.trans htoken.symm)

theorem Single.statement (h : Single L s) {i : Nat} {what : Consumer} {did : String}
    {left : List Statement} {ok : Bool} (hu : s.uses[i]? = some ⟨what, .checked did left ok⟩)
    (which : Statement) (fails : Bool) :
    Single L { s with
      tokens := if which = .deleteEmailToken ∧ !fails then s.tokens.erase (what.purpose, did)
        else s.tokens
      uses := s.uses.set i
        ⟨what, .checked did (left.filter fun x => decide (x ≠ which)) (ok && !fails)⟩ } := by
  have hsub : ∀ k row, (if which = .deleteEmailToken ∧ !fails then
      s.tokens.erase (what.purpose, did) else s.tokens).lookup k = some row →
        s.tokens.lookup k = some row := by
    intro k row hrow
    split at hrow
    · exact (Table.lookup_erase_eq_some.1 hrow).2
    · exact hrow
  refine h.set rfl hsub ?_ ?_
  · intro hviable
    cases ok with
    | false => exact absurd hviable (not_viable_failed _ _ _)
    | true =>
      have hrivals := h.rivals hu ⟨did, left, rfl⟩
      exact hrivals
  · intro d l hphase
    obtain ⟨rfl, rfl, hok⟩ := Phase.checked.inj hphase
    rw [Bool.and_eq_true, Bool.not_eq_true'] at hok
    obtain ⟨rfl, rfl⟩ := hok
    have hread := h.read _ (List.mem_of_getElem? hu) did left rfl
    refine { hread.mono hsub with gone := fun hleft d row hrow htoken => ?_ }
    by_cases hwhich : which = .deleteEmailToken
    · -- the row was this DID's, and it is deleted now
      have hd := hread.home d row (hsub _ _ hrow) htoken
      rw [if_pos ⟨hwhich, rfl⟩] at hrow
      exact (Table.lookup_erase_eq_some.1 hrow).1 (by rw [hd])
    · refine hread.gone (fun hold => hleft ?_) d row (hsub _ _ hrow) htoken
      exact List.mem_filter.2 ⟨hold, decide_eq_true (Ne.symm hwhich)⟩

theorem single_step {a : Step} (h : Single L s) (hC : Apart C L s a)
    (hstep : consumerStep C L s a = some t) : Single L t := by
  cases a with
  | create now sample did purpose =>
    unfold consumerStep at hstep
    dsimp only at hstep
    split at hstep
    · cases hstep
      exact h
    · rename_i token tokens hcreate
      cases hstep
      obtain ⟨⟨random, hrandom, rfl⟩, hfree, rfl⟩ := createEmailToken_some hcreate
      exact h.create _ hfree (hC random hrandom)
  | call what =>
    cases hstep
    refine ⟨h.unique, fun u hu did left hphase => ?_, fun i j u v hu hv huv hvv hsame => ?_⟩
    · rcases List.mem_append.1 hu with hu | hu
      · exact (h.read u hu did left hphase).mono fun _ _ hrow => hrow
      · obtain rfl := List.mem_singleton.1 hu
        cases hphase
    · have hold : ∀ (k : Nat) (w : Use), (s.uses ++ [⟨what, .called⟩])[k]? = some w → w.Viable →
          s.uses[k]? = some w := by
        rintro k w hw ⟨d, l, hphase⟩
        rcases getElem?_concat_eq_some hw with rfl | hw
        · cases hphase
        · exact hw
      exact h.one i j u v (hold i u hu huv) (hold j v hv hvv) huv hvv hsame
  | check i now fails =>
    change checkStep C L s i now fails = some t at hstep
    unfold checkStep at hstep
    split at hstep
    · rename_i what hu
      cases hstep
      have hrefused : Single L { s with uses := s.uses.set i ⟨what, .refused⟩ } :=
        h.set rfl (fun _ _ hrow => hrow) (fun hv => absurd hv (not_viable_refused what)) nofun
      cases fails with
      | true => exact hrefused
      | false =>
        rw [if_neg Bool.false_ne_true]
        cases hcheck : check C L now s.tokens what with
        | error e => exact hrefused
        | ok did => exact h.check hcheck fun v hv hsame => hC _ hu did hcheck v hv hsame
    · cases hstep
  | hashFails i =>
    change hashStep s i = some t at hstep
    unfold hashStep at hstep
    split at hstep
    · rename_i token did left ok hu
      obtain ⟨-, hsame⟩ := Option.ite_none_right_eq_some.1 hstep
      cases hsame
      exact h.set rfl (fun _ _ hrow => hrow) (fun hv => absurd hv (not_viable_failed _ did [])) nofun
    · cases hstep
  | statement i which fails =>
    change statementStep s i which fails = some t at hstep
    unfold statementStep at hstep
    split at hstep
    · rename_i what did left ok hu
      obtain ⟨-, hsame⟩ := Option.ite_none_right_eq_some.1 hstep
      cases hsame
      exact h.statement hu which fails
    · cases hstep

/-- **As long as no call reads a token between the two statements of another, and no used text is
drawn again, a token serves at most one call.** -/
theorem atMostOnce_of_apart (C : Clock) (L : Library) (as : List Step)
    (h : Along (consumerStep C L) (Apart C L) .start as) :
    Always (consumerStep C L) (AtMostOnce L) .start as :=
  (always_of_along (fun _ _ _ => single_step) (single_start L) as h).mono fun _ => Single.atMostOnce

/-! ## Two calls with one token -/

/-- The next statement of a call runs. -/
theorem statementStep_cons {i : Nat} {what : Consumer} {did : String} {which : Statement}
    {rest : List Statement} (hu : s.uses[i]? = some ⟨what, .checked did (which :: rest) true⟩) :
    ∃ t, statementStep s i which false = some t ∧ t.uses =
      s.uses.set i ⟨what, .checked did (rest.filter fun x => decide (x ≠ which)) true⟩ := by
  refine ⟨⟨if which = .deleteEmailToken ∧ !false then s.tokens.erase (what.purpose, did)
      else s.tokens,
    s.uses.set i ⟨what, .checked did (rest.filter fun x => decide (x ≠ which)) true⟩⟩, ?_, rfl⟩
  unfold statementStep
  rw [hu]
  simp

/-- A call whose token was accepted can go through. -/
theorem completes {i : Nat} {what : Consumer} {did : String} (left : List Statement) {s : Site}
    (hu : s.uses[i]? = some ⟨what, .checked did left true⟩) :
    ∃ as t, run (consumerStep C L) s as = some t ∧
      t.uses = s.uses.set i ⟨what, .checked did [] true⟩ := by
  induction hn : left.length using Nat.strong_induction_on generalizing s left with
  | _ n ih =>
    cases left with
    | nil =>
      obtain ⟨hlt, hget⟩ := List.getElem?_eq_some_iff.1 hu
      exact ⟨[], s, rfl, by rw [← hget, List.set_getElem_self]⟩
    | cons which rest =>
      obtain ⟨t, hstep, ht⟩ := statementStep_cons hu
      have hshorter : (rest.filter fun x => decide (x ≠ which)).length < n := by
        have := List.length_filter_le (fun x => decide (x ≠ which)) rest
        rw [List.length_cons] at hn
        omega
      have hlt := (List.getElem?_eq_some_iff.1 hu).1
      have hnext : t.uses[i]? = some ⟨what, .checked did
          (rest.filter fun x => decide (x ≠ which)) true⟩ := by
        rw [ht, List.getElem?_set_self hlt]
      obtain ⟨as, t', hrun, ht'⟩ := ih _ hshorter _ hnext rfl
      refine ⟨.statement i which false :: as, t', ?_, ?_⟩
      · rw [run_cons, show consumerStep C L s (.statement i which false) = some t from hstep]
        exact hrun
      · rw [ht', ht, List.set_set]

/-- **A token that two calls have read may serve both of them.** -/
theorem not_atMostOnce_of_overlap {i j : Nat} {u v : Use} (hij : i ≠ j) (hu : s.uses[i]? = some u)
    (hv : s.uses[j]? = some v) (huv : u.Viable) (hvv : v.Viable)
    (hsame : u.what.presented L = v.what.presented L) :
    ∃ as, ¬ Always (consumerStep C L) (AtMostOnce L) s as := by
  obtain ⟨what, phase⟩ := u
  obtain ⟨what', phase'⟩ := v
  obtain ⟨did, left, rfl⟩ := huv
  obtain ⟨did', left', rfl⟩ := hvv
  obtain ⟨as, t, hrun, ht⟩ := completes (C := C) (L := L) left hu
  have hv' : t.uses[j]? = some ⟨what', .checked did' left' true⟩ := by
    rw [ht, List.getElem?_set_ne hij]
    exact hv
  obtain ⟨bs, t', hrun', ht'⟩ := completes (C := C) (L := L) left' hv'
  refine ⟨as ++ bs, fun halways => hij ?_⟩
  have honce := halways.last (run_trans hrun hrun')
  have hlt := (List.getElem?_eq_some_iff.1 hu).1
  have hlt' := (List.getElem?_eq_some_iff.1 hv').1
  refine honce i j ⟨what, .checked did [] true⟩ ⟨what', .checked did' [] true⟩ ?_ ?_ ⟨did, rfl⟩
    ⟨did', rfl⟩ hsame
  · rw [ht', List.getElem?_set_ne hij.symm, ht, List.getElem?_set_self hlt]
  · rw [ht', List.getElem?_set_self hlt']

/-! ### Two clicks on one link -/

/-- Of the epoch only. -/
def epochClock : Clock where
  now _ := "1970-01-01T00:00:00.000Z"
  fromStrToUtc text := if text = "1970-01-01T00:00:00.000Z" then .ok 0 else .error "not the epoch"
  lessThanAgoS now t range := seconds now < seconds t + range

def henryToken : Step :=
  .create 0 "ab1cd8e0fghij2345klmnopqrstuvwxyzABCDEFGHIJKLMNOPQ".toList "did:plc:henry"
    .confirmEmail

def henryClicks : Consumer := .confirmEmail "did:plc:henry" "abcde-fghij"

/-- The first call is through before the second one looks. -/
def oneByOne : List Step :=
  [henryToken, .call henryClicks, .call henryClicks, .check 0 1000 false,
    .statement 0 .setEmailConfirmedAt false, .statement 0 .deleteEmailToken false,
    .check 1 1000 false]

/-- Both look before either deletes. -/
def atOnce : List Step :=
  [henryToken, .call henryClicks, .call henryClicks, .check 0 1000 false, .check 1 1000 false,
    .statement 0 .deleteEmailToken false, .statement 1 .deleteEmailToken false,
    .statement 0 .setEmailConfirmedAt false, .statement 1 .setEmailConfirmedAt false]

theorem uses_atOnce : ∃ s ∈ run (consumerStep epochClock asciiLibrary) .start atOnce,
    s.uses = [⟨henryClicks, .checked "did:plc:henry" [] true⟩,
      ⟨henryClicks, .checked "did:plc:henry" [] true⟩] := by
  decide +kernel

instance : DecidablePred Use.Open
  | ⟨_, .called⟩ | ⟨_, .refused⟩ => isFalse nofun
  | ⟨_, .checked did left ok⟩ => decidable_of_iff (ok = true ∧ .deleteEmailToken ∈ left)
      ⟨fun ⟨hok, hleft⟩ => ⟨did, left, by rw [hok], hleft⟩,
        fun ⟨_, _, hphase, hleft⟩ => by cases hphase; exact ⟨rfl, hleft⟩⟩

/-- Drawn at the start, read while nobody is to delete anything. -/
def Quiet (s : Site) : Step → Prop
  | .create .. => s.uses = []
  | .check .. => ∀ u ∈ s.uses, ¬ u.Open
  | _ => True

instance (s : Site) : DecidablePred (Quiet s)
  | .create .. => inferInstanceAs (Decidable (s.uses = []))
  | .check .. => inferInstanceAs (Decidable (∀ u ∈ s.uses, ¬ u.Open))
  | .call .. | .hashFails .. | .statement .. => isTrue trivial

theorem Quiet.apart {a : Step} (h : Quiet s a) : Apart C L s a := by
  cases a with
  | create now sample did purpose =>
    intro random _ u hu
    rw [show s.uses = [] from h] at hu
    cases hu
  | check i now fails =>
    cases fails with
    | true => trivial
    | false => exact fun _ _ _ _ v hv _ => h v hv
  | call | hashFails | statement => trivial

theorem atMostOnce_oneByOne :
    (∃ s ∈ run (consumerStep epochClock asciiLibrary) .start oneByOne,
      s.uses = [⟨henryClicks, .checked "did:plc:henry" [] true⟩, ⟨henryClicks, .refused⟩]) ∧
    Always (consumerStep epochClock asciiLibrary) (AtMostOnce asciiLibrary) .start oneByOne := by
  refine ⟨by decide +kernel, ?_⟩
  have hquiet : Along (consumerStep epochClock asciiLibrary) Quiet .start oneByOne := by
    decide +kernel
  exact atMostOnce_of_apart _ _ _ (hquiet.mono fun _ _ => Quiet.apart)

theorem two_clicks_confirm : ¬ ∀ (C : Clock) (L : Library) (as : List Step),
    Always (consumerStep C L) (AtMostOnce L) .start as := by
  intro hall
  obtain ⟨s, hs, huses⟩ := uses_atOnce
  have honce := (hall epochClock asciiLibrary atOnce).last hs
  exact absurd (honce 0 1 _ _ (by rw [huses]; rfl) (by rw [huses]; rfl) ⟨_, rfl⟩ ⟨_, rfl⟩ rfl)
    Nat.zero_ne_one

end CacosPds.Account.EmailTokens
