import Mathlib
import CacosPds.Account.Credentials
import CacosPds.Lib.Run
/-!
# Email tokens over their history (`helpers/email_token.rs:68-188`)

| here | there |
| --- | --- |
| `getRandomToken`      | `get_random_token` (`email_token.rs:70`), of the 50 characters it draws |
| `createEmailToken`    | `create_email_token` (`:80`), with the unique index on `(purpose, token)` |
| `assertValidToken`    | `assert_valid_token` (`:104`), in `Account/Credentials` |
| `assertValidTokenAndFindDid` | `assert_valid_token_and_find_did` (`:137`) |
| `TokenStep.delete`, `.deleteAll` | `delete_email_token` (`:169`), `delete_all_email_tokens` (`:182`) |
| `Clock`               | `rsky_common::now`, `from_str_to_utc`, `less_than_ago_s` |

An instant is in milliseconds, and `less_than_ago_s` compares the seconds of two instants. `MINUTE` is
in milliseconds too, so that `MINUTE * 15` seconds are ten days and ten hours.
-/
namespace CacosPds.Account.EmailTokens

open Sql

abbrev TokenTable := Table (EmailTokenPurpose × String) EmailTokenRow

structure Clock where
  now : Int → String
  fromStrToUtc : String → Except String Int
  /-- Of the clock, the time and the range. -/
  lessThanAgoS : Int → Int → Nat → Bool

def seconds (t : Int) : Int := t / 1000

structure Clock.Lawful (C : Clock) : Prop where
  fromStr_now : ∀ t, C.fromStrToUtc (C.now t) = .ok t
  lessThanAgoS_iff : ∀ now t range,
    C.lessThanAgoS now t range = true ↔ seconds now < seconds t + range

variable (C : Clock) (L : Library)

/-- The library at an instant. -/
def libraryAt (now : Int) : Library :=
  { L with lessThanAgo := fun text range => (C.fromStrToUtc text).map (C.lessThanAgoS now · range) }

/-- The slices fail where too few characters are left. -/
def getRandomToken (sample : List Char) : Option String :=
  let allowed := sample.filter fun c => c ∉ ['1', '8', '9', '0']
  if allowed.length < 10 then none
  else some (String.ofList (allowed.take 5 ++ '-' :: (allowed.drop 5).take 5))

/-- The row of another DID has the token: `UNIQUE (purpose, token)`. -/
def tokenTaken (purpose : EmailTokenPurpose) (did token : String) (t : TokenTable) : Bool :=
  t.anyRow fun k row => k.1 = purpose && k.2 ≠ did && row.token = token

def createEmailToken (now : Int) (sample : List Char) (did : String) (purpose : EmailTokenPurpose)
    (t : TokenTable) : Option (String × TokenTable) :=
  match getRandomToken sample with
  | none => none
  | some random =>
    let token := L.toUppercase random
    if tokenTaken purpose did token t then none
    else some (token, t.insert (purpose, did) ⟨token, C.now now⟩)

/-- The row `WHERE purpose = ?1 AND token = ?2`, with its DID. -/
def findToken (purpose : EmailTokenPurpose) (token : String) (t : TokenTable) :
    Option (String × EmailTokenRow) := do
  let did ← ((t.select (fun k row => k.1 = purpose && row.token = token) fun k _ => k.2).sort
    (· ≤ ·)).head?
  let row ← t.lookup (purpose, did)
  return (did, row)

def assertValidTokenAndFindDid (purpose : EmailTokenPurpose) (token : String) (t : TokenTable) :
    Except String String :=
  match findToken purpose (L.toUppercase token) t with
  | none => .error "Token is invalid"
  | some (did, row) => do
    if ← L.lessThanAgo row.requestedAt (MINUTE * 15) then return did else .error "Token is expired"

/-! ## Histories -/

/-- What a call has done. -/
inductive Done where
  | created (purpose : EmailTokenPurpose) (did token : String) (at_ : Int)
  | deleted (purpose : EmailTokenPurpose) (did : String)
  | deletedAll (did : String)
  deriving DecidableEq

inductive TokenStep where
  | create (now : Int) (sample : List Char) (did : String) (purpose : EmailTokenPurpose)
  | assertValid (now : Int) (did : String) (purpose : EmailTokenPurpose) (token : String)
  | assertFindDid (now : Int) (purpose : EmailTokenPurpose) (token : String)
  | delete (did : String) (purpose : EmailTokenPurpose)
  | deleteAll (did : String)

/-- The table, and what was done to it, the latest first. -/
structure TokenState where
  table : TokenTable
  past : List Done

def TokenState.start : TokenState := ⟨∅, []⟩

/-- One call; one that fails changes nothing. -/
def tokenStep (s : TokenState) : TokenStep → Option TokenState
  | .create now sample did purpose =>
    match createEmailToken C L now sample did purpose s.table with
    | none => some s
    | some (token, table) => some ⟨table, .created purpose did token now :: s.past⟩
  | .assertValid _ _ _ _ | .assertFindDid _ _ _ => some s
  | .delete did purpose => some ⟨s.table.erase (purpose, did), .deleted purpose did :: s.past⟩
  | .deleteAll did =>
    some ⟨s.table.deleteWhere fun k _ => k.2 = did, .deletedAll did :: s.past⟩

/-- The token most recently created for a purpose and DID and not deleted since, with its instant. -/
def current : List Done → EmailTokenPurpose × String → Option (String × Int)
  | [], _ => none
  | .created purpose did token at_ :: past, k =>
    if k = (purpose, did) then some (token, at_) else current past k
  | .deleted purpose did :: past, k => if k = (purpose, did) then none else current past k
  | .deletedAll did :: past, k => if k.2 = did then none else current past k

/-- A check at `now` names, up to case, the current token, which is `age` seconds old. -/
def Names (past : List Done) (k : EmailTokenPurpose × String) (token : String) (now : Int)
    (age : Int) : Prop :=
  ∃ tok at_, current past k = some (tok, at_) ∧ L.toUppercase token = tok ∧
    age = seconds now - seconds at_

/-- The current token, up to case, and less than 15 minutes old. -/
def Deserves (past : List Done) (k : EmailTokenPurpose × String) (token : String) (now : Int) :
    Prop :=
  ∃ age, Names L past k token now age ∧ age < 15 * 60

/-- A check accepts what deserves it, and finds its DID. -/
def AnswersRight (s : TokenState) : TokenStep → Prop
  | .assertValid now did purpose token =>
    assertValidToken (libraryAt C L now) did purpose token s.table = .ok () ↔
      Deserves L s.past (purpose, did) token now
  | .assertFindDid now purpose token => ∀ did,
    assertValidTokenAndFindDid (libraryAt C L now) purpose token s.table = .ok did ↔
      Deserves L s.past (purpose, did) token now
  | _ => True

/-- A check does not name a current token that is 15 minutes old or older, and younger than 900000
seconds. -/
def NotStale (s : TokenState) : TokenStep → Prop
  | .assertValid now did purpose token => ∀ age, Names L s.past (purpose, did) token now age →
      ¬ (15 * 60 ≤ age ∧ age < 900000)
  | .assertFindDid now purpose token => ∀ did age, Names L s.past (purpose, did) token now age →
      ¬ (15 * 60 ≤ age ∧ age < 900000)
  | _ => True

/-! ### The table holds the current tokens -/

structure TokenInv (s : TokenState) : Prop where
  lookup : ∀ k, s.table.lookup k = (current s.past k).map fun c => ⟨c.1, C.now c.2⟩
  unique : ∀ purpose did did' tok at_ at_', current s.past (purpose, did) = some (tok, at_) →
    current s.past (purpose, did') = some (tok, at_') → did = did'

variable {C L} {s t : TokenState}

theorem tokenInv_start : TokenInv C .start where
  lookup _ := rfl
  unique _ _ _ _ _ _ h := by cases h

/-- Forgetting tokens keeps them apart. -/
theorem TokenInv.unique_of (h : TokenInv C s) {past : List Done}
    (hsub : ∀ k c, current past k = some c → current s.past k = some c) :
    ∀ purpose did did' tok at_ at_', current past (purpose, did) = some (tok, at_) →
      current past (purpose, did') = some (tok, at_') → did = did' := by
  intro purpose did did' tok at_ at_' h₁ h₂
  exact h.unique purpose did did' tok at_ at_' (hsub _ _ h₁) (hsub _ _ h₂)

theorem tokenTaken_eq_false (h : TokenInv C s) {purpose : EmailTokenPurpose} {did token : String}
    (hfree : tokenTaken purpose did token s.table = false) {did' : String} {at_ : Int}
    (hc : current s.past (purpose, did') = some (token, at_)) : did' = did := by
  by_contra hne
  have hrow : s.table.lookup (purpose, did') = some ⟨token, C.now at_⟩ := by rw [h.lookup, hc]; rfl
  have := Table.anyRow_eq_false.1 hfree _ _ hrow
  simp [hne] at this

theorem tokenInv_create (h : TokenInv C s) {now : Int} {purpose : EmailTokenPurpose}
    {did token : String} (hfree : tokenTaken purpose did token s.table = false) :
    TokenInv C ⟨s.table.insert (purpose, did) ⟨token, C.now now⟩,
      .created purpose did token now :: s.past⟩ where
  lookup k := by
    rw [Table.lookup_insert_eq]
    simp only [current]
    by_cases hk : k = (purpose, did)
    · rw [if_pos hk, if_pos hk]
      rfl
    · rw [if_neg hk, if_neg hk, h.lookup]
  unique p d d' tok a a' h₁ h₂ := by
    simp only [current] at h₁ h₂
    split at h₁
    · rename_i hd
      cases hd
      cases h₁
      split at h₂
      · rename_i hd'
        cases hd'
        rfl
      · exact (tokenTaken_eq_false h hfree h₂).symm
    · split at h₂
      · rename_i hd'
        cases hd'
        cases h₂
        exact tokenTaken_eq_false h hfree h₁
      · exact h.unique p d d' tok a a' h₁ h₂

theorem tokenInv_delete (h : TokenInv C s) (purpose : EmailTokenPurpose) (did : String) :
    TokenInv C ⟨s.table.erase (purpose, did), .deleted purpose did :: s.past⟩ where
  lookup k := by
    rw [Table.lookup_erase_eq]
    simp only [current]
    by_cases hk : k = (purpose, did)
    · rw [if_pos hk, if_pos hk]
      rfl
    · rw [if_neg hk, if_neg hk, h.lookup]
  unique := h.unique_of fun k c hc => by
    simp only [current, Option.ite_none_left_eq_some] at hc
    exact hc.2

theorem tokenInv_deleteAll (h : TokenInv C s) (did : String) :
    TokenInv C ⟨s.table.deleteWhere fun k _ => k.2 = did, .deletedAll did :: s.past⟩ where
  lookup k := by
    refine Option.ext fun row => ?_
    rw [Table.lookup_deleteWhere_eq_some, h.lookup]
    simp only [current]
    by_cases hk : k.2 = did
    · simp [hk]
    · simp [hk]
  unique := h.unique_of fun k c hc => by
    simp only [current, Option.ite_none_left_eq_some] at hc
    exact hc.2

theorem tokenInv_step {a : TokenStep} (h : TokenInv C s) (hstep : tokenStep C L s a = some t) :
    TokenInv C t := by
  cases a with
  | create now sample did purpose =>
    simp only [tokenStep, createEmailToken] at hstep
    cases hr : getRandomToken sample with
    | none =>
      simp only [hr] at hstep
      cases hstep
      exact h
    | some random =>
      simp only [hr] at hstep
      cases hfree : tokenTaken purpose did (L.toUppercase random) s.table with
      | true =>
        simp only [hfree, if_true] at hstep
        cases hstep
        exact h
      | false =>
        simp only [hfree] at hstep
        cases hstep
        exact tokenInv_create h hfree
  | assertValid now did purpose token =>
    cases hstep
    exact h
  | assertFindDid now purpose token =>
    cases hstep
    exact h
  | delete did purpose =>
    cases hstep
    exact tokenInv_delete h purpose did
  | deleteAll did =>
    cases hstep
    exact tokenInv_deleteAll h did

/-! ### What a check accepts -/

/-- The age test of both checks on the row of a token. -/
theorem lessThanAgo_now (hC : C.Lawful) (now at_ : Int) :
    (libraryAt C L now).lessThanAgo (C.now at_) (MINUTE * 15) =
      .ok (decide (seconds now - seconds at_ < 900000)) := by
  have hlt : C.lessThanAgoS now at_ (MINUTE * 15) = decide (seconds now - seconds at_ < 900000) := by
    rw [Bool.eq_iff_iff, hC.lessThanAgoS_iff, decide_eq_true_eq]
    simp only [MINUTE]
    omega
  simp only [libraryAt, hC.fromStr_now, Except.map, hlt]

theorem names_iff (h : TokenInv C s) {k : EmailTokenPurpose × String} {token : String}
    {row : EmailTokenRow} (hrow : s.table.lookup k = some row)
    (htoken : row.token = L.toUppercase token) (now : Int) :
    ∃ at_, row.requestedAt = C.now at_ ∧
      ∀ age, Names L s.past k token now age ↔ age = seconds now - seconds at_ := by
  rw [h.lookup, Option.map_eq_some_iff] at hrow
  obtain ⟨⟨tok, at_⟩, hc, rfl⟩ := hrow
  refine ⟨at_, rfl, fun age => ⟨?_, fun he => ⟨tok, at_, hc, htoken.symm, he⟩⟩⟩
  rintro ⟨tok', at', hc', -, rfl⟩
  rw [hc] at hc'
  cases hc'
  rfl

/-- Where no row has the token, no current token is named. -/
theorem not_names (h : TokenInv C s) {k : EmailTokenPurpose × String} {token : String}
    {now age : Int} (hnone : ∀ row, s.table.lookup k = some row → row.token ≠ L.toUppercase token) :
    ¬ Names L s.past k token now age := by
  rintro ⟨tok, at_, hc, htok, -⟩
  have hrow : s.table.lookup k = some ⟨tok, C.now at_⟩ := by rw [h.lookup, hc]; rfl
  exact hnone _ hrow htok.symm

/-- **`assert_valid_token` accepts the current token for 900000 seconds.** -/
theorem assertValidToken_iff (hC : C.Lawful) (h : TokenInv C s) (now : Int) (did : String)
    (purpose : EmailTokenPurpose) (token : String) :
    assertValidToken (libraryAt C L now) did purpose token s.table = .ok () ↔
      ∃ age, Names L s.past (purpose, did) token now age ∧ age < 900000 := by
  have hup : (libraryAt C L now).toUppercase = L.toUppercase := rfl
  unfold assertValidToken
  rw [hup]
  cases hf : (s.table.lookup (purpose, did)).filter fun r => r.token = L.toUppercase token with
  | none =>
    rw [Option.filter_eq_none_iff] at hf
    simp only [reduceCtorEq, false_iff, not_exists, not_and]
    intro age hnames
    exact absurd hnames (not_names h fun row hrow htok => hf row hrow (decide_eq_true htok))
  | some row =>
    obtain ⟨hrow, htok⟩ := Option.filter_eq_some_iff.1 hf
    obtain ⟨at_, hat, hnames⟩ := names_iff h hrow (of_decide_eq_true htok) now
    simp only [hnames, exists_eq_left, hat, lessThanAgo_now hC]
    by_cases hage : seconds now - seconds at_ < 900000 <;>
      simp [hage, bind, Except.bind, pure, Except.pure]

theorem findToken_iff (h : TokenInv C s) {purpose : EmailTokenPurpose} {token did : String}
    {row : EmailTokenRow} : findToken purpose token s.table = some (did, row) ↔
      s.table.lookup (purpose, did) = some row ∧ row.token = token := by
  have hmem : ∀ d, d ∈ ((s.table.select (fun k row => k.1 = purpose && row.token = token)
      fun k _ => k.2).sort (· ≤ ·)) ↔
        ∃ r, s.table.lookup (purpose, d) = some r ∧ r.token = token := by
    intro d
    rw [Multiset.mem_sort, Table.mem_select]
    constructor
    · rintro ⟨⟨p, d'⟩, r, hl, hp, rfl⟩
      simp only [Bool.and_eq_true, decide_eq_true_eq] at hp
      obtain ⟨rfl, hr⟩ := hp
      exact ⟨r, hl, hr⟩
    · rintro ⟨r, hl, hr⟩
      exact ⟨(purpose, d), r, hl, by simp [hr], rfl⟩
  have hone : ∀ d d' r r', s.table.lookup (purpose, d) = some r → r.token = token →
      s.table.lookup (purpose, d') = some r' → r'.token = token → d = d' := by
    intro d d' r r' hl hr hl' hr'
    rw [h.lookup, Option.map_eq_some_iff] at hl hl'
    obtain ⟨⟨tok, at_⟩, hc, rfl⟩ := hl
    obtain ⟨⟨tok', at'⟩, hc', rfl⟩ := hl'
    simp only at hr hr'
    subst hr hr'
    exact h.unique purpose d d' _ _ _ hc hc'
  unfold findToken
  cases hhead : ((s.table.select (fun k row => k.1 = purpose && row.token = token)
      fun k _ => k.2).sort (· ≤ ·)).head? with
  | none =>
    rw [List.head?_eq_none_iff] at hhead
    simp only [bind, Option.bind, reduceCtorEq, false_iff]
    rintro ⟨hl, hr⟩
    have := (hmem did).2 ⟨row, hl, hr⟩
    rw [hhead] at this
    exact absurd this List.not_mem_nil
  | some d =>
    obtain ⟨r, hl, hr⟩ := (hmem d).1 (List.mem_of_head? hhead)
    simp only [bind, Option.bind, hl, pure, Option.some.injEq, Prod.mk.injEq]
    constructor
    · rintro ⟨rfl, rfl⟩
      exact ⟨hl, hr⟩
    · rintro ⟨hl', hr'⟩
      obtain rfl := hone d did r row hl hr hl' hr'
      rw [hl] at hl'
      exact ⟨rfl, Option.some.inj hl'⟩

/-- **The same of `assert_valid_token_and_find_did`, which finds the token's DID.** -/
theorem assertFindDid_iff (hC : C.Lawful) (h : TokenInv C s) (now : Int)
    (purpose : EmailTokenPurpose) (token did : String) :
    assertValidTokenAndFindDid (libraryAt C L now) purpose token s.table = .ok did ↔
      ∃ age, Names L s.past (purpose, did) token now age ∧ age < 900000 := by
  have hup : (libraryAt C L now).toUppercase = L.toUppercase := rfl
  unfold assertValidTokenAndFindDid
  rw [hup]
  cases hf : findToken purpose (L.toUppercase token) s.table with
  | none =>
    simp only [reduceCtorEq, false_iff, not_exists, not_and]
    intro age hnames
    refine absurd hnames (not_names h fun row hrow htok => ?_)
    rw [(findToken_iff h).2 ⟨hrow, htok⟩] at hf
    cases hf
  | some found =>
    obtain ⟨d, row⟩ := found
    obtain ⟨hrow, htok⟩ := (findToken_iff h).1 hf
    obtain ⟨at_, hat, hnames⟩ := names_iff h hrow htok now
    simp only [hat, lessThanAgo_now hC]
    by_cases hd : d = did
    · subst hd
      simp only [hnames, exists_eq_left]
      by_cases hage : seconds now - seconds at_ < 900000 <;>
        simp [hage, bind, Except.bind, pure, Except.pure]
    · have hother : ∀ age, ¬ Names L s.past (purpose, did) token now age := by
        intro age
        refine not_names h fun row' hrow' htok' => ?_
        have := (findToken_iff h).2 ⟨hrow', htok'⟩
        rw [hf] at this
        cases this
        exact hd rfl
      simp only [hother, false_and, exists_false, iff_false]
      by_cases hage : seconds now - seconds at_ < 900000 <;>
        simp [hage, hd, bind, Except.bind, pure, Except.pure]

/-- A token of the one life span and not of the other is stale. -/
theorem lifespans_iff {k : EmailTokenPurpose × String} {token : String} {now : Int} :
    ((∃ age, Names L s.past k token now age ∧ age < 900000) ↔ Deserves L s.past k token now) ↔
      ∀ age, Names L s.past k token now age → ¬ (15 * 60 ≤ age ∧ age < 900000) := by
  constructor
  · rintro h age hnames ⟨hle, hlt⟩
    obtain ⟨age', ⟨tok, at_, hc, -, rfl⟩, hlt'⟩ := h.1 ⟨age, hnames, hlt⟩
    obtain ⟨tok', at', hc', -, rfl⟩ := hnames
    rw [hc] at hc'
    cases hc'
    omega
  · intro h
    constructor
    · rintro ⟨age, hnames, hlt⟩
      exact ⟨age, hnames, by have := h age hnames; omega⟩
    · rintro ⟨age, hnames, hlt⟩
      exact ⟨age, hnames, by omega⟩

theorem answersRight_iff (hC : C.Lawful) (h : TokenInv C s) (a : TokenStep) :
    AnswersRight C L s a ↔ NotStale L s a := by
  cases a with
  | assertValid now did purpose token =>
    simp only [AnswersRight, NotStale, assertValidToken_iff hC h]
    exact lifespans_iff
  | assertFindDid now purpose token =>
    simp only [AnswersRight, NotStale, assertFindDid_iff hC h]
    exact forall_congr' fun did => lifespans_iff
  | _ => exact Iff.rfl

/-- **In a history every check is answered right exactly when no check names a current token of 15
minutes or more and less than 900000 seconds.** -/
theorem checks_right_iff (hC : C.Lawful) (L : Library) (acts : List TokenStep) :
    Runs.Along (tokenStep C L) (AnswersRight C L) .start acts ↔
      Runs.Along (tokenStep C L) (NotStale L) .start acts :=
  Runs.along_iff_along (fun _ _ _ h _ hstep => tokenInv_step h hstep)
    (fun _ a h => answersRight_iff hC h a) tokenInv_start acts

/-! ### A token before and after its 15 minutes -/

/-- Texts of milliseconds. -/
def plainClock : Clock where
  now t := t.repr
  fromStrToUtc text := (text.toInt?).elim (.error "not a time") .ok
  lessThanAgoS now t range := seconds now < seconds t + range

theorem lawful_plainClock : plainClock.Lawful where
  fromStr_now t := by simp only [plainClock, Int.toInt?_repr, Option.elim_some]
  lessThanAgoS_iff _ _ _ := decide_eq_true_iff

def asciiLibrary : Library :=
  { plainLibrary with toUppercase := fun text => String.ofList (text.toList.map Char.toUpper) }

/-- Henry's token, `ABCDE-FGHIJ`, at the epoch. -/
def issueHenry : TokenStep :=
  .create 0 "ab1cd8e0fghij2345klmnopqrstuvwxyzABCDEFGHIJKLMNOPQ".toList "did:plc:henry" .confirmEmail

/-- He types it in lower case. -/
def henryConfirms (now : Int) : TokenStep :=
  .assertValid now "did:plc:henry" .confirmEmail "abcde-fghij"

theorem past_issueHenry : ∃ s ∈ Runs.run (tokenStep plainClock asciiLibrary) .start [issueHenry],
    s.past = [.created .confirmEmail "did:plc:henry" "ABCDE-FGHIJ" 0] := by
  decide +kernel

theorem checks_right_henry : Runs.Along (tokenStep plainClock asciiLibrary)
    (AnswersRight plainClock asciiLibrary) .start [issueHenry, henryConfirms 899999] := by
  refine (checks_right_iff lawful_plainClock asciiLibrary _).2 ?_
  obtain ⟨s, hs, hpast⟩ := past_issueHenry
  obtain ⟨u, hu, hend⟩ := Runs.run_cons_some hs
  cases hend
  refine (Runs.along_cons_of_some hu).2 ⟨trivial, fun _ _ => ⟨?_, trivial⟩⟩
  rintro age ⟨tok, at_, hc, -, rfl⟩ ⟨hle, -⟩
  rw [hpast] at hc
  cases hc
  exact absurd hle (by decide)

/-- 900 seconds after the token was created it is accepted. -/
theorem old_token_accepted : ¬ ∀ (C : Clock) (L : Library) (acts : List TokenStep), C.Lawful →
    Runs.Along (tokenStep C L) (AnswersRight C L) .start acts := by
  intro hall
  obtain ⟨s, hs, hpast⟩ := past_issueHenry
  obtain ⟨u, hu, hend⟩ := Runs.run_cons_some hs
  cases hend
  have hright := (hall plainClock asciiLibrary ([issueHenry] ++ [henryConfirms 900000])
    lawful_plainClock).last hs (a := henryConfirms 900000) rfl
  have hstale := (answersRight_iff lawful_plainClock (tokenInv_step tokenInv_start hu) _).1 hright
  refine hstale 900 ⟨"ABCDE-FGHIJ", 0, ?_, by decide, by decide⟩ (by decide)
  rw [hpast]
  rfl

end CacosPds.Account.EmailTokens
