import CacosPds.Account.CreateAccount
import CacosPds.Account.Lifecycle
/-!
# Email addresses (`account/helpers/account.rs`, `account/oauth_store.rs`)

| here | there |
| --- | --- |
| `getAccountByEmail` | `get_account_by_email` (`:178-195`) |
| `updateEmail`   | `update_email` of the account manager (`account/mod.rs:265`, `helpers/account.rs:349-372`) |
| `lookUpIdentifier` | the lookup of `create_session` and `authenticate_account`: by address if there is an `@` |
| `authenticateUser` | the lookup of `authenticate_account` (`oauth_store.rs:467-490`) |
| `Lowercase`     | `str::to_lowercase`, by what does not depend on the version of Unicode |

`update_email` writes an address in lower case, and every reader lowers the one it is given.
`register_account` writes it as it comes. Where every address is stored in lower case it is found by
all its variants (`getAccountByEmail_eq`).
-/
namespace CacosPds.Account

open Stages Sql

/-- A row of the left join on the account's address; `toLowercase` is `str::to_lowercase`. -/
def findAccountByEmail (toLowercase : String → String) (email : String)
    (flags : Option AvailabilityFlags) (s : Db) : Option ActorAccount :=
  let row := s.actor.one fun did r =>
    (s.account.lookup did).map AccountRow.email = some (toLowercase email) &&
      AvailabilityFlags.admits flags r
  row.map fun kr => actorAccount s kr.1 kr.2

def getAccountByEmail (fault : Option String) (toLowercase : String → String) (email : String)
    (flags : Option AvailabilityFlags) : Call (Option ActorAccount) :=
  query fault (findAccountByEmail toLowercase email flags)

/-- `str::to_ascii_lowercase`. -/
def toAsciiLowercase (s : String) : String := String.ofList (lower s)

structure Lowercase where
  toLowercase : String → String
  idem : ∀ s, toLowercase (toLowercase s) = toLowercase s
  /-- ASCII letters may be lowered first. -/
  ascii : ∀ s, toLowercase (toAsciiLowercase s) = toLowercase s
  mem_at : ∀ s, '@' ∈ (toLowercase s).toList ↔ '@' ∈ s.toList

/-! A `Lowercase` for texts of ASCII characters. -/

theorem toNat_toLower (c : Char) :
    c.toLower.toNat = if 65 ≤ c.toNat ∧ c.toNat ≤ 90 then c.toNat + 32 else c.toNat := by
  have hiff : (c.val ≥ 'A'.val ∧ c.val ≤ 'Z'.val) ↔ 65 ≤ c.toNat ∧ c.toNat ≤ 90 := by
    simp only [ge_iff_le, UInt32.le_iff_toNat_le]
    rfl
  unfold Char.toLower
  by_cases h : c.val ≥ 'A'.val ∧ c.val ≤ 'Z'.val
  · rw [dif_pos h, if_pos (hiff.1 h)]
    have hle := (hiff.1 h).2
    show (c.val + ('a'.val - 'A'.val)).toNat = c.val.toNat + 32
    rw [UInt32.toNat_add]
    exact Nat.mod_eq_of_lt (Nat.lt_of_le_of_lt (Nat.add_le_add_right hle _) (by decide))
  · rw [dif_neg h, if_neg (mt hiff.2 h)]

theorem toLower_toLower (c : Char) : c.toLower.toLower = c.toLower := by
  rw [← Char.toNat_inj]
  simp only [toNat_toLower]
  split
  · rw [if_neg (by omega)]
  · rfl

theorem toLower_eq_at {c : Char} : c.toLower = '@' ↔ c = '@' := by
  rw [← Char.toNat_inj, ← Char.toNat_inj, toNat_toLower]
  have hat : '@'.toNat = 64 := rfl
  split <;> omega

theorem toAsciiLowercase_idem (s : String) :
    toAsciiLowercase (toAsciiLowercase s) = toAsciiLowercase s := by
  simp only [toAsciiLowercase, lower, String.toList_ofList, List.map_map]
  congr 2
  funext c
  exact toLower_toLower c

def asciiLowercase : Lowercase where
  toLowercase := toAsciiLowercase
  idem := toAsciiLowercase_idem
  ascii := toAsciiLowercase_idem
  mem_at s := by simp [toAsciiLowercase, lower, toLower_eq_at]

/-- The account under a DID, if the flags admit it. -/
def accountOf (did : String) (flags : Option AvailabilityFlags) (s : Db) : Option ActorAccount :=
  ((s.actor.lookup did).filter (AvailabilityFlags.admits flags ·)).map (actorAccount s did)

def lookUpIdentifier (fault : Option String) (L : Lowercase) (identifier : String)
    (flags : Option AvailabilityFlags) : Call (Option ActorAccount) :=
  if '@' ∈ identifier.toList then getAccountByEmail fault L.toLowercase identifier flags
  else getAccount fault identifier flags

def authenticateUser (fault : Option String) (L : Lowercase) (identifier : String) :
    Call (Option ActorAccount) :=
  lookUpIdentifier fault L (toAsciiLowercase identifier) (some ⟨none, some true⟩)

/-- The column of `account_email_lower_idx`. -/
def lowerEmail (r : AccountRow) : Option (List Char) := some (lower r.email)

/-- A violated index is `UserAlreadyExistsError`. The tokens of the DID are deleted beside it; where
that fails first, the update may not have been made, which is the statement's own failure. -/
def updateEmail (fault tokensFault : Option String) (L : Lowercase) (did email : String) :
    Call Unit := do
  execute fault
    (fun s =>
      if did ∈ s.account && s.account.taken lowerEmail did (some (lower (L.toLowercase email))) then
        some .userAlreadyExists
      else none)
    (fun s => { s with
      account := s.account.update did fun r => { r with email := L.toLowercase email } })
  attempt (tokensFault.map .db)

/-! ## Addresses in lower case -/

/-- Every address is stored in lower case, and once; its account has an actor. -/
structure Canonical (L : Lowercase) (s : Db) : Prop where
  lowercase : ∀ did r, s.account.lookup did = some r → L.toLowercase r.email = r.email
  indexed : s.account.Indexed lowerEmail
  actor : ∀ did ∈ s.account, did ∈ s.actor

section

variable {L : Lowercase} {s : Db} {did email : String} {r : AccountRow}

/-- Two accounts do not share an address up to case. -/
theorem Canonical.unique (h : Canonical L s) {did' : String} {r' : AccountRow}
    (hr : s.account.lookup did = some r) (hr' : s.account.lookup did' = some r')
    (he : L.toLowercase r.email = L.toLowercase r'.email) : did = did' := by
  have heq : r.email = r'.email := by
    rw [← h.lowercase did r hr, he, h.lowercase did' r' hr']
  exact h.indexed did did' r r' (lower r.email) hr hr' rfl (by rw [lowerEmail, heq])

/-- Any variant of an address finds the account. -/
theorem findAccountByEmail_eq (h : Canonical L s) (hr : s.account.lookup did = some r)
    (he : L.toLowercase email = r.email) (flags : Option AvailabilityFlags) :
    findAccountByEmail L.toLowercase email flags s = accountOf did flags s := by
  -- only the account's own row has the address
  have hown : ∀ k a, s.actor.lookup k = some a →
      ((s.account.lookup k).map AccountRow.email = some (L.toLowercase email) &&
        AvailabilityFlags.admits flags a) = true → k = did := by
    intro k a _ hp
    rw [Bool.and_eq_true, decide_eq_true_iff] at hp
    obtain ⟨r', hr', heq⟩ := Option.map_eq_some_iff.1 hp.1
    exact h.unique hr' hr (by rw [heq, he])
  have hfound : (s.account.lookup did).map AccountRow.email = some (L.toLowercase email) := by
    rw [hr, he]
    rfl
  unfold findAccountByEmail accountOf
  dsimp only
  cases hfilter : (s.actor.lookup did).filter (AvailabilityFlags.admits flags ·) with
  | some a =>
    obtain ⟨hrow, hadmits⟩ := Option.filter_eq_some_iff.1 hfilter
    rw [Table.one_eq_some_of_unique hrow (by simp [hfound, hadmits]) hown]
    rfl
  | none =>
    have hnone := Table.one_eq_none.2 fun k a hl => eq_false_of_ne_true fun hp => by
      obtain rfl := hown k a hl hp
      rw [hl] at hfilter
      rw [Bool.and_eq_true] at hp
      simp [hp.2] at hfilter
    rw [hnone]
    rfl

/-- An address that is not stored in lower case does not find its account. -/
theorem findAccountByEmail_ne (hr : s.account.lookup did = some r)
    (hcase : L.toLowercase r.email ≠ r.email) (he : L.toLowercase email = L.toLowercase r.email)
    {flags : Option AvailabilityFlags} {account : ActorAccount}
    (hfound : findAccountByEmail L.toLowercase email flags s = some account) : account.did ≠ did := by
  obtain ⟨⟨k, a⟩, hone, rfl⟩ := Option.map_eq_some_iff.1 hfound
  have hp := (Table.mem_of_one hone).2
  rw [Bool.and_eq_true, decide_eq_true_iff, he] at hp
  rintro rfl
  rw [show s.account.lookup k = some r from hr] at hp
  exact hcase (Option.some.inj hp.1).symm

/-- Every actor is admitted. -/
theorem accountOf_everyAccount (h : Canonical L s) (hr : s.account.lookup did = some r) :
    ∃ account, accountOf did everyAccount s = some account ∧ account.did = did := by
  obtain ⟨a, ha⟩ := Finmap.mem_iff.1 (h.actor did (Finmap.mem_iff.2 ⟨r, hr⟩))
  refine ⟨actorAccount s did a, ?_, rfl⟩
  rw [accountOf, ha]
  rfl

/-- Whoever leaves the accounts alone, and every actor there, keeps them so. -/
theorem Canonical.of_eq (h : Canonical L s) {t : Db} (haccount : t.account = s.account)
    (hactor : KeepsActors s t) : Canonical L t := by
  refine ⟨by rw [haccount]; exact h.lowercase, by rw [haccount]; exact h.indexed, fun did hd => ?_⟩
  rw [haccount] at hd
  exact hactor did (h.actor did hd)

/-- A statement that writes an address in lower case, to a row that no other row has it before, keeps
them so. -/
theorem canonical_updateEmail (fault tokensFault : Option String) (did email : String) :
    Keeps (updateEmail fault tokensFault L did email) fun s t => Canonical L s → Canonical L t := by
  have hrefl : ∀ s, Canonical L s → Canonical L s := fun _ h => h
  refine Keeps.bind (fun _ _ _ h k hs => k (h hs)) (keeps_statement hrefl _ fun s hok hs => ?_)
    fun _ => keeps_attempt hrefl _
  have hrefuse := (Option.or_eq_none_iff.1 hok).2
  refine ⟨fun d r hl => ?_, hs.indexed.update fun r hr => ?_, fun d hd => ?_⟩
  · rw [Table.lookup_update] at hl
    split at hl
    · obtain ⟨r', -, rfl⟩ := Option.map_eq_some_iff.1 hl
      exact L.idem email
    · exact hs.lowercase d r hl
  · have hmem : did ∈ s.account := Finmap.mem_iff.2 ⟨r, hr⟩
    by_contra htaken
    dsimp only at hrefuse
    rw [if_pos (by simpa [hmem, lowerEmail] using htaken)] at hrefuse
    cases hrefuse
  · exact hs.actor d (Table.mem_update.1 hd)

/-- Where it is applied, the account's address is the one that is given, in lower case. -/
theorem canonical_createAccount {E : Env} {opts : CreateAccountOpts} (hs : Canonical L s)
    (hopts : ∀ email, InsertsAccount E opts email s → L.toLowercase email = email) :
    Canonical L ((createAccount E opts).exec s).2 := by
  by_cases h : ∃ email, InsertsAccount E opts email s
  swap
  · exact hs.of_eq (account_of_not_insertsAccount fun email he => h ⟨email, he⟩)
      (keepsActors_createAccount E opts s)
  obtain ⟨email, he⟩ := h
  obtain ⟨password, haccount⟩ := account_of_insertsAccount he
  refine ⟨fun d r hl => ?_, ?_, fun d hd => ?_⟩
  · rw [haccount] at hl
    rcases Table.lookup_insert_eq_some.1 hl with ⟨-, rfl⟩ | ⟨-, hl⟩
    · exact hopts email he
    · exact hs.lowercase d r hl
  · rw [haccount]
    refine hs.indexed.insert (Table.taken_eq_false.2 fun j r v hl hv hv' => ?_)
    have hfree := Table.anyRow_eq_false.1 he.newEmail j r hl
    exact absurd (Option.some.inj (hv'.trans hv.symm)) (of_decide_eq_false hfree)
  · rw [haccount] at hd
    rw [actor_of_registersActor he.registers]
    refine Finmap.mem_insert.2 ?_
    rcases Finmap.mem_insert.1 hd with hd | hd
    · exact .inl hd
    · exact .inr (hs.actor d hd)

end

end CacosPds.Account
