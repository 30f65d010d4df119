import CacosPds.Handle.ServiceDomains
import CacosPds.Lib.Replace
import CacosPds.Server.Activation
import CacosPds.Server.SignUpPaths
/-!
# The handle in the genesis operation (`create_account.rs:335-452`)

`validate_inputs_for_local_pds` has two handles: the actor table gets the one that
`normalize_and_validate_handle` answers with, and `format_did_and_plc_op` takes `input.handle` as
the client wrote it. The operation that the directory keeps is about the account's handle exactly
where the two are the same (`namesHandle_iff`).
-/
namespace CacosPds.Server

open Stages Sql

/-- The DID's document has one name, that of the handle in the DID's row. -/
def NamesHandle (did : String) (s : State) : Prop :=
  ∃ op row handle, documentData did s = some op ∧ s.account.actor.lookup did = some row ∧
    row.handle = some handle ∧ op.alsoKnownAs = ["at://" ++ handle]

/-! ## The name -/

/-- Without a slash nothing is taken off. -/
theorem ensureAtprotoPrefix_of_no_slash {str : String} (h : '/' ∉ str.toList) :
    ensureAtprotoPrefix str = "at://" ++ str := by
  have hnone : ∀ pattern : String, '/' ∈ pattern.toList → ∀ front back,
      str ≠ front ++ pattern ++ back := by
    rintro pattern hslash front back rfl
    rw [String.toList_append, String.toList_append] at h
    exact h (List.mem_append_left _ (List.mem_append_right _ hslash))
  unfold ensureAtprotoPrefix
  rw [if_neg, Text.replace_eq_self (by decide) (hnone "http://" (by decide)),
    Text.replace_eq_self (by decide) (hnone "https://" (by decide))]
  intro hprefix
  obtain ⟨rest, hrest⟩ := List.isPrefixOf_iff_prefix.1 hprefix
  rw [← hrest] at h
  exact h (List.mem_append_left _ (by decide))

theorem alsoKnownAs_of_genesisOp {E : Env} {recoveryKey : Option String} {handle did : String}
    {op : Operation} (h : genesisOp E recoveryKey handle = .ok (did, op)) :
    op.alsoKnownAs = [ensureAtprotoPrefix handle] := by
  obtain ⟨_, -, hpure⟩ := except_bind_ok.1 h
  cases hpure
  rfl

/-- A handle that the syntax lets through was written without a slash. -/
theorem no_slash_of_normal {L : Handle.Lib} (hL : L.Syntax) {raw handle : String}
    (h : L.normalizeAndEnsureValidHandle raw = .ok handle) : '/' ∉ raw.toList := by
  intro hslash
  rcases hL.characters raw handle h '/' (hL.slash raw handle h hslash) with hc | hc | hc
  · exact absurd hc (by decide)
  · exact absurd hc (by decide)
  · exact absurd hc (by decide)

/-! ## From the answer back to the input -/

section

variable {E : SignUpEnv} {V : Account.Verifier} {header : Option Bytes} {body : CreateAccountBody}
  {out : CreateAccountOutput} {s t : State}

theorem validateDid_handle {E : Env} {requester : Option String} {input : CheckedInput}
    {v : ValidatedCreateAccount E} (h : validateDid E requester input = .ok v) :
    v.handle = input.handle := by
  unfold validateDid at h
  split at h
  · split at h
    · cases h
    · cases h
      rfl
  · split at h
    · cases h
    · cases h
      rfl

/-- What an answered request went through. -/
theorem serverCreateAccount_ok (h : (serverCreateAccount E V header body).exec s = (.ok out, t)) :
    ∃ requester checked, (checkInputs E requester body).exec s = (.ok checked, s) ∧
      checked.did = body.did ∧
        (innerCreateAccount E.server requester (.ok checked)).exec s = (.ok out, t) := by
  obtain ⟨access, _, haccess, h⟩ := exec_bind_ok.1 h
  rw [exec_ofExcept, Prod.mk.injEq] at haccess
  obtain ⟨-, rfl⟩ := haccess
  obtain ⟨v, u, hvalidate, h⟩ := exec_bind_ok.1 h
  obtain ⟨checked, w, hchecked, hdid⟩ := exec_bind_ok.1 hvalidate
  rcases exec_checkInputs (E := E) (requesterOf access) body s with
    ⟨-, c, hc, hexec⟩ | ⟨-, e, -, hexec⟩
  · obtain ⟨rfl, rfl⟩ : c = checked ∧ s = w := by
      rw [hexec] at hchecked
      cases hchecked
      exact ⟨rfl, rfl⟩
    refine ⟨requesterOf access, c, hexec, hc, ?_⟩
    rw [innerCreateAccount]
    exact exec_bind_ok.2 ⟨v, u, hdid, h⟩
  · cases hexec.symm.trans hchecked

/-- The directory is told the handle as it was written, and the row has its normal form. -/
theorem handles_of_sign_up (hL : E.handles.Syntax) (hdid : body.did = none)
    (h : (serverCreateAccount E V header body).exec s = (.ok out, t)) :
    ∃ handle op row, E.handles.normalizeAndEnsureValidHandle body.handle = .ok handle ∧
      documentData out.did t = some op ∧ op.alsoKnownAs = ["at://" ++ body.handle] ∧
        t.account.actor.lookup out.did = some row ∧ row.handle = some handle := by
  obtain ⟨requester, checked, hchecked, hsame, hinner⟩ := serverCreateAccount_ok h
  obtain ⟨hhandle, hgiven, -⟩ := checkInputs_answer hchecked
  have hnormal : E.handles.normalizeAndEnsureValidHandle body.handle = .ok checked.handle :=
    ((Handle.normalizeAndValidateHandle_ok hL).1 (checkHandle_ok.1 hhandle).1).1.normal
  obtain ⟨v, hmints, hout⟩ := mints_of_ok (hsame.trans hdid) hinner
  obtain ⟨op, hgenesis, hminted⟩ := minted_of_mints hmints
  rw [hinner] at hminted
  have hnames : op.alsoKnownAs = ["at://" ++ body.handle] := by
    rw [alsoKnownAs_of_genesisOp hgenesis, hgiven,
      ensureAtprotoPrefix_of_no_slash (no_slash_of_normal hL hnormal)]
  have hactor := hminted.actor
  rw [hout, validateDid_handle hmints.validated] at hactor
  exact ⟨checked.handle, op, _, hnormal, hout ▸ hminted.document, hnames, hactor, rfl⟩

/-- **The published name is the registered handle if and only if the client wrote the handle in its
normal form.** -/
theorem namesHandle_iff (hL : E.handles.Syntax) (hdid : body.did = none)
    (h : (serverCreateAccount E V header body).exec s = (.ok out, t)) :
    NamesHandle out.did t ↔
      E.handles.normalizeAndEnsureValidHandle body.handle = .ok body.handle := by
  obtain ⟨handle, op, row, hnormal, hop, hnames, hrow, hhandle⟩ := handles_of_sign_up hL hdid h
  constructor
  · rintro ⟨op', row', registered, hop', hrow', hregistered, hnamed⟩
    obtain rfl := Option.some.inj (hop.symm.trans hop')
    obtain rfl := Option.some.inj (hrow.symm.trans hrow')
    obtain rfl := Option.some.inj (hhandle.symm.trans hregistered)
    have heq : "at://" ++ body.handle = "at://" ++ handle :=
      List.head_eq_of_cons_eq (hnames.symm.trans hnamed)
    have hlist := congrArg String.toList heq
    rw [String.toList_append, String.toList_append] at hlist
    rw [hnormal, String.toList_inj.1 (List.append_cancel_left hlist)]
  · intro hown
    obtain rfl : body.handle = handle := Except.ok.inj (hown.symm.trans hnormal)
    exact ⟨op, row, _, hop, hrow, hhandle, hnames⟩

end

/-! ## Two spellings -/

def asciiSignUps : SignUpEnv := { openSignUps with handles := Handle.asciiHandles }

def spelled (handle : String) : CreateAccountBody where
  email := some "a@x.test"
  handle
  did := none
  inviteCode := none
  password := some "secret"
  recoveryKey := none
  plcOp := none

/-- The request for a handle, after which the row and the document are looked at. -/
def afterSignUp (handle : String) : Except ApiError CreateAccountOutput × State :=
  (serverCreateAccount asciiSignUps noResolver none (spelled handle)).exec State.empty

theorem answer_of_did {handle did : String}
    (h : ((afterSignUp handle).1.toOption.map fun out => out.did) = some did) :
    ∃ out, afterSignUp handle = (.ok out, (afterSignUp handle).2) ∧ out.did = did := by
  cases hrun : (afterSignUp handle).1 with
  | error e =>
    rw [hrun] at h
    cases h
  | ok out =>
    rw [hrun] at h
    exact ⟨out, Prod.ext hrun rfl, Option.some.inj h⟩

theorem namesHandle_alice : NamesHandle "did:plc:bob" (afterSignUp "alice.test").2 := by
  have hdid : ((afterSignUp "alice.test").1.toOption.map fun out => out.did) =
      some "did:plc:bob" := by decide +kernel
  obtain ⟨out, hrun, hout⟩ := answer_of_did hdid
  rw [← hout]
  exact (namesHandle_iff Handle.asciiHandles_syntax rfl hrun).2 (by decide +kernel)

/-- With a capital letter the directory shows a name that is not the account's. -/
theorem capital_published : ¬ ∀ E V header body out s t, E.handles.Syntax → body.did = none →
    (serverCreateAccount E V header body).exec s = (.ok out, t) → NamesHandle out.did t := by
  intro h
  have hdid : ((afterSignUp "Alice.test").1.toOption.map fun out => out.did) =
      some "did:plc:bob" := by decide +kernel
  obtain ⟨out, hrun, -⟩ := answer_of_did hdid
  obtain ⟨op, row, handle, hop, hrow, hhandle, hnames⟩ := h asciiSignUps noResolver none
    (spelled "Alice.test") out State.empty _ Handle.asciiHandles_syntax rfl hrun
  obtain ⟨normal, op', row', hnormal, hop', hnames', hrow', hhandle'⟩ :=
    handles_of_sign_up Handle.asciiHandles_syntax rfl hrun
  obtain rfl := Option.some.inj (hop.symm.trans hop')
  obtain rfl := Option.some.inj (hrow.symm.trans hrow')
  obtain rfl := Option.some.inj (hhandle.symm.trans hhandle')
  have halice : Handle.asciiHandles.normalizeAndEnsureValidHandle "Alice.test" =
      .ok "alice.test" := by decide +kernel
  obtain rfl := Except.ok.inj (halice.symm.trans hnormal)
  exact absurd (hnames.symm.trans hnames') (by decide)

end CacosPds.Server
