import CacosPds.Account.RefreshTokens
/-!
# Rotations of one refresh token (`account/mod.rs:313-386`)

| here | there |
| --- | --- |
| `Timed`, `stepTimed` | the world of `RefreshTokens`, with the clock that the calls read after their `SELECT` |
| `Library.Clocked` | `RFC3339_VARIANT`, `from_str_to_micros` and `format_micros`: texts of whole milliseconds |
| `OnlyRotates` | any number of `rotate_refresh_token` on one id, in any interleaving, and no revocation |

The first `UPDATE` that goes through enters its call's next id, and every later one must repeat it:
the row's `nextId` and `expiresAt` then stay as they are (`OneWinner`) until the row is swept. A call
that loses has drawn an id of its own and may leave a row under it.
-/
namespace CacosPds.Account.Refresh

open Stages Runs Sql

/-! ## What a step does -/

/-- The rotation whose step it is. -/
def Action.call : Action → Option Nat
  | .select i _ | .sweep i _ _ _ _ | .grace i _ | .finish i | .drop i => some i
  | _ => none

/-- What a step may lead to, with what the step has found. -/
inductive Steps (L : Library) (W : World) : Action → World → Prop
  | idle {a : Action} (ha : a.call = none) : Steps L W a W
  | createSession {fault : Option String} {payload : RefreshToken} {app : Option String} {db : Db}
      (hnew : payload.jti ∉ W.hist.sessionOf)
      (hx : (storeRefreshToken fault L.formatMillis payload app).exec W.db = (.ok (), db)) :
      Steps L W (.createSession fault payload app) { W with db, hist := W.hist.newSession payload app }
  | rotate {id serviceDid : String} (hid : id ∈ W.hist.handedOut) :
      Steps L W (.rotate id serviceDid)
        { W with rotations := W.rotations ++ [⟨id, serviceDid, .select, W.hist.isRevoked id⟩] }
  | stop {a : Action} {i : Nat} {R : Rotation} {stage : Stage} (ha : a.call = some i)
      (hi : W.rotations[i]? = some R) (hs : R.stage.ended = false)
      (he : stage.empty = true) : Steps L W a (W.setStage i R stage)
  | select {fault : Option String} {i : Nat} {R : Rotation} {row : RefreshTokenRow}
      (hi : W.rotations[i]? = some R) (hs : R.stage.ended = false)
      (hrow : W.db.refreshToken.lookup R.id = some row) :
      Steps L W (.select i fault) (W.setStage i R (.sweep row))
  | swept {fault : Option String} {now : String} {nowMicros : Int} {fresh : String} {i : Nat}
      {R : Rotation} {stage : Stage} {db : Db} (hi : W.rotations[i]? = some R)
      (hs : R.stage.ended = false)
      (hdb : ∀ id row, db.refreshToken.lookup id = some row → W.db.refreshToken.lookup id = some row)
      (he : stage.empty = true) :
      Steps L W (.sweep i fault now nowMicros fresh) ({ W with db }.setStage i R stage)
  | join {fault : Option String} {now : String} {nowMicros : Int} {fresh : String} {i : Nat}
      {R : Rotation} {row : RefreshTokenRow} {next : Successor} {db : Db}
      (hi : W.rotations[i]? = some R) (hs : R.stage = .sweep row)
      (hdb : ∀ id row, db.refreshToken.lookup id = some row → W.db.refreshToken.lookup id = some row)
      (hnext : prepareSuccessor L R.serviceDid row nowMicros fresh = .ok (some next))
      (hnew : row.nextId = none → next.nextId ∉ W.hist.sessionOf) :
      Steps L W (.sweep i fault now nowMicros fresh)
        { { W with db }.setStage i R (.join next W.inserts.length false) with
          inserts := W.inserts ++ [⟨next.payload, row.appPasswordName, .waiting⟩]
          hist := W.hist.drawn R.id next.nextId }
  | grace {fault : Option String} {i k : Nat} {R : Rotation} {next : Successor} {db : Db}
      (hi : W.rotations[i]? = some R) (hs : R.stage = .join next k false)
      (hx : (addRefreshGracePeriod fault R.id next.expiresAt next.nextId).exec W.db = (.ok (), db)) :
      Steps L W (.grace i fault)
        { { W with db }.setStage i R (.join next k true) with
          hist := { W.hist with granted := insert next.nextId W.hist.granted } }
  | finish {i k : Nat} {R : Rotation} {next : Successor} (hi : W.rotations[i]? = some R)
      (hs : R.stage = .join next k true) :
      Steps L W (.finish i)
        { W.setStage i R (.accepted next.accessJwt next.refreshJwt) with
          hist := { W.hist with handedOut := insert next.nextId W.hist.handedOut } }
  | insert {fault : Option String} {k : Nat} {I : Insert} {db : Db} (hk : W.inserts[k]? = some I)
      (hw : I.state = .waiting)
      (hx : (storeRefreshToken fault L.formatMillis I.payload I.appPasswordName).exec W.db =
        (.ok (), db)) :
      Steps L W (.insert k fault) { W with db, inserts := W.inserts.set k { I with state := .done } }
  | insertFails {fault : Option String} {k : Nat} {I : Insert} (hk : W.inserts[k]? = some I) :
      Steps L W (.insert k fault) { W with inserts := W.inserts.set k { I with state := .failed } }
  | revoke {fault : Option String} {r : Revocation} {db : Db}
      (hdb : ∀ id row, db.refreshToken.lookup id = some row → W.db.refreshToken.lookup id = some row) :
      Steps L W (.revoke fault r)
        { W with db, hist := { W.hist with revoked := W.hist.revoked ∪ r.covered W.hist } }

section

variable {L : Library} {W W' : World} {i : Nat} {R : Rotation} {a : Action}

theorem steps_afterSweep {fault : Option String} {now : String} {nowMicros : Int} {fresh : String}
    {row : RefreshTokenRow} {db : Db} (hi : W.rotations[i]? = some R) (hs : R.stage = .sweep row)
    (hdb : ∀ id row, db.refreshToken.lookup id = some row → W.db.refreshToken.lookup id = some row)
    (h : afterSweep { W with db } i R row (prepareSuccessor L R.serviceDid row nowMicros fresh) =
      some W') : Steps L W (.sweep i fault now nowMicros fresh) W' := by
  unfold afterSweep at h
  split at h
  · cases h
    exact .swept hi (by rw [hs]; rfl) hdb rfl
  · cases h
    exact .swept hi (by rw [hs]; rfl) hdb rfl
  · rename_i next hnext
    split at h
    · cases h
    · rename_i hnew
      cases h
      exact .join hi hs hdb hnext fun hnone hmem => hnew ⟨hnone, hmem⟩

theorem steps_of_stepRotation (hi : W.rotations[i]? = some R) (ha : a.call = some i)
    (h : stepRotation L W i R R.stage a = some W') : Steps L W a W' := by
  generalize hs : R.stage = stage at h
  unfold Refresh.stepRotation at h
  split at h
  · rename_i fault
    cases ha
    have hgoing : R.stage.ended = false := by rw [hs]; rfl
    split at h <;> cases h
    · exact .stop rfl hi hgoing rfl
    · exact .stop rfl hi hgoing rfl
    · rename_i row hx
      rw [getRefreshToken, exec_query] at hx
      cases fault with
      | some e => cases hx
      | none => exact .select hi hgoing (Except.ok.inj hx)
  · rename_i row _ fault now nowMicros fresh
    cases ha
    split at h
    · rename_i e db hx
      cases h
      have hdb := clean_execute _ _ _ _ _ _ hx
      subst hdb
      exact .stop rfl hi (by rw [hs]; rfl) rfl
    · rename_i db hx
      exact steps_afterSweep hi hs (fun id row hl => ((deleteTokens_ok hx).1 hl).1) h
  · rename_i next k _ fault
    cases ha
    have hgoing : R.stage.ended = false := by rw [hs]; rfl
    split at h <;> cases h
    · exact .grace hi hs ‹_›
    · rename_i db hx
      have hdb := clean_execute _ _ _ _ _ _ hx
      subst hdb
      exact .stop rfl hi hgoing rfl
    · rename_i e db _ hx
      have hdb := clean_execute _ _ _ _ _ _ hx
      subst hdb
      exact .stop rfl hi hgoing rfl
  · cases ha
    split at h <;> cases h
    exact .finish hi hs
  · cases ha
    split at h <;> cases h
    rename_i hgoing
    exact .stop rfl hi (by rw [hs]; exact eq_false_of_ne_true hgoing) rfl
  · cases h

theorem steps_of_step (h : step L W a = some W') : Steps L W a W' := by
  have hrotation : ∀ i b, b.call = some i →
      W.rotations[i]?.bind (fun R => stepRotation L W i R R.stage b) = some W' → Steps L W b W' := by
    intro i b hb hstep
    obtain ⟨R, hi, hstep⟩ := Option.bind_eq_some_iff.1 hstep
    exact steps_of_stepRotation hi hb hstep
  cases a with
  | createSession fault payload app =>
    simp only [step] at h
    split at h
    · cases h
    split at h <;> cases h
    · exact .createSession ‹_› ‹_›
    · have hdb := clean_storeRefreshToken _ _ _ _ _ _ _ ‹_›
      subst hdb
      exact .idle rfl
  | rotate id serviceDid =>
    simp only [step] at h
    split at h <;> cases h
    exact .rotate ‹_›
  | insert k fault =>
    obtain ⟨I, hk, hI⟩ := Option.bind_eq_some_iff.1 h
    unfold Refresh.stepInsert at hI
    split at hI
    · split at hI <;> cases hI
      · exact .insert hk ‹_› ‹_›
      · have hdb := clean_storeRefreshToken _ _ _ _ _ _ _ ‹_›
        subst hdb
        exact .insertFails hk
    · cases hI
  | revoke fault r =>
    cases h
    unfold Refresh.stepRevoke
    split
    · rename_i db hx
      rw [r.statement_eq] at hx
      exact .revoke fun id row hl => ((deleteTokens_ok hx).1 hl).1
    · rename_i e db hx
      rw [r.statement_eq] at hx
      have hdb := clean_execute _ _ _ _ _ _ hx
      subst hdb
      exact .idle rfl
  | select i fault => exact hrotation i _ rfl h
  | sweep i fault now nowMicros fresh => exact hrotation i _ rfl h
  | grace i fault => exact hrotation i _ rfl h
  | finish i => exact hrotation i _ rfl h
  | drop i => exact hrotation i _ rfl h

end

/-! ## The clock -/

/-- What the calls' clock shows, and what each call last read there. -/
structure Timed where
  world : World
  clock : Int
  read : Nat → Option Int

/-- The call that reads the clock in a step, and what it reads. -/
def Action.reading : Action → Option (Nat × Int)
  | .sweep i _ _ nowMicros _ => some (i, nowMicros)
  | _ => none

def Timed.see (T : Timed) (W : World) (r : Option (Nat × Int)) : Timed :=
  ⟨W, r.elim T.clock Prod.snd, r.elim T.read fun r => Function.update T.read r.1 (some r.2)⟩

/-- The clock does not go back. -/
def stepTimed (L : Library) (T : Timed) (a : Action) : Option Timed :=
  if a.reading.all (T.clock ≤ ·.2) then (step L T.world a).map (T.see · a.reading) else none

def Timed.start (db : Db) (clock : Int) : Timed := ⟨.start db, clock, fun _ => none⟩

/-- The time formats: a text stands for the instant's whole milliseconds, and formatting what it
stands for gives it back. -/
structure Library.Clocked (L : Library) : Prop where
  round : ∀ {micros text parsed}, L.formatMicros micros = .ok text → L.parseMicros text = .ok parsed →
    micros - 1000 < parsed ∧ parsed ≤ micros
  stable : ∀ {micros text parsed}, L.formatMicros micros = .ok text → L.parseMicros text = .ok parsed →
    L.formatMicros parsed = .ok text
  millis : ∀ {millis text}, L.formatMillis millis = some text →
    L.formatMicros (millis * 1000) = .ok text

/-- The text is one that the formats write, of an instant that `ok` holds of. -/
def Writes (L : Library) (text : String) (ok : Int → Prop) : Prop :=
  ∃ micros, L.formatMicros micros = .ok text ∧ ok micros

theorem Writes.mono {L : Library} {text : String} {ok ok' : Int → Prop} (h : Writes L text ok)
    (hok : ∀ x, ok x → ok' x) : Writes L text ok' := by
  obtain ⟨x, hx, h⟩ := h
  exact ⟨x, hx, hok x h⟩

/-! ## Successors -/

/-- The expiry that a successor is given, and that its refresh JWT is the one decoded. -/
theorem prepareSuccessor_times {L : Library} {serviceDid fresh : String} {row : RefreshTokenRow}
    {now : Int} {next : Successor}
    (h : prepareSuccessor L serviceDid row now fresh = .ok (some next)) :
    L.decodeRefreshToken next.refreshJwt = .ok next.payload ∧
      ∃ prev, L.parseMicros row.expiresAt = .ok prev ∧ now < min (now + refreshGraceMicros) prev ∧
        L.formatMicros (min (now + refreshGraceMicros) prev) = .ok next.expiresAt := by
  obtain ⟨expiry, hexpiry, h⟩ := except_bind_ok.1 h
  obtain ⟨prev, hprev, hexpiry⟩ := except_bind_ok.1 hexpiry
  dsimp only [pure, Except.pure] at hexpiry
  split at hexpiry <;> cases hexpiry
  · cases h
  · rename_i hlater
    obtain ⟨next', hnext, h⟩ := except_bind_ok.1 h
    cases h
    obtain ⟨⟨access, refresh⟩, -, hnext⟩ := except_bind_ok.1 hnext
    obtain ⟨payload, hdecode, hnext⟩ := except_bind_ok.1 hnext
    obtain ⟨text, htext, hnext⟩ := except_bind_ok.1 hnext
    cases hnext
    exact ⟨except_mapError_ok.1 hdecode, prev, except_mapError_ok.1 hprev, not_le.1 hlater,
      except_mapError_ok.1 htext⟩

/-- The text of a grace period that a call which has read `now` has given: it is later than `now`, by the
grace period at most. -/
structure Grace (L : Library) (now : Int) (text : String) : Prop where
  bound : Writes L text (· ≤ now + refreshGraceMicros)
  after : ∀ e, L.parseMicros text = .ok e → now < e

theorem Grace.le {L : Library} (hL : L.Clocked) {now e : Int} {text : String} (h : Grace L now text)
    (he : L.parseMicros text = .ok e) : e ≤ now + refreshGraceMicros := by
  obtain ⟨x, hx, hle⟩ := h.bound
  exact (hL.round hx he).2.trans hle

theorem prepareSuccessor_grace {L : Library} (hL : L.Clocked) {serviceDid fresh : String}
    {row : RefreshTokenRow} {now : Int} {next : Successor}
    (h : prepareSuccessor L serviceDid row now fresh = .ok (some next))
    (hrow : Writes L row.expiresAt fun _ => True) : Grace L now next.expiresAt := by
  obtain ⟨-, prev, hprev, hlater, htext⟩ := prepareSuccessor_times h
  refine ⟨⟨_, htext, min_le_left _ _⟩, fun e he => ?_⟩
  rcases min_choice (now + refreshGraceMicros) prev with hmin | hmin
  · rw [hmin] at htext
    have hround := (hL.round htext he).1
    have hhours : (1000 : Int) ≤ refreshGraceMicros := by decide
    omega
  · -- the row's own text comes back
    rw [hmin] at htext hlater
    obtain ⟨x, hx, -⟩ := hrow
    rw [hL.stable hx hprev, Except.ok.injEq] at htext
    rw [← htext, hprev] at he
    cases he
    exact hlater

/-- An expiry that is given is not after the row's own. -/
theorem prepareSuccessor_le {L : Library} (hL : L.Clocked) {serviceDid fresh : String}
    {row : RefreshTokenRow} {now p e : Int} {next : Successor}
    (h : prepareSuccessor L serviceDid row now fresh = .ok (some next))
    (hp : L.parseMicros row.expiresAt = .ok p) (he : L.parseMicros next.expiresAt = .ok e) :
    e ≤ p := by
  obtain ⟨-, prev, hprev, -, htext⟩ := prepareSuccessor_times h
  rw [hp] at hprev
  cases hprev
  exact (hL.round htext he).2.trans (min_le_right _ _)

/-- A row in its grace period keeps its expiry. -/
theorem prepareSuccessor_again {L : Library} (hL : L.Clocked) {serviceDid fresh : String}
    {row : RefreshTokenRow} {now : Int} {next : Successor}
    (h : prepareSuccessor L serviceDid row now fresh = .ok (some next))
    (hrow : Writes L row.expiresAt (· ≤ now + refreshGraceMicros)) :
    next.expiresAt = row.expiresAt := by
  obtain ⟨-, prev, hprev, -, htext⟩ := prepareSuccessor_times h
  obtain ⟨x, hx, hle⟩ := hrow
  rw [min_eq_right ((hL.round hx hprev).2.trans hle), hL.stable hx hprev, Except.ok.injEq] at htext
  exact htext.symm

/-! ## What holds in every run -/

/-- A row names another token than itself, and has a text that the formats write; with a successor it is
in its grace period. -/
structure RowTimes (L : Library) (clock : Int) (H : History) (id : String) (row : RefreshTokenRow) :
    Prop where
  writes : Writes L row.expiresAt fun _ => True
  next : ∀ n, row.nextId = some n → n ≠ id ∧ n ∈ H.sessionOf ∧
    Writes L row.expiresAt (· ≤ clock + refreshGraceMicros)

/-- What a call of the token `id` that last read `read` has in hand. -/
def StageTimes (L : Library) (clock : Int) (H : History) (id : String) (read : Option Int) :
    Stage → Prop
  | .sweep row => RowTimes L clock H id row
  | .join next _ _ => next.nextId ∈ H.sessionOf ∧ next.nextId ≠ id ∧
      L.decodeRefreshToken next.refreshJwt = .ok next.payload ∧ next.payload.jti = next.nextId ∧
      ∃ now ≤ clock, read = some now ∧ Grace L now next.expiresAt
  | _ => True

structure TimedInv (L : Library) (T : Timed) : Prop where
  granted : ∀ id ∈ T.world.hist.granted, id ∈ T.world.hist.sessionOf
  handedOut : ∀ id ∈ T.world.hist.handedOut, id ∈ T.world.hist.sessionOf
  row : ∀ id row, T.world.db.refreshToken.lookup id = some row →
    id ∈ T.world.hist.sessionOf ∧ RowTimes L T.clock T.world.hist id row
  inserts : ∀ I ∈ T.world.inserts, I.payload.jti ∈ T.world.hist.sessionOf
  rotation : ∀ i R, T.world.rotations[i]? = some R → R.id ∈ T.world.hist.sessionOf ∧
    StageTimes L T.clock T.world.hist R.id (T.read i) R.stage

section

variable {L : Library} {clock clock' : Int} {H H' : History}

theorem RowTimes.mono {id : String} {row : RefreshTokenRow} (h : RowTimes L clock H id row)
    (hc : clock ≤ clock') (hH : ∀ k ∈ H.sessionOf, k ∈ H'.sessionOf) : RowTimes L clock' H' id row := by
  refine ⟨h.writes, fun n hn => ?_⟩
  obtain ⟨hne, hmem, hw⟩ := h.next n hn
  exact ⟨hne, hH n hmem, hw.mono fun x hx => by omega⟩

theorem StageTimes.mono {id : String} {read : Option Int} {stage : Stage}
    (h : StageTimes L clock H id read stage) (hc : clock ≤ clock')
    (hH : ∀ k ∈ H.sessionOf, k ∈ H'.sessionOf) : StageTimes L clock' H' id read stage := by
  cases stage with
  | sweep row => exact RowTimes.mono h hc hH
  | join next k updated =>
    obtain ⟨hmem, hne, hdecode, hjti, now, hle, hread, hgrace⟩ := h
    exact ⟨hH _ hmem, hne, hdecode, hjti, now, hle.trans hc, hread, hgrace⟩
  | _ => trivial

theorem StageTimes.of_empty {id : String} {read : Option Int} {stage : Stage}
    (he : stage.empty = true) : StageTimes L clock H id read stage := by
  cases stage with
  | select | refused | failed => trivial
  | _ => cases he

end

/-! ### The parts of a step -/

theorem mem_newSession {H : History} {payload : RefreshToken} {app : Option String} {k : String} :
    k ∈ (H.newSession payload app).sessionOf ↔ k = payload.jti ∨ k ∈ H.sessionOf :=
  Finmap.mem_insert

theorem mem_drawn {H : History} {id nextId k : String} (hid : id ∈ H.sessionOf) :
    k ∈ (H.drawn id nextId).sessionOf ↔ k = nextId ∨ k ∈ H.sessionOf := by
  obtain ⟨S, hS⟩ := Finmap.mem_iff.1 hid
  rw [History.drawn, hS]
  exact Table.mem_insertIgnore _ _ _ _

theorem drawn_granted (H : History) (id nextId : String) :
    (H.drawn id nextId).granted = H.granted ∧ (H.drawn id nextId).handedOut = H.handedOut := by
  unfold History.drawn
  split <;> exact ⟨rfl, rfl⟩

/-- The calls after one of them has gone on to another stage. -/
theorem getElem?_setStage {W : World} {i j : Nat} {R R' : Rotation} {stage : Stage}
    (h : (W.setStage i R stage).rotations[j]? = some R') :
    (j = i ∧ R' = { R with stage }) ∨ (j ≠ i ∧ W.rotations[j]? = some R') := by
  rw [World.setStage, List.getElem?_set] at h
  split at h
  · rename_i hij
    split at h
    · cases h
      exact .inl ⟨hij.symm, rfl⟩
    · cases h
  · rename_i hij
    exact .inr ⟨fun he => hij he.symm, h⟩

theorem TimedInv.next {L : Library} {T T' : Timed} (h : TimedInv L T) (hc : T.clock ≤ T'.clock)
    (hH : ∀ k ∈ T.world.hist.sessionOf, k ∈ T'.world.hist.sessionOf)
    (hgranted : ∀ id ∈ T'.world.hist.granted, id ∈ T.world.hist.granted ∨ id ∈ T'.world.hist.sessionOf)
    (hhanded : ∀ id ∈ T'.world.hist.handedOut,
      id ∈ T.world.hist.handedOut ∨ id ∈ T'.world.hist.sessionOf)
    (hrow : ∀ id row, T'.world.db.refreshToken.lookup id = some row →
      T.world.db.refreshToken.lookup id = some row ∨
        (id ∈ T'.world.hist.sessionOf ∧ RowTimes L T'.clock T'.world.hist id row))
    (hinserts : ∀ I ∈ T'.world.inserts, (∃ J ∈ T.world.inserts, J.payload = I.payload) ∨
      I.payload.jti ∈ T'.world.hist.sessionOf)
    (hrotation : ∀ i R, T'.world.rotations[i]? = some R →
      (T.world.rotations[i]? = some R ∧ T'.read i = T.read i) ∨ (R.id ∈ T'.world.hist.sessionOf ∧
        StageTimes L T'.clock T'.world.hist R.id (T'.read i) R.stage)) : TimedInv L T' where
  granted id hid := (hgranted id hid).elim (fun hid => hH _ (h.granted id hid)) fun hid => hid
  handedOut id hid := (hhanded id hid).elim (fun hid => hH _ (h.handedOut id hid)) fun hid => hid
  row id row hl := by
    rcases hrow id row hl with hl | hnew
    · obtain ⟨hid, hok⟩ := h.row id row hl
      exact ⟨hH _ hid, hok.mono hc hH⟩
    · exact hnew
  inserts I hI := by
    rcases hinserts I hI with ⟨J, hJ, he⟩ | hnew
    · rw [← he]
      exact hH _ (h.inserts J hJ)
    · exact hnew
  rotation i R hR := by
    rcases hrotation i R hR with ⟨hR, hread⟩ | hnew
    · obtain ⟨hid, hok⟩ := h.rotation i R hR
      rw [hread]
      exact ⟨hH _ hid, hok.mono hc hH⟩
    · exact hnew

theorem Action.call_of_reading {a : Action} {i : Nat} {now : Int} (h : a.reading = some (i, now)) :
    a.call = some i := by
  cases a <;> cases h
  rfl

section

variable {L : Library} {T T' : Timed} {W : World} {a : Action}

theorem stepTimed_some (h : stepTimed L T a = some T') :
    ∃ W, Steps L T.world a W ∧ T' = T.see W a.reading ∧ T.clock ≤ T'.clock := by
  unfold stepTimed at h
  split at h
  · rename_i hclock
    obtain ⟨W, hW, rfl⟩ := Option.map_eq_some_iff.1 h
    refine ⟨W, steps_of_step hW, rfl, ?_⟩
    cases hr : a.reading with
    | none => exact le_refl _
    | some r =>
      rw [hr] at hclock
      exact of_decide_eq_true hclock
  · cases h

theorem see_read {j : Nat} (hj : a.call ≠ some j) : (T.see W a.reading).read j = T.read j := by
  cases hr : a.reading with
  | none => rfl
  | some r =>
    refine Function.update_of_ne (fun he => hj ?_) _ _
    rw [he]
    exact Action.call_of_reading hr

/-- Every call but the one that goes on stays as it was. -/
theorem others {i : Nat} (ha : a.call = some i) {stage : Stage} {R : Rotation} {j : Nat}
    {R' : Rotation} (hR' : (W.setStage i R stage).rotations[j]? = some R') :
    (W.rotations[j]? = some R' ∧ (T.see W a.reading).read j = T.read j) ∨
      (j = i ∧ R' = { R with stage }) := by
  rcases getElem?_setStage hR' with hself | ⟨hne, hR'⟩
  · exact .inr hself
  · refine .inl ⟨hR', see_read ?_⟩
    rw [ha]
    exact fun he => hne (Option.some.inj he).symm

/-- A call goes on to another stage, and rows are deleted at most. -/
theorem TimedInv.moves (h : TimedInv L T) {i : Nat} (ha : a.call = some i) {stage : Stage}
    {R : Rotation} (hi : T.world.rotations[i]? = some R) {db : Db}
    (hdb : ∀ id row, db.refreshToken.lookup id = some row →
      T.world.db.refreshToken.lookup id = some row)
    (hclock : T.clock ≤ (T.see W a.reading).clock)
    (hstage : StageTimes L (T.see W a.reading).clock T.world.hist R.id ((T.see W a.reading).read i)
      stage) :
    TimedInv L (T.see ({ T.world with db }.setStage i R stage) a.reading) := by
  refine h.next hclock (fun _ hk => hk) (fun _ hk => .inl hk) (fun _ hk => .inl hk)
    (fun id row hl => .inl (hdb id row hl)) (fun I hI => .inl ⟨I, hI, rfl⟩) fun j R' hR' => ?_
  refine (others ha hR').imp_right ?_
  rintro ⟨rfl, rfl⟩
  exact ⟨(h.rotation j R hi).1, hstage⟩

/-- A call's successor is another token than the one it rotates. -/
theorem TimedInv.successor_ne (h : TimedInv L T) {i : Nat} {R : Rotation} {row : RefreshTokenRow}
    {next : Successor} {fresh : String} {now : Int} (hi : T.world.rotations[i]? = some R)
    (hs : R.stage = .sweep row)
    (hnext : prepareSuccessor L R.serviceDid row now fresh = .ok (some next))
    (hnew : row.nextId = none → next.nextId ∉ T.world.hist.sessionOf) : next.nextId ≠ R.id := by
  obtain ⟨hR, hstage⟩ := h.rotation i R hi
  rw [hs] at hstage
  cases hn : row.nextId with
  | none => exact fun he => hnew hn (he ▸ hR)
  | some n =>
    rw [(prepareSuccessor_some hnext).1, hn]
    exact (hstage.next n hn).1

end

/-- Every step keeps the invariant. -/
theorem timedInv_step {L : Library} (hL : L.Clocked) {T T' : Timed} {a : Action} (h : TimedInv L T)
    (hstep : stepTimed L T a = some T') : TimedInv L T' := by
  obtain ⟨W, hW, rfl, hclock⟩ := stepTimed_some hstep
  cases hW with
  | idle ha =>
    refine h.next hclock (fun _ hk => hk) (fun _ hk => .inl hk) (fun _ hk => .inl hk)
      (fun _ _ hl => .inl hl) (fun I hI => .inl ⟨I, hI, rfl⟩) fun j R hR => .inl ⟨hR, see_read ?_⟩
    rw [ha]
    nofun
  | @createSession _ payload app db _ hx =>
    have hself : payload.jti ∈ (T.world.hist.newSession payload app).sessionOf :=
      mem_newSession.2 (.inl rfl)
    refine h.next hclock (fun k hk => mem_newSession.2 (.inr hk)) (fun id hid => ?_)
      (fun id hid => ?_) (fun id row hl => ?_) (fun I hI => .inl ⟨I, hI, rfl⟩)
      fun i R hR => .inl ⟨hR, rfl⟩
    · refine (Finset.mem_insert.1 hid).symm.imp_right ?_
      rintro rfl
      exact hself
    · refine (Finset.mem_insert.1 hid).symm.imp_right ?_
      rintro rfl
      exact hself
    · refine (storeRefreshToken_ok hx hl).imp_right ?_
      rintro ⟨rfl, text, htext, rfl⟩
      exact ⟨hself, ⟨_, hL.millis htext, trivial⟩, nofun⟩
  | rotate hid =>
    refine h.next hclock (fun _ hk => hk) (fun _ hk => .inl hk) (fun _ hk => .inl hk)
      (fun _ _ hl => .inl hl) (fun I hI => .inl ⟨I, hI, rfl⟩) fun j R hR => ?_
    rw [Timed.see, List.getElem?_append] at hR
    split at hR
    · exact .inl ⟨hR, rfl⟩
    · have hnew := List.mem_of_getElem? hR
      rw [List.mem_singleton.1 hnew]
      exact .inr ⟨h.handedOut _ hid, trivial⟩
  | stop ha hi _ he => exact h.moves ha hi (fun _ _ hl => hl) hclock (.of_empty he)
  | select hi _ hrow => exact h.moves rfl hi (fun _ _ hl => hl) hclock (h.row _ _ hrow).2
  | swept hi _ hdb he => exact h.moves rfl hi hdb hclock (.of_empty he)
  | @join _ _ nowMicros _ i R row next db hi hs hdb hnext hnew =>
    obtain ⟨hR, hstage⟩ := h.rotation i R hi
    rw [hs] at hstage
    obtain ⟨-, hjti, -⟩ := prepareSuccessor_some hnext
    obtain ⟨hdecode, -⟩ := prepareSuccessor_times hnext
    have hself : next.nextId ∈ (T.world.hist.drawn R.id next.nextId).sessionOf :=
      (mem_drawn hR).2 (.inl rfl)
    have hgrows : ∀ k ∈ T.world.hist.sessionOf,
        k ∈ (T.world.hist.drawn R.id next.nextId).sessionOf := fun k hk => (mem_drawn hR).2 (.inr hk)
    have hgranted := drawn_granted T.world.hist R.id next.nextId
    have hne := h.successor_ne hi hs hnext hnew
    refine h.next hclock hgrows (fun k hk => .inl (hgranted.1 ▸ hk)) (fun k hk => .inl (hgranted.2 ▸ hk))
      (fun id row hl => .inl (hdb id row hl)) (fun I hI => ?_) fun j R' hR' => ?_
    · rcases List.mem_append.1 hI with hI | hI
      · exact .inl ⟨I, hI, rfl⟩
      · rw [List.mem_singleton.1 hI]
        refine .inr ?_
        rw [hjti]
        exact hself
    · refine (others rfl hR').imp_right ?_
      rintro ⟨rfl, rfl⟩
      refine ⟨hgrows _ hR, hself, hne, hdecode, hjti, nowMicros, le_refl _, ?_,
        prepareSuccessor_grace hL hnext hstage.writes⟩
      exact Function.update_self _ _ _
  | @grace _ i k R next db hi hs hx =>
    obtain ⟨-, rfl⟩ := addRefreshGracePeriod_ok hx
    obtain ⟨hR, hstage⟩ := h.rotation i R hi
    rw [hs] at hstage
    have hkeep := hstage
    obtain ⟨hmem, hne, -, -, now, hnow, -, hgrace⟩ := hstage
    refine h.next hclock (fun _ hk => hk) (fun k hk => ?_) (fun _ hk => .inl hk)
      (fun id row hl => ?_) (fun I hI => .inl ⟨I, hI, rfl⟩) fun j R' hR' => ?_
    · refine (Finset.mem_insert.1 hk).symm.imp_right ?_
      rintro rfl
      exact hmem
    · simp only [Timed.see, World.setStage, Table.lookup_updateWhere, Option.map_eq_some_iff] at hl
      obtain ⟨row, hl, rfl⟩ := hl
      split
      · rename_i hp
        obtain ⟨rfl, -⟩ := of_decide_eq_true hp
        refine .inr ⟨hR, hgrace.bound.mono fun _ _ => trivial, fun n hn => ?_⟩
        cases hn
        exact ⟨hne, hmem, hgrace.bound.mono fun x hx => hx.trans (Int.add_le_add_right hnow _)⟩
      · exact .inl hl
    · refine (others rfl hR').imp_right ?_
      rintro ⟨rfl, rfl⟩
      exact ⟨hR, hkeep⟩
  | @finish i k R next hi hs =>
    obtain ⟨hR, hstage⟩ := h.rotation i R hi
    rw [hs] at hstage
    refine h.next hclock (fun _ hk => hk) (fun _ hk => .inl hk) (fun k hk => ?_)
      (fun _ _ hl => .inl hl) (fun I hI => .inl ⟨I, hI, rfl⟩) fun j R' hR' => ?_
    · refine (Finset.mem_insert.1 hk).symm.imp_right ?_
      rintro rfl
      exact hstage.1
    · refine (others rfl hR').imp_right ?_
      rintro ⟨rfl, rfl⟩
      exact ⟨hR, trivial⟩
  | @insert _ k I db hk hw hx =>
    have hI := h.inserts I (List.mem_of_getElem? hk)
    refine h.next hclock (fun _ hk => hk) (fun _ hk => .inl hk) (fun _ hk => .inl hk)
      (fun id row hl => ?_) (forall_mem_set (.inr hI) fun J hJ => .inl ⟨J, hJ, rfl⟩)
      fun j R hR => .inl ⟨hR, rfl⟩
    refine (storeRefreshToken_ok hx hl).imp_right ?_
    rintro ⟨rfl, text, htext, rfl⟩
    exact ⟨hI, ⟨_, hL.millis htext, trivial⟩, nofun⟩
  | @insertFails _ k I hk =>
    have hI := h.inserts I (List.mem_of_getElem? hk)
    exact h.next hclock (fun _ hk => hk) (fun _ hk => .inl hk) (fun _ hk => .inl hk)
      (fun _ _ hl => .inl hl) (forall_mem_set (.inr hI) fun J hJ => .inl ⟨J, hJ, rfl⟩)
      fun j R hR => .inl ⟨hR, rfl⟩
  | revoke hdb =>
    exact h.next hclock (fun _ hk => hk) (fun _ hk => .inl hk) (fun _ hk => .inl hk)
      (fun id row hl => .inl (hdb id row hl)) (fun I hI => .inl ⟨I, hI, rfl⟩)
      fun j R hR => .inl ⟨hR, rfl⟩

theorem timedInv_start (L : Library) (db : Db) (clock : Int) : TimedInv L (.start db clock) where
  granted _ h := absurd h (Finset.notMem_empty _)
  handedOut _ h := absurd h (Finset.notMem_empty _)
  row _ _ h := by cases h
  inserts _ h := by cases h
  rotation _ _ h := by cases h

/-! ## One winner -/

/-- The token is the first of its session. -/
def IsRoot (H : History) (id : String) : Prop := ∃ S, H.sessionOf.lookup id = some S ∧ S.root = id

/-- An instant written as `text` is not after one written as `orig`. -/
def Under (L : Library) (text orig : String) : Prop :=
  ∀ e p, L.parseMicros text = .ok e → L.parseMicros orig = .ok p → e ≤ p

/-- What the calls of a token agree on: the successor that its row names, and the row's expiry since. -/
abbrev Winner := String × String

/-- The row's expiry while it names no successor. -/
def Before (W₀ : World) (id text : String) : Prop :=
  ∃ row₀, W₀.db.refreshToken.lookup id = some row₀ ∧ text = row₀.expiresAt

/-- What a call of the token `id` has in hand. -/
def CallOf (L : Library) (W₀ : World) (id : String) (first : Option Winner) (read : Option Int) :
    Stage → Prop
  | .sweep row => row.nextId = none ∧ Before W₀ id row.expiresAt ∨
      ∃ w, first = some w ∧ row.nextId = some w.1 ∧ row.expiresAt = w.2
  | .join next _ false =>
      (first = none → ∃ orig, Before W₀ id orig ∧ Under L next.expiresAt orig) ∧
      ∀ w, first = some w → next.nextId = w.1 → next.expiresAt = w.2
  | .join next _ true => first = some (next.nextId, next.expiresAt)
  | .accepted _ refreshJwt => ∃ w p now, first = some w ∧ L.decodeRefreshToken refreshJwt = .ok p ∧
      p.jti = w.1 ∧ read = some now ∧ Grace L now w.2
  | _ => True

/-- A row added since `W₀`: it names no successor, and is a session's first, the winner's, or one that
no row has been made to name. -/
def Added (H : History) (first : Option Winner) (k : String) (row : RefreshTokenRow) : Prop :=
  row.nextId = none ∧ (IsRoot H k ∨ k ∉ H.granted ∨ first.map Prod.fst = some k)

/-- Call `i` is in its `try_join!` with the successor `n`. -/
def Joins (T : Timed) (i : Nat) (n : String) : Prop :=
  ∃ R next k u, T.world.rotations[i]? = some R ∧ R.stage = .join next k u ∧ next.nextId = n

structure OneWinner (L : Library) (W₀ : World) (id : String) (first : Option Winner) (T : Timed) :
    Prop where
  row : ∀ row, T.world.db.refreshToken.lookup id = some row → row.nextId = first.map Prod.fst ∧
    (first = none → Before W₀ id row.expiresAt) ∧ ∀ w, first = some w → row.expiresAt = w.2
  drawn : ∀ w, first = some w → w.1 ∈ T.world.hist.sessionOf
  under : ∀ w, first = some w → ∀ orig, Before W₀ id orig → Under L w.2 orig
  inserts : ∀ I ∈ T.world.inserts, I.state = .waiting → I.payload.jti ≠ id ∧
    (I.payload.jti ∈ T.world.hist.granted → first.map Prod.fst = some I.payload.jti)
  known : id ∈ T.world.hist.sessionOf
  calls : W₀.rotations.length ≤ T.world.rotations.length
  past : ∀ i (R : Rotation), T.world.rotations[i]? = some R → i < W₀.rotations.length → R.stage.ended = true
  call : ∀ i R, T.world.rotations[i]? = some R → W₀.rotations.length ≤ i →
    R.id = id ∧ CallOf L W₀ id first (T.read i) R.stage
  distinct : first = none → ∀ i j n, Joins T i n → Joins T j n → i = j
  rows : ∀ k row, k ≠ id → T.world.db.refreshToken.lookup k = some row →
    W₀.db.refreshToken.lookup k = some row ∨ Added T.world.hist first k row

/-- Only rotations of `id` begin, and nothing is revoked. -/
def OnlyRotates (id : String) : Action → Prop
  | .rotate id' _ => id' = id
  | .revoke _ _ => False
  | _ => True

instance (id : String) : ∀ a, Decidable (OnlyRotates id a)
  | .rotate id' _ => inferInstanceAs (Decidable (id' = id))
  | .revoke _ _ => inferInstanceAs (Decidable False)
  | .createSession _ _ _ | .select _ _ | .sweep _ _ _ _ _ | .grace _ _ | .insert _ _ | .finish _
  | .drop _ => isTrue trivial

/-- No rotation is under way, and no insert is still to run. -/
structure Quiet (W : World) : Prop where
  rotations : ∀ R ∈ W.rotations, R.stage.ended = true
  inserts : ∀ I ∈ W.inserts, I.state ≠ .waiting

/-- Where the calls begin. -/
theorem oneWinner_start {L : Library} {T : Timed} (h : TimedInv L T) (hq : Quiet T.world)
    {id : String} (hid : id ∈ T.world.hist.sessionOf) : ∃ first, OneWinner L T.world id first T := by
  have hcalls : ∀ i R, T.world.rotations[i]? = some R → ¬ T.world.rotations.length ≤ i := by
    intro i R hi hle
    rw [List.getElem?_eq_none hle] at hi
    cases hi
  have hended : ∀ i (R : Rotation), T.world.rotations[i]? = some R → R.stage.ended = true :=
    fun i R hi => hq.rotations R (List.mem_of_getElem? hi)
  refine ⟨(T.world.db.refreshToken.lookup id).bind fun row => row.nextId.map (·, row.expiresAt),
    fun row hl => ?_, fun w hw => ?_, fun w hw orig ho => ?_,
    fun I hI hwait => absurd hwait (hq.inserts I hI), hid, le_refl _, fun i R hi _ => hended i R hi,
    fun i R hi hle => absurd hle (hcalls i R hi),
    fun _ i j n hjoins _ => ?_, fun k row _ hl => .inl hl⟩
  · rw [hl]
    refine ⟨?_, fun hfirst => ⟨row, hl, rfl⟩, fun w hw => ?_⟩
    · cases hn : row.nextId <;> simp [hn]
    · obtain ⟨n, -, rfl⟩ := Option.map_eq_some_iff.1 hw
      rfl
  · obtain ⟨row, hl, hw⟩ := Option.bind_eq_some_iff.1 hw
    obtain ⟨n, hn, rfl⟩ := Option.map_eq_some_iff.1 hw
    exact ((h.row id row hl).2.next n hn).2.1
  · obtain ⟨row, hl, hw⟩ := Option.bind_eq_some_iff.1 hw
    obtain ⟨n, hn, rfl⟩ := Option.map_eq_some_iff.1 hw
    obtain ⟨row₀, hl₀, rfl⟩ := ho
    obtain rfl : row = row₀ := Option.some.inj (hl.symm.trans hl₀)
    intro e p he hp
    exact (Except.ok.inj (he.symm.trans hp)).le
  · obtain ⟨R, next, k, u, hi, hs, -⟩ := hjoins
    have hdone := hended i R hi
    rw [hs] at hdone
    cases hdone

/-- A step of a call, or of none, that leaves the winner as it is. -/
theorem OneWinner.next {L : Library} {W₀ : World} {id : String} {first : Option Winner}
    {T T' : Timed} (h : OneWinner L W₀ id first T) (hT : TimedInv L T) (i : Nat)
    (hH : ∀ k ∈ T.world.hist.sessionOf, k ∈ T'.world.hist.sessionOf)
    (hcalls : T.world.rotations.length ≤ T'.world.rotations.length)
    (hroot : ∀ k, IsRoot T.world.hist k → IsRoot T'.world.hist k)
    (hgranted : ∀ k ∈ T'.world.hist.granted, k ∈ T.world.hist.granted ∨
      k ∉ T.world.hist.sessionOf ∨ first.map Prod.fst = some k)
    (hrow : ∀ k row, T'.world.db.refreshToken.lookup k = some row →
      T.world.db.refreshToken.lookup k = some row ∨ (k ≠ id ∧ Added T'.world.hist first k row))
    (hinserts : ∀ I ∈ T'.world.inserts, I.state = .waiting →
      (∃ J ∈ T.world.inserts, J.state = .waiting ∧ J.payload = I.payload) ∨
        (I.payload.jti ≠ id ∧
          (I.payload.jti ∈ T'.world.hist.granted → first.map Prod.fst = some I.payload.jti)))
    (hcall : ∀ j (R : Rotation), T'.world.rotations[j]? = some R →
      (T.world.rotations[j]? = some R ∧ T'.read j = T.read j) ∨
        (j = i ∧ W₀.rotations.length ≤ i ∧ R.id = id ∧ CallOf L W₀ id first (T'.read i) R.stage ∧
          (first = none → ∀ next k u, R.stage = .join next k u →
            next.nextId ∉ T.world.hist.sessionOf))) : OneWinner L W₀ id first T' where
  row row hl := by
    rcases hrow id row hl with hl | ⟨hne, -⟩
    · exact h.row row hl
    · exact absurd rfl hne
  drawn w hw := hH _ (h.drawn w hw)
  under := h.under
  inserts I hI hwait := by
    rcases hinserts I hI hwait with ⟨J, hJ, hJw, he⟩ | hnew
    · obtain ⟨hne, hwin⟩ := h.inserts J hJ hJw
      have hknown := hT.inserts J hJ
      rw [he] at hne hwin hknown
      refine ⟨hne, fun hg => ?_⟩
      rcases hgranted _ hg with hg | hg | hg
      · exact hwin hg
      · exact absurd hknown hg
      · exact hg
    · exact hnew
  known := hH _ h.known
  calls := h.calls.trans hcalls
  past j R hj hlt := by
    rcases hcall j R hj with ⟨hj, -⟩ | ⟨rfl, hle, -⟩
    · exact h.past j R hj hlt
    · exact absurd hlt (not_lt.2 hle)
  call j R hj hle := by
    rcases hcall j R hj with ⟨hj, hread⟩ | ⟨rfl, -, hid, hok, -⟩
    · rw [hread]
      exact h.call j R hj hle
    · exact ⟨hid, hok⟩
  distinct hnone j j' n hjoins hjoins' := by
    -- the call that has moved has an id that no other can have
    have hold : ∀ j, Joins T' j n → (j = i ∧ n ∉ T.world.hist.sessionOf) ∨
        (Joins T j n ∧ n ∈ T.world.hist.sessionOf) := by
      rintro j ⟨R, next, k, u, hj, hs, rfl⟩
      rcases hcall j R hj with ⟨hj, -⟩ | ⟨rfl, -, -, -, hfresh⟩
      · have hstage := (hT.rotation j R hj).2
        rw [hs] at hstage
        exact .inr ⟨⟨R, next, k, u, hj, hs, rfl⟩, hstage.1⟩
      · exact .inl ⟨rfl, hfresh hnone next k u hs⟩
    rcases hold j hjoins with ⟨rfl, hout⟩ | ⟨hj, hin⟩ <;>
      rcases hold j' hjoins' with ⟨rfl, hout'⟩ | ⟨hj', hin'⟩
    · rfl
    · exact absurd hin' hout
    · exact absurd hin hout'
    · exact h.distinct hnone j j' n hj hj'
  rows k row hne hl := by
    rcases hrow k row hl with hl | ⟨-, hnew⟩
    · refine (h.rows k row hne hl).imp_right fun hadded => ⟨hadded.1, ?_⟩
      obtain ⟨-, hroot' | hout | hwin⟩ := hadded
      · exact .inl (hroot k hroot')
      · refine .inr (Classical.or_iff_not_imp_left.2 fun hin => ?_)
        rcases hgranted k (not_not.1 hin) with hg | hg | hg
        · exact absurd hg hout
        · exact absurd (hT.row k row hl).1 hg
        · exact hg
      · exact .inr (.inr hwin)
    · exact .inr hnew

section

variable {L : Library} {W₀ : World} {id : String} {first : Option Winner} {T : Timed} {i : Nat}
  {R : Rotation}

/-- A call that has not ended is one of the token's. -/
theorem OneWinner.going (h : OneWinner L W₀ id first T) (hi : T.world.rotations[i]? = some R)
    (hs : R.stage.ended = false) :
    W₀.rotations.length ≤ i ∧ R.id = id ∧ CallOf L W₀ id first (T.read i) R.stage := by
  have hle : W₀.rotations.length ≤ i := by
    refine not_lt.1 fun hlt => ?_
    have hdone := h.past i R hi hlt
    rw [hs] at hdone
    cases hdone
  exact ⟨hle, h.call i R hi hle⟩

theorem length_setStage (W : World) (i : Nat) (R : Rotation) (stage : Stage) :
    (W.setStage i R stage).rotations.length = W.rotations.length :=
  List.length_set

/-- A call goes on to a stage outside the `try_join!`, and rows are deleted at most. -/
theorem OneWinner.moves (h : OneWinner L W₀ id first T) (hT : TimedInv L T) {a : Action}
    (ha : a.call = some i) (hi : T.world.rotations[i]? = some R) (hs : R.stage.ended = false)
    {stage : Stage} {db : Db}
    (hdb : ∀ id row, db.refreshToken.lookup id = some row →
      T.world.db.refreshToken.lookup id = some row)
    (hstage : CallOf L W₀ id first
      ((T.see ({ T.world with db }.setStage i R stage) a.reading).read i) stage)
    (hjoin : ∀ next k u, stage ≠ .join next k u) :
    OneWinner L W₀ id first (T.see ({ T.world with db }.setStage i R stage) a.reading) := by
  obtain ⟨hle, hid, -⟩ := h.going hi hs
  refine h.next hT i (fun _ hk => hk) (length_setStage _ _ _ _).ge (fun _ hk => hk)
    (fun _ hk => .inl hk) (fun k row hl => .inl (hdb k row hl))
    (fun I hI hwait => .inl ⟨I, hI, hwait, rfl⟩) fun j R' hR' => ?_
  refine (others ha hR').imp_right ?_
  rintro ⟨rfl, rfl⟩
  exact ⟨rfl, hle, hid, hstage, fun _ next k u he => absurd he (hjoin next k u)⟩

theorem OneWinner.stops (h : OneWinner L W₀ id first T) (hT : TimedInv L T) {a : Action}
    (ha : a.call = some i) (hi : T.world.rotations[i]? = some R) (hs : R.stage.ended = false)
    {stage : Stage} (he : stage.empty = true) {db : Db}
    (hdb : ∀ id row, db.refreshToken.lookup id = some row →
      T.world.db.refreshToken.lookup id = some row) :
    OneWinner L W₀ id first (T.see ({ T.world with db }.setStage i R stage) a.reading) := by
  refine h.moves hT ha hi hs hdb ?_ fun next k u hstage => ?_
  · cases stage with
    | select | refused | failed => trivial
    | _ => cases he
  · rw [hstage] at he
    cases he

theorem OneWinner.createSession (h : OneWinner L W₀ id first T) (hT : TimedInv L T)
    {fault : Option String} {payload : RefreshToken} {app : Option String} {db : Db}
    (hnew : payload.jti ∉ T.world.hist.sessionOf)
    (hx : (storeRefreshToken fault L.formatMillis payload app).exec T.world.db = (.ok (), db)) :
    OneWinner L W₀ id first
      (T.see { T.world with db, hist := T.world.hist.newSession payload app } none) := by
  refine h.next hT 0 (fun k hk => mem_newSession.2 (.inr hk)) (le_refl _) (fun k hroot => ?_)
    (fun k hk => ?_) (fun k row hl => ?_) (fun I hI hwait => .inl ⟨I, hI, hwait, rfl⟩)
    fun j R hR => .inl ⟨hR, rfl⟩
  · obtain ⟨S, hS, hk⟩ := hroot
    refine ⟨S, ?_, hk⟩
    have hne : k ≠ payload.jti := fun he => hnew (he ▸ Finmap.mem_of_lookup_eq_some hS)
    exact (Table.lookup_insert_eq _ _ _ _).trans ((if_neg hne).trans hS)
  · rcases Finset.mem_insert.1 hk with rfl | hk
    · exact .inr (.inl hnew)
    · exact .inl hk
  · refine (storeRefreshToken_ok hx hl).imp_right ?_
    rintro ⟨rfl, text, -, rfl⟩
    refine ⟨fun he => hnew (he ▸ h.known), rfl, .inl ⟨⟨payload.jti, payload.sub, app⟩, ?_, rfl⟩⟩
    exact (Table.lookup_insert_eq _ _ _ _).trans (if_pos rfl)

theorem OneWinner.join (h : OneWinner L W₀ id first T) (hT : TimedInv L T) (hL : L.Clocked)
    {fault : Option String} {now fresh : String} {nowMicros : Int} {row : RefreshTokenRow}
    {next : Successor} {db : Db} (hi : T.world.rotations[i]? = some R) (hs : R.stage = .sweep row)
    (hdb : ∀ id row, db.refreshToken.lookup id = some row →
      T.world.db.refreshToken.lookup id = some row)
    (hnext : prepareSuccessor L R.serviceDid row nowMicros fresh = .ok (some next))
    (hnew : row.nextId = none → next.nextId ∉ T.world.hist.sessionOf) (hclock : T.clock ≤ nowMicros) :
    OneWinner L W₀ id first (T.see
      { { T.world with db }.setStage i R (.join next T.world.inserts.length false) with
        inserts := T.world.inserts ++ [⟨next.payload, row.appPasswordName, .waiting⟩]
        hist := T.world.hist.drawn R.id next.nextId }
      (Action.sweep i fault now nowMicros fresh).reading) := by
  obtain ⟨hR, hstage⟩ := hT.rotation i R hi
  obtain ⟨hle, rfl, hcall⟩ := h.going hi (by rw [hs]; rfl)
  rw [hs] at hstage hcall
  obtain ⟨hid, hjti, -⟩ := prepareSuccessor_some hnext
  have hgranted := drawn_granted T.world.hist R.id next.nextId
  -- an id that has been drawn before is the winner's
  have hwinner : next.nextId ∈ T.world.hist.sessionOf →
      ∃ w, first = some w ∧ next.nextId = w.1 ∧ row.expiresAt = w.2 := by
    intro hin
    rcases hcall with ⟨hnone, -⟩ | ⟨w, hw, hn, htext⟩
    · exact absurd hin (hnew hnone)
    · exact ⟨w, hw, by rw [hid, hn]; rfl, htext⟩
  have hroot : ∀ k, IsRoot T.world.hist k → IsRoot (T.world.hist.drawn R.id next.nextId) k := by
    rintro k ⟨S, hS, hk⟩
    obtain ⟨S', hS'⟩ := Finmap.mem_iff.1 hR
    refine ⟨S, ?_, hk⟩
    simp only [History.drawn, hS', Table.lookup_insertIgnore]
    split
    · rename_i he
      rw [← he, hS]
      rfl
    · exact hS
  refine h.next hT i (fun k hk => (mem_drawn hR).2 (.inr hk)) (length_setStage _ _ _ _).ge hroot
    (fun k hk => .inl (hgranted.1 ▸ hk)) (fun k row hl => .inl (hdb k row hl)) (fun I hI hwait => ?_)
    fun j R' hR' => ?_
  · rcases List.mem_append.1 hI with hI | hI
    · exact .inl ⟨I, hI, hwait, rfl⟩
    · rw [List.mem_singleton.1 hI]
      refine .inr ⟨?_, fun hg => ?_⟩
      · rw [hjti]
        exact hT.successor_ne hi hs hnext hnew
      · rw [hjti] at hg ⊢
        obtain ⟨w, hw, hn, -⟩ := hwinner (hT.granted _ (hgranted.1 ▸ hg))
        rw [hw, hn]
        rfl
  · refine (others rfl hR').imp_right ?_
    rintro ⟨rfl, rfl⟩
    refine ⟨rfl, hle, rfl, ⟨fun hnone => ?_, fun w hw hn => ?_⟩, fun hnone next' k u he => ?_⟩
    · rcases hcall with ⟨-, hbefore⟩ | ⟨w, hw, -⟩
      · exact ⟨_, hbefore, fun e p he hp => prepareSuccessor_le hL hnext hp he⟩
      · rw [hnone] at hw
        cases hw
    · obtain ⟨w', hw', -, htext⟩ := hwinner (hn ▸ h.drawn w hw)
      obtain rfl : w = w' := Option.some.inj (hw.symm.trans hw')
      rcases hcall with ⟨hnone, -⟩ | ⟨w', -, hn', -⟩
      · exact absurd (hn ▸ h.drawn w hw) (hnew hnone)
      · rw [← htext]
        refine prepareSuccessor_again hL hnext ((hstage.next _ hn').2.2.mono fun x hx => ?_)
        exact hx.trans (Int.add_le_add_right hclock _)
    · cases he
      intro hin
      obtain ⟨w, hw, -⟩ := hwinner hin
      rw [hnone] at hw
      cases hw

/-- The first `UPDATE` that goes through decides. -/
theorem OneWinner.decides (h : OneWinner L W₀ id none T) (hT : TimedInv L T) {fault : Option String}
    {k : Nat} {next : Successor} {db : Db} (hi : T.world.rotations[i]? = some R)
    (hs : R.stage = .join next k false)
    (hx : (addRefreshGracePeriod fault R.id next.expiresAt next.nextId).exec T.world.db =
      (.ok (), db)) :
    OneWinner L W₀ id (some (next.nextId, next.expiresAt)) (T.see
      { { T.world with db }.setStage i R (.join next k true) with
        hist := { T.world.hist with granted := insert next.nextId T.world.hist.granted } } none) := by
  obtain ⟨⟨row₁, hl₁, -⟩, rfl⟩ := addRefreshGracePeriod_ok hx
  obtain ⟨-, rfl, hcall⟩ := h.going hi (by rw [hs]; rfl)
  obtain ⟨-, hstage⟩ := hT.rotation i R hi
  rw [hs] at hstage hcall
  obtain ⟨orig, ⟨row₀, hrow₀, rfl⟩, hunder⟩ := hcall.1 rfl
  refine ⟨fun row hl => ?_, fun w hw => ?_, fun w hw orig ho => ?_, fun I hI hwait => ?_, h.known,
    h.calls.trans (length_setStage _ _ _ _).ge, fun j R' hj hlt => ?_, fun j R' hj hle => ?_, nofun,
    fun k row hne hl => ?_⟩
  · simp only [Timed.see, World.setStage, Table.lookup_updateWhere, Option.map_eq_some_iff] at hl
    obtain ⟨row, hl, rfl⟩ := hl
    have hp : graceRow R.id next.nextId R.id row = true :=
      decide_eq_true ⟨rfl, .inl (h.row row hl).1⟩
    rw [if_pos hp]
    refine ⟨rfl, nofun, fun w hw => ?_⟩
    cases hw
    rfl
  · cases hw
    exact hstage.1
  · cases hw
    obtain ⟨row, hl, rfl⟩ := ho
    obtain rfl : row₀ = row := Option.some.inj (hrow₀.symm.trans hl)
    exact hunder
  · obtain ⟨hne, hwin⟩ := h.inserts I hI hwait
    refine ⟨hne, fun hg => ?_⟩
    rcases Finset.mem_insert.1 hg with hg | hg
    · rw [hg]
      rfl
    · cases hwin hg
  · rcases getElem?_setStage hj with ⟨rfl, rfl⟩ | ⟨-, hj⟩
    · have hdone := h.past j R hi hlt
      rw [hs] at hdone
      cases hdone
    · exact h.past j R' hj hlt
  · rcases getElem?_setStage hj with ⟨rfl, rfl⟩ | ⟨hne, hj⟩
    · exact ⟨rfl, rfl⟩
    · obtain ⟨hid, hok⟩ := h.call j R' hj hle
      refine ⟨hid, ?_⟩
      cases hs' : R'.stage with
      | sweep row =>
        rw [hs'] at hok
        rcases hok with hleft | ⟨w, hw, -⟩
        · exact .inl hleft
        · cases hw
      | join next' k' updated =>
        rw [hs'] at hok
        cases updated with
        | false =>
          refine ⟨nofun, fun w hw hn => ?_⟩
          cases hw
          -- no other call has drawn this id
          exact absurd (h.distinct rfl j i _ ⟨R', next', k', false, hj, hs', hn⟩
            ⟨R, next, k, false, hi, hs, rfl⟩) hne
        | true => cases hok
      | accepted accessJwt refreshJwt =>
        rw [hs'] at hok
        obtain ⟨w, p, now, hw, -⟩ := hok
        cases hw
      | _ => trivial
  · simp only [Timed.see, World.setStage, Table.lookup_updateWhere, Option.map_eq_some_iff] at hl
    obtain ⟨row, hl, rfl⟩ := hl
    have hp : ¬ graceRow R.id next.nextId k row = true := fun hp => hne (of_decide_eq_true hp).1
    rw [if_neg hp]
    refine (h.rows k row hne hl).imp_right fun hadded => ⟨hadded.1, ?_⟩
    obtain ⟨-, hroot | hout | hwin⟩ := hadded
    · exact .inl hroot
    · by_cases hk : k = next.nextId
      · exact .inr (.inr (by rw [hk]; rfl))
      · exact .inr (.inl fun hin => (Finset.mem_insert.1 hin).elim hk hout)
    · cases hwin

/-- A later `UPDATE` that goes through repeats the first one. -/
theorem OneWinner.again {w : Winner} (h : OneWinner L W₀ id (some w) T) (hT : TimedInv L T)
    {fault : Option String} {k : Nat} {next : Successor} {db : Db}
    (hi : T.world.rotations[i]? = some R) (hs : R.stage = .join next k false)
    (hx : (addRefreshGracePeriod fault R.id next.expiresAt next.nextId).exec T.world.db =
      (.ok (), db)) :
    OneWinner L W₀ id (some w) (T.see
      { { T.world with db }.setStage i R (.join next k true) with
        hist := { T.world.hist with granted := insert next.nextId T.world.hist.granted } } none) := by
  obtain ⟨⟨row₁, hl₁, hgrace⟩, rfl⟩ := addRefreshGracePeriod_ok hx
  obtain ⟨hle, rfl, hcall⟩ := h.going hi (by rw [hs]; rfl)
  rw [hs] at hcall
  obtain ⟨hn₁, -, htext₁⟩ := h.row row₁ hl₁
  have hn : next.nextId = w.1 := by
    rcases hgrace with hgrace | hgrace
    · rw [hn₁] at hgrace
      cases hgrace
    · exact (Option.some.inj (hn₁.symm.trans hgrace)).symm
  have htext : next.expiresAt = w.2 := hcall.2 w rfl hn
  refine h.next hT i (fun _ hk => hk) (length_setStage _ _ _ _).ge (fun _ hk => hk)
    (fun k hk => ?_) (fun k row hl => .inl ?_) (fun I hI hwait => .inl ⟨I, hI, hwait, rfl⟩)
    fun j R' hR' => ?_
  · rcases Finset.mem_insert.1 hk with rfl | hk
    · exact .inr (.inr (by rw [hn]; rfl))
    · exact .inl hk
  · simp only [Timed.see, World.setStage, Table.lookup_updateWhere, Option.map_eq_some_iff] at hl
    obtain ⟨row, hl, rfl⟩ := hl
    split
    · rename_i hp
      obtain ⟨rfl, -⟩ := of_decide_eq_true hp
      obtain ⟨hrow, -, hrowText⟩ := h.row row hl
      have hsame : row = { row with expiresAt := next.expiresAt, nextId := some next.nextId } := by
        rw [htext, hn, ← hrowText w rfl]
        exact congrArg (fun n => { row with nextId := n }) hrow
      rw [← hsame]
      exact hl
    · exact hl
  · refine (others (a := .grace i fault) rfl hR').imp_right ?_
    rintro ⟨rfl, rfl⟩
    refine ⟨rfl, hle, rfl, ?_, nofun⟩
    exact congrArg some (Prod.ext hn htext).symm

end

/-- A step of the calls keeps the winner, once there is one. -/
theorem oneWinner_step {L : Library} (hL : L.Clocked) {W₀ : World} {id : String}
    {first : Option Winner} {T T' : Timed} {a : Action} (h : OneWinner L W₀ id first T)
    (hT : TimedInv L T) (ha : OnlyRotates id a) (hstep : stepTimed L T a = some T') :
    ∃ first', OneWinner L W₀ id first' T' ∧ ∀ w, first = some w → first' = some w := by
  obtain ⟨W, hW, rfl, hclock⟩ := stepTimed_some hstep
  cases hW with
  | idle hcall =>
    refine ⟨first, h.next hT 0 (fun _ hk => hk) (le_refl _) (fun _ hk => hk) (fun _ hk => .inl hk)
      (fun _ _ hl => .inl hl) (fun I hI hwait => .inl ⟨I, hI, hwait, rfl⟩)
      fun j R hR => .inl ⟨hR, see_read ?_⟩, fun _ hw => hw⟩
    rw [hcall]
    nofun
  | createSession hnew hx => exact ⟨first, h.createSession hT hnew hx, fun _ hw => hw⟩
  | @rotate _ serviceDid hid =>
    cases ha
    refine ⟨first, h.next hT T.world.rotations.length (fun _ hk => hk) ?_ (fun _ hk => hk)
      (fun _ hk => .inl hk) (fun _ _ hl => .inl hl) (fun I hI hwait => .inl ⟨I, hI, hwait, rfl⟩)
      fun j R hR => ?_, fun _ hw => hw⟩
    · rw [Timed.see, List.length_append]
      exact Nat.le_add_right _ _
    · rw [Timed.see, List.getElem?_append] at hR
      split at hR
      · exact .inl ⟨hR, rfl⟩
      · rename_i hge
        have hj := List.getElem?_eq_some_iff.1 hR
        obtain ⟨hlt, rfl⟩ := hj
        have hj : j = T.world.rotations.length := by
          simp only [List.length_singleton] at hlt
          omega
        subst hj
        simp only [List.getElem_singleton]
        exact .inr ⟨trivial, h.calls, trivial, trivial, nofun⟩
  | stop hcall hi hs he => exact ⟨first, h.stops hT hcall hi hs he fun _ _ hl => hl, fun _ hw => hw⟩
  | @select _ i R row hi hs hrow =>
    refine ⟨first, h.moves hT rfl hi hs (fun _ _ hl => hl) ?_ nofun, fun _ hw => hw⟩
    obtain ⟨-, rfl, -⟩ := h.going hi hs
    obtain ⟨hn, hbefore, htext⟩ := h.row row hrow
    cases first with
    | none => exact .inl ⟨hn, hbefore rfl⟩
    | some w => exact .inr ⟨w, rfl, hn, htext w rfl⟩
  | swept hi hs hdb he => exact ⟨first, h.stops hT rfl hi hs he hdb, fun _ hw => hw⟩
  | join hi hs hdb hnext hnew =>
    exact ⟨first, h.join hT hL hi hs hdb hnext hnew hclock, fun _ hw => hw⟩
  | grace hi hs hx =>
    cases first with
    | none => exact ⟨_, h.decides hT hi hs hx, nofun⟩
    | some w => exact ⟨some w, h.again hT hi hs hx, fun _ hw => hw⟩
  | @finish i k R next hi hs =>
    obtain ⟨hle, rfl, hcall⟩ := h.going hi (by rw [hs]; rfl)
    obtain ⟨-, hstage⟩ := hT.rotation i R hi
    rw [hs] at hcall hstage
    obtain ⟨-, -, hdecode, hjti, now, -, hread, hgrace⟩ := hstage
    refine ⟨first, h.next hT i (fun _ hk => hk) (length_setStage _ _ _ _).ge (fun _ hk => hk)
      (fun _ hk => .inl hk) (fun _ _ hl => .inl hl) (fun I hI hwait => .inl ⟨I, hI, hwait, rfl⟩)
      fun j R' hR' => ?_, fun _ hw => hw⟩
    refine (others (a := .finish i) rfl hR').imp_right ?_
    rintro ⟨rfl, rfl⟩
    exact ⟨rfl, hle, rfl, ⟨_, next.payload, now, hcall, hdecode, hjti, hread, hgrace⟩, nofun⟩
  | @insert _ k I db hk hw hx =>
    refine ⟨first, h.next hT 0 (fun _ hk => hk) (le_refl _) (fun _ hk => hk) (fun _ hk => .inl hk)
      (fun id row hl => ?_) (forall_mem_set nofun fun J hJ hwait => .inl ⟨J, hJ, hwait, rfl⟩)
      fun j R hR => .inl ⟨hR, rfl⟩, fun _ hw => hw⟩
    refine (storeRefreshToken_ok hx hl).imp_right ?_
    rintro ⟨rfl, text, -, rfl⟩
    obtain ⟨hne, hwin⟩ := h.inserts I (List.mem_of_getElem? hk) hw
    exact ⟨hne, rfl, .inr (Classical.or_iff_not_imp_left.2 fun hin => hwin (not_not.1 hin))⟩
  | @insertFails _ k I hk =>
    exact ⟨first, h.next hT 0 (fun _ hk => hk) (le_refl _) (fun _ hk => hk) (fun _ hk => .inl hk)
      (fun _ _ hl => .inl hl) (forall_mem_set nofun fun J hJ hwait => .inl ⟨J, hJ, hwait, rfl⟩)
      fun j R hR => .inl ⟨hR, rfl⟩, fun _ hw => hw⟩
  | revoke => exact ha.elim

theorem timedInv_run {L : Library} (hL : L.Clocked) {T T' : Timed} {as : List Action}
    (h : TimedInv L T) (hr : run (stepTimed L) T as = some T') : TimedInv L T' :=
  (always_of_keep (fun _ _ _ h hstep => timedInv_step hL h hstep) h as).last hr

theorem oneWinner_run {L : Library} (hL : L.Clocked) {W₀ : World} {id : String} {T T' : Timed}
    {as : List Action} {first : Option Winner} (h : OneWinner L W₀ id first T) (hT : TimedInv L T)
    (has : ∀ a ∈ as, OnlyRotates id a) (hr : run (stepTimed L) T as = some T') :
    ∃ first', OneWinner L W₀ id first' T' ∧ ∀ w, first = some w → first' = some w := by
  induction as generalizing T first with
  | nil =>
    cases hr
    exact ⟨first, h, fun _ hw => hw⟩
  | cons a as ih =>
    obtain ⟨U, hU, hr⟩ := run_cons_some hr
    obtain ⟨ha, has⟩ := List.forall_mem_cons.1 has
    obtain ⟨mid, hmid, hkept⟩ := oneWinner_step hL h hT ha hU
    obtain ⟨first', h', hkept'⟩ := ih hmid (timedInv_step hL hT hU) has hr
    exact ⟨first', h', fun w hw => hkept' w (hkept w hw)⟩

/-! ## What the calls agree on -/

/-- Call `i` has returned a pair of tokens. -/
def Accepts (T : Timed) (i : Nat) (refreshJwt : String) : Prop :=
  ∃ R accessJwt, T.world.rotations[i]? = some R ∧ R.stage = .accepted accessJwt refreshJwt

/-- The row of `id` names a successor, and expires at `e`. -/
def Rotated (L : Library) (T : Timed) (id : String) (e : Int) : Prop :=
  ∃ row, T.world.db.refreshToken.lookup id = some row ∧ row.nextId ≠ none ∧
    L.parseMicros row.expiresAt = .ok e

/-- The calls of the token `id` that begin at `T₀` and have got to `T₂`, with `T₁` on the way. -/
structure RotatesOnce (L : Library) (id : String) (T₀ T₁ T₂ : Timed) : Prop where
  agree : ∃ n, ∀ i refreshJwt, T₀.world.rotations.length ≤ i → Accepts T₂ i refreshJwt →
    ∃ p, L.decodeRefreshToken refreshJwt = .ok p ∧ p.jti = n
  expiry : ∀ row₁ row₂ e₁ e₂, T₁.world.db.refreshToken.lookup id = some row₁ →
    T₂.world.db.refreshToken.lookup id = some row₂ → L.parseMicros row₁.expiresAt = .ok e₁ →
    L.parseMicros row₂.expiresAt = .ok e₂ → e₂ ≤ e₁
  window : ∀ e, Rotated L T₁ id e → e ≤ T₁.clock + refreshGraceMicros
  /-- No call returns tokens that has read a time at or after the expiry. -/
  intime : ∀ i refreshJwt e, T₀.world.rotations.length ≤ i → Accepts T₂ i refreshJwt →
    Rotated L T₁ id e → ∃ now, T₂.read i = some now ∧ now < e ∧ e ≤ now + refreshGraceMicros
  linked : ∀ k row, k ≠ id → T₂.world.db.refreshToken.lookup k = some row →
    T₀.world.db.refreshToken.lookup k = some row ∨ row.nextId = none ∧
      (IsRoot T₂.world.hist k ∨ k ∉ T₂.world.hist.granted ∨
        ∀ rotated, T₂.world.db.refreshToken.lookup id = some rotated → rotated.nextId = some k)

theorem rotations_agree {L : Library} (hL : L.Clocked) {db : Db} {clock : Int} {id : String}
    {as as₁ as₂ : List Action} {T₀ T₁ T₂ : Timed}
    (h₀ : run (stepTimed L) (.start db clock) as = some T₀) (hq : Quiet T₀.world)
    (hid : id ∈ T₀.world.hist.handedOut) (has : ∀ a ∈ as₁ ++ as₂, OnlyRotates id a)
    (h₁ : run (stepTimed L) T₀ as₁ = some T₁) (h₂ : run (stepTimed L) T₁ as₂ = some T₂) :
    RotatesOnce L id T₀ T₁ T₂ := by
  obtain ⟨has₁, has₂⟩ := List.forall_mem_append.1 has
  have hT₀ := timedInv_run hL (timedInv_start L db clock) h₀
  have hT₁ := timedInv_run hL hT₀ h₁
  obtain ⟨first₀, hW₀⟩ := oneWinner_start hT₀ hq (hT₀.handedOut id hid)
  obtain ⟨first₁, hW₁, -⟩ := oneWinner_run hL hW₀ hT₀ has₁ h₁
  obtain ⟨first₂, hW₂, hkept⟩ := oneWinner_run hL hW₁ hT₁ has₂ h₂
  -- what an accepted call has got
  have haccepts : ∀ i refreshJwt, T₀.world.rotations.length ≤ i → Accepts T₂ i refreshJwt →
      ∃ w p now, first₂ = some w ∧ L.decodeRefreshToken refreshJwt = .ok p ∧ p.jti = w.1 ∧
        T₂.read i = some now ∧ Grace L now w.2 := by
    rintro i refreshJwt hle ⟨R, accessJwt, hi, hs⟩
    have hcall := (hW₂.call i R hi hle).2
    rw [hs] at hcall
    exact hcall
  -- the expiry that the winner has entered is there ever since
  have hrotated : ∀ e, Rotated L T₁ id e → ∃ w, first₁ = some w ∧ L.parseMicros w.2 = .ok e := by
    rintro e ⟨row, hl, hn, he⟩
    obtain ⟨hnext, -, htext⟩ := hW₁.row row hl
    cases hfirst : first₁ with
    | none =>
      rw [hfirst] at hnext
      exact absurd hnext hn
    | some w => exact ⟨w, rfl, htext w hfirst ▸ he⟩
  refine ⟨?_, fun row₁ row₂ e₁ e₂ hl₁ hl₂ he₁ he₂ => ?_, fun e he => ?_,
    fun i refreshJwt e hle hacc he => ?_, fun k row hne hl => ?_⟩
  · cases hfirst : first₂ with
    | none =>
      refine ⟨"", fun i refreshJwt hle hacc => ?_⟩
      obtain ⟨w, -, -, hw, -⟩ := haccepts i refreshJwt hle hacc
      rw [hfirst] at hw
      cases hw
    | some w =>
      refine ⟨w.1, fun i refreshJwt hle hacc => ?_⟩
      obtain ⟨w', p, -, hw, hdecode, hjti, -⟩ := haccepts i refreshJwt hle hacc
      obtain rfl : w = w' := Option.some.inj (hfirst.symm.trans hw)
      exact ⟨p, hdecode, hjti⟩
  · obtain ⟨-, hbefore₁, htext₁⟩ := hW₁.row row₁ hl₁
    obtain ⟨-, hbefore₂, htext₂⟩ := hW₂.row row₂ hl₂
    cases hfirst : first₁ with
    | some w =>
      rw [htext₁ w hfirst] at he₁
      rw [htext₂ w (hkept w hfirst), he₁] at he₂
      exact (Except.ok.inj he₂).ge
    | none =>
      have hb₁ := hbefore₁ hfirst
      cases hfirst₂ : first₂ with
      | some w =>
        rw [htext₂ w hfirst₂] at he₂
        exact hW₂.under w hfirst₂ _ hb₁ e₂ e₁ he₂ he₁
      | none =>
        obtain ⟨row, hl, ho₁⟩ := hb₁
        obtain ⟨row', hl', ho₂⟩ := hbefore₂ hfirst₂
        obtain rfl : row = row' := Option.some.inj (hl.symm.trans hl')
        rw [ho₂, ← ho₁, he₁] at he₂
        exact (Except.ok.inj he₂).ge
  · obtain ⟨row, hl, hn, he⟩ := he
    obtain ⟨n, hn⟩ := Option.ne_none_iff_exists'.1 hn
    obtain ⟨x, hx, hle⟩ := ((hT₁.row id row hl).2.next n hn).2.2
    exact (hL.round hx he).2.trans hle
  · obtain ⟨w, hw, he⟩ := hrotated e he
    obtain ⟨w', -, now, hw', -, -, hread, hgrace⟩ := haccepts i refreshJwt hle hacc
    obtain rfl : w = w' := Option.some.inj ((hkept w hw).symm.trans hw')
    exact ⟨now, hread, hgrace.after e he, hgrace.le hL he⟩
  · refine (hW₂.rows k row hne hl).imp_right fun hadded => ⟨hadded.1, ?_⟩
    refine hadded.2.imp_right (Or.imp_right fun hwin rotated hrow => ?_)
    rw [(hW₂.row rotated hrow).1, hwin]

/-- Alice's library with a clock that starts on 2026-08-01, and the three instants it can write. -/
def clockedLibrary : Library where
  createTokens := alicesLibrary.createTokens
  decodeRefreshToken jti := .ok ⟨"did:plc:alice", 90 * 24 * 60 * 60 * 1000, jti⟩
  formatMillis millis :=
    if millis = 90 * 24 * 60 * 60 * 1000 then some "2026-10-30T00:00:00.000Z" else none
  parseMicros text :=
    if text = "2026-10-30T00:00:00.000Z" then .ok (90 * 24 * 60 * 60 * 1000 * 1000)
    else if text = "2026-08-01T02:00:00.000Z" then .ok (2 * 60 * 60 * 1000 * 1000)
    else if text = "2026-08-01T01:00:00.000Z" then .ok (60 * 60 * 1000 * 1000)
    else .error "not a time"
  formatMicros micros :=
    if micros = 90 * 24 * 60 * 60 * 1000 * 1000 then .ok "2026-10-30T00:00:00.000Z"
    else if micros = 2 * 60 * 60 * 1000 * 1000 then .ok "2026-08-01T02:00:00.000Z"
    else if micros = 60 * 60 * 1000 * 1000 then .ok "2026-08-01T01:00:00.000Z"
    else .error "out of range"
  decode_createTokens htokens hdecode := by
    dsimp only [alicesLibrary] at htokens
    split at htokens <;> cases htokens
    cases hdecode
    exact ⟨Eq.symm ‹_›, rfl⟩

theorem clockedLibrary_clocked : clockedLibrary.Clocked := by
  have hinverse : ∀ {micros text}, clockedLibrary.formatMicros micros = .ok text →
      clockedLibrary.parseMicros text = .ok micros := by
    intro micros text h
    dsimp only [clockedLibrary] at h
    split at h
    · cases h
      subst_vars
      rfl
    split at h
    · cases h
      subst_vars
      rfl
    split at h
    · cases h
      subst_vars
      rfl
    · cases h
  refine ⟨fun hf hp => ?_, fun hf hp => ?_, fun {millis text} h => ?_⟩
  · rw [hinverse hf] at hp
    cases hp
    omega
  · rw [hinverse hf] at hp
    cases hp
    exact hf
  · dsimp only [clockedLibrary] at h
    split at h <;> cases h
    subst_vars
    rfl

def aliceSignsInFor90Days : Action :=
  .createSession none ⟨"did:plc:alice", 90 * 24 * 60 * 60 * 1000, "t1"⟩ none

/-- Two calls one after the other: the second one comes back with the first one's successor. -/
theorem rotations_agree_twice : ∃ T₀ T₁ T₂, RotatesOnce clockedLibrary "t1" T₀ T₁ T₂ ∧
    T₂.world.rotations.map Rotation.stage = [.accepted "access" "t2", .accepted "access" "t2"] :=
  ⟨_, _, _,
    @rotations_agree clockedLibrary clockedLibrary_clocked Db.empty 0 "t1" [aliceSignsInFor90Days]
      (.rotate "t1" "did:web:x.test" :: rotation 0 "t2")
      (.rotate "t1" "did:web:x.test" :: rotation 1 "t3") _ _ _
      rfl ⟨by decide, by decide⟩ (by decide) (by decide) rfl rfl,
    rfl⟩

/-- Every row but a session's first is named by another row. -/
def Linked (W : World) : Prop :=
  ∀ k row, W.db.refreshToken.lookup k = some row →
    IsRoot W.hist k ∨ ∃ k' row', W.db.refreshToken.lookup k' = some row' ∧ row'.nextId = some k

/-- After the grace period the row that names the successor is swept, and the successor's stays. -/
theorem not_linked : ¬ ∀ L db clock id as, L.Clocked → (∀ a ∈ as, OnlyRotates id a) →
    Always (stepTimed L) (fun T => Linked T.world) (.start db clock) as := by
  intro h
  have hrun : ∃ T, run (stepTimed clockedLibrary) (.start Db.empty 0)
      (aliceSignsInFor90Days :: .rotate "t1" "did:web:x.test" :: rotation 0 "t2" ++
        [.rotate "t1" "did:web:x.test", .select 1 none,
          .sweep 1 none "2026-08-01T03:00:00.000Z" (3 * 60 * 60 * 1000 * 1000) "t3"]) = some T ∧
      T.world.db.refreshToken.lookup "t2" =
        some ⟨"did:plc:alice", "2026-10-30T00:00:00.000Z", none, none⟩ ∧
      T.world.hist.sessionOf.lookup "t2" = some ⟨"t1", "did:plc:alice", none⟩ ∧
      T.world.db.refreshToken.anyRow (fun _ row => row.nextId = some "t2") = false :=
    ⟨_, rfl, rfl, rfl, rfl⟩
  obtain ⟨T, hT, hrow, hsession, hnone⟩ := hrun
  rcases (h _ _ _ "t1" _ clockedLibrary_clocked (by decide)).last hT _ _ hrow with hroot | hnamed
  · obtain ⟨S, hS, hroot⟩ := hroot
    rw [hsession] at hS
    cases hS
    exact absurd hroot (by decide)
  · obtain ⟨k, row, hl, hn⟩ := hnamed
    exact of_decide_eq_false (Table.anyRow_eq_false.1 hnone k row hl) hn

/-- The expiry of `id` goes from `e₁` to `e₂` on a clock that may go back. -/
def Moves (L : Library) (id : String) (e₁ e₂ : Int) : Prop :=
  ∃ db as as' W₁ W₂ row₁ row₂, (∀ a ∈ as ++ as', OnlyRotates id a) ∧
    run (step L) (.start db) as = some W₁ ∧ run (step L) W₁ as' = some W₂ ∧
    W₁.db.refreshToken.lookup id = some row₁ ∧ L.parseMicros row₁.expiresAt = .ok e₁ ∧
    W₂.db.refreshToken.lookup id = some row₂ ∧ L.parseMicros row₂.expiresAt = .ok e₂

/-- Call 2 reads a time an hour before, and call 1 enters its expiry after call 2. -/
theorem moves_later : Moves clockedLibrary "t1" (60 * 60 * 1000 * 1000) (2 * 60 * 60 * 1000 * 1000) :=
  ⟨Db.empty,
    aliceSignsInFor90Days :: .rotate "t1" "did:web:x.test" :: rotation 0 "t2" ++
      [.rotate "t1" "did:web:x.test", .select 1 none,
        .sweep 1 none "2026-08-01T00:00:00.000Z" 0 "t3", .rotate "t1" "did:web:x.test", .select 2 none,
        .sweep 2 none "2026-07-31T23:00:00.000Z" (-60 * 60 * 1000 * 1000) "t4", .grace 2 none],
    [.grace 1 none], _, _, _, _, by decide, rfl, rfl, rfl, rfl, rfl, rfl⟩

/-- Not every row is named by another, and on a clock that goes back the expiry may rise. -/
theorem rotations_leave_rows :
    (¬ ∀ L db clock id as, L.Clocked → (∀ a ∈ as, OnlyRotates id a) →
      Always (stepTimed L) (fun T => Linked T.world) (.start db clock) as) ∧
    ¬ ∀ L id e₁ e₂, L.Clocked → Moves L id e₁ e₂ → e₂ ≤ e₁ :=
  ⟨not_linked, fun h => absurd (h _ _ _ _ clockedLibrary_clocked moves_later) (by decide)⟩

/-- A call that loses has stored the token that it drew. -/
example : ((run (stepTimed clockedLibrary) (.start Db.empty 0)
    (aliceSignsInFor90Days :: .rotate "t1" "did:web:x.test" :: .rotate "t1" "did:web:x.test" ::
      [.select 0 none, .select 1 none, .sweep 0 none "2026-08-01T00:00:00.000Z" 0 "t2",
        .sweep 1 none "2026-08-01T00:00:00.000Z" 0 "t3", .grace 0 none, .insert 0 none, .finish 0,
        .insert 1 none, .grace 1 none])).map fun T =>
      ((T.world.db.refreshToken.lookup "t3").isSome,
        T.world.db.refreshToken.anyRow fun _ row => row.nextId = some "t3")) =
    some (true, false) := rfl

end CacosPds.Account.Refresh
