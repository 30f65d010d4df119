import CacosPds.Server.CreateAccount
import CacosPds.Lib.Run
/-!
# Moving DIDs off the shared rotation key (`cacos-pds-migrate/src/main.rs`)

| here | there |
| --- | --- |
| `normalizeOp`, `createUpdateOp`, `createAtprotoUpdateOp` | `cacos-pds-plc/src/operations.rs:78-172` |
| `Process`, `step` | `migrate rotation-keys` (`main.rs:56`) and `migrate plc-rotation-keys` (`:159`), a call at a time |
| `accepts` | what the PLC directory accepts |
| `Right`   | a marked DID's document lists the key in its file and not the shared one |

Whether a document is clean is asked of the new operation, whose only rotation key is the one in the
file. So a DID with a key of its own is marked as it is, and one with the shared key is sent the shared
key again and marked then.
-/
namespace CacosPds.Migrate

open Server (Keypair Operation Service ensureHttpPrefix ensureAtprotoPrefix)

/-! ## PLC operations -/

structure CreateOpV1 where
  type : String
  signingKey : String
  recoveryKey : String
  handle : String
  service : String
  prev : Option String
  sig : Option String
  deriving DecidableEq

structure Tombstone where
  type : String
  prev : String
  sig : Option String
  deriving DecidableEq

inductive CompatibleOp where
  | createOpV1 (op : CreateOpV1)
  | operation (op : Operation)
  deriving DecidableEq

inductive CompatibleOpOrTombstone where
  | op (op : CompatibleOp)
  | tombstone (t : Tombstone)
  deriving DecidableEq

structure CreateAtprotoUpdateOpOpts where
  signingKey : Option String
  handle : Option String
  pds : Option String
  rotationKeys : Option (List String)

structure Plc where
  /-- `encode_did_key` of the public key. -/
  didKey : Keypair → String
  /-- `cid_for_cbor` of an operation, the directory's name for it. -/
  cidForCbor : CompatibleOp → Except String String
  /-- `atproto_sign`, in base64url. -/
  sign : Operation → Keypair → Except String String
  /-- The signature verifies under this `did:key`. -/
  signedBy : Operation → String → Bool
  /-- It verifies under the signer's key and no other. -/
  signer : ∀ {op keypair sig key}, sign op keypair = .ok sig →
    (signedBy { op with sig := some sig } key = true ↔ key = didKey keypair)
  /-- `import_keypair`. -/
  importKeypair : Bytes → Except String Keypair

def normalizeOp : CompatibleOp → Operation
  | .operation op => op
  | .createOpV1 op =>
    { type := "plc_operation"
      rotationKeys := [op.recoveryKey, op.signingKey]
      verificationMethods := [("atproto", op.signingKey)]
      alsoKnownAs := [ensureAtprotoPrefix op.handle]
      services := [("atproto_pds", ⟨"AtprotoPersonalDataServer", ensureHttpPrefix op.service⟩)]
      prev := op.prev
      sig := op.sig }

/-- `BTreeMap::insert`. -/
def insertKey {α : Type} (k : String) (v : α) (m : List (String × α)) : List (String × α) :=
  m.filter (·.1 < k) ++ (k, v) :: m.filter fun e => k < e.1

/-- The first `at://` name is replaced, or the new one goes in front. -/
def setHandle (formatted : String) (alsoKnownAs : List String) : List String :=
  match alsoKnownAs.findIdx? fun h => "at://".toList.isPrefixOf h.toList with
  | none => formatted :: alsoKnownAs
  | some i => alsoKnownAs.take i ++ formatted :: alsoKnownAs.drop (i + 1)

section

variable (P : Plc)

def createUpdateOp (lastOp : CompatibleOp) (signer : Keypair) (func : Operation → Operation) :
    Except String Operation := do
  let prev ← P.cidForCbor lastOp
  let normalized := { normalizeOp lastOp with sig := none }
  let unsigned := { func normalized with prev := some prev }
  let sig ← P.sign unsigned signer
  return { unsigned with sig := some sig }

def updated (opts : CreateAtprotoUpdateOpOpts) (op : Operation) : Operation :=
  { op with
    verificationMethods := opts.signingKey.elim op.verificationMethods fun key =>
      insertKey "atproto" key op.verificationMethods
    alsoKnownAs := opts.handle.elim op.alsoKnownAs fun handle =>
      setHandle (ensureAtprotoPrefix handle) op.alsoKnownAs
    services := opts.pds.elim op.services fun pds =>
      insertKey "atproto_pds" ⟨"AtprotoPersonalDataServer", ensureHttpPrefix pds⟩ op.services
    rotationKeys := opts.rotationKeys.getD op.rotationKeys }

def createAtprotoUpdateOp (lastOp : CompatibleOp) (signer : Keypair)
    (opts : CreateAtprotoUpdateOpOpts) : Except String Operation :=
  createUpdateOp P lastOp signer (updated opts)

/-- The operation that leaves the per-DID key as the only rotation key. -/
def ownKeyOp (lastOp : CompatibleOp) (perDid : Keypair) : Except String Operation :=
  createAtprotoUpdateOp P lastOp perDid ⟨none, none, none, some [P.didKey perDid]⟩

/-- The directory accepts an operation on its head, signed by a rotation key of the head. -/
def accepts (head : CompatibleOpOrTombstone) (op : Operation) : Bool :=
  match head with
  | .op head =>
    match P.cidForCbor head with
    | .ok cid => op.prev = some cid && (normalizeOp head).rotationKeys.any (P.signedBy op)
    | .error _ => false
  | .tombstone _ => false

end

/-! ## The two commands -/

/-- What is next for the DID at hand. -/
inductive Stage where
  | keypair
  | lastOp (perDid : Keypair)
  | send (newOp : Operation)
  | mark
  deriving DecidableEq

inductive Process where
  | idle
  /-- `migrate rotation-keys`; the file of the first DID may be open. -/
  | seeding (dids : List String) (opened : Bool)
  /-- `migrate plc-rotation-keys`. -/
  | replacing (dids : List String) (stage : Stage)
  deriving DecidableEq

structure World where
  /-- The rows of `actor` by `createdAt` and `did`, with `plcRotationKeysMigrated`. -/
  actors : List (String × Bool)
  /-- The DIDs with a `store.sqlite`. -/
  stores : List String
  /-- The `rotation_key` files. -/
  keyFile : String → Option Bytes
  /-- The last operations in the PLC directory. -/
  head : String → Option CompatibleOpOrTombstone
  process : Process

/-- How a call ends: `lost` if it takes effect and fails all the same. -/
inductive Outcome where
  | ok
  | fails
  | lost
  deriving DecidableEq

inductive Action where
  /-- `migrate rotation-keys`, with the directories in the order they are read. -/
  | rotationKeys (dids : List String)
  | plcRotationKeys
  | advance (outcome : Outcome)
  | interrupt
  deriving DecidableEq

def set {α : Type} (f : String → α) (k : String) (v : α) : String → α :=
  fun k' => if k' = k then v else f k'

@[simp] theorem set_self {α : Type} (f : String → α) (k : String) (v : α) : set f k v k = v :=
  if_pos rfl

theorem set_other {α : Type} (f : String → α) {k k' : String} (v : α) (h : k' ≠ k) :
    set f k v k' = f k' :=
  if_neg h

namespace World

def unmigrated (w : World) : List String := (w.actors.filter fun row => !row.2).map (·.1)

def goto (w : World) (process : Process) : World := { w with process }

def write (w : World) (did : String) (bytes : Bytes) : World :=
  { w with keyFile := set w.keyFile did (some bytes) }

def apply (w : World) (did : String) (op : Operation) : World :=
  { w with head := set w.head did (some (.op (.operation op))) }

def mark (w : World) (did : String) : World :=
  { w with actors := w.actors.map fun row => if row.1 = did then (row.1, true) else row }

end World

section

variable (P : Plc) (shared : Keypair)

/-- A step of `migrate rotation-keys`: a missing file is created, then written. -/
def seedStep (w : World) (did : String) (dids : List String) (opened : Bool) (outcome : Outcome) :
    World :=
  if opened then
    if outcome = .fails then w.goto (.seeding dids false)
    else (w.write did shared.secret).goto (.seeding dids false)
  else if did ∉ w.stores ∨ (w.keyFile did).isSome then w.goto (.seeding dids false)
  else if outcome = .fails then w.goto (.seeding dids false)
  else (w.write did []).goto (.seeding (did :: dids) true)

def loadKey (w : World) (did : String) : Option Keypair :=
  (w.keyFile did).bind fun bytes => (P.importKeypair bytes).toOption

/-- A step of `migrate plc-rotation-keys`. -/
def replaceStep (w : World) (did : String) (dids : List String) (stage : Stage)
    (outcome : Outcome) : World :=
  let next := Process.replacing dids .keypair
  match stage with
  | .keypair =>
    -- a file that cannot be read is skipped like one that is not there
    if outcome ≠ .ok then w.goto next
    else
      match loadKey P w did with
      | none => w.goto next
      | some perDid => w.goto (.replacing (did :: dids) (.lastOp perDid))
  | .lastOp perDid =>
    if outcome ≠ .ok then w.goto next
    else
      match w.head did with
      | some (.op lastOp) =>
        match ownKeyOp P lastOp perDid with
        | .error _ => w.goto next
        | .ok newOp =>
          if P.didKey shared ∈ newOp.rotationKeys then w.goto (.replacing (did :: dids) (.send newOp))
          else w.goto (.replacing (did :: dids) .mark)
      | _ => w.goto next
  | .send newOp =>
    if outcome = .fails ∨ (w.head did).any (accepts P · newOp) = false then w.goto next
    else if outcome = .lost then (w.apply did newOp).goto next
    else (w.apply did newOp).goto (.replacing (did :: dids) .mark)
  | .mark =>
    if outcome = .fails then w.goto next
    else (w.mark did).goto next

def step (w : World) : Action → Option World
  | .rotationKeys dids =>
    if w.process = .idle then some (w.goto (.seeding dids false)) else none
  | .plcRotationKeys =>
    if w.process = .idle then some (w.goto (.replacing w.unmigrated .keypair)) else none
  | .interrupt => some (w.goto .idle)
  | .advance outcome =>
    match w.process with
    | .idle => none
    | .seeding [] _ => some (w.goto .idle)
    | .seeding (did :: dids) opened => some (seedStep shared w did dids opened outcome)
    | .replacing [] _ => some (w.goto .idle)
    | .replacing (did :: dids) stage => some (replaceStep P shared w did dids stage outcome)

/-! ## What the mark should say -/

/-- The DID's document lists the key in its file, and not the shared key. -/
def Clean (w : World) (did : String) : Prop :=
  ∃ op perDid, w.head did = some (.op op) ∧ loadKey P w did = some perDid ∧
    P.didKey perDid ∈ (normalizeOp op).rotationKeys ∧
    P.didKey shared ∉ (normalizeOp op).rotationKeys

def Right (w : World) : Prop := ∀ did, (did, true) ∈ w.actors → Clean P shared w did

/-- When the last operation of a DID is looked at, it does not list the shared key, and lists the key
in the file, unless that is the shared key. -/
def looksAtClean (w : World) : Action → Bool
  | .advance .ok =>
    match w.process with
    | .replacing (did :: _) (.lastOp perDid) =>
      match w.head did with
      | some (.op op) =>
        match ownKeyOp P op perDid with
        | .ok _ => P.didKey shared ∉ (normalizeOp op).rotationKeys &&
            (P.didKey perDid = P.didKey shared || P.didKey perDid ∈ (normalizeOp op).rotationKeys)
        | .error _ => true
      | _ => true
    | _ => true
  | _ => true

end

/-! ### The operation that is built -/

variable {P : Plc} {shared : Keypair} {w t : World} {did : String}

/-- Its rotation key is its signer's. -/
theorem rotationKeys_ownKeyOp {op : CompatibleOp} {perDid : Keypair} {newOp : Operation}
    (h : ownKeyOp P op perDid = .ok newOp) : newOp.rotationKeys = [P.didKey perDid] := by
  obtain ⟨prev, -, h⟩ := Stages.except_bind_ok.1 h
  obtain ⟨sig, -, h⟩ := Stages.except_bind_ok.1 h
  cases h
  rfl

/-- The head accepts it if it lists the signer. -/
theorem accepts_ownKeyOp {op : CompatibleOp} {perDid : Keypair} {newOp : Operation}
    (h : ownKeyOp P op perDid = .ok newOp) :
    accepts P (.op op) newOp = true ↔ P.didKey perDid ∈ (normalizeOp op).rotationKeys := by
  obtain ⟨prev, hprev, h⟩ := Stages.except_bind_ok.1 h
  obtain ⟨sig, hsig, h⟩ := Stages.except_bind_ok.1 h
  cases h
  simp [accepts, hprev, P.signer hsig]

/-! ### What the steps keep -/

/-- Nothing is written over a marked DID's file, and a DID about to be marked is clean. -/
def StageRight (P : Plc) (shared : Keypair) (w : World) : Process → Prop
  | .seeding (did :: _) true => (did, true) ∉ w.actors
  | .replacing (did :: _) (.lastOp perDid) => loadKey P w did = some perDid
  | .replacing (did :: _) (.send newOp) =>
    ∃ op perDid, w.head did = some (.op op) ∧ P.didKey perDid ∉ (normalizeOp op).rotationKeys ∧
      ownKeyOp P op perDid = .ok newOp
  | .replacing (did :: _) .mark => Clean P shared w did
  | _ => True

structure MarkInv (P : Plc) (shared : Keypair) (w : World) : Prop where
  right : Right P shared w
  stage : StageRight P shared w w.process

theorem MarkInv.goto (h : MarkInv P shared w) {process : Process}
    (hstage : StageRight P shared w process) : MarkInv P shared (w.goto process) where
  right := h.right
  stage := hstage

/-- The file of an unmarked DID may change. -/
theorem right_write (h : Right P shared w) (hun : (did, true) ∉ w.actors) (bytes : Bytes) :
    Right P shared (w.write did bytes) := by
  intro did' hmarked
  obtain ⟨op, perDid, hhead, hload, hkeys⟩ := h did' hmarked
  have hne : did' ≠ did := fun heq => hun (heq ▸ hmarked)
  refine ⟨op, perDid, hhead, ?_, hkeys⟩
  unfold loadKey at hload ⊢
  have hfile : (w.write did bytes).keyFile did' = w.keyFile did' :=
    set_other w.keyFile (some bytes) hne
  rw [hfile, hload]

/-- A marked DID has a file. -/
theorem unmarked_of_no_file (h : Right P shared w) (hfile : (w.keyFile did).isSome = false) :
    (did, true) ∉ w.actors := by
  intro hmarked
  obtain ⟨op, perDid, -, hload, -⟩ := h did hmarked
  unfold loadKey at hload
  rw [Option.isSome_eq_false_iff, Option.isNone_iff_eq_none] at hfile
  rw [hfile] at hload
  cases hload

theorem right_mark (h : Right P shared w) (hclean : Clean P shared w did) :
    Right P shared (w.mark did) := by
  intro did' hmarked
  obtain ⟨⟨d, m⟩, hrow, heq⟩ := List.mem_map.1 hmarked
  by_cases hd : d = did
  · subst hd
    rw [if_pos rfl] at heq
    cases heq
    exact hclean
  · rw [if_neg hd] at heq
    cases heq
    exact h did' hrow

theorem markInv_seedStep {dids : List String} {opened : Bool} (h : MarkInv P shared w)
    (hp : w.process = .seeding (did :: dids) opened) (outcome : Outcome) :
    MarkInv P shared (seedStep shared w did dids opened outcome) := by
  have hnext : ∀ v, MarkInv P shared v → MarkInv P shared (v.goto (.seeding dids false)) := by
    intro v hv
    refine hv.goto ?_
    cases dids <;> trivial
  have hstage := h.stage
  rw [hp] at hstage
  unfold seedStep
  cases opened with
  | true =>
    rw [if_pos rfl]
    split_ifs
    · exact hnext w h
    · have hright := right_write h.right hstage shared.secret
      refine ⟨hright, ?_⟩
      cases dids <;> trivial
  | false =>
    rw [if_neg (by decide)]
    split_ifs with hskip hfails
    · exact hnext w h
    · exact hnext w h
    · have hfile : (w.keyFile did).isSome = false := by
        have := (not_or.1 hskip).2
        simpa using this
      have hun := unmarked_of_no_file h.right hfile
      exact ⟨right_write h.right hun [], hun⟩

theorem markInv_replaceStep {dids : List String} {stage : Stage} (h : MarkInv P shared w)
    (hp : w.process = .replacing (did :: dids) stage) (outcome : Outcome)
    (hclean : looksAtClean P shared w (.advance outcome) = true) :
    MarkInv P shared (replaceStep P shared w did dids stage outcome) := by
  have hnext : ∀ v, Right P shared v → MarkInv P shared (v.goto (.replacing dids .keypair)) := by
    intro v hv
    refine ⟨hv, ?_⟩
    cases dids <;> trivial
  have hstage := h.stage
  rw [hp] at hstage
  cases stage with
  | keypair =>
    simp only [replaceStep]
    by_cases hok : outcome = .ok
    · rw [if_neg (not_not.2 hok)]
      cases hload : loadKey P w did with
      | none => exact hnext w h.right
      | some perDid => exact h.goto hload
    · rw [if_pos hok]
      exact hnext w h.right
  | lastOp perDid =>
    simp only [replaceStep]
    by_cases hok : outcome = .ok
    · subst hok
      rw [if_neg (by simp)]
      cases hhead : w.head did with
      | none => exact hnext w h.right
      | some head =>
        cases head with
        | tombstone _ => exact hnext w h.right
        | op lastOp =>
          cases hop : ownKeyOp P lastOp perDid with
          | error e => simpa [hop] using hnext w h.right
          | ok newOp =>
            simp only [looksAtClean, hp, hhead, hop, Bool.and_eq_true, Bool.or_eq_true,
              decide_eq_true_eq] at hclean
            obtain ⟨hshared, hown⟩ := hclean
            simp only [hop, rotationKeys_ownKeyOp hop, List.mem_singleton]
            split_ifs with hsame
            · exact h.goto ⟨lastOp, perDid, hhead, hsame ▸ hshared, hop⟩
            · exact h.goto ⟨lastOp, perDid, hhead, hstage,
                hown.resolve_left fun heq => hsame heq.symm, hshared⟩
    · rw [if_pos hok]
      exact hnext w h.right
  | send newOp =>
    obtain ⟨op, perDid, hhead, hlist, hop⟩ := hstage
    have hrefused : (w.head did).any (accepts P · newOp) = false := by
      rw [hhead]
      exact Bool.eq_false_of_not_eq_true (mt (accepts_ownKeyOp hop).1 hlist)
    simp only [replaceStep]
    rw [if_pos (.inr hrefused)]
    exact hnext w h.right
  | mark =>
    simp only [replaceStep]
    split_ifs
    · exact hnext w h.right
    · exact hnext _ (right_mark h.right hstage)

theorem markInv_step {a : Action} (h : MarkInv P shared w) (hclean : looksAtClean P shared w a = true)
    (hstep : step P shared w a = some t) : MarkInv P shared t := by
  cases a with
  | rotationKeys dids =>
    simp only [step, Option.ite_none_right_eq_some, Option.some.injEq] at hstep
    obtain ⟨-, rfl⟩ := hstep
    refine h.goto ?_
    cases dids <;> trivial
  | plcRotationKeys =>
    simp only [step, Option.ite_none_right_eq_some, Option.some.injEq] at hstep
    obtain ⟨-, rfl⟩ := hstep
    refine h.goto ?_
    cases w.unmigrated <;> trivial
  | interrupt =>
    cases hstep
    exact h.goto trivial
  | advance outcome =>
    simp only [step] at hstep
    split at hstep
    · cases hstep
    · cases hstep
      exact h.goto trivial
    · rename_i did dids opened hp
      cases hstep
      exact markInv_seedStep h hp outcome
    · cases hstep
      exact h.goto trivial
    · rename_i did dids stage hp
      cases hstep
      exact markInv_replaceStep h hp outcome hclean

/-- **In every run of the two commands that looks at clean last operations only, the marks are right**,
wherever it is interrupted. -/
theorem right_of_looksAtClean (P : Plc) (shared : Keypair) (w : World) (acts : List Action)
    (hidle : w.process = .idle) (hright : Right P shared w)
    (hclean : Runs.Along (step P shared) (fun v a => looksAtClean P shared v a = true) w acts) :
    Runs.Always (step P shared) (Right P shared) w acts :=
  (Runs.always_of_along (fun _ _ _ h hc hs => markInv_step h hc hs)
    ⟨hright, by rw [hidle]; trivial⟩ acts hclean).mono fun _ h => h.right

/-- The condition leaves out nothing that is safe: once such a last operation is looked at and every
call goes through, the DID is marked wrongly. -/
theorem wrong_of_not_looksAtClean {dids : List String} {perDid : Keypair}
    (hp : w.process = .replacing (did :: dids) (.lastOp perDid))
    (hload : loadKey P w did = some perDid) (hactor : did ∈ w.actors.map (·.1))
    (h : looksAtClean P shared w (.advance .ok) = false) :
    ∃ acts v, Runs.run (step P shared) w acts = some v ∧ ¬ Right P shared v := by
  have hmark : ∀ v : World, v.actors = w.actors → (did, true) ∈ (v.mark did).actors := by
    intro v hv
    obtain ⟨⟨d, m⟩, hrow, rfl⟩ := List.mem_map.1 hactor
    exact List.mem_map.2 ⟨(d, m), hv ▸ hrow, if_pos rfl⟩
  simp only [looksAtClean, hp] at h
  split at h
  · rename_i op hhead
    split at h
    · rename_i newOp hop
      by_cases hsame : P.didKey perDid = P.didKey shared
      · -- The shared key is sent once more, and is what the marked document lists.
        have hlists : P.didKey perDid ∈ (normalizeOp op).rotationKeys := by
          by_contra hlist
          have hshared : P.didKey shared ∉ (normalizeOp op).rotationKeys := hsame ▸ hlist
          simp [hsame, hshared] at h
        refine ⟨[.advance .ok, .advance .ok, .advance .ok],
          ((w.apply did newOp).mark did).goto (.replacing dids .keypair), ?_, fun hright => ?_⟩
        · simp [Runs.run, step, hp, replaceStep, hhead, hop, rotationKeys_ownKeyOp hop, hsame,
            World.goto, World.apply, World.mark, (accepts_ownKeyOp hop).2 hlists]
        · obtain ⟨op', perDid', hhead', -, -, hshared⟩ := hright did (hmark (w.apply did newOp) rfl)
          have hnew : (w.apply did newOp).head did = some (.op (.operation newOp)) := set_self _ _ _
          cases hnew.symm.trans hhead'
          simp [normalizeOp, rotationKeys_ownKeyOp hop, hsame] at hshared
      · refine ⟨[.advance .ok, .advance .ok], (w.mark did).goto (.replacing dids .keypair), ?_,
          fun hright => ?_⟩
        · have hother : P.didKey shared ∉ newOp.rotationKeys := by
            rw [rotationKeys_ownKeyOp hop, List.mem_singleton]
            exact fun heq => hsame heq.symm
          simp [Runs.run, step, hp, replaceStep, hhead, hop, hother, World.goto, World.mark]
        · obtain ⟨op', perDid', hhead', hload', hown, hshared⟩ := hright did (hmark w rfl)
          cases hhead.symm.trans hhead'
          cases hload.symm.trans hload'
          simp [hown, hshared] at h
    · cases h
  · cases h

/-! ### Two runs -/

/-- The signature names the signer. -/
def samplePlc : Plc where
  didKey keypair := if keypair.secret = [7] then "did:key:zQ3shShared" else "did:key:zQ3shOwn"
  cidForCbor _ := .ok "bafyreihead"
  sign _ keypair :=
    .ok (if keypair.secret = [7] then "did:key:zQ3shShared" else "did:key:zQ3shOwn")
  signedBy op key := op.sig = some key
  signer h := by
    cases h
    simp [eq_comm]
  importKeypair bytes := if bytes = [] then .error "invalid length" else .ok ⟨bytes⟩

/-- One actor, with this key file and these rotation keys. -/
def oneActor (file : Bytes) (rotationKeys : List String) : World where
  actors := [("did:plc:alice", false)]
  stores := ["did:plc:alice"]
  keyFile did := if did = "did:plc:alice" then some file else none
  head did :=
    if did = "did:plc:alice" then
      some (.op (.operation ⟨"plc_operation", rotationKeys, [], [], [], none, some "did:key:zQ3shOwn"⟩))
    else none
  process := .idle

/-- The command from its start to the end of its list of one DID. -/
def oneRun : List Action := [.plcRotationKeys, .advance .ok, .advance .ok, .advance .ok]

theorem right_ownKeyListed : Runs.Always (step samplePlc ⟨[7]⟩) (Right samplePlc ⟨[7]⟩)
    (oneActor [1] ["did:key:zQ3shOwn"]) oneRun :=
  right_of_looksAtClean samplePlc ⟨[7]⟩ (oneActor [1] ["did:key:zQ3shOwn"]) oneRun rfl
    (by intro did hmarked; simp [oneActor] at hmarked) (by decide +kernel)

/-- The document lists the shared key and not the one in the file, and is marked as it is. -/
theorem marked_unreplaced : ¬ Runs.Always (step samplePlc ⟨[7]⟩) (Right samplePlc ⟨[7]⟩)
    (oneActor [1] ["did:key:zQ3shShared"]) oneRun := by
  intro hall
  obtain ⟨w, hw, hmarked, hlists⟩ : ∃ w ∈ Runs.run (step samplePlc ⟨[7]⟩)
      (oneActor [1] ["did:key:zQ3shShared"]) oneRun, ("did:plc:alice", true) ∈ w.actors ∧
        (w.head "did:plc:alice").any (fun head => match head with
          | .op op => "did:key:zQ3shShared" ∈ (normalizeOp op).rotationKeys
          | .tombstone _ => false) = true := by
    decide +kernel
  obtain ⟨op, perDid, hhead, -, -, hshared⟩ := hall.last hw "did:plc:alice" hmarked
  rw [hhead] at hlists
  exact hshared (of_decide_eq_true hlists)

end CacosPds.Migrate
