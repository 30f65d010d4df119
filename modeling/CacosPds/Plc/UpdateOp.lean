import CacosPds.Migrate.PlcRotation
import Mathlib.Data.String.Basic
/-!
# What an update changes of the last operation (`cacos-pds-plc/src/operations.rs:78-195`)

| here | there |
| --- | --- |
| `Json`, `toJson` | the two kinds of operations as `serde` writes them (`types.rs:24-56`): no `sig` is no field, no `prev` is `null` |
| `lastOpCid`     | `create_update_op` up to `prev`: to a text, back to a map, its CID |
| `Serde`         | **external boundary**: `serde_json` and `cid_for_cbor` |
| `Updated`       | the last operation in normal form, but for what the options ask for |

The maps are kept by their keys (`BTreeMap`), so that an entry that is set leaves the others where
they are.
-/
namespace CacosPds.Plc

open Migrate (CompatibleOp CreateAtprotoUpdateOpOpts normalizeOp insertKey setHandle updated
  createAtprotoUpdateOp)
open Server (Keypair Operation Service ensureHttpPrefix ensureAtprotoPrefix)

/-! ## The CID of the last operation -/

inductive Json where
  | null
  | str (text : String)
  | arr (elems : List Json)
  | obj (fields : List (String × Json))

def Service.toJson (service : Service) : Json :=
  .obj [("type", .str service.type), ("endpoint", .str service.endpoint)]

def sigField (sig : Option String) : List (String × Json) :=
  (sig.map fun text => ("sig", Json.str text)).toList

/-- An untagged enum. -/
def toJson : CompatibleOp → List (String × Json)
  | .createOpV1 op =>
    [("type", .str op.type), ("signingKey", .str op.signingKey),
      ("recoveryKey", .str op.recoveryKey), ("handle", .str op.handle),
      ("service", .str op.service), ("prev", op.prev.elim .null .str)] ++ sigField op.sig
  | .operation op =>
    [("type", .str op.type), ("rotationKeys", .arr (op.rotationKeys.map .str)),
      ("verificationMethods", .obj (op.verificationMethods.map fun e => (e.1, .str e.2))),
      ("alsoKnownAs", .arr (op.alsoKnownAs.map .str)),
      ("services", .obj (op.services.map fun e => (e.1, Service.toJson e.2))),
      ("prev", op.prev.elim .null .str)] ++ sigField op.sig

structure Serde where
  toText : List (String × Json) → Except String String
  fromText : String → Except String (List (String × Json))
  /-- What is written is read back. -/
  fromText_toText : ∀ {fields text}, toText fields = .ok text → fromText text = .ok fields
  cidForCbor : List (String × Json) → Except String String

def lastOpCid (S : Serde) (lastOp : CompatibleOp) : Except String String := do
  let lastOpJson ← S.toText (toJson lastOp)
  let lastOpIndexMap ← S.fromText lastOpJson
  S.cidForCbor lastOpIndexMap

/-- The client's CID of an operation is the one that `create_update_op` computes. -/
def NamesByJson (P : Migrate.Plc) (S : Serde) : Prop := ∀ op, P.cidForCbor op = lastOpCid S op

/-! ## What an update may change -/

def isAtUri (name : String) : Prop := "at://".toList <+: name.toList

/-- The first `at://` name gives way to the new one; without one, the new one goes in front. -/
inductive AliasSet (formatted : String) : List String → List String → Prop where
  | replaced {before after : List String} {old : String} : (∀ name ∈ before, ¬ isAtUri name) →
      isAtUri old → AliasSet formatted (before ++ old :: after) (before ++ formatted :: after)
  | prepended {names : List String} : (∀ name ∈ names, ¬ isAtUri name) →
      AliasSet formatted names (formatted :: names)

def Sorted {α : Type} (m : List (String × α)) : Prop := (m.map (·.1)).Pairwise (· < ·)

/-- The entry is set where a value is asked for; the others stay. -/
def EntrySet {α : Type} (key : String) (m m' : List (String × α)) : Option α → Prop
  | none => m' = m
  | some v => (∀ k, m'.lookup k = if k = key then some v else m.lookup k) ∧ (Sorted m → Sorted m')

structure Updated (P : Migrate.Plc) (S : Serde) (lastOp : CompatibleOp) (signer : Keypair)
    (opts : CreateAtprotoUpdateOpOpts) (op : Operation) : Prop where
  /-- Of the operation as it was given. -/
  prev : ∃ cid, S.cidForCbor (toJson lastOp) = .ok cid ∧ op.prev = some cid
  type : op.type = (normalizeOp lastOp).type
  rotationKeys : op.rotationKeys = opts.rotationKeys.getD (normalizeOp lastOp).rotationKeys
  verificationMethods : EntrySet "atproto" (normalizeOp lastOp).verificationMethods
    op.verificationMethods opts.signingKey
  services : EntrySet "atproto_pds" (normalizeOp lastOp).services op.services
    (opts.pds.map fun pds => ⟨"AtprotoPersonalDataServer", ensureHttpPrefix pds⟩)
  sameAliases : opts.handle = none → op.alsoKnownAs = (normalizeOp lastOp).alsoKnownAs
  newAlias : ∀ handle, opts.handle = some handle →
    AliasSet (ensureAtprotoPrefix handle) (normalizeOp lastOp).alsoKnownAs op.alsoKnownAs
  sig : ∃ sig, P.sign { op with sig := none } signer = .ok sig ∧ op.sig = some sig

/-! ### The JSON of an operation -/

section

variable {α : Type}

theorem sigField_injective : Function.Injective sigField := by
  rintro (_ | a) (_ | b) h <;> simp_all [sigField]

theorem service_toJson_injective : Function.Injective Service.toJson := by
  rintro ⟨type, endpoint⟩ ⟨type', endpoint'⟩ h
  simpa [Service.toJson] using h

theorem prev_toJson_injective :
    Function.Injective fun prev : Option String => prev.elim Json.null .str := by
  rintro (_ | a) (_ | b) h <;> simp_all

theorem str_injective : Function.Injective Json.str := fun _ _ => Json.str.inj

/-- The map says everything that the operation does, its signature included. -/
theorem toJson_injective : Function.Injective toJson := by
  have hvalue : ∀ {β : Type} (f : β → Json), Function.Injective f →
      Function.Injective fun m : List (String × β) => m.map fun e => (e.1, f e.2) := by
    intro β f hf
    refine List.map_injective_iff.2 fun e e' h => ?_
    rw [Prod.mk.injEq] at h
    exact Prod.ext h.1 (hf h.2)
  rintro (op | op) (op' | op') h
  · obtain ⟨type, signingKey, recoveryKey, handle, service, prev, sig⟩ := op
    obtain ⟨type', signingKey', recoveryKey', handle', service', prev', sig'⟩ := op'
    simp only [toJson, List.cons_append, List.nil_append, List.cons.injEq, Prod.mk.injEq, true_and,
      Json.str.injEq] at h
    obtain ⟨rfl, rfl, rfl, rfl, rfl, hprev, hsig⟩ := h
    obtain rfl := prev_toJson_injective hprev
    obtain rfl := sigField_injective hsig
    rfl
  · simp [toJson] at h
  · simp [toJson] at h
  · obtain ⟨type, rotationKeys, verificationMethods, alsoKnownAs, services, prev, sig⟩ := op
    obtain ⟨type', rotationKeys', verificationMethods', alsoKnownAs', services', prev', sig'⟩ := op'
    simp only [toJson, List.cons_append, List.nil_append, List.cons.injEq, Prod.mk.injEq, true_and,
      Json.str.injEq, Json.arr.injEq, Json.obj.injEq] at h
    obtain ⟨rfl, hkeys, hmethods, haliases, hservices, hprev, hsig⟩ := h
    obtain rfl := List.map_injective_iff.2 str_injective hkeys
    obtain rfl := hvalue _ str_injective hmethods
    obtain rfl := List.map_injective_iff.2 str_injective haliases
    obtain rfl := hvalue _ service_toJson_injective hservices
    obtain rfl := prev_toJson_injective hprev
    obtain rfl := sigField_injective hsig
    rfl

theorem lastOpCid_ok {S : Serde} {lastOp : CompatibleOp} {cid : String}
    (h : lastOpCid S lastOp = .ok cid) : S.cidForCbor (toJson lastOp) = .ok cid := by
  obtain ⟨text, htext, h⟩ := Stages.except_bind_ok.1 h
  obtain ⟨fields, hfields, h⟩ := Stages.except_bind_ok.1 h
  rw [S.fromText_toText htext] at hfields
  cases hfields
  exact h

/-! ### The edits -/

theorem lookup_filter_key (m : List (String × α)) (p : String → Bool) (k : String) :
    (m.filter fun e => p e.1).lookup k = if p k then m.lookup k else none := by
  induction m with
  | nil => simp
  | cons e m ih =>
    obtain ⟨k', v⟩ := e
    by_cases hk : k = k'
    · subst hk
      cases hp : p k <;> simp [hp, ih]
    · have hne : (k == k') = false := by simpa using hk
      cases hp : p k' <;> simp [hp, ih, List.lookup_cons, hne]

theorem lookup_insertKey (key k : String) (v : α) (m : List (String × α)) :
    (insertKey key v m).lookup k = if k = key then some v else m.lookup k := by
  rw [insertKey, List.lookup_append, List.lookup_cons,
    lookup_filter_key m (fun k => k < key), lookup_filter_key m (fun k => key < k)]
  rcases lt_trichotomy k key with hlt | rfl | hgt
  · rw [decide_eq_true hlt, decide_eq_false hlt.not_gt, beq_false_of_ne hlt.ne, if_neg hlt.ne]
    cases m.lookup k <;> rfl
  · rw [decide_eq_false (lt_irrefl k), beq_self_eq_true, if_pos rfl]
    rfl
  · rw [decide_eq_true hgt, decide_eq_false hgt.not_gt, beq_false_of_ne hgt.ne', if_neg hgt.ne']
    rfl

theorem sorted_insertKey {key : String} {v : α} {m : List (String × α)} (h : Sorted m) :
    Sorted (insertKey key v m) := by
  have hfilter : ∀ p : String × α → Bool, Sorted (m.filter p) := fun p =>
    h.sublist (List.filter_sublist.map _)
  rw [Sorted, insertKey, List.map_append, List.map_cons, List.pairwise_append,
    List.pairwise_cons]
  have hbelow : ∀ k ∈ (m.filter (·.1 < key)).map (·.1), k < key := by
    simp only [List.mem_map, List.mem_filter, decide_eq_true_eq]
    rintro k ⟨e, ⟨-, he⟩, rfl⟩
    exact he
  have habove : ∀ k ∈ (m.filter fun e => key < e.1).map (·.1), key < k := by
    simp only [List.mem_map, List.mem_filter, decide_eq_true_eq]
    rintro k ⟨e, ⟨-, he⟩, rfl⟩
    exact he
  refine ⟨hfilter _, ⟨habove, hfilter _⟩, fun k hk k' hk' => ?_⟩
  rcases List.mem_cons.1 hk' with rfl | hk'
  · exact hbelow k hk
  · exact (hbelow k hk).trans (habove k' hk')

theorem insertKey_insertKey (key : String) (v : α) (m : List (String × α)) :
    insertKey key v (insertKey key v m) = insertKey key v m := by
  have hnone : ∀ p q : String × α → Bool, (∀ e, p e = true → q e = true → False) →
      (m.filter p).filter q = [] := by
    intro p q hpq
    rw [List.filter_filter, List.filter_eq_nil_iff]
    intro e _ he
    rw [Bool.and_eq_true] at he
    exact hpq e he.2 he.1
  have hself : ∀ p : String × α → Bool, (m.filter p).filter p = m.filter p := fun p => by
    rw [List.filter_filter]
    exact List.filter_congr fun e _ => Bool.and_self _
  have hapart : ∀ e : String × α, decide (e.1 < key) = true → decide (key < e.1) = true → False :=
    fun e hlt hgt => lt_asymm (of_decide_eq_true hlt) (of_decide_eq_true hgt)
  have hkey : ¬ decide (key < key) = true := fun h => lt_irrefl key (of_decide_eq_true h)
  have hbelow : (insertKey key v m).filter (·.1 < key) = m.filter (·.1 < key) := by
    rw [insertKey, List.filter_append, List.filter_cons, if_neg hkey, hself,
      hnone _ _ fun e hgt hlt => hapart e hlt hgt, List.append_nil]
  have habove : ((insertKey key v m).filter fun e => key < e.1) = m.filter fun e => key < e.1 := by
    rw [insertKey, List.filter_append, List.filter_cons, if_neg hkey, hself,
      hnone _ _ hapart, List.nil_append]
  rw [insertKey, hbelow, habove, insertKey]

theorem isAtUri_ensureAtprotoPrefix (str : String) : isAtUri (ensureAtprotoPrefix str) := by
  unfold ensureAtprotoPrefix
  split
  · rename_i h
    exact List.isPrefixOf_iff_prefix.1 h
  · rw [isAtUri, String.toList_append]
    exact List.prefix_append _ _

theorem setHandle_of_all {formatted : String} {names : List String}
    (h : ∀ name ∈ names, ¬ isAtUri name) : setHandle formatted names = formatted :: names := by
  have hnone : (names.findIdx? fun h => "at://".toList.isPrefixOf h.toList) = none := by
    rw [List.findIdx?_eq_none_iff]
    intro name hname
    exact Bool.eq_false_of_not_eq_true fun hat => h name hname (List.isPrefixOf_iff_prefix.1 hat)
  rw [setHandle, hnone]

theorem setHandle_append {formatted old : String} {before after : List String}
    (h : ∀ name ∈ before, ¬ isAtUri name) (hold : isAtUri old) :
    setHandle formatted (before ++ old :: after) = before ++ formatted :: after := by
  have hfind : ((before ++ old :: after).findIdx? fun h => "at://".toList.isPrefixOf h.toList) =
      some before.length := by
    have hnone : (before.findIdx? fun h => "at://".toList.isPrefixOf h.toList) = none := by
      rw [List.findIdx?_eq_none_iff]
      intro name hname
      exact Bool.eq_false_of_not_eq_true fun hat => h name hname (List.isPrefixOf_iff_prefix.1 hat)
    rw [List.findIdx?_append, hnone, List.findIdx?_cons, List.isPrefixOf_iff_prefix.2 hold]
    simp
  rw [setHandle, hfind]
  simp

/-- The names up to the first `at://` name. -/
theorem split_names (names : List String) : (∀ name ∈ names, ¬ isAtUri name) ∨
    ∃ before old after, names = before ++ old :: after ∧ (∀ name ∈ before, ¬ isAtUri name) ∧
      isAtUri old := by
  induction names with
  | nil => exact .inl nofun
  | cons name names ih =>
    by_cases hat : isAtUri name
    · exact .inr ⟨[], name, names, rfl, nofun, hat⟩
    · rcases ih with hall | ⟨before, old, after, rfl, hbefore, hold⟩
      · exact .inl (List.forall_mem_cons.2 ⟨hat, hall⟩)
      · exact .inr ⟨name :: before, old, after, rfl, List.forall_mem_cons.2 ⟨hat, hbefore⟩, hold⟩

theorem aliasSet_setHandle (formatted : String) (names : List String) :
    AliasSet formatted names (setHandle formatted names) := by
  rcases split_names names with hall | ⟨before, old, after, rfl, hbefore, hold⟩
  · rw [setHandle_of_all hall]
    exact .prepended hall
  · rw [setHandle_append hbefore hold]
    exact .replaced hbefore hold

/-- The new name is the first one the second time. -/
theorem setHandle_setHandle {formatted : String} (hf : isAtUri formatted) (names : List String) :
    setHandle formatted (setHandle formatted names) = setHandle formatted names := by
  rcases split_names names with hall | ⟨before, old, after, rfl, hbefore, hold⟩
  · rw [setHandle_of_all hall]
    have hnone : ∀ name ∈ ([] : List String), ¬ isAtUri name := nofun
    exact setHandle_append hnone hf
  · rw [setHandle_append hbefore hold, setHandle_append hbefore hf]

theorem entrySet_insertKey (key : String) (m : List (String × α)) (value : Option α) :
    EntrySet key m (value.elim m fun v => insertKey key v m) value := by
  cases value with
  | none => rfl
  | some v => exact ⟨fun k => lookup_insertKey key k v m, sorted_insertKey⟩

end

/-! ### The update -/

section

variable {P : Migrate.Plc} {S : Serde} {lastOp : CompatibleOp} {signer : Keypair}
  {opts : CreateAtprotoUpdateOpOpts} {op : Operation}

theorem createAtprotoUpdateOp_ok : createAtprotoUpdateOp P lastOp signer opts = .ok op ↔
    ∃ prev sig, P.cidForCbor lastOp = .ok prev ∧
      P.sign { updated opts { normalizeOp lastOp with sig := none } with prev := some prev }
        signer = .ok sig ∧
      op = { updated opts (normalizeOp lastOp) with prev := some prev, sig := some sig } := by
  rw [createAtprotoUpdateOp, Migrate.createUpdateOp, Stages.except_bind_ok]
  constructor
  · rintro ⟨prev, hprev, h⟩
    obtain ⟨sig, hsig, h⟩ := Stages.except_bind_ok.1 h
    cases h
    exact ⟨prev, sig, hprev, hsig, rfl⟩
  · rintro ⟨prev, sig, hprev, hsig, rfl⟩
    exact ⟨prev, hprev, Stages.except_bind_ok.2 ⟨sig, hsig, rfl⟩⟩

/-- The second time, the edits change nothing. -/
theorem updated_updated (opts : CreateAtprotoUpdateOpOpts) (op : Operation) :
    updated opts (updated opts op) = updated opts op := by
  simp only [updated, Operation.mk.injEq, true_and, and_true]
  refine ⟨?_, ?_, ?_, ?_⟩
  · cases opts.rotationKeys <;> rfl
  · cases opts.signingKey with
    | none => rfl
    | some key => exact insertKey_insertKey _ _ _
  · cases opts.handle with
    | none => rfl
    | some handle => exact setHandle_setHandle (isAtUri_ensureAtprotoPrefix handle) _
  · cases opts.pds with
    | none => rfl
    | some pds => exact insertKey_insertKey _ _ _

theorem updated_of_ok (hS : NamesByJson P S) (h : createAtprotoUpdateOp P lastOp signer opts = .ok op) :
    Updated P S lastOp signer opts op := by
  obtain ⟨prev, sig, hprev, hsig, rfl⟩ := createAtprotoUpdateOp_ok.1 h
  rw [hS] at hprev
  have hservices : ∀ m : List (String × Service), (opts.pds.elim m fun pds =>
      insertKey "atproto_pds" ⟨"AtprotoPersonalDataServer", ensureHttpPrefix pds⟩ m) =
        (opts.pds.map fun pds => (⟨"AtprotoPersonalDataServer", ensureHttpPrefix pds⟩ : Service)).elim
          m fun service => insertKey "atproto_pds" service m := by
    intro m
    cases opts.pds <;> rfl
  refine
    { prev := ⟨prev, lastOpCid_ok hprev, rfl⟩
      type := rfl
      rotationKeys := rfl
      verificationMethods := entrySet_insertKey "atproto" _ opts.signingKey
      services := ?_
      sameAliases := fun hnone => ?_
      newAlias := fun handle hhandle => ?_
      sig := ⟨sig, hsig, rfl⟩ }
  · simp only [updated, hservices]
    exact entrySet_insertKey "atproto_pds" _ _
  · simp only [updated, hnone, Option.elim]
  · simp only [updated, hhandle, Option.elim]
    exact aliasSet_setHandle _ _

/-- **An update is the last operation but for what is asked for, and comes after it; a second update
with the same options changes only `prev` and `sig`.** It fails only where the CID or the signature
does. -/
theorem createAtprotoUpdateOp_updated (P : Migrate.Plc) (S : Serde) (hS : NamesByJson P S)
    (lastOp : CompatibleOp) (signer : Keypair) (opts : CreateAtprotoUpdateOpOpts) :
    ((∃ cid, lastOpCid S lastOp = .ok cid) → (∀ op, ∃ sig, P.sign op signer = .ok sig) →
      ∃ op, createAtprotoUpdateOp P lastOp signer opts = .ok op) ∧
    ∀ op, createAtprotoUpdateOp P lastOp signer opts = .ok op →
      Updated P S lastOp signer opts op ∧
      ∀ signer' op', createAtprotoUpdateOp P (.operation op) signer' opts = .ok op' →
        op' = { op with prev := op'.prev, sig := op'.sig } := by
  refine ⟨?_, fun op h => ⟨updated_of_ok hS h, ?_⟩⟩
  · rintro ⟨cid, hcid⟩ hsign
    obtain ⟨sig, hsig⟩ := hsign
      { updated opts { normalizeOp lastOp with sig := none } with prev := some cid }
    exact ⟨_, createAtprotoUpdateOp_ok.2 ⟨cid, sig, (hS lastOp).trans hcid, hsig, rfl⟩⟩
  · intro signer' op' h'
    obtain ⟨prev, sig, -, -, rfl⟩ := createAtprotoUpdateOp_ok.1 h
    obtain ⟨prev', sig', -, -, rfl⟩ := createAtprotoUpdateOp_ok.1 h'
    have hagain : ∀ u : Operation, updated opts { updated opts u with prev := some prev, sig := some sig } =
        { updated opts u with prev := some prev, sig := some sig } := fun u =>
      congrArg (fun u : Operation => { u with prev := some prev, sig := some sig })
        (updated_updated opts u)
    exact congrArg (fun u : Operation => { u with prev := some prev', sig := some sig' })
      (hagain (normalizeOp lastOp))

end

/-! ### A handle behind another alias -/

/-- Alice's first operation. -/
def aliceOp : Operation where
  type := "plc_operation"
  rotationKeys := ["did:key:zRot"]
  verificationMethods := [("atproto", "did:key:zKeyA")]
  alsoKnownAs := ["https://alice.example", "at://alice.test"]
  services := []
  prev := none
  sig := some "sig"

/-- It writes and reads this one operation. -/
def aliceSerde : Serde where
  toText
    | [("type", .str "plc_operation"), ("rotationKeys", .arr [.str "did:key:zRot"]),
        ("verificationMethods", .obj [("atproto", .str "did:key:zKeyA")]),
        ("alsoKnownAs", .arr [.str "https://alice.example", .str "at://alice.test"]),
        ("services", .obj []), ("prev", .null), ("sig", .str "sig")] => .ok "alice"
    | _ => .error "not the sample"
  fromText text :=
    if text = "alice" then .ok (toJson (.operation aliceOp)) else .error "not the sample"
  fromText_toText h := by
    split at h
    · cases h
      rfl
    · cases h
  cidForCbor _ := .ok "bafyreialice"

def alicePlc : Migrate.Plc := { Migrate.samplePlc with cidForCbor := lastOpCid aliceSerde }

theorem alice_renamed : ∃ op, createAtprotoUpdateOp alicePlc (.operation aliceOp) ⟨[7]⟩
    ⟨none, some "alice.new", none, none⟩ = .ok op ∧
      Updated alicePlc aliceSerde (.operation aliceOp) ⟨[7]⟩ ⟨none, some "alice.new", none, none⟩ op := by
  have hmain := createAtprotoUpdateOp_updated alicePlc aliceSerde (fun _ => rfl)
    (.operation aliceOp) ⟨[7]⟩ ⟨none, some "alice.new", none, none⟩
  obtain ⟨op, hop⟩ := hmain.1 ⟨"bafyreialice", rfl⟩ fun op => ⟨_, rfl⟩
  exact ⟨op, hop, (hmain.2 op hop).1⟩

end CacosPds.Plc
