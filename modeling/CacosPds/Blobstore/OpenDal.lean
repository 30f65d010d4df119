import CacosPds.Lib.ObjectStore
import CacosPds.Lib.Stages
import CacosPds.Types.Basic
/-!
# Per-DID handles on one blobstore (`cacos-pds-blobstore/src/opendal.rs`)

| here | there |
| --- | --- |
| `Objects`     | the shared `Operator`: keys to contents |
| `Handle`      | `OpenDALBlobStore` (`opendal.rs:61`), its DID |
| `tmpPath` …   | `tmp_path`, `stored_path`, `quarantine_path` (`:161-171`) |
| `putTemp` …   | the operations (`:201-383`); `BlobOp` names them |

The recursive delete in `delete_all` gets `blocks/{did}` with no slash at the end (`:369-373`). An
object store removes every key that the path begins, so those of a DID that continues this one go
too.
-/
namespace CacosPds.Blobstore

open Stages

abbrev Objects := Sql.Table String Bytes

inductive BlobError where
  /-- `BlobNotFoundError`. -/
  | notFound
  | other (err : String)
  deriving DecidableEq, Repr

/-- The calls of one operation on the backend; a position counts deletes. -/
inductive BackendCall where
  | write
  | stat
  | rename
  | delete (n : Nat)
  | deleteAll (n : Nat)
  deriving DecidableEq

/-- The error a backend call fails with, if it does. -/
abbrev BackendFaults := BackendCall → Option String

abbrev Call := Stages.Call Objects BlobError

def backend (err : Option String) : Call Unit := attempt (err.map .other)

structure Handle where
  did : String
  /-- A DID is one segment of a key. -/
  noSlash : '/' ∉ did.toList

/-! ## Keys -/

/-- `{dir}/{did}/{name}`. -/
def objectPath (dir did name : String) : String := dir ++ "/" ++ did ++ "/" ++ name

def Handle.tmpPath (h : Handle) (key : String) : String := objectPath "tmp" h.did key

def Handle.storedPath (h : Handle) (cid : Cid) : String := objectPath "blocks" h.did cid.text

def Handle.quarantinePath (h : Handle) (cid : Cid) : String := objectPath "quarantine" h.did cid.text

/-- The three subtrees of the key layout. -/
def dirs : List String := ["tmp", "blocks", "quarantine"]

/-- The keys in a handle's subtrees. -/
def Handle.Owns (h : Handle) (key : String) : Prop :=
  ∃ dir ∈ dirs, ∃ name, key = objectPath dir h.did name

theorem toList_objectPath (dir did name : String) :
    (objectPath dir did name).toList =
      dir.toList ++ '/' :: (did.toList ++ '/' :: name.toList) := by
  simp [objectPath]

theorem noSlash_dirs {dir : String} (h : dir ∈ dirs) : '/' ∉ dir.toList := by
  simp only [dirs, List.mem_cons, List.not_mem_nil, or_false] at h
  rcases h with rfl | rfl | rfl <;> decide

/-- A key says which subtree it is in, and of which handle. -/
theorem objectPath_inj {dir dir' : String} {a b : Handle} {name name' : String}
    (hd : dir ∈ dirs) (hd' : dir' ∈ dirs) :
    objectPath dir a.did name = objectPath dir' b.did name' ↔
      dir = dir' ∧ a.did = b.did ∧ name = name' := by
  constructor
  · intro h
    have hlist := congrArg String.toList h
    rw [toList_objectPath, toList_objectPath] at hlist
    obtain ⟨hdir, hlist⟩ := Keys.segment_inj (noSlash_dirs hd) (noSlash_dirs hd') hlist
    obtain ⟨hdid, hname⟩ := Keys.segment_inj a.noSlash b.noSlash hlist
    exact ⟨String.toList_inj.1 hdir, String.toList_inj.1 hdid, String.toList_inj.1 hname⟩
  · rintro ⟨rfl, hdid, rfl⟩
    rw [hdid]

/-- A path that stops after the DID also begins the keys of every DID that continues it. -/
theorem openPath_prefix_iff {dir dir' : String} {a b : Handle} {name : String} (hd : dir ∈ dirs)
    (hd' : dir' ∈ dirs) :
    (dir ++ "/" ++ a.did).toList <+: (objectPath dir' b.did name).toList ↔
      dir = dir' ∧ a.did.toList <+: b.did.toList := by
  have hopen : (dir ++ "/" ++ a.did).toList = dir.toList ++ '/' :: a.did.toList := by simp
  rw [hopen, toList_objectPath]
  constructor
  · intro h
    obtain ⟨hdir, htail⟩ := Keys.prefix_segment (noSlash_dirs hd) (noSlash_dirs hd') h
    exact ⟨String.toList_inj.1 hdir, (Keys.prefix_open_segment a.noSlash).1 htail⟩
  · rintro ⟨rfl, h⟩
    rw [List.prefix_append_right_inj, List.cons_prefix_cons]
    exact ⟨rfl, (Keys.prefix_open_segment a.noSlash).2 h⟩

theorem tmp_mem_dirs : "tmp" ∈ dirs := by simp [dirs]

theorem blocks_mem_dirs : "blocks" ∈ dirs := by simp [dirs]

@[simp] theorem Handle.tmpPath_inj {h : Handle} {k k' : String} :
    h.tmpPath k = h.tmpPath k' ↔ k = k' := by
  rw [tmpPath, tmpPath, objectPath_inj tmp_mem_dirs tmp_mem_dirs]
  simp

@[simp] theorem Handle.storedPath_inj {h : Handle} {c c' : Cid} :
    h.storedPath c = h.storedPath c' ↔ c = c' := by
  rw [storedPath, storedPath, objectPath_inj blocks_mem_dirs blocks_mem_dirs, Cid.ext_iff]
  simp

@[simp] theorem Handle.tmpPath_ne_storedPath {h : Handle} {k : String} {c : Cid} :
    h.tmpPath k ≠ h.storedPath c := by
  rw [Ne, tmpPath, storedPath, objectPath_inj tmp_mem_dirs blocks_mem_dirs]
  simp

@[simp] theorem Handle.storedPath_ne_tmpPath {h : Handle} {k : String} {c : Cid} :
    h.storedPath c ≠ h.tmpPath k := Handle.tmpPath_ne_storedPath.symm

/-- A handle's keys are not another handle's. -/
theorem Handle.not_owns {a b : Handle} (hab : a.did ≠ b.did) {dir name : String} (hd : dir ∈ dirs) :
    ¬ b.Owns (objectPath dir a.did name) := by
  rintro ⟨dir', hd', name', he⟩
  exact hab ((objectPath_inj hd hd').1 he).2.1

/-! ## Operations -/

/-- `rename`; a missing source is reported as not found. -/
def renameObject (F : BackendFaults) (src dst : String) : Call Unit := do
  backend (F .rename)
  let s ← get
  match s.rename src dst with
  | some t => set t
  | none => throw .notFound

/-- `put_temp`; the key is `tmp_key`'s. -/
def Handle.putTemp (F : BackendFaults) (h : Handle) (key : String) (bytes : Bytes) : Call Unit := do
  backend (F .write)
  modify fun s => s.insert (h.tmpPath key) bytes

/-- The temp file goes; that it could not is only logged. -/
def Handle.dropTemp (F : BackendFaults) (h : Handle) (key : String) : Call Unit :=
  match F (.delete 0) with
  | some _ => pure ()
  | none => modify fun s => s.erase (h.tmpPath key)

/-- The temp file moves, unless the blob is stored already. -/
def Handle.moveTemp (F : BackendFaults) (h : Handle) (key : String) (cid : Cid) (s : Objects) :
    Call Unit :=
  if h.storedPath cid ∈ s then pure () else renameObject F (h.tmpPath key) (h.storedPath cid)

def Handle.makePermanent (F : BackendFaults) (h : Handle) (key : String) (cid : Cid) : Call Unit := do
  backend (F .stat)
  let s ← get
  h.moveTemp F key cid s
  h.dropTemp F key

def Handle.putPermanent (F : BackendFaults) (h : Handle) (cid : Cid) (bytes : Bytes) : Call Unit := do
  backend (F .write)
  modify fun s => s.insert (h.storedPath cid) bytes

def Handle.quarantine (F : BackendFaults) (h : Handle) (cid : Cid) : Call Unit :=
  renameObject F (h.storedPath cid) (h.quarantinePath cid)

def Handle.unquarantine (F : BackendFaults) (h : Handle) (cid : Cid) : Call Unit :=
  renameObject F (h.quarantinePath cid) (h.storedPath cid)

def Handle.delete (F : BackendFaults) (h : Handle) (n : Nat) (cid : Cid) : Call Unit := do
  backend (F (.delete n))
  modify fun s => s.erase (h.storedPath cid)

/-- One round of `delete_many`: a delete that fails is counted and passed over. -/
def Handle.deleteRound (F : BackendFaults) (h : Handle) (cn : Cid × Nat) : Call Unit :=
  match F (.delete cn.2) with
  | some _ => pure ()
  | none => modify fun s => s.erase (h.storedPath cn.1)

def Handle.deleteMany (F : BackendFaults) (h : Handle) (cids : List Cid) : Call Unit := do
  forM cids.zipIdx (h.deleteRound F)
  let errorCount := (cids.zipIdx.filter fun cn => (F (.delete cn.2)).isSome).length
  if 0 < errorCount then
    throw (.other ("failed to delete " ++ toString errorCount ++ " blobs"))

/-- One round of `delete_all`: a recursive delete of `{dir}/{did}`. -/
def Handle.wipeRound (F : BackendFaults) (h : Handle) (dn : String × Nat) : Call Unit := do
  backend (F (.deleteAll dn.2))
  modify fun s => s.deletePrefix (dn.1 ++ "/" ++ h.did)

def Handle.deleteAll (F : BackendFaults) (h : Handle) : Call Unit :=
  forM dirs.zipIdx (h.wipeRound F)

inductive BlobOp where
  | putTemp (key : String) (bytes : Bytes)
  | makePermanent (key : String) (cid : Cid)
  | putPermanent (cid : Cid) (bytes : Bytes)
  | quarantine (cid : Cid)
  | unquarantine (cid : Cid)
  | delete (cid : Cid)
  | deleteMany (cids : List Cid)
  | deleteAll

def Handle.run (F : BackendFaults) (h : Handle) : BlobOp → Call Unit
  | .putTemp key bytes => h.putTemp F key bytes
  | .makePermanent key cid => h.makePermanent F key cid
  | .putPermanent cid bytes => h.putPermanent F cid bytes
  | .quarantine cid => h.quarantine F cid
  | .unquarantine cid => h.unquarantine F cid
  | .delete cid => h.delete F 0 cid
  | .deleteMany cids => h.deleteMany F cids
  | .deleteAll => h.deleteAll F

/-! ## What an operation leaves alone -/

/-- No key of the handle was created, changed or removed. -/
def Handle.Untouched (b : Handle) (s t : Objects) : Prop := ∀ k, b.Owns k → t.lookup k = s.lookup k

theorem Handle.untouched_refl (b : Handle) (s : Objects) : b.Untouched s s := fun _ _ => rfl

theorem Handle.untouched_trans (b : Handle) (s t u : Objects) (h : b.Untouched s t)
    (k : b.Untouched t u) : b.Untouched s u := fun key hk => (k key hk).trans (h key hk)

section

variable {a b : Handle} {F : BackendFaults}

theorem keeps_backend (err : Option String) : Keeps (backend err) b.Untouched :=
  keeps_attempt b.untouched_refl _

theorem untouched_insert (hab : a.did ≠ b.did) {dir : String} (hd : dir ∈ dirs) (name : String)
    (bytes : Bytes) (s : Objects) :
    b.Untouched s (s.insert (objectPath dir a.did name) bytes) := by
  intro k hk
  rw [Sql.Table.lookup_insert_eq, if_neg]
  rintro rfl
  exact Handle.not_owns hab hd hk

theorem untouched_erase (hab : a.did ≠ b.did) {dir : String} (hd : dir ∈ dirs) (name : String)
    (s : Objects) : b.Untouched s (s.erase (objectPath dir a.did name)) := by
  intro k hk
  rw [Sql.Table.lookup_erase_eq, if_neg]
  rintro rfl
  exact Handle.not_owns hab hd hk

theorem keeps_renameObject (hab : a.did ≠ b.did) {dir dir' : String} (hd : dir ∈ dirs)
    (hd' : dir' ∈ dirs) (name name' : String) :
    Keeps (renameObject F (objectPath dir a.did name) (objectPath dir' a.did name'))
      b.Untouched := by
  refine (keeps_backend _).bind b.untouched_trans fun _ => ?_
  refine keeps_get_bind fun s => ?_
  cases hr : s.rename (objectPath dir a.did name) (objectPath dir' a.did name') with
  | none => exact b.untouched_refl s
  | some t =>
    intro k hk
    show t.lookup k = s.lookup k
    rw [Sql.Table.lookup_rename hr, if_neg, if_neg]
    · rintro rfl
      exact Handle.not_owns hab hd hk
    · rintro rfl
      exact Handle.not_owns hab hd' hk

theorem keeps_dropTemp (hab : a.did ≠ b.did) (key : String) :
    Keeps (a.dropTemp F key) b.Untouched := by
  unfold Handle.dropTemp
  split
  · exact keeps_pure b.untouched_refl _
  · exact keeps_modify (untouched_erase hab (by simp [dirs]) key)

theorem keeps_makePermanent (hab : a.did ≠ b.did) (key : String) (cid : Cid) :
    Keeps (a.makePermanent F key cid) b.Untouched := by
  refine (keeps_backend _).bind b.untouched_trans fun _ => ?_
  refine (keeps_get b.untouched_refl).bind b.untouched_trans fun s => ?_
  refine Keeps.bind b.untouched_trans ?_ fun _ => keeps_dropTemp hab key
  unfold Handle.moveTemp
  split
  · exact keeps_pure b.untouched_refl _
  · exact keeps_renameObject hab (by simp [dirs]) (by simp [dirs]) key cid.text

theorem keeps_deleteMany (hab : a.did ≠ b.did) (cids : List Cid) :
    Keeps (a.deleteMany F cids) b.Untouched := by
  have hround : ∀ cn, Keeps (a.deleteRound F cn) b.Untouched := by
    intro cn
    unfold Handle.deleteRound
    split
    · exact keeps_pure b.untouched_refl _
    · exact keeps_modify (untouched_erase hab (by simp [dirs]) cn.1.text)
  refine (Keeps.forM b.untouched_refl b.untouched_trans fun cn _ => hround cn).bind b.untouched_trans fun _ => ?_
  show Keeps (if 0 < _ then _ else _) b.Untouched
  split
  · exact keeps_throw b.untouched_refl _
  · exact keeps_pure b.untouched_refl _

/-- An operation other than `delete_all` keeps to its own subtrees. -/
theorem keeps_run (hab : a.did ≠ b.did) {op : BlobOp} (hop : op ≠ .deleteAll) :
    Keeps (a.run F op) b.Untouched := by
  cases op with
  | putTemp key bytes =>
    exact (keeps_backend _).bind b.untouched_trans fun _ =>
      keeps_modify (untouched_insert hab (by simp [dirs]) key bytes)
  | makePermanent key cid => exact keeps_makePermanent hab key cid
  | putPermanent cid bytes =>
    exact (keeps_backend _).bind b.untouched_trans fun _ =>
      keeps_modify (untouched_insert hab (by simp [dirs]) cid.text bytes)
  | quarantine cid => exact keeps_renameObject hab (by simp [dirs]) (by simp [dirs]) _ _
  | unquarantine cid => exact keeps_renameObject hab (by simp [dirs]) (by simp [dirs]) _ _
  | delete cid =>
    exact (keeps_backend _).bind b.untouched_trans fun _ =>
      keeps_modify (untouched_erase hab (by simp [dirs]) cid.text)
  | deleteMany cids => exact keeps_deleteMany hab cids
  | deleteAll => exact absurd rfl hop

/-- `delete_all` keeps to its own subtrees where its DID does not begin the other one. -/
theorem keeps_deleteAll (hpre : ¬ a.did.toList <+: b.did.toList) :
    Keeps (a.deleteAll F) b.Untouched := by
  refine Keeps.forM b.untouched_refl b.untouched_trans fun ⟨dir, n⟩ hn => ?_
  have hd : dir ∈ dirs := List.mem_of_getElem? (List.mk_mem_zipIdx_iff_getElem?.1 hn)
  refine (keeps_backend _).bind b.untouched_trans fun _ => keeps_modify fun s => ?_
  rintro _ ⟨dir', hd', name, rfl⟩
  rw [Sql.Table.lookup_deletePrefix, if_neg]
  rw [openPath_prefix_iff hd hd']
  exact fun h => hpre h.2

/-- What a `delete_all` that goes through leaves. -/
def Handle.wiped (h : Handle) (s : Objects) : Objects :=
  dirs.foldl (fun s dir => s.deletePrefix (dir ++ "/" ++ h.did)) s

theorem does_deleteAll (a : Handle) (F : BackendFaults) :
    Does (a.deleteAll F) (fun _ => ∀ n < 3, F (.deleteAll n) = none) a.wiped := by
  have hround : ∀ dn, Does (a.wipeRound F dn) (fun _ => F (.deleteAll dn.2) = none)
      (fun s => s.deletePrefix (dn.1 ++ "/" ++ a.did)) := fun dn =>
    (does_attempt_modify _ _).congr (fun _ => Option.map_eq_none_iff) fun _ _ => rfl
  refine (does_forM_zipIdx (g := fun s dn => s.deletePrefix (dn.1 ++ "/" ++ a.did)) hround
    dirs).congr (fun _ => ?_) fun _ _ => rfl
  constructor
  · intro h n hn
    exact h n dirs[n] (List.getElem?_eq_getElem hn)
  · intro h n dir hn
    exact h n (List.getElem?_eq_some_iff.1 hn).1

theorem lookup_wiped (a : Handle) (s : Objects) (k : String) : (a.wiped s).lookup k =
    if ∃ dir ∈ dirs, (dir ++ "/" ++ a.did).toList <+: k.toList then none else s.lookup k := by
  unfold Handle.wiped
  induction dirs generalizing s with
  | nil => simp
  | cons dir ds ih =>
    rw [List.foldl_cons, ih, Sql.Table.lookup_deletePrefix]
    simp only [List.exists_mem_cons_iff]
    by_cases hd : (dir ++ "/" ++ a.did).toList <+: k.toList
    · simp only [hd, if_true, true_or, ite_self]
    · simp only [hd, if_false, false_or]

/-- A `delete_all` that works removes every key of a DID that continues its own. -/
theorem not_keeps_deleteAll (hpre : a.did.toList <+: b.did.toList) :
    ¬ Keeps (a.deleteAll fun _ => none) b.Untouched := by
  intro hkeep
  have hd : "blocks" ∈ dirs := by simp [dirs]
  have hcaught : ∃ dir ∈ dirs,
      (dir ++ "/" ++ a.did).toList <+: (objectPath "blocks" b.did "").toList :=
    ⟨"blocks", hd, (openPath_prefix_iff hd hd).2 ⟨rfl, hpre⟩⟩
  have hrun := (does_deleteAll a (fun _ => none)
    (Finmap.singleton (objectPath "blocks" b.did "") []) _).2 ⟨fun _ _ => rfl, rfl⟩
  have hkept := hkeep (Finmap.singleton (objectPath "blocks" b.did "") []) _
    ⟨"blocks", hd, "", rfl⟩
  rw [hrun, lookup_wiped, if_pos hcaught, Finmap.lookup_singleton_eq] at hkept
  cases hkept

/-! ## Permanent blobs -/

/-- A permanent blob of the handle keeps its bytes. -/
def Handle.KeepsStored (h : Handle) (s t : Objects) : Prop :=
  ∀ cid bytes, s.lookup (h.storedPath cid) = some bytes → t.lookup (h.storedPath cid) = some bytes

/-- A promotion moves a temp file only where no permanent one is. -/
theorem keepsStored_makePermanent (h : Handle) (F : BackendFaults) (key : String) (cid : Cid) :
    Keeps (h.makePermanent F key cid) h.KeepsStored := by
  have refl : ∀ s, h.KeepsStored s s := fun _ _ _ hs => hs
  have trans : ∀ s t u, h.KeepsStored s t → h.KeepsStored t u → h.KeepsStored s u :=
    fun _ _ _ ht hu c bytes hs => hu c bytes (ht c bytes hs)
  have hdrop : Keeps (h.dropTemp F key) h.KeepsStored := by
    unfold Handle.dropTemp
    split
    · exact keeps_pure refl _
    · refine keeps_modify fun s c bytes hs => ?_
      rw [Sql.Table.lookup_erase_eq, if_neg Handle.storedPath_ne_tmpPath, hs]
  refine Keeps.bind trans (keeps_attempt refl _) fun _ => keeps_get_bind fun s => ?_
  refine keeps_bind_from trans ?_ fun _ => hdrop
  unfold Handle.moveTemp
  split
  · exact refl s
  rename_i hnew
  rw [renameObject, exec_bind, backend, exec_attempt]
  cases F .rename with
  | some e => exact refl s
  | none =>
    show h.KeepsStored s ((get >>= _ : Call Unit).exec s).2
    rw [exec_bind, exec_get]
    dsimp only
    cases hr : s.rename (h.tmpPath key) (h.storedPath cid) with
    | none => exact refl s
    | some u =>
      intro c bytes hs
      have hne : h.storedPath c ≠ h.storedPath cid := by
        intro he
        rw [he] at hs
        exact hnew (Finmap.mem_iff.2 ⟨bytes, hs⟩)
      show u.lookup (h.storedPath c) = some bytes
      rw [Sql.Table.lookup_rename hr, if_neg hne, if_neg Handle.storedPath_ne_tmpPath, hs]

/-- **An operation of one handle leaves another DID's keys alone exactly when it is not a
`delete_all` of a DID that begins the other one.** -/
theorem run_untouched_iff {a b : Handle} (hab : a.did ≠ b.did) (op : BlobOp) :
    (∀ F, Keeps (a.run F op) b.Untouched) ↔
      (op = .deleteAll → ¬ a.did.toList <+: b.did.toList) := by
  constructor
  · rintro hkeep rfl hpre
    exact not_keeps_deleteAll hpre (hkeep fun _ => none)
  · intro hop F
    by_cases h : op = .deleteAll
    · subst h
      exact keeps_deleteAll (hop rfl)
    · exact keeps_run hab h

theorem run_untouched_com_org :
    Keeps (Handle.run (fun _ => none) ⟨"did:web:pds.com", by decide⟩ .deleteAll)
      (Handle.Untouched ⟨"did:web:pds.org", by decide⟩) :=
  (run_untouched_iff (by decide) .deleteAll).2 (fun _ => by decide) fun _ => none

/-- One DID begins the other: both are whole `did:web` identifiers. -/
theorem deleteAll_touches_longer_did :
    ¬ Keeps (Handle.run (fun _ => none) ⟨"did:web:pds.com", by decide⟩ .deleteAll)
      (Handle.Untouched ⟨"did:web:pds.com.au", by decide⟩) :=
  not_keeps_deleteAll (by decide)

end

end CacosPds.Blobstore
