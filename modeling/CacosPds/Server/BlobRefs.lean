import CacosPds.Server.RecordSwap
/-!
# The blob references of a value (`find_blob_refs`, `xrpc/com/atproto/repo/prepare.rs:78-151`)

| here | there |
| --- | --- |
| `JsonForms`, `Lex.doc` | the JSON document that a value is written as, whatever it is represented by |
| `RealRefs`      | the CID of a typed reference is one, as the type of the source says |
| `SerdeLaws`     | what `serde` and `rsky_repo` promise of their codecs |
| `docRefs`       | the blob references of a document, each with the keys that lead to it |
| `NestedAtMost`  | levels of a document, a blob being one value |
| `ReadsWhole`    | no blob is where `find_blob_refs` does not look for one |

Most of its arms look for a blob first and go into the value otherwise. Two do not: a `Lex::Map` is
never a blob, and of a JSON array only the items that are read as records are gone into, as maps. So
the references of a value are found exactly if no blob is there (`findBlobRefs_iff`).
-/
namespace CacosPds.Server

/-! ## The document of a value -/

/-- How the scalars of `rsky_repo` are written. -/
structure JsonForms where
  link : Cid → JsonValue
  bytes : Bytes → JsonValue
  blob : JsonBlobRef → JsonValue

section

variable (F : JsonForms)

mutual

def Ipld.doc : Ipld → JsonValue
  | .link cid => F.link cid
  | .bytes b => F.bytes b
  | .list vs => .array (Ipld.docList vs)
  | .map es => .object (Ipld.docEntries es)
  | .string s => .string s
  | .json j => j

def Ipld.docList : List Ipld → List JsonValue
  | [] => []
  | v :: vs => v.doc :: Ipld.docList vs

def Ipld.docEntries : List (String × Ipld) → List (String × JsonValue)
  | [] => []
  | (key, v) :: es => (key, v.doc) :: Ipld.docEntries es

end

mutual

def Lex.doc : Lex → JsonValue
  | .ipld v => v.doc F
  | .blob ref => F.blob ref
  | .list vs => .array (Lex.docList vs)
  | .map es => .object (Lex.docEntries es)

def Lex.docList : List Lex → List JsonValue
  | [] => []
  | v :: vs => v.doc :: Lex.docList vs

def Lex.docEntries : List (String × Lex) → List (String × JsonValue)
  | [] => []
  | (key, v) :: es => (key, v.doc) :: Lex.docEntries es

end

theorem Ipld.docList_eq (vs : List Ipld) : Ipld.docList F vs = vs.map (Ipld.doc F) := by
  induction vs with
  | nil => rw [Ipld.docList, List.map_nil]
  | cons v vs ih => rw [Ipld.docList, ih, List.map_cons]

theorem Ipld.docEntries_eq (es : List (String × Ipld)) :
    Ipld.docEntries F es = es.map fun e => (e.1, e.2.doc F) := by
  induction es with
  | nil => rw [Ipld.docEntries, List.map_nil]
  | cons e es ih => rw [Ipld.docEntries, ih, List.map_cons]

theorem Lex.docList_eq (vs : List Lex) : Lex.docList F vs = vs.map (Lex.doc F) := by
  induction vs with
  | nil => rw [Lex.docList, List.map_nil]
  | cons v vs ih => rw [Lex.docList, ih, List.map_cons]

theorem Lex.docEntries_eq (es : List (String × Lex)) :
    Lex.docEntries F es = es.map fun e => (e.1, e.2.doc F) := by
  induction es with
  | nil => rw [Lex.docEntries, List.map_nil]
  | cons e es ih => rw [Lex.docEntries, ih, List.map_cons]

end

/-! ## The references of a document -/

/-- The reference, as it is reached over a path. -/
def FoundBlobRef.under (path : List String) (found : FoundBlobRef) : FoundBlobRef :=
  ⟨found.ref, path ++ found.path⟩

section

variable (L : RecordLib)

mutual

def docRefs : JsonValue → List FoundBlobRef
  | .array list => docRefsList list
  | .object map =>
    match L.blobOfJson (.object map) with
    | .ok ref => [⟨ref, []⟩]
    | .error _ => docRefsEntries map
  | _ => []

def docRefsList : List JsonValue → List FoundBlobRef
  | [] => []
  | json :: rest => docRefs json ++ docRefsList rest

def docRefsEntries : List (String × JsonValue) → List FoundBlobRef
  | [] => []
  | (key, json) :: rest => (docRefs json).map (FoundBlobRef.under [key]) ++ docRefsEntries rest

end

theorem docRefsList_eq (list : List JsonValue) :
    docRefsList L list = list.flatMap (docRefs L) := by
  induction list with
  | nil => rw [docRefsList, List.flatMap_nil]
  | cons json rest ih => rw [docRefsList, ih, List.flatMap_cons]

theorem docRefsEntries_eq (map : List (String × JsonValue)) : docRefsEntries L map =
    map.flatMap fun e => (docRefs L e.2).map (FoundBlobRef.under [e.1]) := by
  induction map with
  | nil => rw [docRefsEntries, List.flatMap_nil]
  | cons e rest ih => rw [docRefsEntries, ih, List.flatMap_cons]

/-- An object that is read as a blob reference. -/
def IsBlob (json : JsonValue) : Prop := ∃ ref, L.blobOfJson json = .ok ref

/-- No more than `n` arrays and objects are around any value of the document. -/
def NestedAtMost : Nat → JsonValue → Prop
  | 0, .array _ => False
  | 0, .object map => IsBlob L (.object map)
  | n + 1, .array list => ∀ json ∈ list, NestedAtMost n json
  | n + 1, .object map => IsBlob L (.object map) ∨ ∀ e ∈ map, NestedAtMost n e.2
  | _, _ => True

/-- A typed reference holds a CID, and an untyped one a text. -/
def JsonBlobRef.IsReal : JsonBlobRef → Prop
  | .typed ref _ _ => L.parseCid ref.text = .ok ref
  | .untyped _ _ => True

/-- So do all the references of the value. -/
inductive RealRefs : Lex → Prop
  | ipld (v : Ipld) : RealRefs (.ipld v)
  | blob {ref : JsonBlobRef} (real : ref.IsReal L) : RealRefs (.blob ref)
  | list {list : List Lex} (items : ∀ v ∈ list, RealRefs v) : RealRefs (.list list)
  | map {map : RepoRecord} (values : ∀ e ∈ map, RealRefs e.2) : RealRefs (.map map)

/-- The codecs of `serde_json` and `rsky_repo`. -/
structure SerdeLaws (F : JsonForms) : Prop where
  /-- A map is written as its document. -/
  map : ∀ map, L.jsonOfMap map = .ok (Ipld.doc F (.map map))
  /-- A reference is written as an object, and is read from it. -/
  blob : ∀ ref, ref.IsReal L →
    (∃ map, F.blob ref = .object map) ∧ L.blobOfJson (F.blob ref) = .ok ref
  link : ∀ cid, docRefs L (F.link cid) = []
  bytes : ∀ b, docRefs L (F.bytes b) = []
  /-- Neither a reference nor a record is read from a scalar. -/
  scalar : ∀ json, (∀ list, json ≠ .array list) → (∀ map, json ≠ .object map) →
    (∃ e, L.blobOfJson json = .error e) ∧ ∃ e, L.recordOfJson json = .error e
  /-- A record has the references and the levels of the document that it is read from. -/
  record : ∀ json record, L.recordOfJson json = .ok record →
    docRefs L (Lex.doc F (.map record)) = docRefs L json ∧
      (∀ n, NestedAtMost L n json → NestedAtMost L n (Lex.doc F (.map record))) ∧
      RealRefs L (.map record)

/-- No blob is where it is not looked for: in the place of a `Lex::Map`, and in a JSON array or object
that is not read as a record. -/
inductive ReadsWhole (F : JsonForms) : Lex → Prop
  | blob (ref : JsonBlobRef) : ReadsWhole F (.blob ref)
  | list {list : List Lex} (items : ∀ v ∈ list, ReadsWhole F v) : ReadsWhole F (.list list)
  | map {map : RepoRecord} (plain : ¬ IsBlob L (Lex.doc F (.map map)))
      (values : ∀ e ∈ map, ReadsWhole F e.2) : ReadsWhole F (.map map)
  | ipldBlob {map : List (String × Ipld)} (blob : IsBlob L (Ipld.doc F (.map map))) :
      ReadsWhole F (.ipld (.map map))
  | ipldMap {map : List (String × Ipld)} (values : ∀ e ∈ map, ReadsWhole F (.ipld e.2)) :
      ReadsWhole F (.ipld (.map map))
  | ipldList {list : List Ipld} (items : ∀ v ∈ list, ReadsWhole F (.ipld v)) :
      ReadsWhole F (.ipld (.list list))
  | link (cid : Cid) : ReadsWhole F (.ipld (.link cid))
  | bytes (b : Bytes) : ReadsWhole F (.ipld (.bytes b))
  | string (s : String) : ReadsWhole F (.ipld (.string s))
  | jsonArray {list : List JsonValue}
      (records : ∀ json ∈ list, ∀ record, L.recordOfJson json = .ok record →
        ReadsWhole F (.map record))
      (others : ∀ json ∈ list, ∀ e, L.recordOfJson json = .error e → docRefs L json = []) :
      ReadsWhole F (.ipld (.json (.array list)))
  | jsonBlob {json : JsonValue} (noArray : ∀ list, json ≠ .array list) (blob : IsBlob L json) :
      ReadsWhole F (.ipld (.json json))
  | jsonObject {json : JsonValue} (noArray : ∀ list, json ≠ .array list)
      (record : ∀ record, L.recordOfJson json = .ok record → ∀ e ∈ record, ReadsWhole F e.2)
      (other : ∀ e, L.recordOfJson json = .error e → docRefs L json = []) :
      ReadsWhole F (.ipld (.json json))

end

/-! ## Lists that miss a reference -/

/-- How many of the references lie at this depth. -/
def atDepth (n : Nat) (refs : List FoundBlobRef) : Nat := refs.countP fun r => r.path.length = n

/-- At the least depth where the two differ, the first list has fewer. -/
def Behind (found refs : List FoundBlobRef) : Prop :=
  ∃ n, (∀ m < n, atDepth m found = atDepth m refs) ∧ atDepth n found < atDepth n refs

@[simp] theorem atDepth_append (n : Nat) (r s : List FoundBlobRef) :
    atDepth n (r ++ s) = atDepth n r + atDepth n s :=
  List.countP_append

theorem Behind.append_right {found refs : List FoundBlobRef} (h : Behind found refs)
    (rest : List FoundBlobRef) : Behind (found ++ rest) (refs ++ rest) := by
  obtain ⟨n, hbelow, hn⟩ := h
  refine ⟨n, fun m hm => ?_, ?_⟩
  · rw [atDepth_append, atDepth_append, hbelow m hm]
  · rw [atDepth_append, atDepth_append]
    omega

theorem Behind.append_left {found refs : List FoundBlobRef} (h : Behind found refs)
    (rest : List FoundBlobRef) : Behind (rest ++ found) (rest ++ refs) := by
  obtain ⟨n, hbelow, hn⟩ := h
  refine ⟨n, fun m hm => ?_, ?_⟩
  · rw [atDepth_append, atDepth_append, hbelow m hm]
  · rw [atDepth_append, atDepth_append]
    omega

theorem Behind.append {found refs found' refs' : List FoundBlobRef} (h : Behind found refs)
    (h' : Behind found' refs') : Behind (found ++ found') (refs ++ refs') := by
  obtain ⟨n, hbelow, hn⟩ := h
  obtain ⟨n', hbelow', hn'⟩ := h'
  refine ⟨min n n', fun m hm => ?_, ?_⟩
  · rw [atDepth_append, atDepth_append, hbelow m (by omega), hbelow' m (by omega)]
  · rw [atDepth_append, atDepth_append]
    rcases Nat.lt_trichotomy n n' with hlt | rfl | hlt
    · rw [Nat.min_eq_left (by omega)]
      have := hbelow' n hlt
      omega
    · rw [Nat.min_self]
      omega
    · rw [Nat.min_eq_right (by omega)]
      have := hbelow n' hlt
      omega

/-- Where the references at one depth are all deeper in the list that is found, it is behind. -/
theorem behind_of_deeper {found refs : List FoundBlobRef} {n : Nat}
    (hfound : ∀ r ∈ found, n < r.path.length) (hrefs : ∀ r ∈ refs, n ≤ r.path.length)
    (hat : ∃ r ∈ refs, r.path.length = n) : Behind found refs := by
  have hzero : ∀ m ≤ n, atDepth m found = 0 := by
    intro m hm
    refine List.countP_eq_zero.2 fun r hr => ?_
    have := hfound r hr
    simp only [decide_eq_true_eq]
    omega
  refine ⟨n, fun m hm => ?_, ?_⟩
  · rw [hzero m (Nat.le_of_lt hm)]
    refine (List.countP_eq_zero.2 fun r hr => ?_).symm
    have := hrefs r hr
    simp only [decide_eq_true_eq]
    omega
  · rw [hzero n (Nat.le_refl n)]
    obtain ⟨r, hr, hn⟩ := hat
    exact List.countP_pos_iff.2 ⟨r, hr, by simp [hn]⟩

theorem behind_nil {refs : List FoundBlobRef} (h : refs ≠ []) : Behind [] refs := by
  -- the least depth of a reference
  obtain ⟨r, hr⟩ := List.exists_mem_of_ne_nil refs h
  have hex : ∃ n, ∃ r ∈ refs, r.path.length = n := ⟨_, r, hr, rfl⟩
  classical
  refine behind_of_deeper (n := Nat.find hex) (fun r hr => by cases hr)
    (fun r hr => ?_) (Nat.find_spec hex)
  exact Nat.find_min' hex ⟨r, hr, rfl⟩

/-- The references are found if `whole` holds, and are missed otherwise. -/
structure Sees (whole : Prop) (found refs : List FoundBlobRef) : Prop where
  all : whole → found = refs
  misses : ¬ whole → Behind found refs

theorem Sees.congr {p q : Prop} {found refs : List FoundBlobRef} (h : Sees p found refs)
    (hpq : p ↔ q) : Sees q found refs :=
  ⟨fun hq => h.all (hpq.2 hq), fun hq => h.misses (mt hpq.1 hq)⟩

/-- Of several values, each in its turn. -/
theorem Sees.flatMap {α : Type} {p : α → Prop} {found refs : α → List FoundBlobRef} {as : List α}
    (h : ∀ a ∈ as, Sees (p a) (found a) (refs a)) :
    Sees (∀ a ∈ as, p a) (as.flatMap found) (as.flatMap refs) := by
  induction as with
  | nil => exact ⟨fun _ => rfl, fun hnot => absurd (by simp) hnot⟩
  | cons a as ih =>
    obtain ⟨ha, has⟩ := List.forall_mem_cons.1 h
    have hrest := ih has
    simp only [List.flatMap_cons, List.forall_mem_cons]
    by_cases hp : p a <;> by_cases hps : ∀ b ∈ as, p b
    · exact ⟨fun _ => by rw [ha.all hp, hrest.all hps], fun hnot => absurd ⟨hp, hps⟩ hnot⟩
    · refine ⟨fun hall => absurd hall.2 hps, fun _ => ?_⟩
      rw [ha.all hp]
      exact (hrest.misses hps).append_left _
    · refine ⟨fun hall => absurd hall.1 hp, fun _ => ?_⟩
      rw [hrest.all hps]
      exact (ha.misses hp).append_right _
    · exact ⟨fun hall => absurd hall.1 hp, fun _ => (ha.misses hp).append (hrest.misses hps)⟩

/-! ## Finding them -/

section

variable {L : RecordLib} {F : JsonForms} {path : List String}

theorem under_nil (found : FoundBlobRef) : FoundBlobRef.under [] found = found := rfl

theorem map_under_under (path : List String) (key : String) (refs : List FoundBlobRef) :
    (refs.map (FoundBlobRef.under [key])).map (FoundBlobRef.under path) =
      refs.map (FoundBlobRef.under (path ++ [key])) := by
  rw [List.map_map]
  refine List.map_congr_left fun r _ => ?_
  simp [FoundBlobRef.under]

/-- What is found lies under the path. -/
theorem length_le_of_mem_findBlobRefs {layers : Nat} {val : Lex} {r : FoundBlobRef}
    (h : r ∈ findBlobRefs L layers val path) : path.length ≤ r.path.length := by
  induction layers generalizing val path with
  | zero => cases h
  | succ layers ih =>
    have hkey : ∀ {val : Lex} {key : String}, r ∈ findBlobRefs L layers val (path ++ [key]) →
        path.length ≤ r.path.length := by
      intro val key hr
      have := ih hr
      rw [List.length_append] at this
      omega
    have hself : ∀ {ref : JsonBlobRef}, r ∈ [FoundBlobRef.mk ref path] →
        path.length ≤ r.path.length := by
      intro ref hr
      rw [List.mem_singleton.1 hr]
    unfold findBlobRefs at h
    split at h
    · obtain ⟨_, -, hr⟩ := List.mem_flatMap.1 h
      exact ih hr
    · exact hself h
    · obtain ⟨_, -, hr⟩ := List.mem_flatMap.1 h
      split at hr
      · exact ih hr
      · cases hr
    · split at h
      · exact hself h
      · split at h
        · obtain ⟨_, -, hr⟩ := List.mem_flatMap.1 h
          exact hkey hr
        · cases h
    · split at h
      · exact hself h
      · obtain ⟨_, -, hr⟩ := List.mem_flatMap.1 h
        exact hkey hr
    · obtain ⟨_, -, hr⟩ := List.mem_flatMap.1 h
      exact ih hr
    · cases h
    · obtain ⟨_, -, hr⟩ := List.mem_flatMap.1 h
      exact hkey hr

theorem docRefs_array (list : List JsonValue) :
    docRefs L (.array list) = list.flatMap (docRefs L) := by
  rw [docRefs, docRefsList_eq]

theorem docRefs_of_isBlob {map : List (String × JsonValue)} {ref : JsonBlobRef}
    (h : L.blobOfJson (.object map) = .ok ref) : docRefs L (.object map) = [⟨ref, []⟩] := by
  rw [docRefs, h]

theorem docRefs_of_not_isBlob {map : List (String × JsonValue)} (h : ¬ IsBlob L (.object map)) :
    docRefs L (.object map) =
      map.flatMap fun e => (docRefs L e.2).map (FoundBlobRef.under [e.1]) := by
  rw [docRefs]
  cases hblob : L.blobOfJson (.object map) with
  | ok ref => exact absurd ⟨ref, hblob⟩ h
  | error e => exact docRefsEntries_eq L map

/-- The references of an object's values, under the path. -/
theorem map_docRefs_object {es : List (String × Lex)}
    (h : ¬ IsBlob L (.object (es.map fun e => (e.1, e.2.doc F)))) :
    (docRefs L (.object (es.map fun e => (e.1, e.2.doc F)))).map (FoundBlobRef.under path) =
      es.flatMap fun e => (docRefs L (e.2.doc F)).map (FoundBlobRef.under (path ++ [e.1])) := by
  rw [docRefs_of_not_isBlob h, List.flatMap_map, List.map_flatMap]
  simp only [map_under_under]

theorem map_docRefs_array {vs : List Lex} :
    (docRefs L (.array (vs.map (Lex.doc F)))).map (FoundBlobRef.under path) =
      vs.flatMap fun v => (docRefs L (v.doc F)).map (FoundBlobRef.under path) := by
  rw [docRefs_array, List.flatMap_map, List.map_flatMap]

/-- A plain map is gone into. -/
theorem nestedAtMost_values {n : Nat} {es : List (String × JsonValue)}
    (h : NestedAtMost L n (.object es)) (hplain : ¬ IsBlob L (.object es)) :
    ∃ m, n = m + 1 ∧ ∀ e ∈ es, NestedAtMost L m e.2 := by
  cases n with
  | zero => exact absurd h hplain
  | succ m => exact ⟨m, rfl, h.resolve_left hplain⟩

theorem nestedAtMost_items {n : Nat} {vs : List JsonValue} (h : NestedAtMost L n (.array vs)) :
    ∃ m, n = m + 1 ∧ ∀ v ∈ vs, NestedAtMost L m v := by
  cases n with
  | zero => exact h.elim
  | succ m => exact ⟨m, rfl, h⟩

/-- A record that is read from an object that is no blob is none itself. -/
theorem not_isBlob_record (laws : SerdeLaws L F) {json : JsonValue} {record : RepoRecord}
    (hread : L.recordOfJson json = .ok record) (hblob : ¬ IsBlob L json)
    (hobject : ∃ map, json = .object map) : ¬ IsBlob L (Lex.doc F (.map record)) := by
  rintro ⟨ref, href⟩
  obtain ⟨map, rfl⟩ := hobject
  have hrefs := (laws.record _ _ hread).1
  rw [Lex.doc] at href hrefs
  rw [docRefs_of_isBlob href, docRefs_of_not_isBlob hblob] at hrefs
  have hmem := hrefs ▸ List.mem_singleton_self (FoundBlobRef.mk ref [])
  obtain ⟨e, -, hmem⟩ := List.mem_flatMap.1 hmem
  obtain ⟨r, -, hr⟩ := List.mem_map.1 hmem
  have := congrArg FoundBlobRef.path hr
  simp [FoundBlobRef.under] at this

theorem realRefs_blob {ref : JsonBlobRef} : RealRefs L (.blob ref) ↔ ref.IsReal L := by
  constructor
  · intro h
    cases h with
    | blob real => exact real
  · exact .blob

theorem realRefs_list {list : List Lex} : RealRefs L (.list list) ↔ ∀ v ∈ list, RealRefs L v := by
  constructor
  · intro h
    cases h with
    | list items => exact items
  · exact .list

theorem realRefs_map {map : RepoRecord} : RealRefs L (.map map) ↔ ∀ e ∈ map, RealRefs L e.2 := by
  constructor
  · intro h
    cases h with
    | map values => exact values
  · exact .map

/-- An `Ipld` value holds none. -/
theorem realRefs_ipld {vs : List Ipld} {v : Lex} (h : v ∈ vs.map Lex.ipld) : RealRefs L v := by
  obtain ⟨v, -, rfl⟩ := List.mem_map.1 h
  exact .ipld v

theorem realRefs_ipldEntry {es : List (String × Ipld)} {e : String × Lex}
    (h : e ∈ es.map fun e => (e.1, Lex.ipld e.2)) : RealRefs L e.2 := by
  obtain ⟨e, -, rfl⟩ := List.mem_map.1 h
  exact .ipld e.2

/-- The values of a map, each in its turn. -/
theorem sees_values {n : Nat} {record : RepoRecord}
    (ih : ∀ m < n, ∀ (val : Lex) (path : List String), RealRefs L val → NestedAtMost L m (val.doc F) →
      Sees (ReadsWhole L F val) (findBlobRefs L (m + 1) val path)
        ((docRefs L (val.doc F)).map (FoundBlobRef.under path)))
    (hplain : ¬ IsBlob L (Lex.doc F (.map record))) (hreal : ∀ e ∈ record, RealRefs L e.2)
    (hnested : NestedAtMost L n (Lex.doc F (.map record))) (path : List String) :
    Sees (∀ e ∈ record, ReadsWhole L F e.2)
      (record.flatMap fun e => findBlobRefs L n e.2 (path ++ [e.1]))
      ((docRefs L (Lex.doc F (.map record))).map (FoundBlobRef.under path)) := by
  rw [Lex.doc, Lex.docEntries_eq] at hplain hnested ⊢
  rw [map_docRefs_object hplain]
  obtain ⟨m, rfl, hvalues⟩ := nestedAtMost_values hnested hplain
  exact Sees.flatMap fun e he =>
    ih m (Nat.lt_succ_self m) e.2 _ (hreal e he) (hvalues _ (List.mem_map_of_mem he))

theorem sees_items {n : Nat} {list : List Lex}
    (ih : ∀ m < n, ∀ (val : Lex) (path : List String), RealRefs L val → NestedAtMost L m (val.doc F) →
      Sees (ReadsWhole L F val) (findBlobRefs L (m + 1) val path)
        ((docRefs L (val.doc F)).map (FoundBlobRef.under path)))
    (hreal : ∀ v ∈ list, RealRefs L v) (hnested : NestedAtMost L n (Lex.doc F (.list list)))
    (path : List String) :
    Sees (∀ v ∈ list, ReadsWhole L F v) (list.flatMap fun v => findBlobRefs L n v path)
      ((docRefs L (Lex.doc F (.list list))).map (FoundBlobRef.under path)) := by
  rw [Lex.doc, Lex.docList_eq] at hnested ⊢
  rw [map_docRefs_array]
  obtain ⟨m, rfl, hitems⟩ := nestedAtMost_items hnested
  exact Sees.flatMap fun v hv =>
    ih m (Nat.lt_succ_self m) v _ (hreal v hv) (hitems _ (List.mem_map_of_mem hv))

/-- An `Ipld` map is a map of `Ipld` values. -/
theorem doc_ipldMap (es : List (String × Ipld)) :
    Ipld.doc F (.map es) = Lex.doc F (.map (es.map fun e => (e.1, .ipld e.2))) := by
  rw [Ipld.doc, Lex.doc, Ipld.docEntries_eq, Lex.docEntries_eq, List.map_map]
  congr 1

theorem doc_ipldList (vs : List Ipld) :
    Ipld.doc F (.list vs) = Lex.doc F (.list (vs.map .ipld)) := by
  rw [Ipld.doc, Lex.doc, Ipld.docList_eq, Lex.docList_eq, List.map_map]
  congr 1

/-- A map that is taken for a plain one, and is a blob, is missed. -/
theorem behind_map {n : Nat} {record : RepoRecord} {ref : JsonBlobRef}
    (href : L.blobOfJson (Lex.doc F (.map record)) = .ok ref) (path : List String) :
    Behind (record.flatMap fun e => findBlobRefs L n e.2 (path ++ [e.1]))
      ((docRefs L (Lex.doc F (.map record))).map (FoundBlobRef.under path)) := by
  rw [Lex.doc] at href ⊢
  rw [docRefs_of_isBlob href]
  refine behind_of_deeper (n := path.length) (fun r hr => ?_) (fun r hr => ?_)
    ⟨_, List.mem_singleton_self _, by simp [FoundBlobRef.under]⟩
  · obtain ⟨e, -, hr⟩ := List.mem_flatMap.1 hr
    have := length_le_of_mem_findBlobRefs hr
    rw [List.length_append] at this
    exact this
  · rw [List.mem_singleton.1 hr]
    simp [FoundBlobRef.under]

/-- An item of a JSON array is searched as a record, or not at all. -/
theorem sees_jsonItem (laws : SerdeLaws L F) {m : Nat} {json : JsonValue}
    (ih : ∀ (val : Lex) (path : List String), RealRefs L val → NestedAtMost L m (val.doc F) →
      Sees (ReadsWhole L F val) (findBlobRefs L (m + 1) val path)
        ((docRefs L (val.doc F)).map (FoundBlobRef.under path)))
    (hnested : NestedAtMost L m json) (path : List String) :
    Sees
      ((∀ record, L.recordOfJson json = .ok record → ReadsWhole L F (.map record)) ∧
        ∀ e, L.recordOfJson json = .error e → docRefs L json = [])
      (match L.recordOfJson json with
        | .ok item => findBlobRefs L (m + 1) (.map item) path
        | .error _ => [])
      ((docRefs L json).map (FoundBlobRef.under path)) := by
  cases hread : L.recordOfJson json with
  | ok record =>
    obtain ⟨hrefs, hlevels, hreal⟩ := laws.record json record hread
    have hrecord := ih (.map record) path hreal (hlevels m hnested)
    rw [hrefs] at hrecord
    refine hrecord.congr ⟨fun h => ⟨fun r hr => ?_, fun e he => by cases he⟩, fun h => h.1 record rfl⟩
    cases hr
    exact h
  | error e =>
    refine ⟨fun h => ?_, fun h => behind_nil fun hnil => h ⟨fun r hr => (by cases hr), fun _ _ => ?_⟩⟩
    · rw [h.2 e rfl]
      rfl
    · exact List.map_eq_nil_iff.1 hnil

/-- The arm of a JSON array. -/
theorem sees_jsonArray (laws : SerdeLaws L F) {n : Nat} {list : List JsonValue}
    (ih : ∀ m < n, ∀ (val : Lex) (path : List String), RealRefs L val → NestedAtMost L m (val.doc F) →
      Sees (ReadsWhole L F val) (findBlobRefs L (m + 1) val path)
        ((docRefs L (val.doc F)).map (FoundBlobRef.under path)))
    (hnested : NestedAtMost L n (.array list)) (path : List String) :
    Sees (ReadsWhole L F (.ipld (.json (.array list))))
      (findBlobRefs L (n + 1) (.ipld (.json (.array list))) path)
      ((docRefs L (.array list)).map (FoundBlobRef.under path)) := by
  obtain ⟨m, rfl, hitems⟩ := nestedAtMost_items hnested
  rw [docRefs_array, List.map_flatMap]
  have hitem := fun json hj => sees_jsonItem laws (ih m (Nat.lt_succ_self m)) (hitems json hj) path
  refine (Sees.flatMap hitem).congr ⟨fun h => ?_, fun h json hj => ?_⟩
  · exact .jsonArray (fun json hj => (h json hj).1) fun json hj => (h json hj).2
  · cases h with
    | jsonArray records others => exact ⟨records json hj, others json hj⟩
    | jsonBlob noArray => exact absurd rfl (noArray list)
    | jsonObject noArray => exact absurd rfl (noArray list)

theorem findBlobRefs_json {n : Nat} {json : JsonValue} (noArray : ∀ list, json ≠ .array list)
    {path : List String} : findBlobRefs L (n + 1) (.ipld (.json json)) path =
      match L.blobOfJson json with
      | .ok ref => [⟨ref, path⟩]
      | .error _ =>
        match L.recordOfJson json with
        | .ok record => record.flatMap fun e => findBlobRefs L n e.2 (path ++ [e.1])
        | .error _ => [] := by
  cases json with
  | array list => exact absurd rfl (noArray list)
  | _ => rfl

/-- The arm of any other JSON value. -/
theorem sees_json (laws : SerdeLaws L F) {n : Nat} {json : JsonValue}
    (noArray : ∀ list, json ≠ .array list)
    (ih : ∀ m < n, ∀ (val : Lex) (path : List String), RealRefs L val → NestedAtMost L m (val.doc F) →
      Sees (ReadsWhole L F val) (findBlobRefs L (m + 1) val path)
        ((docRefs L (val.doc F)).map (FoundBlobRef.under path)))
    (hnested : NestedAtMost L n json) (path : List String) :
    Sees (ReadsWhole L F (.ipld (.json json))) (findBlobRefs L (n + 1) (.ipld (.json json)) path)
      ((docRefs L json).map (FoundBlobRef.under path)) := by
  rw [findBlobRefs_json noArray]
  have hobject : ∀ {α : Type} {read : JsonValue → Except String α} {a : α},
      ((∀ map, json ≠ .object map) → ∃ e, read json = .error e) → read json = .ok a →
        ∃ map, json = .object map := by
    intro α read a hscalar hread
    by_contra hno
    obtain ⟨e, he⟩ := hscalar fun map hmap => hno ⟨map, hmap⟩
    rw [he] at hread
    cases hread
  cases hblob : L.blobOfJson json with
  | ok ref =>
    obtain ⟨map, rfl⟩ := hobject (fun hno => (laws.scalar json noArray hno).1) hblob
    refine ⟨fun _ => ?_, fun h => absurd (.jsonBlob noArray ⟨ref, hblob⟩) h⟩
    rw [docRefs_of_isBlob hblob]
    simp [FoundBlobRef.under]
  | error e =>
    have hplain : ¬ IsBlob L json := by
      rintro ⟨ref, href⟩
      rw [hblob] at href
      cases href
    cases hread : L.recordOfJson json with
    | ok record =>
      obtain ⟨hrefs, hlevels, hreal⟩ := laws.record json record hread
      have hobj := hobject (fun hno => (laws.scalar json noArray hno).2) hread
      have hvalues := sees_values ih (not_isBlob_record laws hread hplain hobj) (realRefs_map.1 hreal)
        (hlevels n hnested) path
      rw [hrefs] at hvalues
      refine hvalues.congr ⟨fun h => .jsonObject noArray (fun r hr => ?_) fun _ he => ?_, fun h => ?_⟩
      · rw [hread] at hr
        cases hr
        exact h
      · rw [hread] at he
        cases he
      · cases h with
        | jsonArray => exact absurd rfl (noArray _)
        | jsonBlob _ blob => exact absurd blob hplain
        | jsonObject _ values => exact values record hread
    | error e' =>
      refine ⟨fun h => ?_, fun h => behind_nil fun hnil => h ?_⟩
      · cases h with
        | jsonArray => exact absurd rfl (noArray _)
        | jsonBlob _ blob => exact absurd blob hplain
        | jsonObject _ _ other =>
          rw [other e' hread]
          rfl
      · refine .jsonObject noArray (fun r hr => ?_) fun _ _ => List.map_eq_nil_iff.1 hnil
        rw [hread] at hr
        cases hr

theorem findBlobRefs_ipldMap (laws : SerdeLaws L F) {n : Nat} {es : List (String × Ipld)}
    {path : List String} : findBlobRefs L (n + 1) (.ipld (.map es)) path =
      match (L.blobOfJson (Ipld.doc F (.map es))).toOption with
      | some blob => [⟨blob, path⟩]
      | none => es.flatMap fun e => findBlobRefs L n (.ipld e.2) (path ++ [e.1]) := by
  rw [findBlobRefs, laws.map]
  rfl

/-- Every arm of `find_blob_refs`, for the levels that it goes into. -/
theorem sees_findBlobRefs (laws : SerdeLaws L F) (n : Nat) (val : Lex) (path : List String)
    (hreal : RealRefs L val) (h : NestedAtMost L n (val.doc F)) :
    Sees (ReadsWhole L F val) (findBlobRefs L (n + 1) val path)
      ((docRefs L (val.doc F)).map (FoundBlobRef.under path)) := by
  induction n using Nat.strong_induction_on generalizing val path with
  | _ n ih =>
    cases val with
    | blob ref =>
      obtain ⟨⟨map, hmap⟩, href⟩ := laws.blob ref (realRefs_blob.1 hreal)
      refine ⟨fun _ => ?_, fun hnot => absurd (.blob ref) hnot⟩
      rw [hmap] at href
      rw [Lex.doc, hmap, docRefs_of_isBlob href]
      simp [findBlobRefs, FoundBlobRef.under]
    | list vs =>
      refine (sees_items ih (realRefs_list.1 hreal) h path).congr ⟨.list, fun hwhole => ?_⟩
      cases hwhole with
      | list items => exact items
    | map record =>
      by_cases hblob : IsBlob L (Lex.doc F (.map record))
      · obtain ⟨ref, href⟩ := hblob
        refine ⟨fun hwhole => ?_, fun _ => behind_map href path⟩
        cases hwhole with
        | map plain => exact absurd ⟨ref, href⟩ plain
      · refine (sees_values ih hblob (realRefs_map.1 hreal) h path).congr
          ⟨.map hblob, fun hwhole => ?_⟩
        cases hwhole with
        | map _ values => exact values
    | ipld v =>
      cases v with
      | link cid =>
        refine ⟨fun _ => ?_, fun hnot => absurd (.link cid) hnot⟩
        rw [Lex.doc, Ipld.doc, laws.link]
        rfl
      | bytes b =>
        refine ⟨fun _ => ?_, fun hnot => absurd (.bytes b) hnot⟩
        rw [Lex.doc, Ipld.doc, laws.bytes]
        rfl
      | string s =>
        refine ⟨fun _ => ?_, fun hnot => absurd (.string s) hnot⟩
        rw [Lex.doc, Ipld.doc, docRefs]
        · rfl
        all_goals
          intro _ hjson
          cases hjson
      | list vs =>
        rw [Lex.doc, doc_ipldList] at h ⊢
        have hitems := sees_items ih (fun v hv => realRefs_ipld hv) h path
        rw [List.flatMap_map, List.forall_mem_map] at hitems
        refine hitems.congr ⟨.ipldList, fun hwhole => ?_⟩
        cases hwhole with
        | ipldList items => exact items
      | map es =>
        rw [findBlobRefs_ipldMap laws]
        cases hblob : L.blobOfJson (Ipld.doc F (.map es)) with
        | ok ref =>
          refine ⟨fun _ => ?_, fun hnot => absurd (.ipldBlob ⟨ref, hblob⟩) hnot⟩
          rw [Ipld.doc] at hblob
          rw [Lex.doc, Ipld.doc, docRefs_of_isBlob hblob]
          simp [Except.toOption, FoundBlobRef.under]
        | error e =>
          have hplain : ¬ IsBlob L (Ipld.doc F (.map es)) := by
            rintro ⟨ref, href⟩
            rw [hblob] at href
            cases href
          rw [Lex.doc, doc_ipldMap] at h
          rw [Lex.doc]
          rw [doc_ipldMap] at hplain ⊢
          have hvalues := sees_values ih hplain (fun e he => realRefs_ipldEntry he) h path
          rw [List.flatMap_map, List.forall_mem_map] at hvalues
          refine hvalues.congr ⟨.ipldMap, fun hwhole => ?_⟩
          cases hwhole with
          | ipldBlob blob =>
            rw [doc_ipldMap] at blob
            exact absurd blob hplain
          | ipldMap values => exact values
      | json json =>
        rw [Lex.doc, Ipld.doc] at h ⊢
        by_cases harray : ∃ list, json = .array list
        · obtain ⟨list, rfl⟩ := harray
          exact sees_jsonArray laws ih h path
        · exact sees_json laws (fun list hl => harray ⟨list, hl⟩) ih h path

end

/-- Every reference of the document is found, once, with the keys that lead to it; so values with one
document have the same references. -/
def FindsEach (L : RecordLib) (F : JsonForms) (val : Lex) : Prop :=
  (findBlobRefs L maxLayers val []).Perm (docRefs L (val.doc F))

/-- **A value nested at most 32 levels has each of its document's references found if and only if no
blob is where none is looked for.** -/
theorem findsEach_iff {L : RecordLib} {F : JsonForms} (laws : SerdeLaws L F) (val : Lex)
    (hreal : RealRefs L val) (h : NestedAtMost L 32 (val.doc F)) :
    FindsEach L F val ↔ ReadsWhole L F val := by
  have hsees := sees_findBlobRefs laws 32 val [] hreal h
  rw [List.map_congr_left (g := id) fun r _ => under_nil r, List.map_id] at hsees
  constructor
  · intro hperm
    by_contra hnot
    obtain ⟨n, -, hn⟩ := hsees.misses hnot
    exact Nat.ne_of_lt hn (hperm.countP_eq _)
  · intro hwhole
    rw [FindsEach, ← hsees.all hwhole]
    exact List.Perm.refl _

/-! ## The forms on the wire -/

def readNat (digits : List Char) : Option Nat :=
  if digits ≠ [] ∧ digits.all Char.isDigit then some (Nat.ofDigitChars 10 digits 0) else none

/-- A number that is an `i64`. -/
def readInt64 (text : String) : Option Int64 :=
  let value := match text.toList with
    | '-' :: digits => (readNat digits).map fun n => -(n : Int)
    | digits => (readNat digits).map Int.ofNat
  value.bind fun i =>
    if Int64.minValue.toInt ≤ i ∧ i ≤ Int64.maxValue.toInt then some (Int64.ofInt i) else none

theorem readNat_toDigits (n : Nat) : readNat (Nat.toDigits 10 n) = some n := by
  have hne : Nat.toDigits 10 n ≠ [] := List.ne_nil_of_length_pos Nat.length_toDigits_pos
  have hall : (Nat.toDigits 10 n).all Char.isDigit = true :=
    List.all_eq_true.2 fun c hc => Nat.isDigit_of_mem_toDigits (by omega) (by omega) hc
  rw [readNat, if_pos ⟨hne, hall⟩, Nat.ofDigitChars_toDigits (by omega) (by omega)]

/-- What is written of a number is read back. -/
theorem readInt64_repr (size : Int64) : readInt64 size.toInt.repr = some size := by
  have hrange : Int64.minValue.toInt ≤ size.toInt ∧ size.toInt ≤ Int64.maxValue.toInt :=
    ⟨Int64.minValue_le_toInt size, Int64.toInt_le size⟩
  have hvalue : (match size.toInt.repr.toList with
      | '-' :: digits => (readNat digits).map fun n => -(n : Int)
      | digits => (readNat digits).map Int.ofNat) = some size.toInt := by
    cases hsize : size.toInt with
    | ofNat n =>
      -- the first character is a digit, and no minus
      rw [Int.repr, Nat.repr, String.toList_ofList]
      split
      · next digits hdigits =>
        have hminus : ('-' : Char).isDigit = true :=
          Nat.isDigit_of_mem_toDigits (b := 10) (n := n) (by omega) (by omega)
            (hdigits ▸ List.mem_cons_self)
        exact absurd hminus (by decide)
      · rw [readNat_toDigits, Option.map_some]
    | negSucc n =>
      rw [Int.repr, Nat.repr, String.toList_append, String.toList_ofList]
      simp [readNat_toDigits, Int.negSucc_eq]
  rw [readInt64, hvalue, Option.bind_some, if_pos hrange, Int64.ofInt_toInt]

/-- The text of a link. -/
def linkText : JsonValue → Option String
  | .object [(key, .string text)] => if key = "$link" then some text else none
  | _ => none

/-- Links, and references of both kinds. -/
def wireForms : JsonForms where
  link cid := .object [("$link", .string cid.text)]
  bytes b := .object [("$bytes", .string (String.ofList (b.map fun byte => Char.ofNat byte.toNat)))]
  blob
    | .typed ref mimeType size => .object
      [("$type", .string "blob"), ("mimeType", .string mimeType),
        ("ref", .object [("$link", .string ref.text)]), ("size", .number size.toInt.repr)]
    | .untyped cid mimeType => .object [("cid", .string cid), ("mimeType", .string mimeType)]

/-- A character of base 32, below the `n`-th. -/
def isBase32 (n : Nat) (c : Char) : Bool := c ∈ "abcdefghijklmnopqrstuvwxyz234567".toList.take n

/-- A CID of version 1, in base 32, of a SHA-256 hash of raw bytes or of DAG-CBOR. -/
def isCidText (text : List Char) : Bool :=
  (text.take 7 = "bafkrei".toList ∨ text.take 7 = "bafyrei".toList) ∧ text.length = 59 ∧
    (text.drop 7).all (isBase32 32) ∧ (text.drop 7).head?.all (isBase32 8) ∧
    -- the last character has two bits of padding
    text.getLast?.all (· ∈ "aeimquy4".toList)

def readCid (text : String) : Except String Cid :=
  if isCidText text.toList then .ok ⟨text⟩ else .error "invalid CID"

def wireTyped (map : List (String × JsonValue)) : Option JsonBlobRef := do
  let .string _ ← map.lookup "$type" | none
  let ref ← (map.lookup "ref").bind linkText
  let cid ← (readCid ref).toOption
  let .string mimeType ← map.lookup "mimeType" | none
  let .number size ← map.lookup "size" | none
  return .typed cid mimeType (← readInt64 size)

def wireUntyped (map : List (String × JsonValue)) : Option JsonBlobRef := do
  let .string cid ← map.lookup "cid" | none
  let .string mimeType ← map.lookup "mimeType" | none
  return .untyped cid mimeType

def wireBlob : JsonValue → Except String JsonBlobRef
  | .object map => ((wireTyped map).or (wireUntyped map)).elim
    (.error "data did not match any variant of untagged enum JsonBlobRef") .ok
  | _ => .error "data did not match any variant of untagged enum JsonBlobRef"

def wireRecords : RecordLib :=
  { textRecords with
    blobOfJson := wireBlob
    jsonOfMap := fun map => .ok (Ipld.doc wireForms (.map map))
    parseCid := readCid }

/-- A record is read with the document it is read from. -/
theorem doc_wireRecord {map : List (String × JsonValue)} {record : RepoRecord}
    (h : wireRecords.recordOfJson (.object map) = .ok record) :
    Lex.doc wireForms (.map record) = .object map := by
  obtain rfl := Except.ok.inj h
  rw [Lex.doc, Lex.docEntries_eq, List.map_map]
  congr 1
  conv_rhs => rw [← List.map_id map]
  refine List.map_congr_left fun e _ => ?_
  obtain ⟨key, json⟩ := e
  cases json <;> rfl

/-- No value of it is read as a reference. -/
theorem realRefs_wireRecord {map : List (String × JsonValue)} {record : RepoRecord}
    (h : wireRecords.recordOfJson (.object map) = .ok record) : RealRefs wireRecords (.map record) := by
  obtain rfl := Except.ok.inj h
  refine .map fun e he => ?_
  obtain ⟨⟨key, json⟩, -, rfl⟩ := List.mem_map.1 he
  cases json <;> exact .ipld _

theorem wireBlob_typed {ref : Cid} {mimeType : String} {size : Int64}
    (hreal : readCid ref.text = .ok ref) :
    wireBlob (wireForms.blob (.typed ref mimeType size)) = .ok (.typed ref mimeType size) := by
  have htyped : wireTyped [("$type", .string "blob"), ("mimeType", .string mimeType),
      ("ref", .object [("$link", .string ref.text)]), ("size", .number size.toInt.repr)] =
        some (.typed ref mimeType size) := by
    simp [wireTyped, linkText, hreal, readInt64_repr, Except.toOption, List.lookup]
  rw [wireForms, wireBlob, htyped]
  rfl

theorem wireBlob_untyped (cid mimeType : String) :
    wireBlob (wireForms.blob (.untyped cid mimeType)) = .ok (.untyped cid mimeType) := rfl

theorem serdeLaws_wire : SerdeLaws wireRecords wireForms where
  map _ := rfl
  blob ref hreal := by
    cases ref with
    | typed ref mimeType size => exact ⟨⟨_, rfl⟩, wireBlob_typed hreal⟩
    | untyped cid mimeType => exact ⟨⟨_, rfl⟩, wireBlob_untyped cid mimeType⟩
  link _ := rfl
  bytes _ := rfl
  scalar json harray hobject := by
    cases json with
    | array list => exact absurd rfl (harray list)
    | object map => exact absurd rfl (hobject map)
    | _ => exact ⟨⟨_, rfl⟩, ⟨_, rfl⟩⟩
  record json record hread := by
    cases json with
    | object map =>
      rw [doc_wireRecord hread]
      exact ⟨rfl, fun _ h => h, realRefs_wireRecord hread⟩
    | _ => cases hread

/-! ## On concrete values -/

def pngRef : JsonBlobRef :=
  .typed ⟨"bafkreihdwdcefgh4dqkjv67uzcmw7ojee6xedzdetojuzjevtenxquvyku"⟩ "image/png" 512

theorem isReal_pngRef : pngRef.IsReal wireRecords := rfl

theorem isBlob_pngRef : IsBlob wireRecords (wireForms.blob pngRef) :=
  ⟨pngRef, (serdeLaws_wire.blob pngRef isReal_pngRef).2⟩

/-- A record with an image. -/
def imagePost : RepoRecord :=
  [("$type", .ipld (.string "app.bsky.feed.post")), ("image", .ipld (.json (wireForms.blob pngRef)))]

theorem realRefs_imagePost : RealRefs wireRecords (.map imagePost) := by
  refine .map fun e he => ?_
  simp only [imagePost, List.mem_cons, List.not_mem_nil, or_false] at he
  rcases he with rfl | rfl <;> exact .ipld _

theorem findsEach_image : FindsEach wireRecords wireForms (.map imagePost) := by
  have hnested : NestedAtMost wireRecords 32 (Lex.doc wireForms (.map imagePost)) := by
    refine Or.inr fun e he => ?_
    simp only [imagePost, Lex.docEntries, List.mem_cons, List.not_mem_nil, or_false] at he
    rcases he with rfl | rfl
    · trivial
    · exact Or.inl isBlob_pngRef
  refine (findsEach_iff serdeLaws_wire _ realRefs_imagePost hnested).2 (.map ?_ fun e he => ?_)
  · rintro ⟨ref, href⟩
    cases href
  · simp only [imagePost, List.mem_cons, List.not_mem_nil, or_false] at he
    rcases he with rfl | rfl
    · exact .string _
    · exact .jsonBlob (fun list hl => by cases hl) isBlob_pngRef

/-- One document, a list with a blob, in two representations: the reference is found in one of them. -/
theorem blob_in_json_array_missed :
    ¬ (∀ L F, SerdeLaws L F → ∀ val, RealRefs L val → NestedAtMost L 32 (val.doc F) →
        FindsEach L F val) ∧
      (findBlobRefs wireRecords maxLayers (.list [.blob pngRef]) []).length = 1 ∧
      (findBlobRefs wireRecords maxLayers (.ipld (.json (.array [wireForms.blob pngRef]))) []).length =
        0 := by
  have hmissed : (findBlobRefs wireRecords maxLayers
      (.ipld (.json (.array [wireForms.blob pngRef]))) []).length = 0 := rfl
  refine ⟨fun h => ?_, rfl, hmissed⟩
  have hnested : NestedAtMost wireRecords 32 (.array [wireForms.blob pngRef]) := by
    intro json hj
    obtain rfl := List.mem_singleton.1 hj
    exact Or.inl isBlob_pngRef
  have hfinds := h wireRecords wireForms serdeLaws_wire
    (.ipld (.json (.array [wireForms.blob pngRef]))) (.ipld _) hnested
  have hone : (docRefs wireRecords (.array [wireForms.blob pngRef])).length = 1 := rfl
  have hlength := hfinds.length_eq
  rw [hmissed] at hlength
  exact absurd (hlength.trans hone) (by decide)

end CacosPds.Server
