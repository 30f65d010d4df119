import CacosPds.Server.Prepare
import Mathlib.Data.List.Dedup
/-!
# Backlinks (`cacos-pds-actor-store/src/record/mod.rs:17-114, 266-307`)

| here | there |
| --- | --- |
| `extractLinks` | `extract_links_from_repo_record` (`:24`) |
| `walkLex`, `walkIpld` | `walk_lex`, `walk_ipld` with `walk_map_lex`, `walk_map_ipld` (`:48-114`) |
| `getBacklinkConflicts` | `RecordReader::get_backlink_conflicts` (`:266`) |

The statement asks for the targets and for the paths apart: a row with the target of one link and the
path of another is selected, and so are the rows of the record itself.
-/
namespace CacosPds.ActorStore.Backlinks

open Server (Lex Ipld RepoRecord)

/-- A pair `(link_to, path)`. -/
structure Link where
  target : String
  path : String
  deriving DecidableEq

/-- A row of `backlink`. -/
structure Backlink where
  uri : String
  path : String
  linkTo : String
  deriving DecidableEq

def isLink (s : String) : Bool :=
  "at://".toList.isPrefixOf s.toList || "did:".toList.isPrefixOf s.toList

def makePath (slot : String) : Option String → String
  | some c => c ++ "/" ++ slot
  | none => slot

/-- The `uri` of a strong reference. -/
def uriOfIpld (m : List (String × Ipld)) : Option String :=
  match m.lookup "uri" with
  | some (.string s) => if isLink s then some s else none
  | _ => none

def uriOfLex (m : List (String × Lex)) : Option String :=
  match m.lookup "uri" with
  | some (.ipld (.string s)) => if isLink s then some s else none
  | _ => none

section

variable (collection : Option String)

mutual

def walkIpld (slot : String) : Ipld → List Link
  | .map m =>
    match uriOfIpld m with
    | some s => [⟨s, makePath slot collection⟩]
    | none => walkIpldEntries m
  | .list arr => walkIpldList slot arr
  | .string s => if isLink s then [⟨s, makePath slot collection⟩] else []
  | .link _ => []
  | .bytes _ => []
  | .json _ => []

def walkIpldList (slot : String) : List Ipld → List Link
  | [] => []
  | v :: arr => walkIpld slot v ++ walkIpldList slot arr

def walkIpldEntries : List (String × Ipld) → List Link
  | [] => []
  | (k, v) :: m => walkIpld k v ++ walkIpldEntries m

end

mutual

def walkLex (slot : String) : Lex → List Link
  | .ipld ipld => walkIpld collection slot ipld
  | .map m =>
    match uriOfLex m with
    | some s => [⟨s, makePath slot collection⟩]
    | none => walkLexEntries m
  | .list arr => walkLexList slot arr
  | .blob _ => []

def walkLexList (slot : String) : List Lex → List Link
  | [] => []
  | v :: arr => walkLex slot v ++ walkLexList slot arr

def walkLexEntries : List (String × Lex) → List Link
  | [] => []
  | (k, v) :: m => walkLex k v ++ walkLexEntries m

end

end

/-- The `$type` of a record, where it is a string. -/
def collectionOf (record : RepoRecord) : Option String :=
  match record.get "$type" with
  | some (.ipld (.string s)) => some s
  | _ => none

def extractLinks (record : RepoRecord) : List Link :=
  (record.filter fun e => e.1 ≠ "$type").flatMap fun e => walkLex (collectionOf record) e.1 e.2

section

variable {Uri : Type}

/-- `SELECT DISTINCT uri FROM backlink WHERE "linkTo" IN (..) AND path IN (..)`. -/
def selectUris (links : List Link) (backlinks : List Backlink) : List String :=
  ((backlinks.filter fun row => row.linkTo ∈ links.map (·.target) ∧ row.path ∈ links.map (·.path)).map
    (·.uri)).dedup

/-- SQLite refuses a statement with too many parameters; `parse` is `AtUri::new`, whose failures are
passed over. -/
def getBacklinkConflicts (maxVariables : Nat) (parse : String → Option Uri)
    (backlinks : List Backlink) (_uri : Uri) (record : RepoRecord) : Except String (List Uri) :=
  let links := extractLinks record
  if links.isEmpty then .ok []
  else if maxVariables < links.length * 2 then .error "get_backlink_conflicts"
  else .ok ((selectUris links backlinks).filterMap parse)

end

/-! ## The conflicts of a record -/

section

variable {Uri : Type}

/-- A row of another record, equal to one of the links; `text` is `AtUri::to_string`. -/
def Conflicts (text : Uri → String) (uri : Uri) (record : RepoRecord) (row : Backlink) : Prop :=
  row.uri ≠ text uri ∧ ⟨row.linkTo, row.path⟩ ∈ extractLinks record

/-- Exactly the URIs of the conflicting rows are returned. -/
def ReturnsConflicts (maxVariables : Nat) (parse : String → Option Uri) (text : Uri → String)
    (backlinks : List Backlink) (uri : Uri) (record : RepoRecord) : Prop :=
  ∃ out, getBacklinkConflicts maxVariables parse backlinks uri record = .ok out ∧
    (∀ row ∈ backlinks, Conflicts text uri record row → ∃ u ∈ out, parse row.uri = some u) ∧
    ∀ u ∈ out, ∃ row ∈ backlinks, Conflicts text uri record row ∧ parse row.uri = some u

/-- The links fit into one statement, the URIs of the conflicting rows are read back, and a row with
the target of one link and the path of one, the same or another, is of a record that conflicts. -/
structure Apart (maxVariables : Nat) (parse : String → Option Uri) (text : Uri → String)
    (backlinks : List Backlink) (uri : Uri) (record : RepoRecord) : Prop where
  fits : extractLinks record = [] ∨ (extractLinks record).length * 2 ≤ maxVariables
  reads : ∀ row ∈ backlinks, Conflicts text uri record row → (parse row.uri).isSome
  crossed : ∀ row ∈ backlinks, ∀ l ∈ extractLinks record, ∀ l' ∈ extractLinks record,
    row.linkTo = l.target → row.path = l'.path → ∀ u, parse row.uri = some u →
      ∃ row' ∈ backlinks, Conflicts text uri record row' ∧ parse row'.uri = some u

theorem mem_selectUris {links : List Link} {backlinks : List Backlink} {s : String} :
    s ∈ selectUris links backlinks ↔ ∃ row ∈ backlinks, row.uri = s ∧
      (∃ l ∈ links, row.linkTo = l.target) ∧ ∃ l ∈ links, row.path = l.path := by
  simp only [selectUris, List.mem_dedup, List.mem_map, List.mem_filter, decide_eq_true_eq]
  constructor
  · rintro ⟨row, ⟨hrow, ⟨l, hl, htarget⟩, l', hl', hpath⟩, rfl⟩
    exact ⟨row, hrow, rfl, ⟨l, hl, htarget.symm⟩, l', hl', hpath.symm⟩
  · rintro ⟨row, hrow, rfl, ⟨l, hl, htarget⟩, l', hl', hpath⟩
    exact ⟨row, ⟨hrow, ⟨l, hl, htarget.symm⟩, l', hl', hpath.symm⟩, rfl⟩

variable {maxVariables : Nat} {parse : String → Option Uri} {text : Uri → String}
  {backlinks : List Backlink} {uri : Uri} {record : RepoRecord}

/-- What is returned where the statement is accepted. -/
theorem getBacklinkConflicts_ok {out : List Uri} :
    getBacklinkConflicts maxVariables parse backlinks uri record = .ok out ↔
      (extractLinks record = [] ∨ (extractLinks record).length * 2 ≤ maxVariables) ∧
        (selectUris (extractLinks record) backlinks).filterMap parse = out := by
  unfold getBacklinkConflicts
  simp only [List.isEmpty_iff]
  by_cases hnil : extractLinks record = []
  · simp [hnil, selectUris]
  · by_cases hfits : (extractLinks record).length * 2 ≤ maxVariables
    · simp [hnil, hfits, Nat.not_lt.2 hfits]
    · simp [hnil, hfits, Nat.lt_of_not_le hfits]

theorem mem_of_getBacklinkConflicts {out : List Uri}
    (h : getBacklinkConflicts maxVariables parse backlinks uri record = .ok out) {u : Uri} :
    u ∈ out ↔ ∃ row ∈ backlinks, parse row.uri = some u ∧
      (∃ l ∈ extractLinks record, row.linkTo = l.target) ∧
      ∃ l ∈ extractLinks record, row.path = l.path := by
  obtain ⟨-, rfl⟩ := getBacklinkConflicts_ok.1 h
  simp only [List.mem_filterMap, mem_selectUris]
  constructor
  · rintro ⟨_, ⟨row, hrow, rfl, hlinks⟩, hu⟩
    exact ⟨row, hrow, hu, hlinks⟩
  · rintro ⟨row, hrow, hu, hlinks⟩
    exact ⟨_, ⟨row, hrow, rfl, hlinks⟩, hu⟩

theorem returnsConflicts_iff_apart (maxVariables : Nat) (parse : String → Option Uri)
    (text : Uri → String) (backlinks : List Backlink) (uri : Uri) (record : RepoRecord) :
    ReturnsConflicts maxVariables parse text backlinks uri record ↔
      Apart maxVariables parse text backlinks uri record := by
  constructor
  · rintro ⟨out, hout, hcomplete, hsound⟩
    refine ⟨(getBacklinkConflicts_ok.1 hout).1, ?_, ?_⟩
    · intro row hrow hconflicts
      obtain ⟨u, -, hu⟩ := hcomplete row hrow hconflicts
      exact Option.isSome_iff_exists.2 ⟨u, hu⟩
    · intro row hrow l hl l' hl' htarget hpath u hu
      exact hsound u ((mem_of_getBacklinkConflicts hout).2
        ⟨row, hrow, hu, ⟨l, hl, htarget⟩, l', hl', hpath⟩)
  · rintro ⟨hfits, hreads, hcrossed⟩
    have hout : getBacklinkConflicts maxVariables parse backlinks uri record =
        .ok ((selectUris (extractLinks record) backlinks).filterMap parse) :=
      getBacklinkConflicts_ok.2 ⟨hfits, rfl⟩
    refine ⟨_, hout, ?_, ?_⟩
    · intro row hrow hconflicts
      obtain ⟨u, hu⟩ := Option.isSome_iff_exists.1 (hreads row hrow hconflicts)
      exact ⟨u, (mem_of_getBacklinkConflicts hout).2
        ⟨row, hrow, hu, ⟨_, hconflicts.2, rfl⟩, _, hconflicts.2, rfl⟩, hu⟩
    · intro u hu
      obtain ⟨row, hrow, hparse, ⟨l, hl, htarget⟩, l', hl', hpath⟩ :=
        (mem_of_getBacklinkConflicts hout).1 hu
      exact hcrossed row hrow l hl l' hl' htarget hpath u hparse

/-- A reply: its parent is Bob's post, the root of the thread is Carol's. -/
def reply : RepoRecord :=
  [("$type", .ipld (.string "app.bsky.feed.post")),
    ("reply", .map
      [("parent", .map [("uri", .ipld (.string "at://did:plc:bob/app.bsky.feed.post/3k2"))]),
        ("root", .map [("uri", .ipld (.string "at://did:plc:carol/app.bsky.feed.post/3k1"))])])]

/-- Its own row, and the row of a reply whose parent is Carol's post. -/
def replyRows : List Backlink :=
  [⟨"at://did:plc:alice/app.bsky.feed.post/3k9", "app.bsky.feed.post/root",
      "at://did:plc:carol/app.bsky.feed.post/3k1"⟩,
    ⟨"at://did:plc:alice/app.bsky.feed.post/3k5", "app.bsky.feed.post/parent",
      "at://did:plc:carol/app.bsky.feed.post/3k1"⟩]

/-- No row conflicts with the reply, and both are returned. -/
theorem own_and_crossed_returned :
    getBacklinkConflicts 32766 some replyRows "at://did:plc:alice/app.bsky.feed.post/3k9" reply =
        .ok ["at://did:plc:alice/app.bsky.feed.post/3k9",
          "at://did:plc:alice/app.bsky.feed.post/3k5"] ∧
      ¬ ReturnsConflicts 32766 some id replyRows "at://did:plc:alice/app.bsky.feed.post/3k9"
        reply := by
  have hout : getBacklinkConflicts 32766 some replyRows
      "at://did:plc:alice/app.bsky.feed.post/3k9" reply =
      .ok ["at://did:plc:alice/app.bsky.feed.post/3k9",
        "at://did:plc:alice/app.bsky.feed.post/3k5"] := by decide +kernel
  refine ⟨hout, ?_⟩
  rintro ⟨out, hout', -, hsound⟩
  obtain rfl := Except.ok.inj (hout.symm.trans hout')
  obtain ⟨row, hrow, ⟨hother, hlink⟩, -⟩ := hsound _ List.mem_cons_self
  have hnone : ∀ row ∈ replyRows, row.uri = id "at://did:plc:alice/app.bsky.feed.post/3k9" ∨
      (⟨row.linkTo, row.path⟩ : Link) ∉ extractLinks reply := by decide +kernel
  exact (hnone row hrow).elim hother fun h => h hlink

end

end CacosPds.ActorStore.Backlinks
