import Mathlib.Data.List.Perm.Basic
import Mathlib.Data.String.Basic
import CacosPds.Handle.Normalize
/-!
# Which handles a list of service domains serves

`Accepted` is the two checks that `createAccount` makes, one after the other; `Fits` is what they
are for. `ensure_handle_service_constraints` looks at the first domain that ends the handle and at
no other, so where a second one ends it too the order of the list decides (`decidedByDomains_iff`).

`Syntax` is what `rsky_syntax` says of the handles that it lets through.
-/
namespace CacosPds.Handle

/-- ASCII letters, digits, dashes and periods; lowercasing leaves a slash in its place. -/
structure Lib.Syntax (L : Lib) : Prop where
  characters : ∀ raw handle, L.normalizeAndEnsureValidHandle raw = .ok handle →
    ∀ c ∈ handle.toList, c.isAlphanum = true ∨ c = '.' ∨ c = '-'
  slash : ∀ raw handle, L.normalizeAndEnsureValidHandle raw = .ok handle →
    '/' ∈ raw.toList → '/' ∈ handle.toList

/-- `normalize_and_validate_handle` and then `validate_handle`. -/
def Accepted (L : Lib) (raw : String) (did : Option String) (domains : List String) : Prop :=
  ∃ handle, normalizeAndValidateHandle L ⟨raw, did, none⟩ domains = .ok handle ∧
    validateHandle handle domains = true

/-! ## What the checks are for -/

/-- One label of 3 to 18 characters that is not reserved, and behind it the domain. -/
structure Serves (domain handle label : String) : Prop where
  split : handle = label ++ asDottedSuffix domain
  single : '.' ∉ label.toList
  atLeast : 3 ≤ label.toList.length
  atMost : label.toList.length ≤ 18
  free : label ∉ reservedSubdomains

/-- What does not depend on the domains. -/
structure Proper (L : Lib) (raw handle : String) : Prop where
  normal : L.normalizeAndEnsureValidHandle raw = .ok handle
  tld : L.isValidTld handle = true
  noSlur : L.containsExplicitSlurs handle = false

def Fits (L : Lib) (raw : String) (domains : List String) : Prop :=
  ∃ handle, Proper L raw handle ∧ ∃ domain ∈ domains, ∃ label, Serves domain handle label

/-- The domains decide, and not their order. -/
structure DecidedByDomains (L : Lib) (raw : String) (did : Option String) (domains : List String) :
    Prop where
  anyOrder : ∀ domains', domains'.Perm domains →
    (Accepted L raw did domains' ↔ Accepted L raw did domains)
  fits : Accepted L raw did domains ↔ Fits L raw domains

/-- No other domain ends the handle that one of them serves. -/
def Apart (L : Lib) (raw : String) (domains : List String) : Prop :=
  ∀ handle, Proper L raw handle → ∀ domain ∈ domains, ∀ label, Serves domain handle label →
    ∀ other ∈ domains, endsWith handle (asDottedSuffix other) = true →
      asDottedSuffix other = asDottedSuffix domain

/-! ## Suffixes -/

theorem asDottedSuffix_head (domain : String) :
    ∃ rest, (asDottedSuffix domain).toList = '.' :: rest := by
  unfold asDottedSuffix
  split
  · rename_i h
    obtain ⟨rest, hrest⟩ := List.isPrefixOf_iff_prefix.1 h
    exact ⟨rest, hrest.symm⟩
  · exact ⟨domain.toList, String.toList_append⟩

theorem endsWith_iff {handle suffix : String} :
    endsWith handle suffix = true ↔ handle = front handle suffix ++ suffix := by
  rw [endsWith, List.isSuffixOf_iff_suffix, ← String.toList_inj, String.toList_append, front,
    String.toList_ofList, List.suffix_iff_eq_append, eq_comm]

theorem front_append (label suffix : String) : front (label ++ suffix) suffix = label := by
  rw [front, String.toList_append, List.length_append, Nat.add_sub_cancel, List.take_left,
    String.ofList_toList]

theorem endsWith_append (label suffix : String) : endsWith (label ++ suffix) suffix = true := by
  rw [endsWith_iff, front_append]

/-- Two labels without a dot in front of the same handle are one. -/
theorem label_unique {domain other label label' : String}
    (h : label ++ asDottedSuffix domain = label' ++ asDottedSuffix other)
    (hlabel : '.' ∉ label.toList) (hlabel' : '.' ∉ label'.toList) : label = label' := by
  obtain ⟨rest, hrest⟩ := asDottedSuffix_head domain
  obtain ⟨rest', hrest'⟩ := asDottedSuffix_head other
  have hlist := congrArg String.toList h
  rw [String.toList_append, String.toList_append, hrest, hrest'] at hlist
  have hspan : ∀ (front back : List Char), '.' ∉ front →
      (front ++ '.' :: back).takeWhile (· != '.') = front := by
    intro front back hfront
    have hkept : ∀ c ∈ front, (c != '.') = true := by
      intro c hc
      rw [bne_iff_ne]
      rintro rfl
      exact hfront hc
    rw [List.takeWhile_append_of_pos hkept, List.takeWhile_cons_of_neg (by decide), List.append_nil]
  have hboth := congrArg (List.takeWhile (· != '.')) hlist
  rw [hspan _ _ hlabel, hspan _ _ hlabel'] at hboth
  exact String.toList_inj.1 hboth

theorem Serves.unique {domain other handle label label' : String} (h : Serves domain handle label)
    (h' : Serves other handle label') : asDottedSuffix domain = asDottedSuffix other := by
  obtain rfl := label_unique (h.split.symm.trans h'.split) h.single h'.single
  have hlist := congrArg String.toList (h.split.symm.trans h'.split)
  rw [String.toList_append, String.toList_append] at hlist
  exact String.toList_inj.1 (List.append_cancel_left hlist)

theorem Serves.endsWith {domain handle label : String} (h : Serves domain handle label) :
    endsWith handle (asDottedSuffix domain) = true := by
  rw [h.split]
  exact endsWith_append _ _

theorem Serves.front {domain handle label : String} (h : Serves domain handle label) :
    front handle (asDottedSuffix domain) = label := by
  rw [h.split]
  exact front_append _ _

/-! ## Bytes -/

theorem utf8Size_of_syntax {c : Char} (h : c.isAlphanum = true ∨ c = '.' ∨ c = '-') :
    c.utf8Size = 1 := by
  rw [Char.utf8Size_eq_one_iff]
  rcases h with h | rfl | rfl
  · change (decide (65 ≤ c.val ∧ c.val ≤ 90) || (decide (97 ≤ c.val) && decide (c.val ≤ 122)) ||
      (decide (48 ≤ c.val) && decide (c.val ≤ 57))) = true at h
    simp only [Bool.or_eq_true, Bool.and_eq_true, decide_eq_true_eq] at h
    rcases h with (⟨-, h⟩ | ⟨-, h⟩) | ⟨-, h⟩
    · exact UInt32.le_trans h (by decide)
    · exact UInt32.le_trans h (by decide)
    · exact UInt32.le_trans h (by decide)
  · decide
  · decide

theorem utf8ByteSize_of_syntax {text : String}
    (h : ∀ c ∈ text.toList, c.isAlphanum = true ∨ c = '.' ∨ c = '-') :
    text.utf8ByteSize = text.toList.length := by
  have hlen : ∀ chars : List Char, (∀ c ∈ chars, c.isAlphanum = true ∨ c = '.' ∨ c = '-') →
      String.utf8Len chars = chars.length := by
    intro chars hchars
    induction chars with
    | nil => rfl
    | cons c chars ih =>
      rw [String.utf8Len, ih fun d hd => hchars d (List.mem_cons_of_mem _ hd),
        utf8Size_of_syntax (hchars c List.mem_cons_self), List.length_cons]
  rw [← hlen _ h, ← String.utf8ByteSize_ofList, String.ofList_toList]

/-! ## The two checks -/

theorem ensureFront_ok {label : String} (hbytes : label.utf8ByteSize = label.toList.length) :
    ensureFront false label = .ok () ↔ '.' ∉ label.toList ∧ 3 ≤ label.toList.length ∧
      label.toList.length ≤ 18 ∧ label ∉ reservedSubdomains := by
  unfold ensureFront
  rw [hbytes]
  split_ifs with hdot hshort hlong hreserved
  · exact iff_of_false nofun fun h => h.1 hdot
  · exact iff_of_false nofun fun h => by omega
  · exact iff_of_false nofun fun h => by omega
  · exact iff_of_false nofun fun h => h.2.2.2 (by simpa using hreserved)
  · exact iff_of_true rfl ⟨hdot, by omega, by omega, by simpa using hreserved⟩

theorem serves_iff {handle domain : String} (hend : endsWith handle (asDottedSuffix domain) = true)
    (hchars : ∀ c ∈ handle.toList, c.isAlphanum = true ∨ c = '.' ∨ c = '-') :
    ensureFront false (front handle (asDottedSuffix domain)) = .ok () ↔
      ∃ label, Serves domain handle label := by
  have hbytes : (front handle (asDottedSuffix domain)).utf8ByteSize =
      (front handle (asDottedSuffix domain)).toList.length := by
    refine utf8ByteSize_of_syntax fun c hc => ?_
    rw [front, String.toList_ofList] at hc
    exact hchars c (List.mem_of_mem_take hc)
  rw [ensureFront_ok hbytes]
  constructor
  · rintro ⟨hdot, hshort, hlong, hfree⟩
    exact ⟨_, endsWith_iff.1 hend, hdot, hshort, hlong, hfree⟩
  · rintro ⟨label, h⟩
    rw [h.front]
    exact ⟨h.single, h.atLeast, h.atMost, h.free⟩

/-- The first domain that ends the handle serves it. -/
def FirstServes (domains : List String) (handle : String) : Prop :=
  ∃ domain label, domains.find? (fun domain => endsWith handle (asDottedSuffix domain)) =
    some domain ∧ Serves domain handle label

theorem endsWith_of_find? {domains : List String} {handle domain : String}
    (h : domains.find? (fun domain => endsWith handle (asDottedSuffix domain)) = some domain) :
    endsWith handle (asDottedSuffix domain) = true :=
  List.find?_some (p := fun domain => endsWith handle (asDottedSuffix domain)) h

theorem ensureServiceDomain_ok {handle : String} {domains : List String}
    {opts : HandleValidationOpts} (hopts : opts.allowReserved = none)
    (hchars : ∀ c ∈ handle.toList, c.isAlphanum = true ∨ c = '.' ∨ c = '-') :
    ensureServiceDomain opts domains handle = .ok () ↔ FirstServes domains handle := by
  have hany : isServiceDomain handle domains =
      (domains.find? fun domain => endsWith handle (asDottedSuffix domain)).isSome :=
    (List.isSome_find? ..).symm
  unfold ensureServiceDomain ensureHandleServiceConstraints FirstServes
  rw [hany, List.find?_map, hopts]
  cases hfind : domains.find? fun domain => endsWith handle (asDottedSuffix domain) with
  | none =>
    refine iff_of_false ?_ (by rintro ⟨_, _, h, -⟩; cases h)
    dsimp only [Option.isSome]
    rw [if_neg Bool.false_ne_true]
    split <;> exact nofun
  | some domain =>
    have hmap : Option.map asDottedSuffix (domains.find? (endsWith handle ∘ asDottedSuffix)) =
        some (asDottedSuffix domain) := congrArg _ hfind
    rw [hmap]
    dsimp only [Option.isSome, Option.getD]
    rw [if_pos rfl, serves_iff (endsWith_of_find? hfind) hchars]
    constructor
    · rintro ⟨label, h⟩
      exact ⟨domain, label, rfl, h⟩
    · rintro ⟨_, label, hsame, h⟩
      cases hsame
      exact ⟨label, h⟩

theorem normalizeAndValidateHandle_ok {L : Lib} (hL : L.Syntax) {raw handle : String}
    {did : Option String} {domains : List String} :
    normalizeAndValidateHandle L ⟨raw, did, none⟩ domains = .ok handle ↔
      Proper L raw handle ∧ FirstServes domains handle := by
  unfold normalizeAndValidateHandle baseNormalizeAndValidate
  dsimp only
  cases hnormal : L.normalizeAndEnsureValidHandle raw with
  | error e => exact iff_of_false nofun fun h => by cases hnormal.symm.trans h.1.normal
  | ok normal =>
    have hdomain : ensureServiceDomain ⟨raw, did, none⟩ domains normal = .ok () ↔
        FirstServes domains normal := ensureServiceDomain_ok rfl (hL.characters raw normal hnormal)
    simp only [Except.mapError, bind, Except.bind, pure, Except.pure, throw, throwThe,
      MonadExceptOf.throw]
    constructor
    · intro h
      split at h
      · cases h
      · rename_i htld
        split at h
        · cases h
        · rename_i hslur
          split at h
          · cases h
          · rename_i hok
            cases h
            exact ⟨⟨hnormal, by simpa using htld, by simpa using hslur⟩, hdomain.1 hok⟩
    · rintro ⟨hproper, hfirst⟩
      obtain rfl := Except.ok.inj (hnormal.symm.trans hproper.normal)
      rw [if_neg (by simp [hproper.tld]), if_neg (by simp [hproper.noSlur]), hdomain.2 hfirst]

/-- A handle that the first check lets through passes the second. -/
theorem FirstServes.validateHandle {domains : List String} {handle : String}
    (h : FirstServes domains handle) : validateHandle handle domains = true := by
  obtain ⟨domain, label, hfind, hserves⟩ := h
  refine List.any_eq_true.2 ⟨domain, List.mem_of_find?_eq_some hfind, ?_⟩
  dsimp only
  rw [hserves.endsWith, hserves.front]
  have hlong := hserves.atLeast
  have hsingle := hserves.single
  cases hlabel : label.toList with
  | nil => simp [hlabel] at hlong
  | cons c rest => simpa [hlabel] using hsingle

theorem accepted_iff {L : Lib} (hL : L.Syntax) {raw : String} {did : Option String}
    {domains : List String} : Accepted L raw did domains ↔
      ∃ handle, Proper L raw handle ∧ FirstServes domains handle := by
  constructor
  · rintro ⟨handle, h, -⟩
    exact ⟨handle, (normalizeAndValidateHandle_ok hL).1 h⟩
  · rintro ⟨handle, hproper, hfirst⟩
    exact ⟨handle, (normalizeAndValidateHandle_ok hL).2 ⟨hproper, hfirst⟩, hfirst.validateHandle⟩

/-! ## The order of the domains -/

theorem fits_perm {L : Lib} {raw : String} {domains domains' : List String}
    (h : domains'.Perm domains) : Fits L raw domains' ↔ Fits L raw domains := by
  unfold Fits
  simp only [h.mem_iff]

theorem apart_perm {L : Lib} {raw : String} {domains domains' : List String}
    (h : domains'.Perm domains) : Apart L raw domains' ↔ Apart L raw domains := by
  unfold Apart
  simp only [h.mem_iff]

theorem fits_of_accepted {L : Lib} (hL : L.Syntax) {raw : String} {did : Option String}
    {domains : List String} (h : Accepted L raw did domains) : Fits L raw domains := by
  obtain ⟨handle, hproper, domain, label, hfind, hserves⟩ := (accepted_iff hL).1 h
  exact ⟨handle, hproper, domain, List.mem_of_find?_eq_some hfind, label, hserves⟩

theorem accepted_of_fits {L : Lib} (hL : L.Syntax) {raw : String} {did : Option String}
    {domains : List String} (hapart : Apart L raw domains) (h : Fits L raw domains) :
    Accepted L raw did domains := by
  obtain ⟨handle, hproper, domain, hmem, label, hserves⟩ := h
  refine (accepted_iff hL).2 ⟨handle, hproper, ?_⟩
  have hsome : (domains.find? fun domain => endsWith handle (asDottedSuffix domain)).isSome := by
    rw [List.find?_isSome]
    exact ⟨domain, hmem, hserves.endsWith⟩
  obtain ⟨first, hfirst⟩ := Option.isSome_iff_exists.1 hsome
  have hsame := hapart handle hproper domain hmem label hserves first
    (List.mem_of_find?_eq_some hfirst) (endsWith_of_find? hfirst)
  exact ⟨first, label, hfirst, { hserves with split := hsame ▸ hserves.split }⟩

/-- **The two checks decide by the domains, in whatever order they come, if and only if no second
domain ends the handle that one of them serves.** -/
theorem decidedByDomains_iff (L : Lib) (hL : L.Syntax) (raw : String) (did : Option String)
    (domains : List String) : DecidedByDomains L raw did domains ↔ Apart L raw domains := by
  constructor
  · intro h handle hproper domain hmem label hserves other hother hend
    -- the other domain comes first, and the handle is accepted by it as well
    have hperm : (other :: domains.erase other).Perm domains := (List.perm_cons_erase hother).symm
    have hfits : Fits L raw domains := ⟨handle, hproper, domain, hmem, label, hserves⟩
    have haccepted := (h.anyOrder _ hperm).2 (h.fits.2 hfits)
    obtain ⟨handle', hproper', first, label', hfind, hfirst⟩ := (accepted_iff hL).1 haccepted
    obtain rfl := Except.ok.inj (hproper.normal.symm.trans hproper'.normal)
    obtain rfl : other = first := by
      have hhead : (other :: domains.erase other).find? (fun domain =>
          endsWith handle (asDottedSuffix domain)) = some other :=
        List.find?_cons_of_pos (p := fun domain => endsWith handle (asDottedSuffix domain)) hend
      exact Option.some.inj (hhead.symm.trans hfind)
    exact hfirst.unique hserves
  · intro h
    refine ⟨fun domains' hperm => ?_, fits_of_accepted hL, accepted_of_fits hL h⟩
    constructor
    · exact fun hacc => accepted_of_fits hL h ((fits_perm hperm).1 (fits_of_accepted hL hacc))
    · exact fun hacc => accepted_of_fits hL ((apart_perm hperm).2 h)
        ((fits_perm hperm).2 (fits_of_accepted hL hacc))

/-! ## Two domains -/

/-- Lowercased, and refused where a character is not allowed. -/
def asciiHandles : Lib where
  normalizeAndEnsureValidHandle raw :=
    let handle := raw.toList.map Char.toLower
    if handle.all fun c => c.isAlphanum || c == '.' || c == '-' then .ok (String.ofList handle)
    else .error "Disallowed characters in handle (ASCII letters, digits, dashes, periods only)"
  isValidTld _ := true
  containsExplicitSlurs _ := false

theorem asciiHandles_syntax : asciiHandles.Syntax := by
  have hok : ∀ raw handle, asciiHandles.normalizeAndEnsureValidHandle raw = .ok handle →
      handle.toList = raw.toList.map Char.toLower ∧
        ∀ c ∈ handle.toList, c.isAlphanum = true ∨ c = '.' ∨ c = '-' := by
    intro raw handle h
    unfold asciiHandles at h
    dsimp only at h
    split at h
    · rename_i hall
      cases h
      rw [String.toList_ofList]
      refine ⟨rfl, fun c hc => ?_⟩
      simpa [or_assoc] using List.all_eq_true.1 hall c hc
    · cases h
  refine ⟨fun raw handle h => (hok raw handle h).2, fun raw handle h hslash => ?_⟩
  rw [(hok raw handle h).1]
  exact List.mem_map.2 ⟨'/', hslash, by decide⟩

/-- Alice, where the second domain ends in the first: it does not end her handle. -/
theorem decidedByDomains_alice :
    DecidedByDomains asciiHandles "Alice.test" none ["test", ".a.test"] := by
  refine (decidedByDomains_iff _ asciiHandles_syntax _ _ _).2 ?_
  rintro handle ⟨hnormal, -, -⟩ domain hdomain label hserves other hother hend
  have hhandle : handle = "alice.test" := by
    have h : asciiHandles.normalizeAndEnsureValidHandle "Alice.test" = .ok "alice.test" := by
      decide +kernel
    exact Except.ok.inj (hnormal.symm.trans h)
  subst hhandle
  have honly : ∀ d ∈ ["test", ".a.test"], endsWith "alice.test" (asDottedSuffix d) = true →
      asDottedSuffix d = ".test" := by decide +kernel
  rw [honly other hother hend, honly domain hdomain hserves.endsWith]

/-- Bob's label is in front of `.a.test`, and `.test` comes first. -/
theorem order_of_domains_decides :
    ¬ ∀ L : Lib, L.Syntax → ∀ raw did domains, DecidedByDomains L raw did domains := by
  intro h
  have hbob := h asciiHandles asciiHandles_syntax "bob1.a.test" none [".test", ".a.test"]
  obtain ⟨handle, haccepted, -⟩ := (hbob.anyOrder [".a.test", ".test"] (List.Perm.swap _ _ _)).1
    ⟨"bob1.a.test", by decide +kernel, by decide +kernel⟩
  have hrefused : normalizeAndValidateHandle asciiHandles ⟨"bob1.a.test", none, none⟩
      [".test", ".a.test"] = .error ⟨.invalidHandle, "Invalid characters in handle"⟩ := by
    decide +kernel
  cases hrefused.symm.trans haccepted

end CacosPds.Handle
