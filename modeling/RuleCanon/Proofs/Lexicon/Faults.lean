import Mathlib.Data.List.Sort
import RuleCanon.Proofs.Lexicon.Checked

/-!
# Complete resources and first faults

A resource makes a lexicon just if it is complete: it has an entry for each kind of keyword and no
other entries, and nothing in it is blank that must not be.  The lexicon holds what the entries
list.  It is described by the resource with entries written as single spellings where they list no
other ones.

A resource that is not complete is refused for its first fault.  The faults compete: an unknown key
takes the place of a missing one, and an entry can have a blank surface and a blank alias at once.
So a fault counts as the first one only together with what has been found in order before it.

## Main Definitions

* `LexiconResource.IsComplete` — resources that make a lexicon
* `LexiconResource.EntryFault`, `LexiconResource.FirstFault` — what is wrong with the entry for a
  kind, and with a resource
* `LexiconResource.shorten` — entries written as single spellings where that is possible
* `Lexicon.Holds` — a lexicon holds what a resource lists

## Main Statements

* `LexiconResource.firstFault?_eq_none_iff_isComplete` — a complete resource has no fault
* `LexiconResource.firstFault?_eq_some_iff` — which fault comes first
* `Lexicon.toResource_eq_shorten` — the resource of a lexicon that was made of one
* `Lexicon.ofResource_complete` — the check as a whole
-/

namespace RuleCanon

/-! ## Tables and their entries -/

namespace Table

variable {α β : Type} {t u : Table α} {key : String} {v : α}

/-- What is found in a table are its entries. -/
theorem mem_entries_iff : (key, v) ∈ t.entries ↔ t.find? key = some v := by
  rw [find?, List.lookup_eq_some_iff]
  constructor
  · intro hmem
    obtain ⟨front, back, hsplit⟩ := List.append_of_mem hmem
    refine ⟨front, back, hsplit, fun e he => ?_⟩
    have hascending := t.ascending
    rw [hsplit] at hascending
    have hlt : e.1 < key := (List.pairwise_append.1 hascending).2.2 e he _ List.mem_cons_self
    simpa using (String.ne_of_lt hlt).symm
  · rintro ⟨front, back, hsplit, -⟩
    rw [hsplit]
    exact List.mem_append_right front List.mem_cons_self

theorem mem_keys_iff : key ∈ t.keys ↔ ∃ v, t.find? key = some v := by
  simp only [keys, List.mem_map, Prod.exists, exists_and_right, exists_eq_right, mem_entries_iff]

/-- **Tables in which the same is found are equal.** -/
theorem eq_of_find?_eq (h : ∀ key, t.find? key = u.find? key) : t = u := by
  have hantisymm : Std.Antisymm fun a b : String × α => a.1 < b.1 :=
    ⟨fun a b hab hba => absurd hba (String.lt_asymm hab)⟩
  have hirrefl : Std.Irrefl fun a b : String × α => a.1 < b.1 := ⟨fun a => String.lt_irrefl a.1⟩
  refine eq_of_entries_eq (t.ascending.eq_of_mem_iff u.ascending fun e => ?_)
  rw [mem_entries_iff, mem_entries_iff, h]

/-- The table with other values under the same keys. -/
def map (f : α → β) (t : Table α) : Table β where
  entries := t.entries.map fun e => (e.1, f e.2)
  ascending := List.pairwise_map.2 t.ascending

theorem find?_map (f : α → β) (t : Table α) (key : String) :
    (t.map f).find? key = (t.find? key).map f := by
  rw [find?, find?, map]
  simp only
  induction t.entries with
  | nil => rfl
  | cons e l ih =>
      rw [List.map_cons, List.lookup_cons, List.lookup_cons, ih]
      cases key == e.1 <;> rfl

end Table

theorem TokenKind.ofKey?_eq_none_iff {key : String} :
    ofKey? key = none ↔ ∀ k : TokenKind, k.key ≠ key := by
  rw [ofKey?, List.find?_eq_none]
  simp only [beq_iff_eq]
  exact ⟨fun h k => h k (mem_all k), fun h k _ => h k⟩

/-- An entry without other spellings, as a single spelling. -/
def KeywordSpec.shorten : KeywordSpec → KeywordSpec
  | detailed ⟨s, []⟩ => surface s
  | spec => spec

theorem KeywordSpec.ofSpellings_spellings (spec : KeywordSpec) :
    ofSpellings spec.spellings = spec.shorten := by
  cases spec with
  | surface s => rfl
  | detailed s =>
      obtain ⟨surface, aliases⟩ := s
      cases aliases <;> rfl

namespace LexiconResource

variable {r : LexiconResource} {k : TokenKind} {e : ConfigError}

/-! ## Complete resources -/

/-- The resource has an entry for the kind in which nothing is blank. -/
def Spells (r : LexiconResource) (k : TokenKind) : Prop :=
  ∃ spec, r.keywords.find? k.key = some spec ∧ ∀ s ∈ spec.spellings.all, isBlank s = false

/-- All entries are entries for kinds. -/
def IsKnown (r : LexiconResource) : Prop := ∀ key ∈ r.keywords.keys, ∃ k : TokenKind, k.key = key

/-- A resource that makes a lexicon. -/
structure IsComplete (r : LexiconResource) : Prop where
  /-- The id is not blank. -/
  id : isBlank r.id = false
  /-- The keys are those of the kinds, each of them and no other ones. -/
  keys : ∀ key, key ∈ r.keywords.keys ↔ ∃ k : TokenKind, k.key = key
  /-- No entry has a blank spelling. -/
  spellings : ∀ entry ∈ r.keywords.entries, ∀ s ∈ entry.2.spellings.all, isBlank s = false
  /-- No mark is empty. -/
  marks : ∀ role, r.punctuation.get role ≠ ""

/-- In a complete resource there is an entry for each kind and no other entry. -/
theorem IsComplete.spells (h : r.IsComplete) (k : TokenKind) : r.Spells k := by
  obtain ⟨spec, hspec⟩ := Table.mem_keys_iff.1 ((h.keys k.key).2 ⟨k, rfl⟩)
  exact ⟨spec, hspec, h.spellings _ (Table.mem_entries_iff.2 hspec)⟩

theorem isKnown_iff : r.IsKnown ↔ ∀ key ∈ r.keywords.keys, TokenKind.ofKey? key ≠ none := by
  simp only [IsKnown, ne_eq, TokenKind.ofKey?_eq_none_iff, not_forall, not_not]

/-- **A complete resource has no fault**, and only such a resource has none. -/
theorem firstFault?_eq_none_iff_isComplete : r.firstFault? = none ↔ r.IsComplete := by
  rw [firstFault?_eq_none_iff, ← isKnown_iff]
  simp only [keywordFault?_eq_none_iff, punctuationFault?_eq_none_iff]
  constructor
  · rintro ⟨hid, hknown, hspells, hmarks⟩
    refine ⟨hid, fun key => ⟨hknown key, ?_⟩, fun entry hentry => ?_, hmarks⟩
    · rintro ⟨k, rfl⟩
      obtain ⟨spec, hspec, -⟩ := hspells k
      exact Table.mem_keys_iff.2 ⟨spec, hspec⟩
    · -- the entry is the one that is found for its kind
      have hfind := Table.mem_entries_iff.1 hentry
      obtain ⟨k, hk⟩ := hknown entry.1 (Table.mem_keys_iff.2 ⟨_, hfind⟩)
      obtain ⟨spec, hspec, hspellings⟩ := hspells k
      rw [hk, hfind] at hspec
      exact Option.some.inj hspec ▸ hspellings
  · intro h
    exact ⟨h.id, fun key => (h.keys key).1, h.spells, h.marks⟩

/-! ## Faults -/

/-- What is wrong with the entry for a kind. -/
inductive EntryFault (r : LexiconResource) (k : TokenKind) : ConfigError → Prop where
  /-- There is no entry. -/
  | missing (hnone : r.keywords.find? k.key = none) : EntryFault r k (.missingKeyword r.id k)
  /-- The spelling that is listed first is blank. -/
  | surface {spec : KeywordSpec} (hspec : r.keywords.find? k.key = some spec)
      (hblank : isBlank spec.spellings.surface = true) : EntryFault r k (.emptyKeyword r.id k)
  /-- The spelling that is listed first is not blank, but another one is. -/
  | alias {spec : KeywordSpec} {s : String} (hspec : r.keywords.find? k.key = some spec)
      (hsurface : isBlank spec.spellings.surface = false) (hs : s ∈ spec.spellings.aliases)
      (hblank : isBlank s = true) : EntryFault r k (.emptyAlias r.id k)

/-- The first fault of a resource. -/
inductive FirstFault (r : LexiconResource) : ConfigError → Prop where
  /-- The id is blank. -/
  | id (hid : isBlank r.id = true) : FirstFault r .emptyLocaleId
  /-- A key belongs to no kind; it is the least one of this sort. -/
  | key {key : String} (hid : isBlank r.id = false) (hkey : key ∈ r.keywords.keys)
      (hunknown : ∀ k : TokenKind, k.key ≠ key)
      (hleast : ∀ other ∈ r.keywords.keys, (∀ k : TokenKind, k.key ≠ other) → key ≤ other) :
      FirstFault r (.unknownTokenKind r.id key)
  /-- The entry for a kind has a fault; those for the kinds in front of it have none. -/
  | entry {front back : List TokenKind} {k : TokenKind} {e : ConfigError}
      (hid : isBlank r.id = false) (hknown : r.IsKnown)
      (hsplit : TokenKind.all = front ++ k :: back)
      (hfront : ∀ k ∈ front, r.Spells k) (hk : r.EntryFault k e) : FirstFault r e
  /-- The mark for a role is empty; those for the roles in front of it are not. -/
  | mark {front back : List PunctuationRole} {role : PunctuationRole}
      (hid : isBlank r.id = false) (hknown : r.IsKnown) (hspells : ∀ k, r.Spells k)
      (hsplit : PunctuationRole.all = front ++ role :: back)
      (hfront : ∀ role ∈ front, r.punctuation.get role ≠ "")
      (hrole : r.punctuation.get role = "") : FirstFault r (.emptyPunctuation r.id role)

theorem keywordFault?_eq_some_iff : r.keywordFault? k = some e ↔ r.EntryFault k e := by
  rw [keywordFault?]
  constructor
  · intro h
    split at h
    · next hnone =>
      cases h
      exact .missing hnone
    · next spec hspec =>
      split at h
      · next hblank =>
        cases h
        exact .surface hspec hblank
      · next hsurface =>
        split at h
        · next hany =>
          cases h
          obtain ⟨s, hs, hblank⟩ := List.any_eq_true.1 hany
          exact .alias hspec (by simpa using hsurface) hs hblank
        · contradiction
  · rintro (hnone | ⟨hspec, hblank⟩ | ⟨hspec, hsurface, hs, hblank⟩)
    · simp only [hnone]
    · simp only [hspec, hblank, if_true]
    · simp only [hspec, hsurface, List.any_eq_true.2 ⟨_, hs, hblank⟩, if_true, Bool.false_eq_true,
        if_false]

theorem punctuationFault?_eq_some_iff {role : PunctuationRole} :
    r.punctuationFault? role = some e ↔
      r.punctuation.get role = "" ∧ e = .emptyPunctuation r.id role := by
  rw [punctuationFault?]
  split
  · next hempty => simp only [hempty, true_and, Option.some.injEq, eq_comm]
  · next hfilled => simp only [hfilled, false_and, reduceCtorEq]

/-- The first of the keys that belong to no kind is the least one. -/
theorem find?_unknown_eq_some_iff {key : String} :
    r.keywords.keys.find? (TokenKind.ofKey? · = none) = some key ↔
      key ∈ r.keywords.keys ∧ (∀ k : TokenKind, k.key ≠ key) ∧
        ∀ other ∈ r.keywords.keys, (∀ k : TokenKind, k.key ≠ other) → key ≤ other := by
  have hascending : r.keywords.keys.Pairwise (· < ·) := List.pairwise_map.2 r.keywords.ascending
  simp only [List.find?_eq_some_iff_append, TokenKind.ofKey?_eq_none_iff, decide_eq_true_eq,
    Bool.not_eq_true', decide_eq_false_iff_not]
  constructor
  · rintro ⟨hunknown, front, back, hsplit, hfront⟩
    rw [hsplit] at hascending ⊢
    refine ⟨List.mem_append_right front List.mem_cons_self, hunknown, fun other hmem hother => ?_⟩
    rcases List.mem_append.1 hmem with hmem | hmem
    · exact absurd hother (hfront other hmem)
    · rcases List.mem_cons.1 hmem with rfl | hmem
      · exact String.le_refl other
      · have hlater := (List.pairwise_append.1 hascending).2.1
        exact String.not_lt.1 (String.lt_asymm (List.rel_of_pairwise_cons hlater hmem))
  · rintro ⟨hmem, hunknown, hleast⟩
    obtain ⟨front, back, hsplit⟩ := List.append_of_mem hmem
    refine ⟨hunknown, front, back, hsplit, fun other hother hunknown' => ?_⟩
    rw [hsplit] at hascending hleast
    have hlt : other < key :=
      (List.pairwise_append.1 hascending).2.2 other hother key List.mem_cons_self
    exact String.not_le.2 hlt (hleast other (List.mem_append_left _ hother) hunknown')

theorem find?_unknown_eq_none_iff :
    r.keywords.keys.find? (TokenKind.ofKey? · = none) = none ↔ r.IsKnown := by
  rw [isKnown_iff, List.find?_eq_none]
  simp only [decide_eq_true_eq, ne_eq]

/-- **Which fault comes first.** -/
theorem firstFault?_eq_some_iff : r.firstFault? = some e ↔ r.FirstFault e := by
  have hspells (k : TokenKind) : r.keywordFault? k = none ↔ r.Spells k := keywordFault?_eq_none_iff
  rw [firstFault?]
  constructor
  · intro h
    split at h
    · next hid =>
      cases h
      exact .id hid
    · next hid =>
      replace hid : isBlank r.id = false := by simpa using hid
      split at h
      · next key hkey =>
        cases h
        obtain ⟨hmem, hunknown, hleast⟩ := find?_unknown_eq_some_iff.1 hkey
        exact .key hid hmem hunknown hleast
      · next hnone =>
        have hknown := find?_unknown_eq_none_iff.1 hnone
        rcases Option.or_eq_some_iff.1 h with h | ⟨hall, h⟩
        · obtain ⟨front, k, back, hsplit, hk, hfront⟩ := List.findSome?_eq_some_iff.1 h
          exact .entry hid hknown hsplit (fun k hmem => (hspells k).1 (hfront k hmem))
            (keywordFault?_eq_some_iff.1 hk)
        · obtain ⟨front, role, back, hsplit, hrole, hfront⟩ := List.findSome?_eq_some_iff.1 h
          obtain ⟨hempty, rfl⟩ := punctuationFault?_eq_some_iff.1 hrole
          refine .mark hid hknown (fun k => (hspells k).1 ?_) hsplit
            (fun role hmem => punctuationFault?_eq_none_iff.1 (hfront role hmem)) hempty
          exact List.findSome?_eq_none_iff.1 hall k (TokenKind.mem_all k)
  · rintro (hid | ⟨hid, hmem, hunknown, hleast⟩ | ⟨hid, hknown, hsplit, hfront, hk⟩ |
      ⟨hid, hknown, hall, hsplit, hfront, hrole⟩)
    · simp only [hid, if_true]
    · simp only [hid, Bool.false_eq_true, if_false,
        find?_unknown_eq_some_iff.2 ⟨hmem, hunknown, hleast⟩]
    · have hfirst : TokenKind.all.findSome? r.keywordFault? = some e :=
        List.findSome?_eq_some_iff.2 ⟨_, _, _, hsplit, keywordFault?_eq_some_iff.2 hk,
          fun k hmem => (hspells k).2 (hfront k hmem)⟩
      simp only [hid, Bool.false_eq_true, if_false, find?_unknown_eq_none_iff.2 hknown, hfirst,
        Option.some_or]
    · have hnone : TokenKind.all.findSome? r.keywordFault? = none :=
        List.findSome?_eq_none_iff.2 fun k _ => (hspells k).2 (hall k)
      have hfirst : PunctuationRole.all.findSome? r.punctuationFault? = some _ :=
        List.findSome?_eq_some_iff.2 ⟨_, _, _, hsplit,
          punctuationFault?_eq_some_iff.2 ⟨hrole, rfl⟩,
          fun role hmem => punctuationFault?_eq_none_iff.2 (hfront role hmem)⟩
      simp only [hid, Bool.false_eq_true, if_false, find?_unknown_eq_none_iff.2 hknown, hnone,
        hfirst, Option.none_or]

/-- The resource with entries written as single spellings where they list no other ones. -/
def shorten (r : LexiconResource) : LexiconResource :=
  { r with keywords := r.keywords.map KeywordSpec.shorten }

end LexiconResource

/-! ## The lexicon of a resource -/

namespace Lexicon

variable {r : LexiconResource} {l : Lexicon}

/-- The lexicon holds what the resource lists: for each kind the spellings of its entry, in order,
and all else as it is. -/
structure Holds (l : Lexicon) (r : LexiconResource) : Prop where
  id : l.id = r.id
  name : l.name = r.name
  direction : l.direction = r.direction
  keyword : ∀ k : TokenKind, ∃ spec, (k.key, spec) ∈ r.keywords.entries ∧
    l.keyword k = spec.spellings
  punctuation : l.punctuation = r.punctuation
  stages : l.stages = r.stages

/-- What makes a lexicon is complete. -/
theorem isComplete_of_ofResource (h : ofResource r = .ok l) : r.IsComplete := by
  rw [ofResource] at h
  split at h
  · contradiction
  · next hnone => exact LexiconResource.firstFault?_eq_none_iff_isComplete.1 hnone

theorem holds_of_ofResource (h : ofResource r = .ok l) : l.Holds r := by
  have hcomplete := isComplete_of_ofResource h
  rw [ofResource, LexiconResource.firstFault?_eq_none_iff_isComplete.2 hcomplete] at h
  cases h
  refine ⟨rfl, rfl, rfl, fun k => ?_, rfl, rfl⟩
  obtain ⟨spec, hspec, -⟩ := hcomplete.spells k
  exact ⟨spec, Table.mem_entries_iff.2 hspec, by simp only [hspec, Option.map_some,
    Option.getD_some]⟩

/-- **The resource of a lexicon that was made of one** is that one with entries written as single
spellings where they list no other ones. -/
theorem toResource_eq_shorten (h : ofResource r = .ok l) : l.toResource = r.shorten := by
  have hcomplete := isComplete_of_ofResource h
  obtain ⟨hid, hname, hdirection, hkeyword, hpunctuation, hstages⟩ := holds_of_ofResource h
  have hkeywords : l.toResource.keywords = r.keywords.map KeywordSpec.shorten := by
    refine Table.eq_of_find?_eq fun key => ?_
    rw [Table.find?_map]
    by_cases hkey : ∃ k : TokenKind, k.key = key
    · obtain ⟨k, rfl⟩ := hkey
      obtain ⟨spec, hspec, hspellings⟩ := hkeyword k
      rw [find?_toResource, hspellings, KeywordSpec.ofSpellings_spellings,
        Table.mem_entries_iff.1 hspec, Option.map_some]
    · -- neither table has an entry for another key
      have hnone (t : Table KeywordSpec) (ht : key ∉ t.keys) : t.find? key = none := by
        by_contra hsome
        exact ht (Table.mem_keys_iff.2 (Option.ne_none_iff_exists'.1 hsome))
      rw [hnone l.toResource.keywords fun hmem => hkey (exists_key_of_mem_keys_toResource hmem),
        hnone r.keywords fun hmem => hkey ((hcomplete.keys key).1 hmem), Option.map_none]
  have heq : l.toResource = { r with keywords := l.toResource.keywords } := by
    simp only [toResource, hid, hname, hdirection, hpunctuation, hstages]
  rw [heq, hkeywords, LexiconResource.shorten]

/-- **A resource makes a lexicon if and only if it is complete.**  The lexicon holds what the
resource lists, and its own resource differs from that one only in writing entries without other
spellings as single ones.  A resource that is not complete is refused for its first fault. -/
theorem ofResource_complete (r : LexiconResource) :
    ((∃ l, ofResource r = .ok l) ↔ r.IsComplete) ∧
      (∀ l, ofResource r = .ok l → l.Holds r ∧ l.toResource = r.shorten) ∧
      ∀ e, ofResource r = .error e ↔ r.FirstFault e := by
  refine ⟨⟨?_, fun hcomplete => ?_⟩, fun l h => ⟨holds_of_ofResource h, toResource_eq_shorten h⟩,
    fun e => ?_⟩
  · rintro ⟨l, hl⟩
    exact isComplete_of_ofResource hl
  · rw [ofResource, LexiconResource.firstFault?_eq_none_iff_isComplete.2 hcomplete]
    exact ⟨_, rfl⟩
  · rw [← LexiconResource.firstFault?_eq_some_iff, ofResource]
    cases r.firstFault? <;> simp

/-- Of several faults, which are two unknown keys, a missing entry and an empty mark, the lesser of
the two keys comes first; and an entry with an empty list of other spellings is a single one. -/
theorem ofResource_complete_rivals :
    let faulty : LexiconResource :=
      { chinese.toResource with
        keywords :=
          ((chinese.toResource.keywords.erase "RETURN").insert "WHILE" (.surface "")).insert "AGAIN"
            (.surface "")
        punctuation := chinese.punctuation.set .blockStart "" }
    let sound : LexiconResource :=
      { chinese.toResource with
        keywords := chinese.toResource.keywords.insert "RETURN" (.detailed ⟨"返回", []⟩) }
    faulty.FirstFault (.unknownTokenKind "zh-CN" "AGAIN") ∧ ¬ faulty.IsComplete ∧
      ∃ l, ofResource sound = .ok l ∧ l.Holds sound ∧ l.toResource = sound.shorten ∧
        l.toResource.keywords.find? "RETURN" = some (.surface "返回") := by
  intro faulty sound
  have hfault : faulty.firstFault? = some (.unknownTokenKind "zh-CN" "AGAIN") := by decide +kernel
  have hnone : sound.firstFault? = none := by decide +kernel
  have herror : ofResource faulty = .error (.unknownTokenKind "zh-CN" "AGAIN") := by
    rw [ofResource, hfault]
  obtain ⟨hfaulty, -, hfirst⟩ := ofResource_complete faulty
  obtain ⟨hsound, hmade, -⟩ := ofResource_complete sound
  obtain ⟨l, hl⟩ := hsound.2 (LexiconResource.firstFault?_eq_none_iff_isComplete.1 hnone)
  obtain ⟨hholds, hresource⟩ := hmade l hl
  refine ⟨(hfirst _).1 herror, fun hcomplete => ?_, l, hl, hholds, hresource, ?_⟩
  · obtain ⟨l, hl⟩ := hfaulty.2 hcomplete
    rw [herror] at hl
    contradiction
  · rw [hresource]
    decide +kernel

end Lexicon

end RuleCanon
