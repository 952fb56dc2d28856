import RuleCanon.Lexicon.Builtin
import RuleCanon.Lexicon.Resource

/-!
# Checked lexicons

A resource makes a lexicon if it has no fault.  What the check has seen can be said of the
lexicon alone, without the resource: nothing in it is blank that must not be.  A lexicon of which
this holds is described by a resource without a fault, and the resource makes it again.

## Main Definitions

* `Lexicon.IsChecked` — lexicons that a check lets pass

## Main Statements

* `Lexicon.isChecked_of_ofResource` — a resource makes a checked lexicon
* `Lexicon.ofResource_toResource` — a checked lexicon is made by its own resource
-/

namespace RuleCanon

/-! ## Tables of entries -/

namespace Table

variable {α : Type} {t : Table α} {l : List (String × α)} {key : String} {v : α}

/-- A table is what its entries are. -/
theorem eq_of_entries_eq {t u : Table α} (h : t.entries = u.entries) : t = u := by
  cases t
  cases u
  congr

theorem mem_keys_insert (h : key ∈ (t.insert k v).keys) : key = k ∨ key ∈ t.keys := by
  obtain ⟨e, he, rfl⟩ := List.mem_map.1 h
  exact (fst_of_mem_insertEntry he).imp_right fun he => List.mem_map.2 ⟨e, he, rfl⟩

/-- The keys of a table are among those of the entries that it was made of. -/
theorem mem_keys_foldl_insert
    (h : key ∈ (l.foldl (fun t e => t.insert e.1 e.2) t).keys) :
    key ∈ t.keys ∨ key ∈ l.map (·.1) := by
  induction l generalizing t with
  | nil => exact .inl h
  | cons e l ih =>
      rcases ih h with h | h
      · rcases mem_keys_insert h with rfl | h
        · exact .inr List.mem_cons_self
        · exact .inl h
      · exact .inr (List.mem_cons_of_mem _ h)

theorem mem_keys_ofList (h : key ∈ (ofList l).keys) : key ∈ l.map (·.1) :=
  (mem_keys_foldl_insert h).resolve_left List.not_mem_nil

/-- Entries with other keys do not matter. -/
theorem find?_foldl_insert_of_not_mem (h : key ∉ l.map (·.1)) :
    (l.foldl (fun t e => t.insert e.1 e.2) t).find? key = t.find? key := by
  induction l generalizing t with
  | nil => rfl
  | cons e l ih =>
      rw [List.map_cons, List.mem_cons, not_or] at h
      rw [List.foldl_cons, ih h.2, find?_insert_of_ne t h.1]

/-- **If no key comes twice, each entry is found** in the table. -/
theorem find?_ofList_of_mem (hnodup : (l.map (·.1)).Nodup) (h : (key, v) ∈ l) :
    (ofList l).find? key = some v := by
  obtain ⟨front, back, rfl⟩ := List.append_of_mem h
  rw [List.map_append, List.map_cons] at hnodup
  have hback : key ∉ back.map (·.1) :=
    (List.nodup_cons.1 (List.nodup_append.1 hnodup).2.1).1
  rw [ofList, List.foldl_append, List.foldl_cons, find?_foldl_insert_of_not_mem hback,
    find?_insert_self]

/-- An entry whose key comes last is put at the end. -/
theorem insertEntry_of_forall_lt (h : ∀ e ∈ l, e.1 < key) :
    insertEntry key v l = l ++ [(key, v)] := by
  induction l with
  | nil => rfl
  | cons e l ih =>
      have hlt := h e List.mem_cons_self
      rw [insertEntry, if_neg (String.lt_asymm hlt), if_neg (String.ne_of_lt hlt).symm,
        ih fun e he => h e (List.mem_cons_of_mem _ he), List.cons_append]

/-- Entries that come in order, and behind those of a table, are put at its end one by one. -/
theorem entries_foldl_insert (h : (t.entries ++ l).Pairwise (·.1 < ·.1)) :
    (l.foldl (fun t e => t.insert e.1 e.2) t).entries = t.entries ++ l := by
  induction l generalizing t with
  | nil => exact (List.append_nil _).symm
  | cons e l ih =>
      have hentries : (t.insert e.1 e.2).entries = t.entries ++ [e] :=
        insertEntry_of_forall_lt fun d hd =>
          (List.pairwise_append.1 h).2.2 d hd e List.mem_cons_self
      rw [List.foldl_cons, ih (by rwa [hentries, List.append_assoc]), hentries,
        List.append_assoc, List.singleton_append]

/-- **The entries of a table make the table again.** -/
theorem ofList_entries (t : Table α) : ofList t.entries = t :=
  eq_of_entries_eq (entries_foldl_insert t.ascending)

end Table

/-! ## The check -/

theorem TokenKind.nodup_keys : (TokenKind.all.map (·.key)).Nodup := by decide

theorem KeywordSpec.spellings_ofSpellings (s : Spellings) : (ofSpellings s).spellings = s := by
  rw [ofSpellings]
  split
  · next h => exact congrArg (Spellings.mk s.surface) h.symm
  · rfl

namespace LexiconResource

variable {r : LexiconResource}

/-- A resource has no fault if none of the parts that are looked at has one. -/
theorem firstFault?_eq_none_iff :
    r.firstFault? = none ↔ isBlank r.id = false ∧
      (∀ key ∈ r.keywords.keys, TokenKind.ofKey? key ≠ none) ∧
      (∀ k, r.keywordFault? k = none) ∧ ∀ role, r.punctuationFault? role = none := by
  rw [firstFault?]
  by_cases hid : isBlank r.id = true
  · simp [hid]
  · rw [if_neg hid]
    cases hkey : r.keywords.keys.find? (TokenKind.ofKey? · = none) with
    | some key =>
        have hmem := List.mem_of_find?_eq_some hkey
        have hunknown : TokenKind.ofKey? key = none := by simpa using List.find?_some hkey
        simp only [reduceCtorEq, false_iff]
        exact fun h => h.2.1 key hmem hunknown
    | none =>
        have hknown : ∀ key ∈ r.keywords.keys, TokenKind.ofKey? key ≠ none := by
          simpa using List.find?_eq_none.1 hkey
        simp only [Option.or_eq_none_iff, List.findSome?_eq_none_iff]
        refine ⟨fun h => ⟨by simpa using hid, hknown, fun k => h.1 k (TokenKind.mem_all k),
          fun role => h.2 role (PunctuationRole.mem_all role)⟩, fun h => ?_⟩
        exact ⟨fun k _ => h.2.2.1 k, fun role _ => h.2.2.2 role⟩

/-- An entry has no fault if it is there and nothing in it is blank. -/
theorem keywordFault?_eq_none_iff {k : TokenKind} :
    r.keywordFault? k = none ↔ ∃ spec, r.keywords.find? k.key = some spec ∧
      ∀ s ∈ spec.spellings.all, isBlank s = false := by
  rw [keywordFault?]
  cases r.keywords.find? k.key with
  | none => simp
  | some spec =>
      by_cases hsurface : isBlank spec.spellings.surface = true
      · simp [Spellings.all, hsurface]
      · by_cases haliases : spec.spellings.aliases.any isBlank = true
        · simp_all [Spellings.all]
        · simp_all [Spellings.all]

theorem punctuationFault?_eq_none_iff {role : PunctuationRole} :
    r.punctuationFault? role = none ↔ r.punctuation.get role ≠ "" := by
  rw [punctuationFault?]
  split <;> simp_all

end LexiconResource

namespace Lexicon

variable {r : LexiconResource} {l : Lexicon}

/-- Nothing in the lexicon is blank that must not be. -/
structure IsChecked (l : Lexicon) : Prop where
  id : isBlank l.id = false
  spellings : ∀ k, ∀ s ∈ (l.keyword k).all, isBlank s = false
  marks : ∀ role, l.punctuation.get role ≠ ""

/-- **A resource makes a checked lexicon**, if it makes one. -/
theorem isChecked_of_ofResource (h : ofResource r = .ok l) : l.IsChecked := by
  rw [ofResource] at h
  split at h
  · contradiction
  · next hfault =>
    cases h
    obtain ⟨hid, -, hkeywords, hmarks⟩ := LexiconResource.firstFault?_eq_none_iff.1 hfault
    refine ⟨hid, fun k s hs => ?_, fun role =>
      LexiconResource.punctuationFault?_eq_none_iff.1 (hmarks role)⟩
    obtain ⟨spec, hspec, hspellings⟩ :=
      LexiconResource.keywordFault?_eq_none_iff.1 (hkeywords k)
    simp only [hspec, Option.map_some, Option.getD_some] at hs
    exact hspellings s hs

/-- The resource of a lexicon has an entry for each kind. -/
theorem find?_toResource (l : Lexicon) (k : TokenKind) :
    l.toResource.keywords.find? k.key = some (.ofSpellings (l.keyword k)) := by
  refine Table.find?_ofList_of_mem ?_ ?_
  · rw [keywords, List.map_map, List.map_map]
    exact TokenKind.nodup_keys
  · rw [keywords, List.map_map]
    exact List.mem_map.2 ⟨k, TokenKind.mem_all k, rfl⟩

/-- And it has no other entries. -/
theorem exists_key_of_mem_keys_toResource {key : String} (h : key ∈ l.toResource.keywords.keys) :
    ∃ k : TokenKind, k.key = key := by
  have hmem := Table.mem_keys_ofList h
  rw [keywords, List.map_map, List.map_map] at hmem
  obtain ⟨k, -, hk⟩ := List.mem_map.1 hmem
  exact ⟨k, hk⟩

/-- The resource of a checked lexicon has no fault. -/
theorem IsChecked.firstFault?_toResource (h : l.IsChecked) : l.toResource.firstFault? = none := by
  refine LexiconResource.firstFault?_eq_none_iff.2 ⟨h.id, fun key hkey => ?_, fun k => ?_,
    fun role => LexiconResource.punctuationFault?_eq_none_iff.2 (h.marks role)⟩
  · obtain ⟨k, rfl⟩ := exists_key_of_mem_keys_toResource hkey
    exact Option.ne_none_iff_exists'.2 ⟨k, TokenKind.ofKey?_key k⟩
  · refine LexiconResource.keywordFault?_eq_none_iff.2 ⟨_, l.find?_toResource k, ?_⟩
    rw [KeywordSpec.spellings_ofSpellings]
    exact h.spellings k

/-- **A checked lexicon is made by its own resource.** -/
theorem ofResource_toResource (h : l.IsChecked) : ofResource l.toResource = .ok l := by
  have hkeyword : (fun k : TokenKind =>
      ((l.toResource.keywords.find? k.key).map (·.spellings)).getD ⟨"", []⟩) = l.keyword := by
    funext k
    rw [find?_toResource, Option.map_some, Option.getD_some, KeywordSpec.spellings_ofSpellings]
  rw [ofResource, h.firstFault?_toResource]
  simp only [hkeyword]
  rfl

theorem isChecked_chinese : chinese.IsChecked where
  id := by decide
  spellings k := by cases k <;> decide
  marks role := by cases role <;> decide

theorem isChecked_english : english.IsChecked where
  id := by decide
  spellings k := by cases k <;> decide
  marks role := by cases role <;> decide

end Lexicon

end RuleCanon
