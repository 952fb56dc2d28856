import Mathlib.Data.List.Nodup
import RuleCanon.Lexicon.Written
import RuleCanon.Proofs.Json.RoundTrip
import RuleCanon.Proofs.Lexicon.Checked

/-!
# Lexicons are read back

A resource is written as a value whose strings are all texts, with each of its fields written
once, so reading the value gives the resource again.  A lexicon that has passed the check is
written through its resource, and the resource makes it again: what is exported can be imported.

## Main Statements

* `Json.members?_object` — the members of an object whose names do not repeat
* `LexiconResource.ofJson?_toJson` — a resource is read back from its value
* `Lexicon.read_write` — a lexicon is read back from its text
-/

namespace RuleCanon

namespace Json

variable {α : Type} {depth : Nat}

/-! ## Values made of lists -/

theorem allSound_iff {items : List Json} :
    allSound depth items = true ↔ ∀ j ∈ items, j.isSound depth = true := by
  induction items with
  | nil => simp [allSound]
  | cons j items ih => rw [allSound, Bool.and_eq_true, ih, List.forall_mem_cons]

theorem fieldsSound_iff {fields : List (Option String × Json)} :
    fieldsSound depth fields = true ↔ ∀ f ∈ fields, f.1.isSome ∧ f.2.isSound depth = true := by
  induction fields with
  | nil => simp [fieldsSound]
  | cons f fields ih => rw [fieldsSound, Bool.and_eq_true, Bool.and_eq_true, ih,
      List.forall_mem_cons]

/-- Reading what was written for each element succeeds if it does for every element. -/
theorem mapM_map_of_forall {β γ : Type} {l : List α} {w : α → β} {r : β → Option γ} {f : α → γ}
    (h : ∀ a ∈ l, r (w a) = some (f a)) : (l.map w).mapM r = some (l.map f) := by
  induction l with
  | nil => rfl
  | cons a l ih =>
      rw [List.map_cons, List.mapM_cons, h a List.mem_cons_self,
        ih fun b hb => h b (List.mem_cons_of_mem _ hb)]
      rfl

/-- Texts are read back from the array of them. -/
theorem texts?_map_string (l : List String) :
    texts? (.array (l.map fun s => .string (some s))) = some l := by
  have hread : ∀ s ∈ l, text? (.string (some s)) = some s := fun _ _ => rfl
  exact (mapM_map_of_forall hread).trans (by rw [List.map_id'])

/-- The fields of an object whose names are texts. -/
theorem fields?_object (l : List α) (name : α → String) (value : α → Json) :
    (object (l.map fun a => (some (name a), value a))).fields? =
      some (l.map fun a => (name a, value a)) :=
  mapM_map_of_forall (w := fun a => (some (name a), value a)) fun _ _ => rfl

/-- A field whose name does not repeat is found. -/
theorem uniqueField?_of_mem {l : List α} {name : α → String} (value : α → Json)
    (hnodup : (l.map name).Nodup) {a : α} (ha : a ∈ l) :
    uniqueField? (l.map fun a => (name a, value a)) (name a) = some (some (value a)) := by
  obtain ⟨front, back, rfl⟩ := List.append_of_mem ha
  rw [List.map_append, List.map_cons] at hnodup
  obtain ⟨-, hback, hfront⟩ := List.nodup_append.1 hnodup
  have hothers : ∀ others : List α, (∀ b ∈ others, name b ≠ name a) →
      (others.map fun a => (name a, value a)).filter (·.1 == name a) = [] := by
    intro others h
    rw [List.filter_eq_nil_iff, List.forall_mem_map]
    exact fun b hb heq => h b hb (eq_of_beq heq)
  rw [uniqueField?, List.map_append, List.map_cons, List.filter_append,
    List.filter_cons_of_pos (by exact beq_self_eq_true (name a)), hothers front, hothers back,
    List.nil_append]
  · exact fun b hb heq => (List.nodup_cons.1 hback).1 (heq ▸ List.mem_map_of_mem hb)
  · exact fun b hb heq => hfront _ (List.mem_map_of_mem hb) _ List.mem_cons_self heq

/-- **An object with just the fields of a record has these as members**, if none repeats. -/
theorem members?_object {l : List α} {name : α → String} (value : α → Json)
    (hnodup : (l.map name).Nodup) :
    (object (l.map fun a => (some (name a), value a))).members? (l.map name) =
      some (l.map fun a => some (value a)) := by
  rw [members?, fields?_object]
  exact mapM_map_of_forall fun a ha => uniqueField?_of_mem value hnodup ha

end Json

/-! ## The parts of a resource -/

theorem Direction.ofJson?_name (d : Direction) : ofJson? (.string d.name) = some d := by
  cases d <;> rfl

/-- An entry for a keyword is nested two levels deep at most. -/
theorem KeywordSpec.isSound_toJson (spec : KeywordSpec) (depth : Nat) :
    spec.toJson.isSound (depth + 2) = true := by
  cases spec with
  | surface s => rfl
  | detailed s =>
      rw [toJson, Json.isSound, Json.fieldsSound]
      split
      · rfl
      · simp [Json.isSound, Json.fieldsSound, Json.allSound_iff]

/-- An entry for a keyword is read back. -/
theorem KeywordSpec.ofJson?_toJson (spec : KeywordSpec) : ofJson? spec.toJson = some spec := by
  have hsound : spec.toJson.isSound maxDepth = true := spec.isSound_toJson 123
  cases spec with
  | surface s => rfl
  | detailed s =>
      obtain ⟨surface, aliases⟩ := s
      rw [toJson] at hsound ⊢
      rw [ofJson?.eq_def, if_pos hsound]
      by_cases haliases : aliases = []
      · rw [if_pos haliases, haliases]
        rfl
      · rw [if_neg haliases]
        simp [Json.fields?, Json.uniqueField?, Json.required?, Json.optional?, Json.text?,
          Json.texts?_map_string]

theorem PunctuationRole.nodup_fields : (all.map (·.field)).Nodup := by decide

/-- Punctuation is read back. -/
theorem Punctuation.ofJson?_toJson (p : Punctuation) : ofJson? p.toJson = some p := by
  have hmarks : (PunctuationRole.all.map fun r => some (Json.string (some (p.get r)))).mapM
      (Json.required? Json.text?) = some (PunctuationRole.all.map p.get) :=
    Json.mapM_map_of_forall fun _ _ => rfl
  rw [ofJson?, toJson, Json.members?_object _ PunctuationRole.nodup_fields]
  simp only [Option.bind_eq_bind, Option.bind_some, hmarks]
  rfl

namespace LexiconResource

variable (r : LexiconResource)

/-- The keywords of a resource are read back. -/
theorem keywordsOfJson?_toJson (t : Table KeywordSpec) :
    keywordsOfJson? (.object (t.entries.map fun (key, spec) => (some key, spec.toJson))) =
      some t := by
  have hentries : (t.entries.map fun (e : String × KeywordSpec) => (e.1, e.2.toJson)).mapM
      (fun e => (KeywordSpec.ofJson? e.2).map (e.1, ·)) =
        some (t.entries.map fun e => e) := by
    refine Json.mapM_map_of_forall fun e _ => ?_
    exact congrArg (Option.map _) e.2.ofJson?_toJson
  rw [keywordsOfJson?, Json.fields?_object]
  simp only [Option.bind_eq_bind, Option.bind_some, hentries, List.map_id', Table.ofList_entries]

/-- **A resource is read back** from the value that describes it. -/
theorem ofJson?_toJson : ofJson? r.toJson = some r := by
  have hmembers := @Json.members?_object _ [("id", .string (some r.id)),
    ("name", .string (some r.name)), ("direction", .string (some r.direction.name)),
    ("keywords", .object (r.keywords.entries.map fun (key, spec) => (some key, spec.toJson))),
    ("punctuation", r.punctuation.toJson),
    ("stages", .array (r.stages.map fun s => .string (some s)))] Prod.fst Prod.snd (by simp)
  rw [ofJson?, show r.toJson.members? fieldNames = _ from hmembers]
  simp [Json.required?, Json.optional?, Json.text?, Direction.ofJson?_name, keywordsOfJson?_toJson,
    Punctuation.ofJson?_toJson, Json.texts?_map_string]

/-- All strings of the value that describes a resource are texts. -/
theorem isSound_toJson : r.toJson.isSound 4 = true := by
  have hkeywords : ∀ f ∈ r.keywords.entries.map fun (key, spec) => (some key, spec.toJson),
      f.1.isSome ∧ f.2.isSound 2 = true :=
    List.forall_mem_map.2 fun e _ => ⟨rfl, e.2.isSound_toJson 0⟩
  have hmarks : r.punctuation.toJson.isSound 3 = true := rfl
  have hstages : ∀ j ∈ r.stages.map fun s => Json.string (some s), j.isSound 2 = true :=
    List.forall_mem_map.2 fun _ _ => rfl
  simp [toJson, Json.isSound, Json.fieldsSound, Json.fieldsSound_iff.2 hkeywords, hmarks,
    Json.allSound_iff.2 hstages]

end LexiconResource

namespace Lexicon

variable {r : LexiconResource} {l : Lexicon}

/-- **A lexicon that a resource makes is read back from its text.** -/
theorem read_write (h : ofResource r = .ok l) (origin : String) :
    read origin l.write = .ok l := by
  rw [read, write, Json.read?_pretty l.toResource.isSound_toJson, Option.bind_some,
    LexiconResource.ofJson?_toJson]
  exact ofResource_toResource (isChecked_of_ofResource h)

/-- The names of a lexicon may hold quotes, backslashes, control characters and characters beyond
the basic plane. -/
theorem read_write_escapes :
    let l := { chinese with
      name := "\"\\\x07\n😀", direction := .rightToLeft, stages := ["\t\x7F", ""] }
    ofResource l.toResource = .ok l ∧ read "lexicon.json" l.write = .ok l := by
  intro l
  have hresource : ofResource l.toResource = .ok l := ofResource_toResource
    ⟨isChecked_chinese.id, isChecked_chinese.spellings, isChecked_chinese.marks⟩
  exact ⟨hresource, read_write hresource "lexicon.json"⟩

end Lexicon

end RuleCanon
