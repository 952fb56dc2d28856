import RuleCanon.Proofs.Json.Scalars

/-!
# Values are read back

The written form of a value is read as that value, whatever stands behind it, as long as that
could not be a part of a number.  The reader is bounded by the length of the text: on the way
from a value to one of its items it makes two calls and leaves one character behind, so twice
the length of what is written for a value is enough to read it.

## Main Definitions

* `Json.ReadsBack` — values that are read back from their written form

## Main Statements

* `Json.readItems_itemLines`, `Json.readFields_fieldLines` — the lines of an array or object
* `Json.readsBack_of_isSound` — a value whose strings are texts is read back
* `Json.read?_pretty` — reading inverts printing
-/

namespace RuleCanon.Json

variable {level outer fuel : Nat} {rest : List Char} {j : Json}

/-! ## Blanks -/

@[simp] theorem skipBlanks_newline (text : List Char) :
    skipBlanks ('\n' :: text) = skipBlanks text := by
  simp [skipBlanks]

@[simp] theorem skipBlanks_space (text : List Char) :
    skipBlanks (' ' :: text) = skipBlanks text := by
  simp [skipBlanks]

@[simp] theorem skipBlanks_indentation (level : Nat) (text : List Char) :
    skipBlanks (indentation level ++ text) = skipBlanks text := by
  rw [indentation]
  induction 2 * level with
  | zero => rfl
  | succ n ih => rwa [List.replicate_succ, List.cons_append, skipBlanks_space]

/-- Blanks end in front of a character that is none. -/
theorem skipBlanks_cons_of_mem {c : Char} (h : c ∈ [',', ':', ']', '}', '"']) (text : List Char) :
    skipBlanks (c :: text) = c :: text := by
  have hall : ∀ c ∈ [',', ':', ']', '}', '"'], ¬ (c = ' ' ∨ c = '\t' ∨ c = '\n' ∨ c = '\r') := by
    simp
  rw [skipBlanks, if_neg (hall c h)]

/-- A number starts with a minus sign or a digit. -/
theorem exists_numberText_eq_cons (n : JsonNumber) :
    ∃ c tail, numberText n = c :: tail ∧ (c = '-' ∨ c.isDigit = true) := by
  rw [numberText]
  cases n.negative with
  | true => exact ⟨_, _, rfl, .inl rfl⟩
  | false =>
      obtain ⟨d, ds, hdigits, hd⟩ := exists_toDigits_eq_cons n.digits
      exact ⟨d, _, by rw [hdigits]; rfl, .inr hd⟩

/-- No value starts with a blank or a closing bracket. -/
theorem exists_prettyAt_eq_cons (level : Nat) (j : Json) :
    ∃ c tail, j.prettyAt level = c :: tail ∧ c ∉ [' ', '\t', '\n', '\r', ']'] := by
  cases j with
  | null => exact ⟨_, _, rfl, by decide⟩
  | bool b => cases b <;> exact ⟨_, _, rfl, by decide⟩
  | number n =>
      have hall : ∀ c ∈ [' ', '\t', '\n', '\r', ']'], ¬ (c = '-' ∨ c.isDigit = true) := by simp
      obtain ⟨c, tail, heq, hc⟩ := exists_numberText_eq_cons n
      exact ⟨c, tail, heq, fun hmem => hall c hmem hc⟩
  | string s => exact ⟨_, _, rfl, by decide⟩
  | array items => cases items <;> exact ⟨_, _, rfl, by decide⟩
  | object fields => cases fields <;> exact ⟨_, _, rfl, by decide⟩

/-- The blanks in front of a value end where it starts. -/
@[simp] theorem skipBlanks_prettyAt (level : Nat) (j : Json) (rest : List Char) :
    skipBlanks (j.prettyAt level ++ rest) = j.prettyAt level ++ rest := by
  obtain ⟨c, tail, heq, hc⟩ := exists_prettyAt_eq_cons level j
  rw [heq, List.cons_append, skipBlanks, if_neg]
  rintro (rfl | rfl | rfl | rfl) <;> simp at hc

/-! ## Values -/

/-- The written form of the value is read as the value, with enough calls and in front of a text
that could not be a part of it. -/
def ReadsBack (j : Json) : Prop :=
  ∀ level fuel rest, 2 * (j.prettyAt level).length ≤ fuel → EndsNumber rest →
    readValue fuel (j.prettyAt level ++ rest) = some (j, rest)

theorem endsNumber_cons {c : Char} (h : c ∈ ['\n', ',']) (rest : List Char) :
    EndsNumber (c :: rest) := by
  rintro _ ⟨⟩
  rcases List.mem_pair.1 h with rfl | rfl <;> decide

theorem itemLines_ne_nil {items : List Json} (h : items ≠ []) : itemLines level items ≠ [] := by
  cases items with
  | nil => contradiction
  | cons j items => exact List.cons_ne_nil _ _

/-- **The lines of an array are read back**, one item after the other. -/
theorem readItems_itemLines {items : List Json} (hne : items ≠ [])
    (h : ∀ j ∈ items, j.ReadsBack)
    (hfuel : 2 * ([',', '\n'].intercalate (itemLines level items)).length + 1 ≤ fuel) :
    readItems fuel (skipBlanks ([',', '\n'].intercalate (itemLines level items) ++
      '\n' :: (indentation outer ++ ']' :: rest))) = some (items, rest) := by
  induction items generalizing fuel with
  | nil => contradiction
  | cons j items ih =>
      obtain ⟨fuel, rfl⟩ : ∃ n, fuel = n + 1 := ⟨fuel - 1, by omega⟩
      have hj := h j List.mem_cons_self level fuel
      -- a closing bracket comes after the last item, a comma after any other
      by_cases hitems : items = []
      · rw [hitems, itemLines, itemLines, List.intercalate_singleton] at hfuel ⊢
        rw [List.length_append] at hfuel
        rw [List.append_assoc, skipBlanks_indentation, skipBlanks_prettyAt, readItems,
          hj _ (by omega) (endsNumber_cons (by decide) _)]
        simp only [skipBlanks_newline, skipBlanks_indentation,
          skipBlanks_cons_of_mem (c := ']') (by decide)]
      · rw [itemLines, List.intercalate_cons_of_ne_nil (itemLines_ne_nil hitems)] at hfuel ⊢
        simp only [List.length_append, List.length_cons] at hfuel
        simp only [List.append_assoc, List.cons_append, List.nil_append]
        rw [skipBlanks_indentation, skipBlanks_prettyAt, readItems,
          hj _ (by omega) (endsNumber_cons (by decide) _)]
        have hrest := @ih fuel hitems (fun k hk => h k (List.mem_cons_of_mem _ hk)) (by omega)
        simp only [skipBlanks_cons_of_mem (c := ',') (by decide), skipBlanks_newline, hrest,
          Option.map_some]

theorem fieldLines_ne_nil {fields : List (Option String × Json)} (h : fields ≠ []) :
    fieldLines level fields ≠ [] := by
  cases fields with
  | nil => contradiction
  | cons f fields => exact List.cons_ne_nil _ _

/-- The line of a field starts with the quote in front of its name. -/
theorem skipBlanks_fieldLine (level : Nat) (name : String) (value : List Char) :
    skipBlanks (indentation level ++ (quote name ++ value)) =
      '"' :: (name.toList.flatMap escapeChar ++ '"' :: value) := by
  rw [skipBlanks_indentation, quote, List.append_assoc, List.cons_append,
    skipBlanks_cons_of_mem (by decide), List.singleton_append]

section Field

variable {name : String} {tail : List Char} (hj : j.ReadsBack)
  (hfuel : 2 * (j.prettyAt level).length ≤ fuel) (hrest : EndsNumber rest)

include hj hfuel hrest

/-- The last field of an object is read back. -/
theorem readFields_last (hclose : skipBlanks rest = '}' :: tail) :
    readFields (fuel + 1) ('"' :: (name.toList.flatMap escapeChar ++
      '"' :: ':' :: ' ' :: (j.prettyAt level ++ rest))) = some ([(some name, j)], tail) := by
  rw [readFields, readString_quote]
  simp only [skipBlanks_cons_of_mem (c := ':') (by decide), skipBlanks_space,
    skipBlanks_prettyAt, hj level fuel rest hfuel hrest, hclose]

/-- A field is read back together with those that come after it. -/
theorem readFields_more {fields : List (Option String × Json)} {after : List Char}
    (hcomma : skipBlanks rest = ',' :: tail)
    (hmore : readFields fuel (skipBlanks tail) = some (fields, after)) :
    readFields (fuel + 1) ('"' :: (name.toList.flatMap escapeChar ++
      '"' :: ':' :: ' ' :: (j.prettyAt level ++ rest))) =
        some ((some name, j) :: fields, after) := by
  rw [readFields, readString_quote]
  simp only [skipBlanks_cons_of_mem (c := ':') (by decide), skipBlanks_space,
    skipBlanks_prettyAt, hj level fuel rest hfuel hrest, hcomma, hmore, Option.map_some]

end Field

/-- **The lines of an object are read back**, one field after the other. -/
theorem readFields_fieldLines {fields : List (Option String × Json)} (hne : fields ≠ [])
    (h : ∀ f ∈ fields, f.1.isSome ∧ f.2.ReadsBack)
    (hfuel : 2 * ([',', '\n'].intercalate (fieldLines level fields)).length + 1 ≤ fuel) :
    readFields fuel (skipBlanks ([',', '\n'].intercalate (fieldLines level fields) ++
      '\n' :: (indentation outer ++ '}' :: rest))) = some (fields, rest) := by
  induction fields generalizing fuel with
  | nil => contradiction
  | cons f fields ih =>
      obtain ⟨fuel, rfl⟩ : ∃ n, fuel = n + 1 := ⟨fuel - 1, by omega⟩
      obtain ⟨name, j⟩ := f
      obtain ⟨hname, hj⟩ : name.isSome ∧ j.ReadsBack := h _ List.mem_cons_self
      obtain ⟨name, rfl⟩ := Option.isSome_iff_exists.1 hname
      by_cases hfields : fields = []
      · rw [hfields, fieldLines, fieldLines, List.intercalate_singleton] at hfuel ⊢
        simp only [List.length_append, List.length_cons] at hfuel
        simp only [List.append_assoc, List.cons_append]
        rw [skipBlanks_fieldLine]
        refine readFields_last hj (by omega) (endsNumber_cons (by decide) _) ?_
        rw [skipBlanks_newline, skipBlanks_indentation, skipBlanks_cons_of_mem (by decide)]
      · rw [fieldLines, List.intercalate_cons_of_ne_nil (fieldLines_ne_nil hfields)] at hfuel ⊢
        simp only [List.length_append, List.length_cons] at hfuel
        simp only [List.append_assoc, List.cons_append, List.nil_append]
        rw [skipBlanks_fieldLine]
        refine readFields_more hj (by omega) (endsNumber_cons (by decide) _)
          (skipBlanks_cons_of_mem (by decide) _) ?_
        rw [skipBlanks_newline]
        exact ih hfields (fun k hk => h k (List.mem_cons_of_mem _ hk)) (by omega)

/-- The lines between brackets start with the first of them. -/
theorem exists_intercalate_cons {α : Type} (separator line : List α) (lines : List (List α)) :
    ∃ tail, separator.intercalate (line :: lines) = line ++ tail := by
  cases lines with
  | nil => exact ⟨[], by rw [List.intercalate_singleton, List.append_nil]⟩
  | cons l lines => exact ⟨_, by rw [List.intercalate_cons_cons, List.append_assoc]⟩

/-- Every value takes at least one call. -/
theorem readsBack_of_succ (h : ∀ level fuel rest, 2 * (j.prettyAt level).length ≤ fuel + 1 →
    EndsNumber rest → readValue (fuel + 1) (j.prettyAt level ++ rest) = some (j, rest)) :
    j.ReadsBack := by
  intro level fuel rest hfuel hrest
  obtain ⟨c, tail, heq, -⟩ := exists_prettyAt_eq_cons level j
  cases fuel with
  | zero => simp [heq] at hfuel
  | succ fuel => exact h level fuel rest hfuel hrest

theorem readsBack_string (s : String) : (string s).ReadsBack := by
  refine readsBack_of_succ fun level fuel rest _ _ => ?_
  rw [prettyAt, Option.getD_some, quote, List.append_assoc, List.cons_append, readValue,
    List.singleton_append, readString_quote]
  rfl

theorem readsBack_number (n : JsonNumber) : (number n).ReadsBack := by
  refine readsBack_of_succ fun level fuel rest _ hrest => ?_
  obtain ⟨c, tail, heq, hc⟩ := exists_numberText_eq_cons n
  have hother : ∀ d ∈ ['{', '[', '"', 't', 'f', 'n'], ∀ t, numberText n ++ rest ≠ d :: t := by
    rintro d hd t h
    rw [heq, List.cons_append, List.cons.injEq] at h
    have hall : ∀ d ∈ ['{', '[', '"', 't', 'f', 'n'], ¬ (d = '-' ∨ d.isDigit = true) := by simp
    exact hall d hd (h.1 ▸ hc)
  rw [prettyAt, readValue.eq_8 _ _ (hother _ (by decide)) (hother _ (by decide))
    (hother _ (by decide)) (fun _ => hother _ (by decide) _) (fun _ => hother _ (by decide) _)
    (fun _ => hother _ (by decide) _), readNumber_numberText n hrest]
  rfl

/-- Lines between brackets stand on lines of their own. -/
theorem bracketed_of_ne_nil {lines : List (List Char)} (h : lines ≠ [])
    (opening closing : Char) (level : Nat) :
    bracketed opening closing level lines =
      opening :: '\n' :: ([',', '\n'].intercalate lines ++
        '\n' :: (indentation level ++ [closing])) := by
  cases lines with
  | nil => contradiction
  | cons line lines => simp only [bracketed, List.cons_append, List.append_assoc]

/-- An array that does not close at once is read as its items. -/
theorem readValue_array {text : List Char} {items : List Json}
    (hopen : ∀ tail, skipBlanks text ≠ ']' :: tail)
    (h : readItems fuel (skipBlanks text) = some (items, rest)) :
    readValue (fuel + 1) ('[' :: text) = some (array items, rest) := by
  rw [readValue]
  split
  · next tail htext => exact absurd htext (hopen tail)
  · rw [h]
    rfl

/-- An object that does not close at once is read as its fields. -/
theorem readValue_object {text : List Char} {fields : List (Option String × Json)}
    (hopen : ∀ tail, skipBlanks text ≠ '}' :: tail)
    (h : readFields fuel (skipBlanks text) = some (fields, rest)) :
    readValue (fuel + 1) ('{' :: text) = some (object fields, rest) := by
  rw [readValue]
  split
  · next tail htext => exact absurd htext (hopen tail)
  · rw [h]
    rfl

theorem readsBack_array {items : List Json} (h : ∀ j ∈ items, j.ReadsBack) :
    (array items).ReadsBack := by
  refine readsBack_of_succ fun level fuel rest hfuel _ => ?_
  cases items with
  | nil => rfl
  | cons j items =>
      rw [prettyAt, bracketed_of_ne_nil (itemLines_ne_nil (List.cons_ne_nil _ _))] at hfuel ⊢
      simp only [List.length_cons, List.length_append] at hfuel
      simp only [List.cons_append, List.append_assoc, List.nil_append]
      refine readValue_array (fun tail htail => ?_) ?_
      · obtain ⟨lines, hlines⟩ := exists_intercalate_cons [',', '\n']
          (indentation (level + 1) ++ j.prettyAt (level + 1)) (itemLines (level + 1) items)
        obtain ⟨c, value, hvalue, hc⟩ := exists_prettyAt_eq_cons (level + 1) j
        rw [itemLines, hlines, skipBlanks_newline, List.append_assoc, List.append_assoc,
          skipBlanks_indentation, skipBlanks_prettyAt, hvalue, List.cons_append,
          List.cons.injEq] at htail
        -- no item starts with the bracket that would close the array
        rw [htail.1] at hc
        exact hc (by decide)
      · rw [skipBlanks_newline]
        exact readItems_itemLines (List.cons_ne_nil _ _) h (by omega)

theorem readsBack_object {fields : List (Option String × Json)}
    (h : ∀ f ∈ fields, f.1.isSome ∧ f.2.ReadsBack) : (object fields).ReadsBack := by
  refine readsBack_of_succ fun level fuel rest hfuel _ => ?_
  cases fields with
  | nil => rfl
  | cons f fields =>
      rw [prettyAt, bracketed_of_ne_nil (fieldLines_ne_nil (List.cons_ne_nil _ _))] at hfuel ⊢
      simp only [List.length_cons, List.length_append] at hfuel
      simp only [List.cons_append, List.append_assoc, List.nil_append]
      refine readValue_object (fun tail htail => ?_) ?_
      · obtain ⟨lines, hlines⟩ := exists_intercalate_cons [',', '\n']
          (indentation (level + 1) ++ quote (f.1.getD "") ++ ':' :: ' ' ::
            f.2.prettyAt (level + 1)) (fieldLines (level + 1) fields)
        rw [fieldLines, hlines, skipBlanks_newline, List.append_assoc, List.append_assoc,
          List.append_assoc, skipBlanks_fieldLine, List.cons.injEq] at htail
        exact absurd htail.1 (by decide)
      · rw [skipBlanks_newline]
        exact readFields_fieldLines (List.cons_ne_nil _ _) h (by omega)

/-! ## All values -/

mutual

/-- **A value whose strings are texts is read back.** -/
theorem readsBack_of_isSound : ∀ {depth : Nat} (j : Json), j.isSound depth → j.ReadsBack
  | _, null, _ => readsBack_of_succ fun _ _ _ _ _ => rfl
  | _, bool b, _ => readsBack_of_succ fun _ _ _ _ _ => by cases b <;> rfl
  | _, number n, _ => readsBack_number n
  | _, string s, h => by
      obtain ⟨s, rfl⟩ := Option.isSome_iff_exists.1 h
      exact readsBack_string s
  -- a value with parts is not sound at depth zero
  | _ + 1, array items, h => readsBack_array (readsBack_of_allSound items h)
  | _ + 1, object fields, h => readsBack_object (readsBack_of_fieldsSound fields h)

theorem readsBack_of_allSound :
    ∀ {depth : Nat} (items : List Json), allSound depth items → ∀ j ∈ items, j.ReadsBack
  | _, [], _ => fun _ hj => absurd hj List.not_mem_nil
  | _, j :: items, h => by
      obtain ⟨hj, hitems⟩ := Bool.and_eq_true_iff.1 h
      exact List.forall_mem_cons.2
        ⟨readsBack_of_isSound j hj, readsBack_of_allSound items hitems⟩

theorem readsBack_of_fieldsSound :
    ∀ {depth : Nat} (fields : List (Option String × Json)), fieldsSound depth fields →
      ∀ f ∈ fields, f.1.isSome ∧ f.2.ReadsBack
  | _, [], _ => fun _ hf => absurd hf List.not_mem_nil
  | _, (name, j) :: fields, h => by
      obtain ⟨hj, hfields⟩ := Bool.and_eq_true_iff.1 h
      obtain ⟨hname, hj⟩ := Bool.and_eq_true_iff.1 hj
      exact List.forall_mem_cons.2
        ⟨⟨hname, readsBack_of_isSound j hj⟩, readsBack_of_fieldsSound fields hfields⟩

end

/-- **Reading inverts printing**, for every value whose strings are texts. -/
theorem read?_pretty {depth : Nat} (h : j.isSound depth) : read? j.pretty = some j := by
  have hread := readsBack_of_isSound j h 0 (2 * j.pretty.length + 1) [] (Nat.le_succ _)
    fun _ h => absurd h (Option.not_mem_none _)
  have hblanks := skipBlanks_prettyAt 0 j []
  rw [List.append_nil] at hread hblanks
  rw [read?, pretty, hblanks]
  rw [pretty] at hread
  rw [hread]
  rfl

end RuleCanon.Json
