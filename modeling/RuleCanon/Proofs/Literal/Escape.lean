import RuleCanon.Proofs.Literal.Body

/-!
# What an escaped body shows

A body that is written for another closing mark gets a backslash wherever that mark stands in it.
The reader of what is written looks for the mark at every bare character, and what it sees there
is not the body: backslashes have been put in, and the closing mark itself follows.  So it can find
a mark that the body does not have, and then the literal ends too early.

If there is no backslash in the mark, those put in cannot become part of one, and only the end of
the body can be taken for the start of the mark that follows it.  This asks for a mark with an end
that is a start of it too, which a single character does not have.

## Main Definitions

* `Emerges` — a mark that can be read in what is written for a body
* `Overlaps` — a body with an end that starts the mark behind it

## Main Statements

* `splitBody_escapeBody_iff`, `splitBody_escapeBody_open_iff` — an escaped body ends where it did
  just if no mark emerges from it
* `emerges_iff_overlaps` — when a mark without backslashes emerges
* `splitBody_escapeBody`, `splitBody_escapeBody_open` — for a single character an escaped body ends
  where it did
-/

namespace RuleCanon

/-- A closing mark emerges from a body that has more text behind it: from a bare character on, the
mark can be read in what is written.  Where the mark stands in the body itself it does not emerge,
since a backslash is written there. -/
def Emerges (closing body more : List Char) : Prop :=
  ∃ front c rest, body = front ++ c :: rest ∧ isWhole front = true ∧ c ≠ '\\' ∧
    closing <+: escapeBody closing (c :: rest) ++ more

/-- The body has an end that is not protected and that starts the closing mark together with the
mark behind it. -/
def Overlaps (closing body : List Char) : Prop :=
  ∃ front rest, body = front ++ rest ∧ isWhole front = true ∧ rest ≠ [] ∧
    rest.length < closing.length ∧ closing <+: rest ++ closing

variable {closing body rest more front : List Char} {c e : Char}

/-! ## One step at a time -/

theorem escapeBody_escape (e : Char) :
    escapeBody closing ('\\' :: e :: rest) = '\\' :: e :: escapeBody closing rest := by
  rw [escapeBody.eq_def]
  simp

theorem escapeBody_cons_of_closed (hc : c ≠ '\\') (h : closing <+: c :: rest) :
    escapeBody closing (c :: rest) = '\\' :: c :: escapeBody closing rest := by
  rw [escapeBody.eq_def]
  simp [hc, List.isPrefixOf_iff_prefix.2 h]

theorem escapeBody_cons_of_not_closed (hc : c ≠ '\\') (h : ¬ closing <+: c :: rest) :
    escapeBody closing (c :: rest) = c :: escapeBody closing rest := by
  rw [← List.isPrefixOf_iff_prefix] at h
  rw [escapeBody.eq_def]
  simp [hc, h]

theorem not_emerges_nil : ¬ Emerges closing [] more := by
  rintro ⟨front, c, rest, hbody, -⟩
  simp at hbody

/-- Nothing emerges from a lone backslash. -/
theorem not_emerges_backslash : ¬ Emerges closing ['\\'] more := by
  rintro ⟨front, c, rest, hbody, -, hc, -⟩
  cases front with
  | nil => exact hc (List.cons.inj hbody).1.symm
  | cons a front => simp at hbody

/-- Nothing emerges from a backslash and the character that it protects. -/
theorem emerges_escape : Emerges closing ('\\' :: e :: body) more ↔ Emerges closing body more := by
  constructor
  · rintro ⟨front, c, rest, hbody, hwhole, hc, hmark⟩
    match front with
    | [] => exact absurd (List.cons.inj hbody).1.symm hc
    | [a] =>
        obtain ⟨rfl, -⟩ := List.cons.inj hbody
        simp [isWhole] at hwhole
    | a :: b :: front =>
        simp only [List.cons_append, List.cons.injEq] at hbody
        obtain ⟨rfl, rfl, rfl⟩ := hbody
        exact ⟨front, c, rest, rfl, by simpa [isWhole] using hwhole, hc, hmark⟩
  · rintro ⟨front, c, rest, rfl, hwhole, hc, hmark⟩
    exact ⟨'\\' :: e :: front, c, rest, rfl, by simpa [isWhole] using hwhole, hc, hmark⟩

/-- A mark emerges at the first character, if that is bare, or further on. -/
theorem emerges_cons (hc : c ≠ '\\') :
    Emerges closing (c :: body) more ↔
      closing <+: escapeBody closing (c :: body) ++ more ∨ Emerges closing body more := by
  constructor
  · rintro ⟨front, a, rest, hbody, hwhole, ha, hmark⟩
    cases front with
    | nil =>
        rw [List.nil_append] at hbody
        exact .inl (hbody ▸ hmark)
    | cons b front =>
        obtain ⟨rfl, rfl⟩ := List.cons.inj hbody
        exact .inr ⟨front, a, rest, rfl, by rwa [isWhole_cons_of_ne hc] at hwhole, ha, hmark⟩
  · rintro (hmark | ⟨front, a, rest, rfl, hwhole, ha, hmark⟩)
    · exact ⟨[], c, body, rfl, rfl, hc, hmark⟩
    · exact ⟨c :: front, a, rest, rfl, by rwa [isWhole_cons_of_ne hc], ha, hmark⟩

/-- A mark that does not start with a backslash cannot be read where one was written. -/
theorem not_prefix_backslash (hne : closing ≠ []) (hhead : closing.head? ≠ some '\\') :
    ¬ closing <+: '\\' :: rest := by
  obtain ⟨a, tail, rfl⟩ := List.exists_cons_of_ne_nil hne
  rw [List.cons_prefix_cons]
  rintro ⟨rfl, -⟩
  exact hhead rfl

/-- A mark that starts at another character does not start with a backslash. -/
theorem head?_ne_backslash (hc : c ≠ '\\') (h : closing <+: c :: rest) :
    closing.head? ≠ some '\\' := by
  cases closing with
  | nil => simp
  | cons a tail =>
      rw [List.cons_prefix_cons] at h
      simpa [h.1] using hc

/-- Where the mark stands in the body it does not emerge. -/
theorem emerges_cons_of_closed (hne : closing ≠ []) (hc : c ≠ '\\') (h : closing <+: c :: body) :
    Emerges closing (c :: body) more ↔ Emerges closing body more := by
  rw [emerges_cons hc, escapeBody_cons_of_closed hc h]
  exact or_iff_right (not_prefix_backslash hne (head?_ne_backslash hc h))

/-! ## Where an escaped body ends -/

/-- A mark that starts with a backslash is never found. -/
theorem splitBody_of_head?_eq (h : closing.head? = some '\\') (text : List Char) :
    splitBody closing text = (text, none) := by
  fun_induction splitBody closing text with
  | case1 => rfl
  | case2 => rfl
  | case3 e rest body after hsplit ih =>
      obtain ⟨rfl, rfl⟩ := Prod.mk.inj (hsplit.symm.trans ih)
      rfl
  | case4 c rest hc hclose =>
      exact absurd h (head?_ne_backslash hc (List.isPrefixOf_iff_prefix.1 hclose))
  | case5 c rest hc hclose body after hsplit ih =>
      obtain ⟨rfl, rfl⟩ := Prod.mk.inj (hsplit.symm.trans ih)
      rfl

/-- **An escaped body ends where it did** just if no mark emerges from it.  Behind it stands a mark
that is found, or nothing at all; in the first case a backslash at the very end would protect that
mark. -/
theorem splitBody_escapeBody_append_iff {tail : List Char} {after : Option (List Char)}
    (hne : closing ≠ []) (htail : splitBody closing tail = ([], after))
    (hwhole : isWhole body = true ∨ tail = []) :
    splitBody closing (escapeBody closing body ++ tail) = (escapeBody closing body, after) ↔
      ¬ Emerges closing body tail := by
  fun_induction escapeBody closing body with
  | case1 => exact iff_of_true htail not_emerges_nil
  | case2 =>
      obtain rfl : tail = [] := hwhole.resolve_left (by simp [isWhole])
      obtain rfl : none = after := (Prod.mk.inj htail).2
      exact iff_of_true rfl not_emerges_backslash
  | case3 e body ih =>
      have hbody := ih (by simpa [isWhole] using hwhole)
      rw [emerges_escape, ← hbody, List.cons_append, List.cons_append, splitBody_escape]
      simp [Prod.ext_iff]
  | case4 c body hc hclose ih =>
      -- the mark in the body has got a backslash before it
      have hbody := ih (by simpa [isWhole_cons_of_ne hc] using hwhole)
      rw [emerges_cons_of_closed hne hc (List.isPrefixOf_iff_prefix.1 hclose), ← hbody,
        List.cons_append, List.cons_append, splitBody_escape]
      simp [Prod.ext_iff]
  | case5 c body hc hclose ih =>
      have hbody := ih (by simpa [isWhole_cons_of_ne hc] using hwhole)
      rw [List.isPrefixOf_iff_prefix] at hclose
      rw [emerges_cons hc, escapeBody_cons_of_not_closed hc hclose, List.cons_append]
      by_cases hmark : closing <+: c :: (escapeBody closing body ++ tail)
      · -- the mark can be read here, so the body is taken to end
        rw [splitBody_cons_of_closed hc (List.isPrefixOf_iff_prefix.2 hmark)]
        simp [hmark]
      · have hopen : closing.isPrefixOf (c :: (escapeBody closing body ++ tail)) = false := by
          rwa [← Bool.not_eq_true, List.isPrefixOf_iff_prefix]
        rw [splitBody_cons_of_not_closed hc hopen, or_iff_right hmark, ← hbody]
        simp [Prod.ext_iff]

/-- What stands behind the closing mark plays no part. -/
theorem emerges_append : Emerges closing body (closing ++ more) ↔ Emerges closing body closing := by
  have hmark (t : List Char) :
      closing <+: escapeBody closing t ++ (closing ++ more) ↔
        closing <+: escapeBody closing t ++ closing := by
    have hlength : closing.length ≤ (escapeBody closing t ++ closing).length := by simp
    rw [← List.isPrefixOf_iff_prefix, ← List.isPrefixOf_iff_prefix, ← List.append_assoc,
      isPrefixOf_append_congr hlength, List.append_nil]
  simp only [Emerges, hmark]

/-- **An escaped body that is closed ends where it did** just if the mark behind it can be found
and no mark emerges. -/
theorem splitBody_escapeBody_iff (hne : closing ≠ []) (hwhole : isWhole body = true)
    (rest : List Char) :
    splitBody closing (escapeBody closing body ++ (closing ++ rest)) =
        (escapeBody closing body, some rest) ↔
      closing.head? ≠ some '\\' ∧ ¬ Emerges closing body closing := by
  by_cases hhead : closing.head? = some '\\'
  · rw [splitBody_of_head?_eq hhead]
    simp [hhead]
  · have htail : splitBody closing (closing ++ rest) = ([], some rest) := by
      obtain ⟨a, tail, rfl⟩ := List.exists_cons_of_ne_nil hne
      have ha : a ≠ '\\' := by simpa using hhead
      have hstart := List.isPrefixOf_iff_prefix.2 (List.prefix_append (a :: tail) rest)
      rw [List.cons_append] at hstart ⊢
      rw [splitBody_cons_of_closed ha hstart, ← List.cons_append, List.drop_left]
    rw [splitBody_escapeBody_append_iff hne htail (.inl hwhole), emerges_append,
      and_iff_right hhead]

/-- **An escaped body that is open stays open** just if no mark emerges from it. -/
theorem splitBody_escapeBody_open_iff (hne : closing ≠ []) :
    (splitBody closing (escapeBody closing body)).2 = none ↔ ¬ Emerges closing body [] := by
  rw [← splitBody_escapeBody_append_iff hne rfl (.inr rfl), List.append_nil]
  refine ⟨fun hopen => ?_, fun h => by rw [h]⟩
  have hpair : splitBody closing (escapeBody closing body) =
      ((splitBody closing (escapeBody closing body)).1, none) := Prod.ext rfl hopen
  rw [hpair, eq_of_splitBody_none hpair]

/-! ## Marks without backslashes -/

theorem exists_escapeBody_backslash (closing rest : List Char) :
    ∃ written, escapeBody closing ('\\' :: rest) = '\\' :: written := by
  cases rest with
  | nil => exact ⟨[], rfl⟩
  | cons e rest => exact ⟨_, escapeBody_escape e⟩

/-- **Up to the first backslash a body is written as it is.** -/
theorem prefix_append_of_prefix_escapeBody {w : List Char} (hw : '\\' ∉ w)
    (h : w <+: escapeBody closing body ++ more) : w <+: body ++ more := by
  induction body generalizing w with
  | nil => exact h
  | cons c body ih =>
      cases w with
      | nil => exact List.nil_prefix
      | cons a w =>
          obtain ⟨ha, hw⟩ := not_or.1 (mt List.mem_cons.2 hw)
          by_cases hc : c = '\\'
          · obtain ⟨written, hwritten⟩ := exists_escapeBody_backslash closing body
            rw [hc, hwritten, List.cons_append, List.cons_prefix_cons] at h
            exact absurd h.1.symm ha
          by_cases hclose : closing <+: c :: body
          · rw [escapeBody_cons_of_closed hc hclose, List.cons_append, List.cons_prefix_cons] at h
            exact absurd h.1.symm ha
          · rw [escapeBody_cons_of_not_closed hc hclose, List.cons_append,
              List.cons_prefix_cons] at h
            exact List.cons_prefix_cons.2 ⟨h.1, ih hw h.2⟩

/-- A body that is too short for the mark is written as it is. -/
theorem escapeBody_eq_self (hbody : '\\' ∉ body) (hlength : body.length < closing.length) :
    escapeBody closing body = body := by
  induction body with
  | nil => rfl
  | cons c body ih =>
      obtain ⟨hc, hbody⟩ := not_or.1 (mt List.mem_cons.2 hbody)
      have hclose : ¬ closing <+: c :: body := fun h => by
        have := h.length_le
        omega
      rw [escapeBody_cons_of_not_closed (Ne.symm hc) hclose, ih hbody]
      rw [List.length_cons] at hlength
      omega

section Free

variable (hne : closing ≠ []) (hfree : '\\' ∉ closing)

include hfree

theorem head?_ne_of_not_mem : closing.head? ≠ some '\\' :=
  fun hhead => hfree (List.mem_of_mem_head? hhead)

include hne

/-- A mark cannot be read from a place of the body where it stands. -/
theorem not_prefix_of_prefix_escapeBody (hc : c ≠ '\\')
    (h : closing <+: escapeBody closing (c :: rest) ++ more) : ¬ closing <+: c :: rest := by
  intro hclose
  rw [escapeBody_cons_of_closed hc hclose] at h
  exact not_prefix_backslash hne (head?_ne_of_not_mem hfree) h

/-- From a body with nothing behind it no such mark emerges. -/
theorem not_emerges_open : ¬ Emerges closing body [] := by
  rintro ⟨front, c, rest, -, -, hc, hmark⟩
  have hclose := prefix_append_of_prefix_escapeBody hfree hmark
  rw [List.append_nil] at hclose
  exact not_prefix_of_prefix_escapeBody hne hfree hc hmark hclose

/-- **A mark without backslashes emerges** just if it overlaps with the end of the body. -/
theorem emerges_iff_overlaps : Emerges closing body closing ↔ Overlaps closing body := by
  constructor
  · rintro ⟨front, c, rest, hbody, hwhole, hc, hmark⟩
    have hclose := prefix_append_of_prefix_escapeBody hfree hmark
    refine ⟨front, c :: rest, hbody, hwhole, List.cons_ne_nil c rest, ?_, hclose⟩
    refine Nat.lt_of_not_le fun hlength => ?_
    exact not_prefix_of_prefix_escapeBody hne hfree hc hmark
      (List.prefix_of_prefix_length_le hclose (List.prefix_append _ _) (by omega))
  · rintro ⟨front, rest, hbody, hwhole, hrest, hlength, hclose⟩
    have hstart : rest <+: closing :=
      List.prefix_of_prefix_length_le (List.prefix_append _ _) hclose (by omega)
    have hplain : '\\' ∉ rest := fun hmem => hfree (hstart.subset hmem)
    obtain ⟨c, rest, rfl⟩ := List.exists_cons_of_ne_nil hrest
    refine ⟨front, c, rest, hbody, hwhole, fun hc => hplain (hc ▸ List.mem_cons_self), ?_⟩
    rwa [escapeBody_eq_self hplain hlength]

end Free

/-- A mark that overlaps with a body has an end that starts the mark. -/
theorem Overlaps.exists_border (h : Overlaps closing body) :
    ∃ k, 0 < k ∧ k < closing.length ∧ closing.drop k <+: closing := by
  obtain ⟨front, rest, -, -, hrest, hlength, hclose⟩ := h
  refine ⟨rest.length, List.length_pos_iff.2 hrest, hlength, ?_⟩
  obtain ⟨tail, htail⟩ := hclose
  refine ⟨tail, ?_⟩
  rw [← List.drop_append_of_le_length (Nat.le_of_lt hlength), htail, List.drop_left]

/-! ## Marks of one character -/

/-- A mark of one character does not overlap with anything. -/
theorem not_emerges_singleton {q : Char} (hq : q ≠ '\\') : ¬ Emerges [q] body [q] := by
  have hfree : '\\' ∉ [q] := by simpa using hq.symm
  rw [emerges_iff_overlaps (List.cons_ne_nil q []) hfree]
  intro hoverlaps
  obtain ⟨k, hpos, hlt, -⟩ := hoverlaps.exists_border
  rw [List.length_singleton] at hlt
  omega

/-- **An escaped body ends where it did.**  No closing mark in it is bare, and since the body
is whole its last character does not protect the closing mark that follows. -/
theorem splitBody_escapeBody {q : Char} (hq : q ≠ '\\') {body : List Char}
    (hwhole : isWhole body = true) (rest : List Char) :
    splitBody [q] (escapeBody [q] body ++ q :: rest) = (escapeBody [q] body, some rest) :=
  (splitBody_escapeBody_iff (List.cons_ne_nil q []) hwhole rest).2
    ⟨by simpa using hq, not_emerges_singleton hq⟩

/-- An escaped body without a closing mark after it stays open. -/
theorem splitBody_escapeBody_open {q : Char} {body : List Char} :
    splitBody [q] (escapeBody [q] body) = (escapeBody [q] body, none) := by
  by_cases hq : q = '\\'
  · exact splitBody_of_head?_eq (by rw [hq]; rfl) _
  · have hfree : '\\' ∉ [q] := by simpa using Ne.symm hq
    have hopen : ¬ Emerges [q] body [] := not_emerges_open (List.cons_ne_nil q []) hfree
    rwa [← splitBody_escapeBody_append_iff (List.cons_ne_nil q []) rfl (.inr rfl),
      List.append_nil] at hopen

end RuleCanon
