import RuleCanon.Literal.Quotes

/-!
# Bodies of literals

A backslash in a body protects the character after it.  Three functions go through a body two
characters at a time for that reason: `splitBody` finds where it ends, `escapeBody` writes it
for another closing mark, and `unescape` says what it stands for.  This module shows that they
agree on which characters are protected.

## Main Definitions

* `unescape` — what a body stands for
* `isWhole` — whether each backslash of a body has a character to protect

## Main Statements

* `eq_append_of_splitBody`, `isWhole_of_splitBody` — what the end of a body looks like
* `splitBody_append_of_splitBody` — a body ends at its closing mark whatever text follows
* `unescape_escapeBody` — an escaped body stands for the same text
-/

namespace RuleCanon

/-- What a body stands for: each backslash that protects a character is dropped, and the
character is kept.  A backslash at the very end has nothing to protect and stands for itself. -/
def unescape : List Char → List Char
  | [] => []
  | c :: rest =>
    if c = '\\' then
      match rest with
      | [] => [c]
      | e :: rest => e :: unescape rest
    else c :: unescape rest

/-- Whether each backslash of a body that is not protected itself has a character after it. -/
def isWhole : List Char → Bool
  | [] => true
  | c :: rest =>
    if c = '\\' then
      match rest with
      | [] => false
      | _ :: rest => isWhole rest
    else isWhole rest

/-! ## One step at a time -/

section Steps

variable {c : Char} {rest closing : List Char}

theorem unescape_cons_of_ne (hc : c ≠ '\\') : unescape (c :: rest) = c :: unescape rest := by
  cases rest <;> simp [unescape, hc]

theorem isWhole_cons_of_ne (hc : c ≠ '\\') : isWhole (c :: rest) = isWhole rest := by
  cases rest <;> simp [isWhole, hc]

/-- At a character that is no backslash, a body ends if the closing mark starts there. -/
theorem splitBody_cons_of_closed (hc : c ≠ '\\') (h : closing.isPrefixOf (c :: rest) = true) :
    splitBody closing (c :: rest) = ([], some ((c :: rest).drop closing.length)) := by
  rw [splitBody.eq_def]
  simp [hc, h]

/-- At a character that is no backslash, a body goes on if the closing mark does not start
there. -/
theorem splitBody_cons_of_not_closed (hc : c ≠ '\\')
    (h : closing.isPrefixOf (c :: rest) = false) :
    splitBody closing (c :: rest) =
      (c :: (splitBody closing rest).1, (splitBody closing rest).2) := by
  rw [splitBody.eq_def]
  simp [hc, h]

theorem splitBody_escape (e : Char) :
    splitBody closing ('\\' :: e :: rest) =
      ('\\' :: e :: (splitBody closing rest).1, (splitBody closing rest).2) := by
  rw [splitBody.eq_def]
  simp

end Steps

/-! ## Where a body ends -/

/-- The closing mark stands between the body and what follows it. -/
theorem eq_append_of_splitBody {closing text body after : List Char}
    (h : splitBody closing text = (body, some after)) : text = body ++ closing ++ after := by
  fun_induction splitBody closing text generalizing body with
  | case1 => simp at h
  | case2 => simp at h
  | case3 e rest body' after' hsplit ih =>
      obtain ⟨rfl, rfl⟩ := Prod.mk.inj h
      simpa using ih hsplit
  | case4 c rest hc hclose =>
      obtain ⟨rfl, hafter⟩ := Prod.mk.inj h
      obtain ⟨tail, htail⟩ := List.isPrefixOf_iff_prefix.1 hclose
      rw [← htail, List.drop_left, Option.some_inj] at hafter
      simp [← htail, hafter]
  | case5 c rest hc hclose body' after' hsplit ih =>
      obtain ⟨rfl, rfl⟩ := Prod.mk.inj h
      simpa using ih hsplit

/-- The body of a closed literal does not end in a backslash that would protect the closing
mark. -/
theorem isWhole_of_splitBody {closing text body after : List Char}
    (h : splitBody closing text = (body, some after)) : isWhole body = true := by
  fun_induction splitBody closing text generalizing body with
  | case1 => simp at h
  | case2 => simp at h
  | case3 e rest body' after' hsplit ih =>
      obtain ⟨rfl, rfl⟩ := Prod.mk.inj h
      simpa [isWhole] using ih hsplit
  | case4 c rest hc hclose =>
      obtain ⟨rfl, -⟩ := Prod.mk.inj h
      rfl
  | case5 c rest hc hclose body' after' hsplit ih =>
      obtain ⟨rfl, rfl⟩ := Prod.mk.inj h
      rw [isWhole_cons_of_ne hc]
      exact ih hsplit

/-- The body of an open literal is all of the text. -/
theorem eq_of_splitBody_none {closing text body : List Char}
    (h : splitBody closing text = (body, none)) : body = text := by
  fun_induction splitBody closing text generalizing body with
  | case1 => simpa using h.symm
  | case2 => simpa using h.symm
  | case3 e rest body' after' hsplit ih =>
      obtain ⟨rfl, rfl⟩ := Prod.mk.inj h
      rw [ih hsplit]
  | case4 c rest hc hclose => simp at h
  | case5 c rest hc hclose body' after' hsplit ih =>
      obtain ⟨rfl, rfl⟩ := Prod.mk.inj h
      rw [ih hsplit]

/-- Whether a mark starts in a text that is long enough to hold it does not depend on what
comes after that text. -/
theorem isPrefixOf_append_congr {mark text more other : List Char}
    (h : mark.length ≤ text.length) :
    mark.isPrefixOf (text ++ more) = mark.isPrefixOf (text ++ other) := by
  have hiff (tail : List Char) : mark <+: text ++ tail ↔ mark <+: text :=
    ⟨fun hmark => List.prefix_of_prefix_length_le hmark (List.prefix_append _ _) h,
      fun hmark => hmark.trans (List.prefix_append _ _)⟩
  rw [Bool.eq_iff_iff, List.isPrefixOf_iff_prefix, List.isPrefixOf_iff_prefix, hiff, hiff]

/-- **A body ends at its closing mark whatever text follows.**  Each place of the body is
followed by a whole closing mark, so the test whether the mark starts there never looks at the
text behind it. -/
theorem splitBody_append_of_splitBody {closing text body after : List Char}
    (hclosing : closing ≠ []) (h : splitBody closing text = (body, some after))
    (rest : List Char) : splitBody closing (body ++ closing ++ rest) = (body, some rest) := by
  fun_induction splitBody closing text generalizing body with
  | case1 => simp at h
  | case2 => simp at h
  | case3 e text body' after' hsplit ih =>
      obtain ⟨rfl, rfl⟩ := Prod.mk.inj h
      simp only [List.cons_append, splitBody_escape, ih hsplit]
  | case4 c text hc hclose =>
      obtain ⟨rfl, -⟩ := Prod.mk.inj h
      -- the text starts with the mark, and so does the mark with `rest` behind it
      obtain ⟨tail, htail⟩ := List.isPrefixOf_iff_prefix.1 hclose
      obtain ⟨a, closing, rfl⟩ := List.exists_cons_of_ne_nil hclosing
      obtain ⟨rfl, -⟩ := List.cons.inj htail
      have hstart : (a :: closing).isPrefixOf (a :: (closing ++ rest)) = true :=
        List.isPrefixOf_iff_prefix.2 (List.prefix_append (a :: closing) rest)
      rw [List.nil_append, List.cons_append, splitBody_cons_of_closed hc hstart,
        ← List.cons_append, List.drop_left]
  | case5 c text hc hclose body' after' hsplit ih =>
      obtain ⟨rfl, rfl⟩ := Prod.mk.inj h
      have htext := eq_append_of_splitBody hsplit
      have hsame : closing.isPrefixOf (c :: (body' ++ closing ++ rest)) =
          closing.isPrefixOf (c :: (body' ++ closing ++ after)) :=
        @isPrefixOf_append_congr _ (c :: (body' ++ closing)) _ _ (by simp; omega)
      rw [htext, ← hsame, Bool.not_eq_true] at hclose
      rw [List.cons_append, List.cons_append, splitBody_cons_of_not_closed hc hclose, ih hsplit]

/-! ## Escaped bodies -/

/-- A single mark starts at a place when it is the character there. -/
theorem isPrefixOf_singleton_cons {q c : Char} {rest : List Char} :
    [q].isPrefixOf (c :: rest) = (q == c) := by
  simp [List.isPrefixOf]

/-- An escaped body stands for the same text. -/
theorem unescape_escapeBody {closing body : List Char} :
    unescape (escapeBody closing body) = unescape body := by
  fun_induction escapeBody closing body with
  | case1 => rfl
  | case2 => rfl
  | case3 e body ih => simp [unescape, ih]
  | case4 c body hc hclose ih => simp [unescape, unescape_cons_of_ne hc, ih]
  | case5 c body hc hclose ih => rw [unescape_cons_of_ne hc, unescape_cons_of_ne hc, ih]

end RuleCanon
