import RuleCanon.Text.Identifier

/-!
# Stretches of stretches

How stretches of a text are put together and taken apart, and what becomes of a stretch, and of
the characters next to it, in a text with more text around it.

## Main Statements

* `slice_append_slice` — neighbouring stretches make up one stretch
* `slice_slice` — a stretch of a stretch is a stretch of the text
* `slice_append_append`, `charBefore?_append_append`, `charAfter?_append_append` — more text
  around a text moves its stretches and leaves them as they are
* `slice_append_of_le`, `charAfter?_append_cons` — what is seen of a text with more text behind it
* `slice_newline_append`, `charBefore?_newline_append` — what is seen behind a line feed that joins
  two texts
-/

namespace RuleCanon

variable {text : List Char} {i j k n m : Nat}

/-- Neighbouring stretches make up one stretch. -/
theorem slice_append_slice (text : List Char) (hij : i ≤ j) (hjk : j ≤ k) :
    slice text i j ++ slice text j k = slice text i k := by
  have hk : k - i = (j - i) + (k - j) := by omega
  have hj : j = i + (j - i) := by omega
  rw [slice, slice, slice, hk, List.take_add, List.drop_drop, ← hj]

theorem slice_zero (text : List Char) (j : Nat) : slice text 0 j = text.take j := by
  rw [slice, List.drop_zero, Nat.sub_zero]

theorem length_slice (hj : j ≤ text.length) : (slice text i j).length = j - i := by
  rw [slice, List.length_take, List.length_drop]
  omega

theorem getElem?_slice (h : i + k < j) : (slice text i j)[k]? = text[i + k]? := by
  rw [slice, List.getElem?_take_of_lt (by omega), List.getElem?_drop]

/-- A stretch of a stretch is a stretch of the text. -/
theorem slice_slice (text : List Char) (h : n + k ≤ m) :
    slice (slice text n m) j k = slice text (n + j) (n + k) := by
  rw [slice, slice, slice, List.drop_take, List.take_take, List.drop_drop]
  congr 1
  omega

/-- What follows a position starts with any stretch from there on. -/
theorem slice_append_drop (text : List Char) (hij : i ≤ j) :
    slice text i j ++ text.drop j = text.drop i := by
  have hdrop : text.drop j = (text.drop i).drop (j - i) := by
    rw [List.drop_drop, Nat.add_sub_cancel' hij]
  rw [slice, hdrop, List.take_append_drop]

/-- A text is what comes before a stretch, the stretch and what comes after it. -/
theorem take_append_slice_append_drop (text : List Char) (hij : i ≤ j) :
    text.take i ++ slice text i j ++ text.drop j = text := by
  rw [← slice_zero, slice_append_slice text (Nat.zero_le i) hij, slice_zero,
    List.take_append_drop]

/-- The stretch between two texts. -/
theorem slice_between (x w y : List Char) :
    slice (x ++ (w ++ y)) x.length (x.length + w.length) = w := by
  rw [slice, List.drop_left, Nat.add_sub_cancel_left, List.take_left]

/-- The last character of a stretch. -/
theorem getLast?_slice (hij : i < j) (hj : j ≤ text.length) :
    (slice text i j).getLast? = text[j - 1]? := by
  have hlength : (slice text i j).length = j - i := length_slice hj
  rw [List.getLast?_eq_getElem?, hlength, getElem?_slice (by omega)]
  congr 1
  omega

/-- The character behind a position, as a stretch. -/
theorem slice_succ (text : List Char) (i : Nat) : slice text i (i + 1) = text[i]?.toList := by
  rw [slice, Nat.add_sub_cancel_left, List.take_one, List.head?_drop]

/-- A stretch with a character in its middle. -/
theorem slice_eq_append_cons (hij : i ≤ j) (hjk : j < k) {o : Char} (ho : text[j]? = some o) :
    slice text i k = slice text i j ++ o :: slice text (j + 1) k := by
  rw [← slice_append_slice text hij (Nat.le_of_lt hjk),
    ← slice_append_slice text (Nat.le_succ j) hjk, slice_succ, ho]
  rfl

/-- A stretch within another one. -/
theorem slice_infix_slice (text : List Char) (hij : i ≤ j) (hjk : j ≤ k) (hkm : k ≤ m) :
    slice text j k <:+: slice text i m := by
  rw [← slice_append_slice text hij (Nat.le_trans hjk hkm), ← slice_append_slice text hjk hkm]
  exact ⟨slice text i j, slice text k m, by rw [List.append_assoc]⟩

/-! ## The characters next to a stretch -/

@[simp] theorem charBefore?_zero (text : List Char) : charBefore? text 0 = none := rfl

theorem charBefore?_succ (h : i < text.length) : charBefore? text (i + 1) = text[i]? := by
  rw [charBefore?, List.take_add_one, List.getElem?_eq_getElem h, Option.toList_some,
    List.getLast?_concat]

/-- The character before the end of a stretch. -/
theorem charBefore?_add (text : List Char) (i : Nat) (hij : i ≤ j) :
    charBefore? text j = (slice text i j).getLast?.or (charBefore? text i) := by
  rw [charBefore?, charBefore?, ← slice_zero text j, ← slice_append_slice text (Nat.zero_le i) hij,
    List.getLast?_append, slice_zero]

/-- The character before a position, as a stretch. -/
theorem slice_pred (h : i ≤ text.length) : slice text (i - 1) i = (charBefore? text i).toList := by
  cases i with
  | zero => rfl
  | succ i =>
      rw [charBefore?_succ (by omega), slice, Nat.add_sub_cancel, Nat.add_sub_cancel_left,
        List.take_one, List.head?_drop]

/-! ## More text around a text -/

section Around

variable {x w y : List Char}

theorem take_append_append (hi : i ≤ w.length) :
    (x ++ w ++ y).take (i + x.length) = x ++ w.take i := by
  rw [List.append_assoc, Nat.add_comm, List.take_length_add_append,
    List.take_append_of_le_length hi]

theorem slice_append_append (hj : j ≤ w.length) :
    slice (x ++ w ++ y) (i + x.length) (j + x.length) = slice w i j := by
  rw [slice, slice, ← List.drop_take, ← List.drop_take, take_append_append hj, Nat.add_comm,
    List.drop_length_add_append]

theorem charBefore?_append_append (hi : i ≤ w.length) (h : 0 < i ∨ x = []) :
    charBefore? (x ++ w ++ y) (i + x.length) = charBefore? w i := by
  rw [charBefore?, charBefore?, take_append_append hi, List.getLast?_append]
  rcases h with hpos | rfl
  · have hne : w.take i ≠ [] := by
      rw [← List.length_pos_iff, List.length_take]
      omega
    rw [List.getLast?_eq_some_getLast hne, Option.some_or]
  · exact Option.or_none

theorem charAfter?_append_append (h : i < w.length ∨ y = []) :
    charAfter? (x ++ w ++ y) (i + x.length) = charAfter? w i := by
  rw [charAfter?, charAfter?, List.append_assoc, List.getElem?_append_right (by omega),
    Nat.add_sub_cancel]
  rcases h with hlt | rfl
  · rw [List.getElem?_append_left hlt]
  · rw [List.append_nil]

end Around

/-! ## More text behind a text -/

section Behind

variable {w : List Char}

theorem slice_append_of_le (y : List Char) (hj : j ≤ w.length) : slice (w ++ y) i j = slice w i j :=
  slice_append_append (x := []) hj

theorem charBefore?_append_of_le (y : List Char) (hi : i ≤ w.length) :
    charBefore? (w ++ y) i = charBefore? w i :=
  charBefore?_append_append (x := []) hi (.inr rfl)

/-- What stands behind the end of the text is what is added first. -/
theorem charAfter?_append_cons (c : Char) (v : List Char) (hi : i ≤ w.length) :
    charAfter? (w ++ c :: v) i = (charAfter? w i).or (some c) := by
  rw [charAfter?, charAfter?]
  rcases Nat.eq_or_lt_of_le hi with rfl | hlt
  · simp
  · rw [List.getElem?_append_left hlt, List.getElem?_eq_getElem hlt, Option.some_or]

end Behind

/-! ## Texts joined by a line feed -/

section Newline

variable (w v : List Char)

theorem drop_newline_append (j : Nat) :
    (w ++ '\n' :: v).drop (j + (w.length + 1)) = v.drop j := by
  have hsplit : w ++ '\n' :: v = (w ++ ['\n']) ++ v := by simp
  have hlength : j + (w.length + 1) = (w ++ ['\n']).length + j := by
    rw [List.length_append, List.length_singleton]
    omega
  rw [hsplit, hlength, List.drop_length_add_append]

theorem take_newline_append (j : Nat) :
    (w ++ '\n' :: v).take (j + (w.length + 1)) = w ++ '\n' :: v.take j := by
  have hlength : j + (w.length + 1) - w.length = j + 1 := by omega
  rw [List.take_append, List.take_of_length_le (by omega), hlength, List.take_succ_cons]

theorem slice_newline_append (i j : Nat) :
    slice (w ++ '\n' :: v) (i + (w.length + 1)) (j + (w.length + 1)) = slice v i j := by
  rw [slice, drop_newline_append, Nat.add_sub_add_right, slice]

/-- The line feed itself. -/
theorem slice_newline : slice (w ++ '\n' :: v) w.length (w.length + 1) = ['\n'] := by
  rw [slice_succ, List.getElem?_append_right (Nat.le_refl _), Nat.sub_self]
  rfl

/-- Behind the line feed the second text starts, and what stands before that is the line feed. -/
theorem charBefore?_newline_append (j : Nat) :
    charBefore? (w ++ '\n' :: v) (j + (w.length + 1)) = (charBefore? v j).or (some '\n') := by
  rw [charBefore?, charBefore?, take_newline_append, List.getLast?_append, List.getLast?_cons]
  cases (v.take j).getLast? <;> rfl

theorem charAfter?_newline_append (j : Nat) :
    charAfter? (w ++ '\n' :: v) (j + (w.length + 1)) = charAfter? v j := by
  rw [charAfter?, charAfter?, ← List.head?_drop, drop_newline_append, List.head?_drop]

end Newline

end RuleCanon
