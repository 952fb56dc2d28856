import RuleCanon.Proofs.Text.Slice

/-!
# Positions as byte counts

Counting bytes instead of characters keeps the order of positions, and the count at a position
leads back to the position.

## Main Definitions

* `Span.bytes` — a stretch of a text in bytes
* `Tiles` — stretches that cover a range one after the other, none of them void

## Main Statements

* `positionOfByte?_eq_some_iff` — a position is found again from its byte count, and from no other
* `Tiles.bytes` — stretches that tile a text do so in bytes
-/

namespace RuleCanon

variable {text : List Char} {i j : Nat}

/-- The stretch in bytes. -/
def Span.bytes (text : List Char) (s : Span) : Span :=
  ⟨byteOffset text s.start, byteOffset text s.stop⟩

@[simp] theorem Span.bytes_start (text : List Char) (s : Span) :
    (s.bytes text).start = byteOffset text s.start := rfl

@[simp] theorem Span.bytes_stop (text : List Char) (s : Span) :
    (s.bytes text).stop = byteOffset text s.stop := rfl

/-- The stretches start at `lower`, each where the one before it stops, and stop at `upper`.
None of them is void. -/
def Tiles (lower upper : Nat) : List Span → Prop
  | [] => lower = upper
  | s :: rest => s.start = lower ∧ s.start < s.stop ∧ Tiles s.stop upper rest

/-! ## Counting -/

@[simp] theorem utf8Length_append (t u : List Char) :
    utf8Length (t ++ u) = utf8Length t + utf8Length u := by
  induction t with
  | nil => rw [List.nil_append, utf8Length, Nat.zero_add]
  | cons c t ih => rw [List.cons_append, utf8Length, ih, utf8Length, Nat.add_assoc]

theorem utf8Length_pos {t : List Char} (h : t ≠ []) : 0 < utf8Length t := by
  obtain ⟨c, t, rfl⟩ := List.exists_cons_of_ne_nil h
  rw [utf8Length]
  exact Nat.add_pos_left (Char.utf8Size_pos c) _

@[simp] theorem byteOffset_zero (text : List Char) : byteOffset text 0 = 0 := rfl

theorem byteOffset_cons_succ (c : Char) (text : List Char) (i : Nat) :
    byteOffset (c :: text) (i + 1) = c.utf8Size + byteOffset text i := rfl

theorem byteOffset_length (text : List Char) : byteOffset text text.length = utf8Length text := by
  rw [byteOffset, List.take_length]

/-- What lies between two positions, in bytes. -/
theorem byteOffset_add_utf8Length_slice (hij : i ≤ j) :
    byteOffset text i + utf8Length (slice text i j) = byteOffset text j := by
  rw [byteOffset, byteOffset, ← utf8Length_append, ← slice_zero, ← slice_zero,
    slice_append_slice text (Nat.zero_le i) hij]

/-- Positions further right have more bytes before them. -/
theorem byteOffset_lt (hij : i < j) (hj : j ≤ text.length) :
    byteOffset text i < byteOffset text j := by
  have hlength : (slice text i j).length = j - i := length_slice hj
  have hne : slice text i j ≠ [] := by
    rw [← List.length_pos_iff]
    omega
  have hpos := utf8Length_pos hne
  rw [← byteOffset_add_utf8Length_slice (Nat.le_of_lt hij)]
  omega

theorem byteOffset_lt_iff (hi : i ≤ text.length) (hj : j ≤ text.length) :
    byteOffset text i < byteOffset text j ↔ i < j := by
  refine ⟨fun h => Nat.lt_of_not_le fun hle => ?_, fun h => byteOffset_lt h hj⟩
  rcases Nat.eq_or_lt_of_le hle with rfl | hlt
  · exact Nat.lt_irrefl _ h
  · exact Nat.lt_asymm h (byteOffset_lt hlt hi)

theorem byteOffset_le_iff (hi : i ≤ text.length) (hj : j ≤ text.length) :
    byteOffset text i ≤ byteOffset text j ↔ i ≤ j := by
  rw [← Nat.not_lt, byteOffset_lt_iff hj hi, Nat.not_lt]

theorem byteOffset_inj (hi : i ≤ text.length) (hj : j ≤ text.length) :
    byteOffset text i = byteOffset text j ↔ i = j := by
  rw [Nat.le_antisymm_iff, byteOffset_le_iff hi hj, byteOffset_le_iff hj hi, ← Nat.le_antisymm_iff]

/-- What follows a position does not count. -/
theorem byteOffset_take (text : List Char) (hij : i ≤ j) :
    byteOffset (text.take j) i = byteOffset text i := by
  rw [byteOffset, byteOffset, List.take_take, Nat.min_eq_left hij]

/-- The bytes before a position, some of which stand before another one. -/
theorem byteOffset_add (text : List Char) (i j : Nat) :
    byteOffset text (i + j) = byteOffset text i + byteOffset (text.drop i) j := by
  rw [byteOffset, byteOffset, byteOffset, List.take_add, utf8Length_append]

/-- **A position is found again** from the number of bytes before it. -/
theorem positionOfByte?_byteOffset (hi : i ≤ text.length) :
    positionOfByte? text (byteOffset text i) = some i := by
  induction text generalizing i with
  | nil =>
      obtain rfl : i = 0 := Nat.le_zero.1 hi
      rfl
  | cons c text ih =>
      cases i with
      | zero => rw [byteOffset_zero, positionOfByte?]
      | succ i =>
          have hpos := Char.utf8Size_pos c
          rw [byteOffset_cons_succ, positionOfByte?, if_pos (Nat.le_add_right _ _),
            Nat.add_sub_cancel_left, ih (Nat.le_of_succ_le_succ hi)]
          · rfl
          · exact fun hzero => by omega

/-- **A number of bytes leads to a position** just if it is the number of bytes before one. -/
theorem positionOfByte?_eq_some_iff {bytes : Nat} :
    positionOfByte? text bytes = some i ↔ i ≤ text.length ∧ byteOffset text i = bytes := by
  constructor
  · intro h
    fun_induction positionOfByte? text bytes generalizing i with
    | case1 =>
        cases h
        exact ⟨Nat.zero_le _, rfl⟩
    | case2 => contradiction
    | case3 bytes c rest _ hle ih =>
        obtain ⟨j, hj, rfl⟩ := Option.map_eq_some_iff.1 h
        obtain ⟨hlength, hbytes⟩ := ih hj
        refine ⟨Nat.succ_le_succ hlength, ?_⟩
        rw [byteOffset_cons_succ, hbytes, Nat.add_sub_cancel' hle]
    | case4 => contradiction
  · rintro ⟨hi, rfl⟩
    exact positionOfByte?_byteOffset hi

/-! ## Stretches in bytes -/

namespace Span

variable {a b : Span}

theorem bytes_take (hle : a.start ≤ a.stop) (hstop : a.stop ≤ i) :
    a.bytes (text.take i) = a.bytes text := by
  rw [bytes, bytes, byteOffset_take text (Nat.le_trans hle hstop), byteOffset_take text hstop]

theorem bytes_shift (text : List Char) (a : Span) (i : Nat) :
    (a.shift i).bytes text = (a.bytes (text.drop i)).shift (byteOffset text i) := by
  rw [bytes, shift, bytes, shift, Nat.add_comm a.start, Nat.add_comm a.stop, byteOffset_add,
    byteOffset_add, Nat.add_comm (byteOffset text i), Nat.add_comm (byteOffset text i)]

end Span

/-! ## Tiling -/

theorem Tiles.stop_le {lower upper : Nat} {spans : List Span} (h : Tiles lower upper spans) :
    lower ≤ upper := by
  induction spans generalizing lower with
  | nil => exact Nat.le_of_eq h
  | cons s rest ih =>
      obtain ⟨rfl, hlt, hrest⟩ := h
      exact Nat.le_trans (Nat.le_of_lt hlt) (ih hrest)

/-- **Stretches that tile a text do so in bytes.** -/
theorem Tiles.bytes {lower upper : Nat} {spans : List Span} (h : Tiles lower upper spans)
    (hupper : upper ≤ text.length) :
    Tiles (byteOffset text lower) (byteOffset text upper) (spans.map (·.bytes text)) := by
  induction spans generalizing lower with
  | nil => exact congrArg (byteOffset text) h
  | cons s rest ih =>
      obtain ⟨rfl, hlt, hrest⟩ := h
      exact ⟨rfl, byteOffset_lt hlt (Nat.le_trans hrest.stop_le hupper), ih hrest⟩

end RuleCanon
