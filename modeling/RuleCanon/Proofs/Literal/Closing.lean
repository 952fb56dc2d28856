import RuleCanon.Proofs.Literal.Body
import RuleCanon.Proofs.Text.Slice

/-!
# Where a literal ends

The scan of a literal skips a backslash together with the character behind it.  Seen from the
text alone, a closing mark ends the literal if an even number of backslashes stands right before
it in the body, for then the last of them is taken by the one before it.  The literal ends at the
first such mark, or not at all.

## Main Definitions

* `EvenBackslashes` — texts whose backslashes at the end protect one another
* `ClosesAt`, `ClosesFirstAt` — places of closing marks that end a literal

## Main Statements

* `closesFirstAt_of_splitBody` — a body that is closed ends at the first such mark
* `not_closesAt_of_splitBody` — in a body that is not closed there is none
-/

namespace RuleCanon

/-- An even number of backslashes stands at the end of the text. -/
def EvenBackslashes (t : List Char) : Prop := (t.reverse.takeWhile (· = '\\')).length % 2 = 0

/-- At position `i` of the text stands a closing mark that ends a literal with a body from
position `start` on. -/
structure ClosesAt (closing text : List Char) (start i : Nat) : Prop where
  le : start ≤ i
  here : closing <+: text.drop i
  bare : closing.head? ≠ some '\\'
  even : EvenBackslashes (slice text start i)

/-- The first closing mark that ends the literal stands at position `i`. -/
structure ClosesFirstAt (closing text : List Char) (start i : Nat) : Prop where
  closes : ClosesAt closing text start i
  first : ∀ j, j < i → ¬ ClosesAt closing text start j

variable {closing rest body after : List Char} {c e : Char} {i n : Nat}

/-! ## Backslashes at the end -/

theorem evenBackslashes_nil : EvenBackslashes [] := by simp [EvenBackslashes]

theorem not_evenBackslashes_singleton : ¬ EvenBackslashes ['\\'] := by simp [EvenBackslashes]

/-- Another character in front does not matter. -/
theorem evenBackslashes_cons_of_ne (hc : c ≠ '\\') (t : List Char) :
    EvenBackslashes (c :: t) ↔ EvenBackslashes t := by
  have hlast : [c].takeWhile (· = '\\') = [] := List.takeWhile_cons_of_neg (by simpa using hc)
  rw [EvenBackslashes, EvenBackslashes, List.reverse_cons, List.takeWhile_append, hlast,
    List.append_nil]
  split
  · next hall => rw [hall]
  · rfl

/-- Nor does a backslash with the character behind it. -/
theorem evenBackslashes_escape (e : Char) (t : List Char) :
    EvenBackslashes ('\\' :: e :: t) ↔ EvenBackslashes t := by
  have hreverse : ('\\' :: e :: t).reverse = t.reverse ++ [e, '\\'] := by simp
  have hlast : ([e, '\\'].takeWhile (· = '\\')).length % 2 = 0 := by
    by_cases he : e = '\\' <;> simp [he]
  rw [EvenBackslashes, EvenBackslashes, hreverse, List.takeWhile_append]
  split
  · next hall =>
    rw [List.length_append, hall]
    omega
  · rfl

/-! ## Closing marks further on -/

/-- A place behind the first character. -/
theorem closesAt_cons_succ (hc : c ≠ '\\') :
    ClosesAt closing (c :: rest) 0 (i + 1) ↔ ClosesAt closing rest 0 i := by
  have heven : EvenBackslashes (slice (c :: rest) 0 (i + 1)) ↔
      EvenBackslashes (slice rest 0 i) := by
    rw [slice_zero, slice_zero, List.take_succ_cons, evenBackslashes_cons_of_ne hc]
  exact ⟨fun ⟨_, hhere, hbare, h⟩ => ⟨Nat.zero_le _, hhere, hbare, heven.1 h⟩,
    fun ⟨_, hhere, hbare, h⟩ => ⟨Nat.zero_le _, hhere, hbare, heven.2 h⟩⟩

/-- A place behind a backslash and the character that it protects. -/
theorem closesAt_escape :
    ClosesAt closing ('\\' :: e :: rest) 0 (i + 2) ↔ ClosesAt closing rest 0 i := by
  have heven : EvenBackslashes (slice ('\\' :: e :: rest) 0 (i + 2)) ↔
      EvenBackslashes (slice rest 0 i) := by
    rw [slice_zero, slice_zero, List.take_succ_cons, List.take_succ_cons, evenBackslashes_escape]
  exact ⟨fun ⟨_, hhere, hbare, h⟩ => ⟨Nat.zero_le _, hhere, hbare, heven.1 h⟩,
    fun ⟨_, hhere, hbare, h⟩ => ⟨Nat.zero_le _, hhere, hbare, heven.2 h⟩⟩

/-- No literal ends at a backslash. -/
theorem not_closesAt_backslash (hne : closing ≠ []) : ¬ ClosesAt closing ('\\' :: rest) 0 0 := by
  rintro ⟨-, hhere, hbare, -⟩
  obtain ⟨c, tail, rfl⟩ := List.exists_cons_of_ne_nil hne
  rw [List.drop_zero, List.cons_prefix_cons] at hhere
  exact hbare (congrArg some hhere.1)

/-- Nor right behind a backslash that is not protected itself. -/
theorem not_closesAt_escaped : ¬ ClosesAt closing ('\\' :: rest) 0 1 :=
  fun h => not_evenBackslashes_singleton h.even

/-- Nor at the end of the text. -/
theorem not_closesAt_nil (hne : closing ≠ []) : ¬ ClosesAt closing [] 0 i := by
  rintro ⟨-, hhere, -, -⟩
  rw [List.drop_nil, List.prefix_nil] at hhere
  exact hne hhere

/-- Where no closing mark stands no literal ends. -/
theorem not_closesAt_zero (h : ¬ closing <+: rest) : ¬ ClosesAt closing rest 0 0 :=
  fun hcloses => h hcloses.here

/-- A closing mark at the start of a body ends the literal. -/
theorem closesAt_zero (hne : closing ≠ []) (hc : c ≠ '\\') (h : closing <+: c :: rest) :
    ClosesAt closing (c :: rest) 0 0 := by
  refine ⟨Nat.le_refl _, h, ?_, evenBackslashes_nil⟩
  obtain ⟨d, tail, rfl⟩ := List.exists_cons_of_ne_nil hne
  rw [List.cons_prefix_cons] at h
  exact fun hd => hc (h.1 ▸ Option.some.inj hd)

/-! ## The scan -/

/-- **A body that is closed ends at the first closing mark** that ends a literal. -/
theorem closesFirstAt_of_splitBody (hne : closing ≠ [])
    (h : splitBody closing rest = (body, some after)) :
    ClosesFirstAt closing rest 0 body.length := by
  fun_induction splitBody closing rest generalizing body with
  | case1 => simp at h
  | case2 => simp at h
  | case3 e rest body' after' hsplit ih =>
      obtain ⟨rfl, rfl⟩ := Prod.mk.inj h
      obtain ⟨hcloses, hfirst⟩ := ih hsplit
      refine ⟨closesAt_escape.2 hcloses, fun j hj => ?_⟩
      rcases j with _ | _ | j
      · exact not_closesAt_backslash hne
      · exact not_closesAt_escaped
      · exact fun hclosesj => hfirst j (by simpa using hj) (closesAt_escape.1 hclosesj)
  | case4 c rest hc hclose =>
      obtain ⟨rfl, -⟩ := Prod.mk.inj h
      exact ⟨closesAt_zero hne hc (List.isPrefixOf_iff_prefix.1 hclose),
        fun j hj => absurd hj (Nat.not_lt_zero j)⟩
  | case5 c rest hc hclose body' after' hsplit ih =>
      obtain ⟨rfl, rfl⟩ := Prod.mk.inj h
      obtain ⟨hcloses, hfirst⟩ := ih hsplit
      refine ⟨(closesAt_cons_succ hc).2 hcloses, fun j hj => ?_⟩
      cases j with
      | zero => exact not_closesAt_zero fun hmark => hclose (List.isPrefixOf_iff_prefix.2 hmark)
      | succ j =>
          exact fun hclosesj => hfirst j (by simpa using hj) ((closesAt_cons_succ hc).1 hclosesj)

/-- **In a body that is not closed no closing mark ends a literal.** -/
theorem not_closesAt_of_splitBody (hne : closing ≠ [])
    (h : splitBody closing rest = (body, none)) (i : Nat) : ¬ ClosesAt closing rest 0 i := by
  fun_induction splitBody closing rest generalizing body i with
  | case1 => exact not_closesAt_nil hne
  | case2 =>
      rcases i with _ | _ | i
      · exact not_closesAt_backslash hne
      · exact not_closesAt_escaped
      · exact fun hcloses => hne (List.prefix_nil.1 hcloses.here)
  | case3 e rest body' after' hsplit ih =>
      obtain ⟨rfl, rfl⟩ := Prod.mk.inj h
      rcases i with _ | _ | i
      · exact not_closesAt_backslash hne
      · exact not_closesAt_escaped
      · exact fun hcloses => ih hsplit i (closesAt_escape.1 hcloses)
  | case4 c rest hc hclose => simp at h
  | case5 c rest hc hclose body' after' hsplit ih =>
      obtain ⟨rfl, rfl⟩ := Prod.mk.inj h
      cases i with
      | zero => exact not_closesAt_zero fun hmark => hclose (List.isPrefixOf_iff_prefix.2 hmark)
      | succ i => exact fun hcloses => ih hsplit i ((closesAt_cons_succ hc).1 hcloses)

/-- A body that starts further right. -/
theorem closesAt_drop {text : List Char} :
    ClosesAt closing (text.drop n) 0 i ↔ ClosesAt closing text n (n + i) := by
  have hslice : slice (text.drop n) 0 i = slice text n (n + i) := by
    rw [slice_zero, slice, Nat.add_sub_cancel_left]
  constructor
  · rintro ⟨-, hhere, hbare, heven⟩
    exact ⟨Nat.le_add_right n i, by rwa [List.drop_drop] at hhere, hbare, hslice ▸ heven⟩
  · rintro ⟨-, hhere, hbare, heven⟩
    exact ⟨Nat.zero_le i, by rwa [List.drop_drop], hbare, hslice ▸ heven⟩

theorem closesFirstAt_drop {text : List Char} (h : ClosesFirstAt closing (text.drop n) 0 i) :
    ClosesFirstAt closing text n (n + i) := by
  refine ⟨closesAt_drop.1 h.closes, fun j hj hcloses => ?_⟩
  obtain ⟨k, rfl⟩ := Nat.exists_eq_add_of_le hcloses.le
  exact h.first k (by omega) (closesAt_drop.2 hcloses)

theorem not_closesAt_drop {text : List Char} (h : ∀ i, ¬ ClosesAt closing (text.drop n) 0 i)
    (i : Nat) : ¬ ClosesAt closing text n i := by
  intro hcloses
  obtain ⟨k, rfl⟩ := Nat.exists_eq_add_of_le hcloses.le
  exact h k (closesAt_drop.2 hcloses)

/-- There is only one first place. -/
theorem ClosesFirstAt.eq {text : List Char} {start j : Nat}
    (h : ClosesFirstAt closing text start i) (h' : ClosesFirstAt closing text start j) : i = j := by
  have hle : ¬ i < j := fun hlt => h'.first i hlt h.closes
  have hge : ¬ j < i := fun hlt => h.first j hlt h'.closes
  omega

end RuleCanon
