import RuleCanon.Proofs.Literal.Segmentation

/-!
# Segmentation is local

Where one segment of a text ends and the next one begins, the text can be cut in two and the
halves segmented apart.  What is lost by the cut is sight of the other half, so neither a mark
nor a protected character may reach across a border between segments.  A shorter text holds no
mark that the longer one did not hold, which leaves the code as it was and lets no other
delimiters open a literal; and a literal that is followed by something has been closed, and does
not see beyond its closing mark.

The borders between segments are the only places with this property.

## Main Definitions

* `Segmenter.byteLayout` — the segments of a text with the bytes that they cover
* `Segmenter.IsSeam` — the offsets at which one segment ends and the next one begins

## Main Statements

* `Segmenter.segments_textOf_of_append_left` — the first segments are those of the text that they
  make up
* `Segmenter.isSeam_iff` — the seams are where the halves can be segmented apart
-/

namespace RuleCanon

open Segment

variable {text : List Char} {n : Nat}

/-! ## Layouts in two parts -/

section Layout

variable {gs : List Segment}

theorem layout_shift (n k : Nat) (gs : List Segment) :
    layout (k + n) gs = (layout k gs).map fun e => (e.1.shift n, e.2) := by
  induction gs generalizing k with
  | nil => rfl
  | cons g gs ih =>
      have hnext : k + n + g.text.length = k + g.text.length + n := by omega
      rw [layout, layout, List.map_cons, ← ih, hnext]
      rfl

end Layout

namespace Segmenter

variable {s : Segmenter} {rest : List Char} {gs front back : List Segment} {d : Delimiters}

/-! ## The first segments of a text -/

/-- A shorter text has no mark at its start that the text has not. -/
theorem opening?_eq_none_mono (h : s.opening? text = none) (hrest : rest <+: text) :
    s.opening? rest = none := by
  refine List.find?_eq_none.2 fun d hd hopens => ?_
  rw [List.isPrefixOf_iff_prefix] at hopens
  have hnone := List.find?_eq_none.1 h d hd
  rw [List.isPrefixOf_iff_prefix] at hnone
  exact hnone (hopens.trans hrest)

/-- The delimiters that open a text open each shorter one that holds their mark. -/
theorem opening?_eq_some_mono (h : s.opening? text = some d) (hmark : d.opening <+: rest)
    (hrest : rest <+: text) : s.opening? rest = some d := by
  obtain ⟨-, before, after, hlist, hbefore⟩ := List.find?_eq_some_iff_append.1 h
  refine List.find?_eq_some_iff_append.2
    ⟨List.isPrefixOf_iff_prefix.2 hmark, before, after, hlist, fun e he => ?_⟩
  have hne := hbefore e he
  rw [Bool.not_eq_true', ← Bool.not_eq_true, List.isPrefixOf_iff_prefix] at hne ⊢
  exact fun hstart => hne (hstart.trans hrest)

/-- The text of the first segments starts the text. -/
theorem textOf_prefix_of_append (h : s.segments text = front ++ back) : textOf front <+: text := by
  rw [← textOf_segments s text, h, textOf_append]
  exact List.prefix_append _ _

/-- **The first segments are those of the text that they make up.** -/
theorem segments_textOf_of_append_left (h : s.segments text = front ++ back) :
    s.segments (textOf front) = front := by
  fun_induction segments s text generalizing front with
  | case1 =>
      obtain ⟨rfl, -⟩ := List.append_eq_nil_iff.1 h.symm
      rw [textOf_nil, segments]
  | case2 c rest hopens ih =>
      have hcode {t : List Char} (ht : t <+: rest) : s.segments (c :: t) =
          consCode c (s.segments t) :=
        segments_cons_of_none (opening?_eq_none_mono hopens ((List.prefix_cons_inj c).2 ht))
      cases front with
      | nil => rw [textOf_nil, segments]
      | cons f front =>
          rcases consCode_cases c (s.segments rest) with ⟨t, gs, hgs, hcons⟩ | hcons
          · -- the character goes in front of code that starts the other segments
            obtain ⟨rfl, rfl⟩ := List.cons.inj (hcons.symm.trans h)
            have hfront : s.segments rest = (code t :: front) ++ back := hgs
            have htext : textOf (code (c :: t) :: front) = c :: textOf (code t :: front) := rfl
            rw [htext, hcode (textOf_prefix_of_append hfront), ih hfront, consCode]
          · -- the character is a segment of its own, so what follows is a literal
            obtain ⟨rfl, hfront⟩ := List.cons.inj (hcons.symm.trans h)
            have htext : textOf (code [c] :: front) = c :: textOf front := rfl
            rw [htext, hcode (textOf_prefix_of_append hfront), ih hfront]
            cases front with
            | nil => rfl
            | cons g front =>
                cases g with
                | code t =>
                    rw [hfront] at hcons
                    simp [consCode] at hcons
                | literal => rfl
  | case3 c rest d hopens body hsplit =>
      cases front with
      | nil => rw [textOf_nil, segments]
      | cons f front =>
          obtain ⟨rfl, hnil⟩ := List.cons.inj h
          obtain ⟨rfl, -⟩ := List.append_eq_nil_iff.1 hnil.symm
          rw [← segments_of_open hopens hsplit, textOf_segments]
  | case4 c rest d hopens body after hsplit ih =>
      cases front with
      | nil => rw [textOf_nil, segments]
      | cons f front =>
          obtain ⟨rfl, hfront⟩ := List.cons.inj h
          have hwhole : s.segments (c :: rest) = (literal d body true :: front) ++ back :=
            (segments_of_closed hopens hsplit).trans h
          have htext : textOf (literal d body true :: front) =
              d.opening ++ (body ++ d.closing ++ textOf front) := by
            simp [Segment.text]
          have hstart := textOf_prefix_of_append hwhole
          have hne := (s.proper d (List.mem_of_find?_eq_some hopens)).2
          rw [htext] at hstart ⊢
          rw [segments_of_closed (opening?_eq_some_mono hopens (List.prefix_append _ _) hstart)
            (by rw [List.drop_left]; exact splitBody_append_of_splitBody hne hsplit _), ih hfront]

/-! ## Cutting at a seam -/

/-- The segments of a text, each with the bytes that it covers. -/
def byteLayout (s : Segmenter) (text : List Char) : List (Span × Segment) :=
  (layout 0 (s.segments text)).map fun e => (e.1.bytes text, e.2)

/-- At this offset one segment of the text ends and the next one begins. -/
def IsSeam (s : Segmenter) (text : List Char) (b : Nat) : Prop :=
  ∃ front a g c h back, s.byteLayout text = front ++ (a, g) :: (c, h) :: back ∧
    a.stop = b ∧ c.start = b

theorem length_byteLayout (s : Segmenter) (text : List Char) :
    (s.byteLayout text).length = (s.segments text).length := by
  rw [byteLayout, List.length_map, ← List.length_map (·.2), map_snd_layout]

/-- The halves at the end of a segment, segmented apart. -/
theorem byteLayout_eq_of_append (h : s.segments text = front ++ back) :
    s.byteLayout text = s.byteLayout (textOf front) ++
      (s.byteLayout (textOf back)).map fun e => (e.1.shift (utf8Length (textOf front)), e.2) := by
  have htext : text = textOf front ++ textOf back := by
    rw [← textOf_append, ← h, textOf_segments]
  have htake : text.take (textOf front).length = textOf front := by rw [htext, List.take_left]
  have hdrop : text.drop (textOf front).length = textOf back := by rw [htext, List.drop_left]
  have hbytes : byteOffset text (textOf front).length = utf8Length (textOf front) := by
    rw [byteOffset, htake]
  rw [byteLayout, byteLayout, byteLayout, h, segments_textOf_of_append_left h,
    segments_textOf_of_append h, layout_append, layout_shift, List.map_append, List.map_map,
    List.map_map]
  congr 1
  · refine List.map_congr_left fun e he => ?_
    obtain ⟨fs, bs, rfl, hstart, hstop⟩ := exists_of_mem_layout he
    have hlength : e.1.stop ≤ (textOf (fs ++ e.2 :: bs)).length := by
      rw [hstop, hstart, textOf_append, textOf_cons, List.length_append, List.length_append]
      omega
    rw [← htake, Span.bytes_take (by omega) hlength]
  · refine List.map_congr_left fun e _ => ?_
    rw [Function.comp_apply, Function.comp_apply, Span.bytes_shift, hdrop, hbytes]

/-- The parts of a layout are the layouts of parts of the text. -/
theorem exists_of_byteLayout_eq_append {first second : List (Span × Segment)}
    (h : s.byteLayout text = first ++ second) :
    ∃ t u, text = t ++ u ∧ first = s.byteLayout t ∧
      second = (s.byteLayout u).map fun e => (e.1.shift (utf8Length t), e.2) := by
  have hsegments : s.segments text =
      (s.segments text).take first.length ++ (s.segments text).drop first.length :=
    (List.take_append_drop _ _).symm
  have hle : first.length ≤ (s.segments text).length := by
    rw [← length_byteLayout, h, List.length_append]
    omega
  have hlength : first.length =
      (s.byteLayout (textOf ((s.segments text).take first.length))).length := by
    rw [length_byteLayout, segments_textOf_of_append_left hsegments, List.length_take_of_le hle]
  obtain ⟨hfirst, hsecond⟩ :=
    List.append_inj (h.symm.trans (byteLayout_eq_of_append hsegments)) hlength
  refine ⟨_, _, ?_, hfirst, hsecond⟩
  rw [← textOf_append, ← hsegments, textOf_segments]

/-- A text that is not empty has segments. -/
theorem segments_ne_nil (s : Segmenter) (h : text ≠ []) : s.segments text ≠ [] :=
  fun hnil => h (by rw [← textOf_segments s text, hnil, textOf_nil])

theorem byteLayout_nil (s : Segmenter) : s.byteLayout [] = [] := by
  rw [byteLayout, segments, layout, List.map_nil]

/-- The layout of a text starts with the text. -/
theorem exists_byteLayout_eq_cons (s : Segmenter) (h : text ≠ []) :
    ∃ c g back, s.byteLayout text = (c, g) :: back ∧ c.start = 0 := by
  obtain ⟨g, gs, hsegments⟩ := List.exists_cons_of_ne_nil (s.segments_ne_nil h)
  rw [byteLayout, hsegments]
  exact ⟨_, g, _, rfl, rfl⟩

/-- The layout of a text stops with the text. -/
theorem exists_byteLayout_eq_concat (s : Segmenter) (h : text ≠ []) :
    ∃ front a g, s.byteLayout text = front ++ [(a, g)] ∧ a.stop = utf8Length text := by
  obtain ⟨gs, g, hsegments⟩ := (List.eq_nil_or_concat' _).resolve_left (s.segments_ne_nil h)
  have hlength : (textOf gs).length + g.text.length = text.length := by
    rw [← textOf_segments s text, hsegments, textOf_append, textOf_cons, textOf_nil,
      List.append_nil, List.length_append]
  refine ⟨(layout 0 gs).map fun e => (e.1.bytes text, e.2),
    ⟨byteOffset text (textOf gs).length, byteOffset text text.length⟩, g, ?_,
    byteOffset_length text⟩
  rw [byteLayout, hsegments, layout_append, layout, layout, List.map_append, List.map_singleton,
    Span.bytes, Nat.zero_add, hlength]

/-- **Segmentation is local at its own seams, and nowhere else.**  At the offsets where one
segment ends and the next one begins, and at no others inside the text, the segments are those of
the text before the offset followed by those of the text behind it, shifted by the offset. -/
theorem isSeam_iff (s : Segmenter) (text : List Char) (b : Nat) :
    s.IsSeam text b ↔ ∃ i, 0 < i ∧ i < text.length ∧ byteOffset text i = b ∧
      s.byteLayout text = s.byteLayout (text.take i) ++
        (s.byteLayout (text.drop i)).map fun e => (e.1.shift b, e.2) := by
  constructor
  · rintro ⟨front, a, g, c, h, back, hlayout, rfl, -⟩
    rw [List.append_cons] at hlayout
    obtain ⟨t, u, rfl, hfirst, hsecond⟩ := exists_of_byteLayout_eq_append hlayout
    have ht : t ≠ [] := by
      rintro rfl
      simp [byteLayout_nil] at hfirst
    have hu : u ≠ [] := by
      rintro rfl
      simp [byteLayout_nil] at hsecond
    obtain ⟨front', a', g', hconcat, hstop⟩ := exists_byteLayout_eq_concat s ht
    obtain ⟨-, hlast⟩ := List.append_inj' (hfirst.trans hconcat) rfl
    obtain ⟨rfl, rfl⟩ := Prod.mk.inj (List.singleton_injective hlast)
    refine ⟨t.length, List.length_pos_iff.2 ht, ?_, ?_, ?_⟩
    · rw [List.length_append]
      exact Nat.lt_add_of_pos_right (List.length_pos_iff.2 hu)
    · rw [hstop, byteOffset, List.take_left]
    · rw [hlayout, List.take_left, List.drop_left, hfirst, hsecond, hstop]
  · rintro ⟨i, hpos, hlt, rfl, hlayout⟩
    have htake : text.take i ≠ [] := by
      rw [← List.length_pos_iff, List.length_take]
      omega
    have hdrop : text.drop i ≠ [] := by
      rw [← List.length_pos_iff, List.length_drop]
      omega
    obtain ⟨front, a, g, hfront, hstop⟩ := exists_byteLayout_eq_concat s htake
    obtain ⟨c, h, back, hback, hstart⟩ := exists_byteLayout_eq_cons s hdrop
    refine ⟨front, a, g, c.shift (byteOffset text i), h,
      back.map fun e => (e.1.shift (byteOffset text i), e.2), ?_, hstop, ?_⟩
    · rw [hlayout, hfront, hback, List.map_cons, List.append_assoc, List.singleton_append]
    · rw [Span.shift, hstart, Nat.zero_add]

end Segmenter

end RuleCanon
