import RuleCanon.Proofs.Literal.Closing
import RuleCanon.Proofs.Literal.Rewrite
import RuleCanon.Proofs.Text.Bytes

/-!
# What segmentation is

The scan that cuts a text into segments is set against a description of its outcome that looks
at the text alone.  The segments tile the text; where code stands no literal opens; a literal has
the first of the delimiters that open there, and it ends at the first closing mark that ends it,
or else with the text.

Segmentation has no memory: what comes behind a segment is cut as a text of its own.  So each
segment can be described from the place where it starts.

## Main Definitions

* `Segmenter.IsLiteralAt` — what a literal has to be
* `Segmenter.IsSegmentation` — the description

## Main Statements

* `Segmenter.segments_textOf_of_append` — segmentation has no memory
* `Segmenter.isSegmentation_segments` — the segments of a text are as described
-/

namespace RuleCanon

open Segment

namespace Segmenter

variable {s : Segmenter} {text : List Char} {gs front back : List Segment} {d : Delimiters}
  {body t : List Char} {terminated : Bool} {g : Segment} {span : Span} {i k n : Nat}

/-- A literal in a text: it opens with the first of the delimiters whose opening mark starts
there, and it is terminated by the first closing mark that ends it, if there is one. -/
structure IsLiteralAt (s : Segmenter) (text : List Char) (span : Span) (d : Delimiters)
    (terminated : Bool) : Prop where
  selected : s.delimiters[s.indexOf d]? = some d
  opens : d.opening <+: text.drop span.start
  least : ∀ {j e}, s.delimiters[j]? = some e → e.opening <+: text.drop span.start →
    s.indexOf d ≤ j
  closed : ∀ stop, terminated = true ∧ span.stop = stop ↔
    ∃ i, ClosesFirstAt d.closing text (span.start + d.opening.length) i ∧
      stop = i + d.closing.length
  opened : terminated = false ↔
    ∀ i, ¬ ClosesAt d.closing text (span.start + d.opening.length) i

/-- The description of the segments of a text with the stretches that they cover. -/
structure IsSegmentation (s : Segmenter) (text : List Char) (segments : List (Span × Segment)) :
    Prop where
  tiles : Tiles 0 (utf8Length text) (segments.map fun e => e.1.bytes text)
  boundary : ∀ e ∈ segments, positionOfByte? text (e.1.bytes text).start = some e.1.start ∧
    positionOfByte? text (e.1.bytes text).stop = some e.1.stop
  covers : ∀ e ∈ segments, e.2.text = slice text e.1.start e.1.stop
  alternate : segments.IsChain fun e f => e.2.isLiteral = true ∨ f.2.isLiteral = true
  code : ∀ {span t}, (span, .code t) ∈ segments → ∀ i, span.start ≤ i → i < span.stop →
    ∀ d ∈ s.delimiters, ¬ d.opening <+: text.drop i
  literal : ∀ {span d body terminated}, (span, .literal d body terminated) ∈ segments →
    s.IsLiteralAt text span d terminated
  last : ∀ {span d body}, (span, .literal d body false) ∈ segments →
    segments.getLast? = some (span, .literal d body false) ∧ span.stop = text.length

/-! ## Segments one by one -/

/-- One more character of code is put in front of the first segment or makes a new one. -/
theorem consCode_cases (c : Char) (gs : List Segment) :
    (∃ t rest, gs = code t :: rest ∧ consCode c gs = code (c :: t) :: rest) ∨
      consCode c gs = code [c] :: gs := by
  cases gs with
  | nil => exact .inr rfl
  | cons g rest =>
      cases g with
      | code t => exact .inl ⟨t, rest, rfl, rfl⟩
      | literal => exact .inr rfl

/-- What segments a text with a first character has. -/
theorem segments_cons_cases (s : Segmenter) (c : Char) (rest : List Char) :
    (s.opening? (c :: rest) = none ∧ s.segments (c :: rest) = consCode c (s.segments rest)) ∨
      ∃ d body, s.opening? (c :: rest) = some d ∧
        ((splitBody d.closing ((c :: rest).drop d.opening.length) = (body, none) ∧
            s.segments (c :: rest) = [.literal d body false]) ∨
          ∃ after, splitBody d.closing ((c :: rest).drop d.opening.length) = (body, some after) ∧
            s.segments (c :: rest) = .literal d body true :: s.segments after) := by
  cases hopens : s.opening? (c :: rest) with
  | none => exact .inl ⟨rfl, segments_cons_of_none hopens⟩
  | some d =>
      refine .inr ⟨d, (splitBody d.closing ((c :: rest).drop d.opening.length)).1, rfl, ?_⟩
      cases hsplit : splitBody d.closing ((c :: rest).drop d.opening.length) with
      | mk body after =>
          cases after with
          | none => exact .inl ⟨rfl, segments_of_open hopens hsplit⟩
          | some after => exact .inr ⟨after, rfl, segments_of_closed hopens hsplit⟩

/-- No segment is empty. -/
theorem text_ne_nil_of_mem_segments (hg : g ∈ s.segments text) : g.text ≠ [] := by
  fun_induction segments s text with
  | case1 => contradiction
  | case2 c rest hopens ih =>
      rcases consCode_cases c (s.segments rest) with ⟨t, gs, hgs, hcons⟩ | hcons
      · rw [hcons] at hg
        rcases List.mem_cons.1 hg with rfl | hg
        · exact List.cons_ne_nil c t
        · exact ih (hgs ▸ List.mem_cons_of_mem _ hg)
      · rw [hcons] at hg
        rcases List.mem_cons.1 hg with rfl | hg
        · exact List.cons_ne_nil c []
        · exact ih hg
  | case3 c rest d hopens body hsplit =>
      rw [List.mem_singleton.1 hg]
      simp [Segment.text, opening_ne_nil hopens]
  | case4 c rest d hopens body after hsplit ih =>
      rcases List.mem_cons.1 hg with rfl | hg
      · simp [Segment.text, opening_ne_nil hopens]
      · exact ih hg

/-- **Segmentation has no memory**: the last segments are those of the text that they make up. -/
theorem segments_textOf_of_append (h : s.segments text = front ++ back) :
    s.segments (textOf back) = back := by
  have hwhole {text : List Char} (h : s.segments text = back) :
      s.segments (textOf back) = back := by
    rw [← h, textOf_segments]
  fun_induction segments s text generalizing front with
  | case1 =>
      obtain ⟨-, rfl⟩ := List.append_eq_nil_iff.1 h.symm
      rw [textOf_nil, segments]
  | case2 c rest hopens ih =>
      cases front with
      | nil => exact hwhole ((segments_cons_of_none hopens).trans h)
      | cons f front =>
          rcases consCode_cases c (s.segments rest) with ⟨t, gs, hgs, hcons⟩ | hcons
          · rw [hcons, List.cons_append, List.cons.injEq] at h
            have hfront : s.segments rest = code t :: front ++ back := by
              rw [hgs, h.2, List.cons_append]
            exact ih hfront
          · rw [hcons, List.cons_append, List.cons.injEq] at h
            exact ih h.2
  | case3 c rest d hopens body hsplit =>
      cases front with
      | nil => exact hwhole ((segments_of_open hopens hsplit).trans h)
      | cons f front =>
          rw [List.cons_append, List.cons.injEq] at h
          obtain ⟨-, rfl⟩ := List.append_eq_nil_iff.1 h.2.symm
          rw [textOf_nil, segments]
  | case4 c rest d hopens body after hsplit ih =>
      cases front with
      | nil => exact hwhole ((segments_of_closed hopens hsplit).trans h)
      | cons f front =>
          rw [List.cons_append, List.cons.injEq] at h
          exact ih h.2

/-- No literal opens where code stands. -/
theorem opening?_drop_of_segments (h : s.segments text = .code t :: gs) (hk : k < t.length) :
    s.opening? (text.drop k) = none := by
  induction k generalizing text t with
  | zero =>
      cases text with
      | nil => simp [segments] at h
      | cons c rest =>
          rcases segments_cons_cases s c rest with ⟨hopens, -⟩ | ⟨d, body, -, ⟨-, hd⟩ | ⟨_, -, hd⟩⟩
          · exact hopens
          · simp [hd] at h
          · simp [hd] at h
  | succ k ih =>
      cases text with
      | nil => simp [segments] at h
      | cons c rest =>
          rcases segments_cons_cases s c rest with ⟨-, hd⟩ | ⟨d, body, -, ⟨-, hd⟩ | ⟨_, -, hd⟩⟩
          · rw [hd] at h
            rcases consCode_cases c (s.segments rest) with ⟨u, gs', hgs, hcons⟩ | hcons
            · rw [hcons, List.cons.injEq, Segment.code.injEq] at h
              obtain ⟨rfl, rfl⟩ := h
              exact ih hgs (by simpa using hk)
            · rw [hcons, List.cons.injEq, Segment.code.injEq] at h
              obtain ⟨rfl, -⟩ := h
              simp at hk
          · simp [hd] at h
          · simp [hd] at h

/-- A literal at the start of a text is opened by its delimiters, and its body is what the scan
of the body gives. -/
theorem splitBody_of_segments (h : s.segments text = .literal d body terminated :: gs) :
    s.opening? text = some d ∧
      splitBody d.closing (text.drop d.opening.length) =
        (body, if terminated then some (textOf gs) else none) ∧
      (terminated = false → gs = []) := by
  cases text with
  | nil => simp [segments] at h
  | cons c rest =>
      rcases segments_cons_cases s c rest with
        ⟨-, hd⟩ | ⟨e, body', hopens, ⟨hsplit, hd⟩ | ⟨after, hsplit, hd⟩⟩
      · rw [hd] at h
        rcases consCode_cases c (s.segments rest) with ⟨t, gs', -, hcons⟩ | hcons <;>
          simp [hcons] at h
      · rw [hd, List.cons.injEq, Segment.literal.injEq] at h
        obtain ⟨⟨rfl, rfl, rfl⟩, rfl⟩ := h
        exact ⟨hopens, hsplit, fun _ => rfl⟩
      · rw [hd, List.cons.injEq, Segment.literal.injEq] at h
        obtain ⟨⟨rfl, rfl, rfl⟩, rfl⟩ := h
        exact ⟨hopens, by rw [hsplit, textOf_segments]; rfl, by simp⟩

/-! ## Segments with the stretches that they cover -/

/-- A segment in a layout starts behind the segments in front of it. -/
theorem exists_of_mem_layout (h : (span, g) ∈ layout n gs) :
    ∃ front back, gs = front ++ g :: back ∧ span.start = n + (textOf front).length ∧
      span.stop = span.start + g.text.length := by
  induction gs generalizing n with
  | nil => contradiction
  | cons head gs ih =>
      rcases List.mem_cons.1 h with heq | h
      · obtain ⟨rfl, rfl⟩ := Prod.mk.inj heq
        exact ⟨[], gs, rfl, rfl, rfl⟩
      · obtain ⟨front, back, rfl, hstart, hstop⟩ := ih h
        refine ⟨head :: front, back, rfl, ?_, hstop⟩
        rw [hstart, textOf_cons, List.length_append, Nat.add_assoc]

/-- A layout of segments that are not empty tiles the text that they make up. -/
theorem tiles_layout (hne : ∀ g ∈ gs, g.text ≠ []) :
    Tiles n (n + (textOf gs).length) ((layout n gs).map (·.1)) := by
  induction gs generalizing n with
  | nil => rfl
  | cons g gs ih =>
      have hpos := List.length_pos_iff.2 (hne g List.mem_cons_self)
      have hlength : n + (textOf (g :: gs)).length = n + g.text.length + (textOf gs).length := by
        rw [textOf_cons, List.length_append, Nat.add_assoc]
      exact ⟨rfl, Nat.lt_add_of_pos_right hpos,
        hlength ▸ ih fun h hh => hne h (List.mem_cons_of_mem g hh)⟩

theorem layout_append (n : Nat) (gs hs : List Segment) :
    layout n (gs ++ hs) = layout n gs ++ layout (n + (textOf gs).length) hs := by
  induction gs generalizing n with
  | nil => rfl
  | cons g gs ih =>
      rw [List.cons_append, layout, layout, ih, List.cons_append, textOf_cons, List.length_append,
        Nat.add_assoc]

theorem map_snd_layout (n : Nat) (gs : List Segment) : (layout n gs).map (·.2) = gs := by
  induction gs generalizing n with
  | nil => rfl
  | cons g gs ih => rw [layout, List.map_cons, ih]

/-- **A segment is found where it starts**: what the text goes on with there is cut into the
segment and those behind it. -/
theorem exists_segments_drop (h : (span, g) ∈ layout 0 (s.segments text)) :
    ∃ back, s.segments (text.drop span.start) = g :: back ∧
      span.stop = span.start + g.text.length ∧ span.stop ≤ text.length := by
  obtain ⟨front, back, hsplit, hstart, hstop⟩ := exists_of_mem_layout h
  have htext : text = textOf front ++ textOf (g :: back) := by
    rw [← textOf_append, ← hsplit, textOf_segments]
  have hdrop : text.drop span.start = textOf (g :: back) := by
    rw [htext, hstart, Nat.zero_add, List.drop_left]
  refine ⟨back, ?_, hstop, ?_⟩
  · rw [hdrop, segments_textOf_of_append hsplit]
  · rw [htext, hstop, hstart, List.length_append, textOf_cons, List.length_append]
    omega

/-- No delimiters that are listed before those of a literal open where it does. -/
theorem indexOf_le_of_opening? {e : Delimiters} (h : s.opening? text = some d)
    (he : s.delimiters[k]? = some e) (hopens : e.opening <+: text) : s.indexOf d ≤ k := by
  obtain ⟨-, before, after, hlist, hbefore⟩ := List.find?_eq_some_iff_append.1 h
  by_contra hlt
  have hle : s.indexOf d ≤ before.length := by
    rw [indexOf, hlist, List.idxOf_append]
    split
    · next hmem => exact Nat.le_of_lt (List.idxOf_lt_length_of_mem hmem)
    · rw [List.idxOf_cons_self, Nat.zero_add]
  have hmem : e ∈ before := by
    rw [hlist, List.getElem?_append_left (by omega)] at he
    exact List.mem_of_getElem? he
  simpa [List.isPrefixOf_iff_prefix.2 hopens] using hbefore e hmem

/-- **A literal is as described.** -/
theorem isLiteralAt_of_mem_layout
    (h : (span, .literal d body terminated) ∈ layout 0 (s.segments text)) :
    s.IsLiteralAt text span d terminated := by
  obtain ⟨back, hsegments, hstop, -⟩ := exists_segments_drop h
  obtain ⟨hopens, hsplit, -⟩ := splitBody_of_segments hsegments
  have hmem : d ∈ s.delimiters := List.mem_of_find?_eq_some hopens
  have hne := (s.proper d hmem).2
  rw [List.drop_drop] at hsplit
  have hselected : s.delimiters[s.indexOf d]? = some d := List.getElem?_idxOf hmem
  have hhere : d.opening <+: text.drop span.start :=
    ⟨_, append_drop_of_opening? hopens⟩
  cases terminated with
  | true =>
      have hfirst := closesFirstAt_drop (closesFirstAt_of_splitBody hne hsplit)
      have hend : span.stop =
          span.start + d.opening.length + body.length + d.closing.length := by
        rw [hstop, Segment.text, if_pos rfl, List.length_append, List.length_append]
        omega
      refine ⟨hselected, hhere, indexOf_le_of_opening? hopens, fun stop => ⟨?_, ?_⟩, ?_⟩
      · rintro ⟨-, rfl⟩
        exact ⟨_, hfirst, hend⟩
      · rintro ⟨i, hi, rfl⟩
        rw [hi.eq hfirst]
        exact ⟨rfl, hend⟩
      · exact iff_of_false (by simp) fun hnone => hnone _ hfirst.closes
  | false =>
      have hnone := not_closesAt_drop (not_closesAt_of_splitBody hne hsplit)
      refine ⟨hselected, hhere, indexOf_le_of_opening? hopens, fun stop => ?_, ?_⟩
      · refine iff_of_false (by simp) ?_
        rintro ⟨i, hi, -⟩
        exact hnone i hi.closes
      · exact iff_of_true rfl hnone

/-- **Segmentation meets its description**, whatever delimiters are looked for. -/
theorem isSegmentation_segments (s : Segmenter) (text : List Char) :
    s.IsSegmentation text (layout 0 (s.segments text)) where
  tiles := by
    have hne : ∀ g ∈ s.segments text, g.text ≠ [] := fun _ => text_ne_nil_of_mem_segments
    have htiles := tiles_layout (n := 0) hne
    rw [textOf_segments, Nat.zero_add] at htiles
    have hbytes := htiles.bytes (Nat.le_refl text.length)
    rwa [byteOffset_zero, byteOffset_length, List.map_map] at hbytes
  boundary e he := by
    obtain ⟨back, -, hstop, hle⟩ := exists_segments_drop he
    exact ⟨positionOfByte?_byteOffset (by omega), positionOfByte?_byteOffset hle⟩
  covers e he := by
    obtain ⟨back, hsegments, hstop, -⟩ := exists_segments_drop he
    have htext : text.drop e.1.start = textOf (e.2 :: back) := by
      rw [← hsegments, textOf_segments]
    rw [hstop, slice_add_of_drop_eq htext]
  alternate := by
    have hchain := isChain_segments s text
    rw [← map_snd_layout 0 (s.segments text), List.isChain_map] at hchain
    exact hchain
  code {span t} h i hle hlt d hd hopens := by
    obtain ⟨back, hsegments, hstop, -⟩ := exists_segments_drop h
    have hnone := opening?_drop_of_segments hsegments (k := i - span.start) (by
      rw [Segment.text] at hstop
      omega)
    rw [List.drop_drop, Nat.add_sub_cancel' hle] at hnone
    simpa [hopens] using List.find?_eq_none.1 hnone d hd
  literal := isLiteralAt_of_mem_layout
  last {span d body} h := by
    obtain ⟨front, back, hsplit, hstart, hstop⟩ := exists_of_mem_layout h
    obtain rfl := (splitBody_of_segments (segments_textOf_of_append hsplit)).2.2 rfl
    have htext : text = textOf front ++ (literal d body false).text := by
      rw [← textOf_segments s text, hsplit, textOf_append, textOf_cons, textOf_nil,
        List.append_nil]
    refine ⟨?_, ?_⟩
    · rw [hsplit, layout_append, layout, layout, List.getLast?_concat, ← hstart, ← hstop]
    · rw [hstop, hstart, htext, List.length_append, Nat.zero_add]

end Segmenter

end RuleCanon
