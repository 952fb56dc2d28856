import RuleCanon.Proofs.Literal.Rewrite

/-!
# Stretches of code

A change of code alone acts on each stretch of code by a function of the stretch and of the
characters next to it.  If the function makes a stretch of each stretch, neither empty code nor a
new literal, then the text that comes out is cut into the same literals with the new code between
them.  So one change after the other acts by one function after the other, and whether two
changes agree on a text can be seen stretch by stretch.

## Main Definitions

* `Stretch`, `Segmenter.stretches` — the code of a text with the characters next to it
* `Segmenter.IsStretch` — what is known of a stretch of code in any text
* `Segmenter.RewritesBy` — a change that acts on each stretch by a function

## Main Statements

* `Segmenter.RewritesBy.segments_apply` — what the outcome is cut into
* `Segmenter.RewritesBy.comp` — one change after the other
* `Segmenter.RewritesBy.apply_eq_iff` — changes that agree on a text agree on its stretches
* `Segmenter.RewritesBy.apply_apply` — when a second run changes nothing
-/

namespace RuleCanon

/-- Code with the characters next to it. -/
structure Stretch where
  /-- The character in front, if there is one. -/
  before : Option Char
  /-- The code. -/
  code : List Char
  /-- The character behind, if there is one. -/
  after : Option Char

/-- The stretch with other code. -/
def Stretch.map (g : Option Char → List Char → Option Char → List Char) (r : Stretch) : Stretch :=
  { r with code := g r.before r.code r.after }

namespace Segment

variable {g h : Option Char → List Char → Option Char → List Char} {before other : Option Char}

/-- The stretches of code among segments; `before` is the character in front of them. -/
def stretchesIn : Option Char → List Segment → List Stretch
  | _, [] => []
  | before, code t :: gs =>
    ⟨before, t, (textOf gs).head?⟩ :: stretchesIn (t.getLast?.or before) gs
  | before, literal d body terminated :: gs =>
    stretchesIn ((literal d body terminated).text.getLast?.or before) gs

/-- **Functions that agree on all stretches change segments alike**, and only they do. -/
theorem mapCodeIn_eq_iff (gs : List Segment) :
    mapCodeIn g before gs = mapCodeIn h before gs ↔
      ∀ r ∈ stretchesIn before gs,
        g r.before r.code r.after = h r.before r.code r.after := by
  induction gs generalizing before with
  | nil => simp [mapCodeIn, stretchesIn]
  | cons k gs ih =>
      cases k with
      | code t => simp [mapCodeIn, stretchesIn, ih]
      | literal d body terminated => simp [mapCodeIn, stretchesIn, ih]

theorem mapCodeIn_id (before : Option Char) (gs : List Segment) :
    mapCodeIn (fun _ t _ => t) before gs = gs := by
  induction gs generalizing before with
  | nil => rfl
  | cons k gs ih => cases k <;> rw [mapCodeIn, ih]

/-- Code that no other code follows is put in front as it is. -/
theorem consText_eq_cons {t : List Char} {gs : List Segment} (hne : t ≠ [])
    (hnext : ∀ u rest, gs ≠ code u :: rest) : consText t gs = code t :: gs := by
  induction t with
  | nil => contradiction
  | cons c t ih =>
      show consCode c (consText t gs) = _
      by_cases ht : t = []
      · subst ht
        cases gs with
        | nil => rfl
        | cons k gs =>
            cases k with
            | code u => exact absurd rfl (hnext u gs)
            | literal => rfl
      · rw [ih ht]
        rfl

end Segment

namespace Segmenter

open Segment

variable {s : Segmenter} {g h : Option Char → List Char → Option Char → List Char}
  {f k : List Char → List Char} {before other : Option Char} {gs : List Segment}

/-! ## Segments that alternate -/

/-- Segments as a text is cut into them: code that is neither empty nor next to other code, and
literals that end where they should. -/
inductive Alternates (s : Segmenter) : List Segment → Prop where
  | nil : Alternates s []
  | code {t : List Char} {gs : List Segment} (hplain : s.IsPlain t) (hne : t ≠ [])
      (hnext : ∀ u rest, gs ≠ .code u :: rest) (hrest : Alternates s gs) :
      Alternates s (.code t :: gs)
  | closed {d : Delimiters} {body : List Char} {gs : List Segment}
      (hopens : s.opening? d.opening = some d)
      (hbody : ∀ rest, splitBody d.closing (body ++ d.closing ++ rest) = (body, some rest))
      (hrest : Alternates s gs) : Alternates s (.literal d body true :: gs)
  | opened {d : Delimiters} {body : List Char} (hopens : s.opening? d.opening = some d)
      (hbody : splitBody d.closing body = (body, none)) : Alternates s [.literal d body false]

namespace Alternates

theorem isCut (h : s.Alternates gs) : s.IsCut gs := by
  induction h with
  | nil => exact .nil
  | code hplain _ _ _ ih => exact .code hplain ih
  | closed hopens hbody _ ih => exact .closed hopens hbody ih
  | opened hopens hbody => exact .opened hopens hbody

/-- There is nothing to tidy. -/
theorem tidy_eq (h : s.Alternates gs) : tidy gs = gs := by
  induction h with
  | nil => rfl
  | code _ hne hnext _ ih => rw [tidy, ih, consText_eq_cons hne hnext]
  | closed _ _ _ ih => rw [tidy, ih]
  | opened => rfl

/-- Segments that satisfy the conditions of a cut alternate if they are tidy. -/
theorem of_isCut (h : s.IsCut gs)
    (hchain : gs.IsChain fun g h => g.isLiteral = true ∨ h.isLiteral = true)
    (hne : ∀ t, Segment.code t ∈ gs → t ≠ []) : s.Alternates gs := by
  induction h with
  | nil => exact .nil
  | @code t gs hplain _ ih =>
      obtain ⟨hhead, htail⟩ := List.isChain_cons.1 hchain
      refine .code hplain (hne t List.mem_cons_self) ?_
        (ih htail fun u hu => hne u (List.mem_cons_of_mem _ hu))
      rintro u rest rfl
      simpa [isLiteral] using hhead _ rfl
  | closed hopens hbody _ ih =>
      exact .closed hopens hbody
        (ih (List.isChain_cons.1 hchain).2 fun u hu => hne u (List.mem_cons_of_mem _ hu))
  | opened hopens hbody => exact .opened hopens hbody

end Alternates

/-- No stretch of code that a segmenter returns is empty. -/
theorem ne_nil_of_code_mem_segments {text t : List Char} (h : .code t ∈ s.segments text) :
    t ≠ [] := by
  fun_induction segments s text with
  | case1 => contradiction
  | case2 c rest _ ih =>
      cases hrest : s.segments rest with
      | nil =>
          rw [hrest] at h
          cases List.mem_singleton.1 h
          exact List.cons_ne_nil c []
      | cons k gs =>
          rw [hrest] at h ih
          cases k with
          | code u =>
              rcases List.mem_cons.1 h with heq | hmem
              · cases heq
                exact List.cons_ne_nil c u
              · exact ih (List.mem_cons_of_mem _ hmem)
          | literal d body terminated =>
              rcases List.mem_cons.1 h with heq | hmem
              · cases heq
                exact List.cons_ne_nil c []
              · exact ih hmem
  | case3 => simp at h
  | case4 _ _ _ _ _ _ _ ih =>
      rcases List.mem_cons.1 h with heq | hmem
      · contradiction
      · exact ih hmem

/-- **The segments of a text alternate.** -/
theorem alternates_segments (s : Segmenter) (text : List Char) : s.Alternates (s.segments text) :=
  .of_isCut (isCut_segments s text) (isChain_segments s text) fun _ => ne_nil_of_code_mem_segments

/-! ## Stretches -/

/-- What is known of a stretch of code in any text: it is not empty and opens no literal, in
front of it there is nothing or the end of a literal, and behind it nothing or the start of one. -/
structure IsStretch (s : Segmenter) (r : Stretch) : Prop where
  plain : s.IsPlain r.code
  ne_nil : r.code ≠ []
  before : ∀ q, r.before = some q → q ∈ s.fences
  after : ∀ o, r.after = some o → o ∈ s.marks

/-- The stretches of code in a text. -/
def stretches (s : Segmenter) (text : List Char) : List Stretch :=
  stretchesIn none (s.segments text)

/-- What follows code that no other code follows. -/
theorem Alternates.mem_marks_of_head? (hgs : s.Alternates gs)
    (hnext : ∀ u rest, gs ≠ .code u :: rest) {o : Char} (ho : (textOf gs).head? = some o) :
    o ∈ s.marks := by
  have hmark {d : Delimiters} (hopens : s.opening? d.opening = some d)
      (ho : d.opening.head? = some o) : o ∈ s.marks :=
    List.mem_flatMap.2 ⟨d, List.mem_of_find?_eq_some hopens, List.mem_of_mem_head? ho⟩
  cases hgs with
  | nil => contradiction
  | code => exact absurd rfl (hnext _ _)
  | closed hopens _ _ =>
      exact hmark hopens (head?_textOf_literal (opening_ne_nil hopens) _ _ _ ▸ ho)
  | opened hopens _ =>
      exact hmark hopens (head?_textOf_literal (opening_ne_nil hopens) _ _ _ ▸ ho)

/-- The stretches among segments that alternate. -/
theorem Alternates.isStretch (hgs : s.Alternates gs)
    (hbefore : ∀ t rest, gs = .code t :: rest → ∀ q, before = some q → q ∈ s.fences) :
    ∀ r ∈ stretchesIn before gs, s.IsStretch r := by
  induction hgs generalizing before with
  | nil => simp [stretchesIn]
  | @code t gs hplain hne hnext hrest ih =>
      intro r hr
      rcases List.mem_cons.1 hr with rfl | hr
      · exact ⟨hplain, hne, hbefore t gs rfl, fun o => hrest.mem_marks_of_head? hnext⟩
      · exact ih (fun u rest hcode => absurd hcode (hnext u rest)) r hr
  | @closed d body gs hopens _ _ ih =>
      have hproper := s.proper d (List.mem_of_find?_eq_some hopens)
      refine ih fun _ _ _ q hq => ?_
      rw [getLast?_text_closed hproper.2, List.getLast?_eq_some_getLast hproper.2,
        Option.some_or] at hq
      exact List.mem_flatMap.2 ⟨d, List.mem_of_find?_eq_some hopens,
        List.mem_append_right _ (Option.some.inj hq ▸ List.getLast_mem hproper.2)⟩
  | opened => simp [stretchesIn]

theorem isStretch_of_mem_stretches {text : List Char} {r : Stretch} (h : r ∈ s.stretches text) :
    s.IsStretch r :=
  (alternates_segments s text).isStretch (by simp) r h

/-- The code of a stretch is one of the segments. -/
theorem code_mem_of_mem_stretchesIn {r : Stretch} (h : r ∈ stretchesIn before gs) :
    .code r.code ∈ gs := by
  induction gs generalizing before with
  | nil => contradiction
  | cons k gs ih =>
      cases k with
      | code t =>
          rcases List.mem_cons.1 h with rfl | h
          · exact List.mem_cons_self
          · exact List.mem_cons_of_mem _ (ih h)
      | literal => exact List.mem_cons_of_mem _ (ih h)

/-- Each code segment is the code of a stretch. -/
theorem exists_mem_stretchesIn_of_code_mem {t : List Char} (before : Option Char)
    (h : .code t ∈ gs) : ∃ r ∈ stretchesIn before gs, r.code = t := by
  induction gs generalizing before with
  | nil => contradiction
  | cons k gs ih =>
      cases k with
      | code u =>
          rcases List.mem_cons.1 h with heq | h
          · cases heq
            exact ⟨_, List.mem_cons_self, rfl⟩
          · obtain ⟨r, hr, hcode⟩ := ih (u.getLast?.or before) h
            exact ⟨r, List.mem_cons_of_mem _ hr, hcode⟩
      | literal d body terminated =>
          rcases List.mem_cons.1 h with heq | h
          · contradiction
          · exact ih _ h

/-- Where a stretch of code stands. -/
theorem exists_of_mem_stretchesIn {r : Stretch} (h : r ∈ stretchesIn before gs) :
    ∃ front back, textOf gs = front ++ (r.code ++ back) ∧ r.before = front.getLast?.or before := by
  induction gs generalizing before with
  | nil => contradiction
  | cons k gs ih =>
      have hlater {rest : List Segment} {b : Option Char}
          (hrest : ∃ front back, textOf rest = front ++ (r.code ++ back) ∧
            r.before = front.getLast?.or (k.text.getLast?.or b)) :
          ∃ front back, textOf (k :: rest) = front ++ (r.code ++ back) ∧
            r.before = front.getLast?.or b := by
        obtain ⟨front, back, htext, hbefore⟩ := hrest
        refine ⟨k.text ++ front, back, ?_, ?_⟩
        · rw [textOf_cons, htext, List.append_assoc]
        · rw [List.getLast?_append, hbefore, Option.or_assoc]
      cases k with
      | code t =>
          rcases List.mem_cons.1 h with rfl | h
          · exact ⟨[], textOf gs, textOf_cons _ _, rfl⟩
          · exact hlater (ih h)
      | literal => exact hlater (ih h)

theorem exists_of_mem_stretches {text : List Char} {r : Stretch} (h : r ∈ s.stretches text) :
    ∃ front back, text = front ++ (r.code ++ back) ∧ r.before = front.getLast? := by
  obtain ⟨front, back, htext, hbefore⟩ := exists_of_mem_stretchesIn h
  rw [textOf_segments] at htext
  exact ⟨front, back, htext, by rw [hbefore, Option.or_none]⟩

/-- A change of the code between literals does not change what literals start with. -/
theorem Alternates.head?_textOf_mapCodeIn (hgs : s.Alternates gs)
    (hnext : ∀ u rest, gs ≠ .code u :: rest) :
    (textOf (mapCodeIn g before gs)).head? = (textOf gs).head? := by
  cases hgs with
  | nil => rfl
  | code => exact absurd rfl (hnext _ _)
  | closed hopens _ _ =>
      rw [mapCodeIn, head?_textOf_literal (opening_ne_nil hopens),
        head?_textOf_literal (opening_ne_nil hopens)]
  | opened => rfl

/-- A closed literal ends with a character of its own, whatever stands in front of it. -/
theorem or_getLast?_of_closed {d : Delimiters} (hopens : s.opening? d.opening = some d)
    (body : List Char) (before other : Option Char) :
    (literal d body true).text.getLast?.or before =
      (literal d body true).text.getLast?.or other := by
  have hproper := s.proper d (List.mem_of_find?_eq_some hopens)
  rw [getLast?_text_closed hproper.2, List.getLast?_eq_some_getLast hproper.2, Option.some_or,
    Option.some_or]

/-- **The stretches of what a change makes of segments** are what it makes of their stretches. -/
theorem Alternates.stretchesIn_mapCodeIn (hgs : s.Alternates gs)
    (hbefore : ∀ t rest, gs = .code t :: rest → other = before) :
    stretchesIn other (mapCodeIn g before gs) = (stretchesIn before gs).map (·.map g) := by
  induction hgs generalizing before other with
  | nil => rfl
  | @code t gs _ _ hnext hrest ih =>
      obtain rfl := hbefore t gs rfl
      rw [mapCodeIn, stretchesIn, hrest.head?_textOf_mapCodeIn hnext,
        ih fun u rest hcode => absurd hcode (hnext u rest)]
      rfl
  | @closed d body gs hopens _ _ ih =>
      rw [mapCodeIn, stretchesIn, stretchesIn]
      exact ih fun _ _ _ => or_getLast?_of_closed hopens body other before
  | opened => rfl

/-- One change of segments after the other. -/
theorem Alternates.mapCodeIn_mapCodeIn (hgs : s.Alternates gs)
    (hbefore : ∀ t rest, gs = .code t :: rest → other = before) :
    mapCodeIn h other (mapCodeIn g before gs) =
      mapCodeIn (fun b t a => h b (g b t a) a) before gs := by
  induction hgs generalizing before other with
  | nil => rfl
  | @code t gs _ _ hnext hrest ih =>
      obtain rfl := hbefore t gs rfl
      rw [mapCodeIn, mapCodeIn, mapCodeIn, hrest.head?_textOf_mapCodeIn hnext,
        ih fun u rest hcode => absurd hcode (hnext u rest)]
  | @closed d body gs hopens _ _ ih =>
      rw [mapCodeIn, mapCodeIn, mapCodeIn]
      exact congrArg _ (ih fun _ _ _ => or_getLast?_of_closed hopens body other before)
  | opened => rfl

/-- Segments still alternate if a stretch is made of each stretch. -/
theorem Alternates.mapCodeIn (hgs : s.Alternates gs)
    (hg : ∀ r ∈ stretchesIn before gs, s.IsStretch (r.map g)) :
    s.Alternates (mapCodeIn g before gs) := by
  induction hgs generalizing before with
  | nil => exact .nil
  | @code t gs _ _ hnext hrest ih =>
      obtain ⟨hhead, htail⟩ := List.forall_mem_cons.1 hg
      refine .code hhead.plain hhead.ne_nil (fun u rest hcode => ?_) (ih htail)
      cases gs with
      | nil => contradiction
      | cons k gs =>
          cases k with
          | code v => exact hnext v gs rfl
          | literal => exact Segment.noConfusion (List.cons.inj hcode).1
  | closed hopens hbody _ ih => exact .closed hopens hbody (ih hg)
  | opened hopens hbody => exact .opened hopens hbody

/-- A function that leaves the code of a text alone leaves the text alone. -/
theorem mapCode_eq_self {text : List Char} (hf : ∀ t, .code t ∈ s.segments text → f t = t) :
    s.mapCode f text = text := by
  have hsame : Segment.mapCodeIn (fun _ t _ => f t) none (s.segments text) =
      Segment.mapCodeIn (fun _ t _ => t) none (s.segments text) :=
    (mapCodeIn_eq_iff _).2 fun r hr => hf r.code (code_mem_of_mem_stretchesIn hr)
  rw [mapCode_eq, hsame, mapCodeIn_id, textOf_segments]

/-! ## Changes -/

/-- A change that acts on each stretch of code by a function, which makes a stretch of it. -/
structure RewritesBy (s : Segmenter) (g : Option Char → List Char → Option Char → List Char)
    (f : List Char → List Char) : Prop where
  isStretch : ∀ {r : Stretch}, s.IsStretch r → s.IsStretch (r.map g)
  apply_eq : ∀ text, f text = textOf (Segment.mapCodeIn g none (s.segments text))

namespace RewritesBy

theorem id (s : Segmenter) : s.RewritesBy (fun _ t _ => t) fun text => text where
  isStretch hr := hr
  apply_eq text := by rw [mapCodeIn_id, textOf_segments]

/-- A function on each stretch of code, whatever stands next to it. -/
theorem mapCode (hplain : ∀ {t}, s.IsPlain t → s.IsPlain (f t)) (hne : ∀ {t}, t ≠ [] → f t ≠ []) :
    s.RewritesBy (fun _ t _ => f t) (s.mapCode f) where
  isStretch hr := ⟨hplain hr.plain, hne hr.ne_nil, hr.before, hr.after⟩
  apply_eq := mapCode_eq s f

section Single

variable (hs : s.IsSingle)

include hs

/-- **What the outcome of a change is cut into**: the same literals with the new code between
them. -/
theorem segments_apply (hf : s.RewritesBy g f) (text : List Char) :
    s.segments (f text) = Segment.mapCodeIn g none (s.segments text) := by
  have halternates : s.Alternates (Segment.mapCodeIn g none (s.segments text)) :=
    (alternates_segments s text).mapCodeIn fun r hr =>
      hf.isStretch (isStretch_of_mem_stretches hr)
  rw [hf.apply_eq, segments_textOf hs halternates.isCut, halternates.tidy_eq]

/-- The stretches of the outcome. -/
theorem stretches_apply (hf : s.RewritesBy g f) (text : List Char) :
    s.stretches (f text) = (s.stretches text).map (·.map g) := by
  rw [stretches, hf.segments_apply hs,
    (alternates_segments s text).stretchesIn_mapCodeIn fun _ _ _ => rfl]
  rfl

/-- **One change after the other** acts by one function after the other. -/
theorem comp (hk : s.RewritesBy h k) (hf : s.RewritesBy g f) :
    s.RewritesBy (fun b t a => h b (g b t a) a) fun text => k (f text) where
  isStretch hr := hk.isStretch (hf.isStretch hr)
  apply_eq text := by
    rw [hk.apply_eq, hf.segments_apply hs,
      (alternates_segments s text).mapCodeIn_mapCodeIn fun _ _ _ => rfl]

/-- **Changes agree on a text just if they agree on its stretches.** -/
theorem apply_eq_iff (hf : s.RewritesBy g f) (hk : s.RewritesBy h k) (text : List Char) :
    f text = k text ↔
      ∀ r ∈ s.stretches text, g r.before r.code r.after = h r.before r.code r.after := by
  rw [stretches, ← mapCodeIn_eq_iff]
  constructor
  · intro heq
    rw [← hf.segments_apply hs, ← hk.segments_apply hs, heq]
  · intro heq
    rw [hf.apply_eq, hk.apply_eq, heq]

/-- **A second run changes nothing** if it changes no stretch. -/
theorem apply_apply (hf : s.RewritesBy g f)
    (hg : ∀ {r : Stretch}, s.IsStretch r →
      g r.before (g r.before r.code r.after) r.after = g r.before r.code r.after)
    (text : List Char) : f (f text) = f text :=
  ((hf.comp hs hf).apply_eq_iff hs hf text).2 fun _ hr => hg (isStretch_of_mem_stretches hr)

/-- A change leaves a text alone just if it leaves its stretches alone. -/
theorem apply_eq_self_iff (hf : s.RewritesBy g f) (text : List Char) :
    f text = text ↔ ∀ r ∈ s.stretches text, g r.before r.code r.after = r.code :=
  hf.apply_eq_iff hs (.id s) text

end Single

end RewritesBy

end Segmenter

end RuleCanon
