import RuleCanon.Literal.Outside
import RuleCanon.Literal.Quotes
import RuleCanon.Proofs.Literal.Cut

/-!
# Changes of code alone

A change of a text is codewise if it can be done on each stretch of code by itself, knowing of
the rest of the text only the characters on both sides of the stretch.  These are marks of the
literals there, so what becomes of the code cannot depend on what the literals say.  Two laws
follow for any codewise change, and they carry over to one change after the other: the literals
stay what they are, and two texts that differ in the bodies of literals only still do so after
the change.

## Main Definitions

* `Segment.skeleton` — a segment without the body of a literal
* `Segmenter.SameSkeleton` — texts that differ in the bodies of literals only
* `Segment.mapCodeIn` — a function of each stretch of code and its neighbours
* `Segmenter.IsCodewise` — changes that can be done on each stretch of code
* `Segmenter.RewritesCode` — the two laws

## Main Statements

* `Segmenter.IsCodewise.rewritesCode` — a codewise change obeys both laws
* `Segmenter.RewritesCode.comp` — so does one such change after another
-/

namespace RuleCanon

namespace Segment

/-- The segment with nothing in the body of a literal. -/
def skeleton : Segment → Segment
  | code t => code t
  | literal d _ terminated => literal d [] terminated

/-- Applies a function to each stretch of code, the character before it and the character after
it; `before` is the character in front of the segments. -/
def mapCodeIn (g : Option Char → List Char → Option Char → List Char) :
    Option Char → List Segment → List Segment
  | _, [] => []
  | before, code t :: gs =>
    code (g before t (textOf gs).head?) :: mapCodeIn g (t.getLast?.or before) gs
  | before, literal d body terminated :: gs =>
    literal d body terminated ::
      mapCodeIn g ((literal d body terminated).text.getLast?.or before) gs

variable {g : Option Char → List Char → Option Char → List Char}

theorem filter_isLiteral_mapCodeIn (before : Option Char) (gs : List Segment) :
    (mapCodeIn g before gs).filter (·.isLiteral) = gs.filter (·.isLiteral) := by
  induction gs generalizing before with
  | nil => rfl
  | cons h gs ih =>
      cases h with
      | code t => exact ih _
      | literal d body terminated =>
          rw [mapCodeIn, List.filter_cons_of_pos rfl, List.filter_cons_of_pos rfl, ih]

/-- A literal starts with its opening mark. -/
theorem head?_textOf_literal {d : Delimiters} (hne : d.opening ≠ []) (body : List Char)
    (terminated : Bool) (gs : List Segment) :
    (textOf (literal d body terminated :: gs)).head? = d.opening.head? := by
  obtain ⟨c, rest, hopening⟩ := List.exists_cons_of_ne_nil hne
  simp [text, hopening]

/-- A closed literal ends with its closing mark. -/
theorem getLast?_text_closed {d : Delimiters} (hne : d.closing ≠ []) (body : List Char) :
    (literal d body true).text.getLast? = d.closing.getLast? := by
  rw [text, if_pos rfl, List.getLast?_append, List.getLast?_eq_some_getLast hne,
    Option.some_or]

/-- A skeleton has the same code. -/
theorem filter_code_map_skeleton (gs : List Segment) :
    (gs.map skeleton).filter (!·.isLiteral) = gs.filter (!·.isLiteral) := by
  induction gs with
  | nil => rfl
  | cons h gs ih =>
      cases h with
      | code t =>
          rw [List.map_cons, skeleton, List.filter_cons_of_pos rfl, List.filter_cons_of_pos rfl,
            ih]
      | literal => exact ih

theorem tidy_map_skeleton (gs : List Segment) :
    tidy (gs.map skeleton) = (tidy gs).map skeleton :=
  tidy_map (fun _ => rfl) (fun _ _ _ => rfl) gs

/-- New marks are given to a skeleton as to the segment itself. -/
theorem skeleton_requote (marks : Delimiters) (h : Segment) :
    (h.requote marks).skeleton = (h.skeleton.requote marks).skeleton := by
  cases h with
  | code t => rfl
  | literal d body terminated =>
      by_cases hd : d = marks
      · simp only [requote, skeleton, if_pos hd]
      · simp only [requote, skeleton, if_neg hd]

end Segment

namespace Segmenter

open Segment

variable {s : Segmenter} {g : Option Char → List Char → Option Char → List Char}

/-- Two texts that differ in the bodies of their literals only: they have the same code, and
between it literals with the same marks. -/
def SameSkeleton (s : Segmenter) (a b : List Char) : Prop :=
  (s.segments a).map skeleton = (s.segments b).map skeleton

/-- What the segments start with does not depend on the body of a literal. -/
theorem IsCut.head?_textOf_skeleton {gs : List Segment} (h : s.IsCut gs) :
    (textOf (gs.map skeleton)).head? = (textOf gs).head? := by
  induction h with
  | nil => rfl
  | @code t gs _ _ ih =>
      rw [List.map_cons, textOf_cons, textOf_cons, List.head?_append, List.head?_append, ih]
      rfl
  | closed hopens _ _ _ =>
      rw [List.map_cons, skeleton, head?_textOf_literal (opening_ne_nil hopens),
        head?_textOf_literal (opening_ne_nil hopens)]
  | opened hopens _ =>
      rw [List.map_cons, skeleton, head?_textOf_literal (opening_ne_nil hopens),
        head?_textOf_literal (opening_ne_nil hopens)]

/-- **A change of each stretch of code does not depend on the bodies of literals.** -/
theorem IsCut.map_skeleton_mapCodeIn {gs : List Segment} (h : s.IsCut gs)
    (before : Option Char) :
    (mapCodeIn g before gs).map skeleton = mapCodeIn g before (gs.map skeleton) := by
  induction h generalizing before with
  | nil => rfl
  | code _ hrest ih =>
      rw [mapCodeIn, List.map_cons, ih, List.map_cons, skeleton, skeleton, mapCodeIn,
        hrest.head?_textOf_skeleton]
  | @closed d body gs hopens _ _ ih =>
      have hproper := s.proper d (List.mem_of_find?_eq_some hopens)
      rw [Segment.mapCodeIn, List.map_cons, ih, List.map_cons, skeleton, Segment.mapCodeIn,
        getLast?_text_closed hproper.2, getLast?_text_closed hproper.2]
  | opened => rfl

theorem IsCut.mapCodeIn (hg : ∀ {before t after}, s.IsPlain t → s.IsPlain (g before t after))
    {gs : List Segment} (h : s.IsCut gs) (before : Option Char) :
    s.IsCut (mapCodeIn g before gs) := by
  induction h generalizing before with
  | nil => exact .nil
  | code hplain _ ih => exact .code (hg hplain) (ih _)
  | closed hopens hbody _ ih => exact .closed hopens hbody (ih _)
  | opened hopens hbody => exact .opened hopens hbody

/-- A change that can be done on each stretch of code by itself, and that makes no literal of
code. -/
def IsCodewise (s : Segmenter) (f : List Char → List Char) : Prop :=
  ∃ g : Option Char → List Char → Option Char → List Char,
    (∀ {before t after}, s.IsPlain t → s.IsPlain (g before t after)) ∧
      ∀ text, f text = textOf (mapCodeIn g none (s.segments text))

/-- The laws of a change that rewrites code only and by nothing but the code: the literals stay
what they are, and a difference that lies in their bodies does not spread. -/
structure RewritesCode (s : Segmenter) (f : List Char → List Char) : Prop where
  literals : ∀ text, (s.segments (f text)).filter (·.isLiteral) =
    (s.segments text).filter (·.isLiteral)
  skeleton : ∀ {a b}, s.SameSkeleton a b → s.SameSkeleton (f a) (f b)

/-- **A codewise change obeys both laws.** -/
theorem IsCodewise.rewritesCode (hs : s.IsSingle) {f : List Char → List Char}
    (h : s.IsCodewise f) : s.RewritesCode f := by
  obtain ⟨g, hplain, hf⟩ := h
  have hsegments (text : List Char) :
      s.segments (f text) = tidy (Segment.mapCodeIn g none (s.segments text)) := by
    rw [hf, segments_textOf hs ((isCut_segments s text).mapCodeIn hplain none)]
  constructor
  · intro text
    rw [hsegments, filter_isLiteral_tidy, filter_isLiteral_mapCodeIn]
  · intro a b hab
    have hskeleton (text : List Char) : (s.segments (f text)).map Segment.skeleton =
        tidy (Segment.mapCodeIn g none ((s.segments text).map Segment.skeleton)) := by
      rw [hsegments, ← tidy_map_skeleton, (isCut_segments s text).map_skeleton_mapCodeIn]
    rw [SameSkeleton, hskeleton, hskeleton, hab]

namespace RewritesCode

variable {f h : List Char → List Char}

theorem id (s : Segmenter) : s.RewritesCode fun text => text := ⟨fun _ => rfl, fun hab => hab⟩

/-- One change after the other. -/
theorem comp (hh : s.RewritesCode h) (hf : s.RewritesCode f) :
    s.RewritesCode fun text => h (f text) where
  literals text := (hh.literals (f text)).trans (hf.literals text)
  skeleton hab := hh.skeleton (hf.skeleton hab)

/-- Any number of changes, one after the other. -/
theorem foldl {α : Type} {step : List Char → α → List Char} {l : List α}
    (hl : ∀ a ∈ l, s.RewritesCode fun text => step text a) :
    s.RewritesCode fun text => l.foldl step text := by
  induction l with
  | nil => exact .id s
  | cons a l ih =>
      exact (ih fun b hb => hl b (List.mem_cons_of_mem a hb)).comp (hl a List.mem_cons_self)

end RewritesCode

/-- A function on each stretch of code is one that does not look at the characters next to it. -/
theorem mapCode_eq (s : Segmenter) (f : List Char → List Char) (text : List Char) :
    s.mapCode f text = textOf (Segment.mapCodeIn (fun _ t _ => f t) none (s.segments text)) := by
  rw [mapCode]
  generalize s.segments text = gs
  -- what stands before the stretch does not matter, and changes from one to the next
  generalize (none : Option Char) = before
  induction gs generalizing before with
  | nil => rfl
  | cons h gs ih =>
      cases h with
      | code t => exact congrArg (f t ++ ·) (ih (t.getLast?.or before))
      | literal d body terminated =>
          exact congrArg ((Segment.literal d body terminated).text ++ ·) (ih _)

/-- So it is codewise. -/
theorem isCodewise_mapCode {f : List Char → List Char}
    (hf : ∀ {t}, s.IsPlain t → s.IsPlain (f t)) : s.IsCodewise (s.mapCode f) :=
  ⟨fun _ t _ => f t, hf, s.mapCode_eq f⟩

end Segmenter

end RuleCanon
