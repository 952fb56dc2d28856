import RuleCanon.Proofs.Idiom.Binding

/-!
# Bindings one behind the other

When a binding gets its first word, the blanks that it ends with are taken along.  If another
binding comes right behind them, it has lost what should stand in front of it, and is passed over.
So of several bindings in a row every other one is left as it was.  A second run finds these in
their place, since the ones in front of them are no bindings any more, and then all is done.

The proof compares the two places where a binding could start: those where the character before
it allows for one, and those where the walk through the text still has this character.

## Main Definitions

* `Swaps` — texts in which some first words of bindings are replaced
* `Rebinds` — the walk, with what it knows of the character before its place
* `isBinding`, `isRow` — whether a text starts with a binding of a value, and with two of them
* `Everywhere` — what holds at each place where a binding could start

## Main Statements

* `rebinds_of_rewrites` — replacement of bindings is such a walk
* `Rebinds.not_isRow` — it leaves no two bindings in a row
* `Rebinds.everywhere_not_isBinding_iff` — it leaves no binding just if there were no two in a row
* `Rebinds.eq_self` — it changes nothing where there is no binding
-/

namespace RuleCanon

open Pattern

variable {c : Char} {t u v x y z rest out : List Char} {free : Bool}

/-! ## Texts with other first words -/

/-- The second text is the first one with some first words of bindings replaced. -/
inductive Swaps : List Char → List Char → Prop where
  | nil : Swaps [] []
  | copy (c : Char) {u v : List Char} (h : Swaps u v) : Swaps (c :: u) (c :: v)
  | swap {u v : List Char} (h : Swaps u v) : Swaps ('设' :: '置' :: u) ('令' :: v)

namespace Swaps

theorem refl (u : List Char) : Swaps u u := by
  induction u with
  | nil => exact .nil
  | cons c u ih => exact .copy c ih

theorem append_left (t : List Char) (h : Swaps u v) : Swaps (t ++ u) (t ++ v) := by
  induction t with
  | nil => exact h
  | cons c t ih => exact .copy c ih

theorem startsValue_eq (h : Swaps u v) : startsValue u = startsValue v := by
  cases h with
  | nil => rfl
  | copy => rfl
  | swap => rfl

theorem endsRun_inlineBlank (h : Swaps u v) (hend : EndsRun .inlineBlank u) :
    EndsRun .inlineBlank v := by
  cases h with
  | nil => exact hend
  | copy c h => exact hend
  | swap h =>
      intro c hc
      rw [← Option.some.inj hc]
      decide

theorem dropWhile {P : Char → Bool} (hfirst : P '设' = P '置') (hother : P '令' = P '设')
    (h : Swaps u v) : Swaps (u.dropWhile P) (v.dropWhile P) := by
  induction h with
  | nil => exact .nil
  | @copy c u v h ih =>
      rw [List.dropWhile_cons, List.dropWhile_cons]
      split
      · exact ih
      · exact .copy c h
  | @swap u v h ih =>
      rw [List.dropWhile_cons, List.dropWhile_cons, List.dropWhile_cons, hother, ← hfirst]
      split
      · exact ih
      · exact .swap h

theorem rel_afterRun? {set : CharSet} (hfirst : set.mem '设' = set.mem '置')
    (hother : set.mem '令' = set.mem '设') (h : Swaps u v) :
    Option.Rel Swaps (afterRun? set u) (afterRun? set v) := by
  cases h with
  | nil => exact .none
  | copy c h =>
      rw [afterRun?, afterRun?]
      split
      · exact .some (h.dropWhile hfirst hother)
      · exact .none
  | swap h =>
      rw [afterRun?, afterRun?, hother]
      split
      · next hmem =>
        rw [List.dropWhile_cons_of_pos (by rw [← hfirst, hmem])]
        exact .some (h.dropWhile hfirst hother)
      · exact .none

theorem rel_afterLink? (h : Swaps u v) : Option.Rel Swaps (afterLink? u) (afterLink? v) := by
  cases h with
  | nil => exact .none
  | copy c h =>
      by_cases hc : c = '为'
      · subst hc
        exact .some h
      · rw [afterLink?, afterLink?]
        · exact .none
        · exact fun rest heq => hc (List.cons.inj heq).1
        · exact fun rest heq => hc (List.cons.inj heq).1
  | swap => exact .none

end Swaps

theorem rel_bind {α β γ δ : Type} {R : α → β → Prop} {S : γ → δ → Prop} {a : Option α}
    {b : Option β} {f : α → Option γ} {g : β → Option δ} (h : Option.Rel R a b)
    (hfg : ∀ a b, R a b → Option.Rel S (f a) (g b)) : Option.Rel S (a.bind f) (b.bind g) := by
  cases h with
  | none => exact .none
  | some h => exact hfg _ _ h

/-- **Other first words do not change how the tail of a binding is read.** -/
theorem Swaps.rel_bindingTail? (h : Swaps u v) :
    Option.Rel Swaps (bindingTail? u) (bindingTail? v) := by
  have hblanks {u v : List Char} (h : Swaps u v) :
      Option.Rel Swaps (afterRun? .inlineBlank u) (afterRun? .inlineBlank v) :=
    h.rel_afterRun? (by decide) (by decide)
  have hname {u v : List Char} (h : Swaps u v) :
      Option.Rel Swaps (afterRun? .boundName u) (afterRun? .boundName v) :=
    h.rel_afterRun? (by decide) (by decide)
  exact rel_bind (hblanks h) fun _ _ h => rel_bind (hname h) fun _ _ h =>
    rel_bind (hblanks h) fun _ _ h => rel_bind h.rel_afterLink? fun _ _ h => hblanks h

/-- A binding starts with both characters of its first word. -/
theorem bindingAt?_cons_cons_of_ne {d : Char} (hd : d ≠ '置') (c : Char) (rest : List Char) :
    bindingAt? (c :: d :: rest) = none := by
  rw [bindingAt?]
  intro text h
  exact hd (List.cons.inj (List.cons.inj h).2).1

/-- A binding does not fit in front of the end of a text. -/
theorem bindingAt?_of_length_le (hz : z.length ≤ 1) : bindingAt? z = none := by
  match z, hz with
  | [], _ => rfl
  | [c], _ =>
      by_cases hc : c = '设'
      · subst hc
        rfl
      · exact bindingAt?_cons_of_ne hc []

/-- **Other first words behind a place do not change whether a binding starts there.** -/
theorem Swaps.rel_bindingAt? (c : Char) (h : Swaps u v) :
    Option.Rel Swaps (bindingAt? (c :: u)) (bindingAt? (c :: v)) := by
  by_cases hc : c = '设'
  · subst hc
    cases h with
    | nil => exact .none
    | copy d h =>
        by_cases hd : d = '置'
        · subst hd
          exact h.rel_bindingTail?
        · rw [bindingAt?_cons_cons_of_ne hd, bindingAt?_cons_cons_of_ne hd]
          exact .none
    | swap => exact .none
  · rw [bindingAt?_cons_of_ne hc, bindingAt?_cons_of_ne hc]
    exact .none

/-! ## Bindings of values -/

/-- Whether a text starts with a binding of a value. -/
def isBinding (text : List Char) : Bool := (bindingAt? text).any startsValue

/-- Whether a text starts with two bindings, one right behind the other, the second one of a
value. -/
def isRow (text : List Char) : Bool := (bindingAt? text).any isBinding

theorem any_startsValue_eq {a b : Option (List Char)} (h : Option.Rel Swaps a b) :
    a.any startsValue = b.any startsValue := by
  cases h with
  | none => rfl
  | some h => exact h.startsValue_eq

theorem Swaps.isBinding_eq (c : Char) (h : Swaps u v) : isBinding (c :: u) = isBinding (c :: v) :=
  any_startsValue_eq (h.rel_bindingAt? c)

/-- A binding is the value of another one. -/
theorem startsValue_of_isBinding (h : isBinding u = true) : startsValue u = true := by
  obtain ⟨v, hv, -⟩ := (Option.any_eq_true _ _).1 h
  obtain ⟨t, -, rfl, -⟩ := exists_of_bindingAt? hv
  rfl

theorem isBinding_of_isRow (h : isRow u = true) : isBinding u = true := by
  obtain ⟨v, hv, hbinding⟩ := (Option.any_eq_true _ _).1 h
  exact (Option.any_eq_true _ _).2 ⟨v, hv, startsValue_of_isBinding hbinding⟩

theorem isBinding_eq_false (h : bindingAt? u = none) : isBinding u = false := by
  rw [isBinding, h]
  rfl

theorem isRow_eq_false (h : bindingAt? u = none) : isRow u = false := by
  rw [isRow, h]
  rfl

section Append

variable (ht : IsBindingTail t) (hend : EndsRun .inlineBlank rest)

include ht hend

theorem bindingAt?_eq_some : bindingAt? ('设' :: '置' :: (t ++ rest)) = some rest := by
  rw [bindingAt?_append ht, dropWhile_eq_self hend]

theorem isBinding_append : isBinding ('设' :: '置' :: (t ++ rest)) = startsValue rest := by
  rw [isBinding, bindingAt?_eq_some ht hend]
  rfl

theorem isRow_append : isRow ('设' :: '置' :: (t ++ rest)) = isBinding rest := by
  rw [isRow, bindingAt?_eq_some ht hend]
  rfl

end Append

/-! ## No binding inside a binding -/

/-- No binding starts in the text `t`, with `rest` behind it. -/
def Silent (rest : List Char) : List Char → Prop
  | [] => True
  | c :: t => bindingAt? (c :: (t ++ rest)) = none ∧ Silent rest t

theorem silent_append (ht : Silent (u ++ rest) t) (hu : Silent rest u) : Silent rest (t ++ u) := by
  induction t with
  | nil => exact hu
  | cons c t ih =>
      obtain ⟨hhead, htail⟩ := ht
      rw [← List.append_assoc] at hhead
      exact ⟨hhead, ih htail⟩

theorem silent_of_forall_ne (ht : ∀ c ∈ t, c ≠ '设') : Silent rest t := by
  induction t with
  | nil => trivial
  | cons c t ih =>
      exact ⟨bindingAt?_cons_of_ne (ht c List.mem_cons_self) _,
        ih fun a ha => ht a (List.mem_cons_of_mem c ha)⟩

theorem silent_of_fills_inlineBlank (ht : Fills .inlineBlank t) : Silent rest t := by
  refine silent_of_forall_ne fun c hc => ?_
  rcases mem_inlineBlank_iff.1 (ht.2 c hc) with rfl | rfl <;> decide

/-- A name behind a first word, and then the second word: the name was not behind blanks. -/
theorem bindingTail?_of_name {name gap' : List Char}
    (hname : ∀ c ∈ name, CharSet.boundName.mem c = true) (hgap' : Fills .inlineBlank gap')
    (rest : List Char) : bindingTail? (name ++ (gap' ++ '为' :: rest)) = none := by
  cases name with
  | nil =>
      -- the blanks are there, but the second word is no name
      rw [List.nil_append, bindingTail?, afterRun?_append hgap',
        dropWhile_eq_self (endsRun_inlineBlank_link rest), Option.bind_some]
      rfl
  | cons c name =>
      have hc := inlineBlank_of_boundName c (hname c List.mem_cons_self)
      rw [List.cons_append, bindingTail?, afterRun?, hc]
      rfl

theorem silent_of_name {name gap' : List Char}
    (hname : ∀ c ∈ name, CharSet.boundName.mem c = true) (hgap' : Fills .inlineBlank gap')
    (rest : List Char) : Silent (gap' ++ '为' :: rest) name := by
  induction name with
  | nil => trivial
  | cons c name ih =>
      have hrest := (List.forall_mem_cons.1 hname).2
      refine ⟨?_, ih hrest⟩
      by_cases hc : c = '设'
      · subst hc
        cases name with
        | nil =>
            obtain ⟨hne, hblanks⟩ := hgap'
            obtain ⟨b, gap', rfl⟩ := List.exists_cons_of_ne_nil hne
            refine bindingAt?_cons_cons_of_ne ?_ _ _
            rcases mem_inlineBlank_iff.1 (hblanks b List.mem_cons_self) with rfl | rfl <;> decide
        | cons d name =>
            by_cases hd : d = '置'
            · subst hd
              exact bindingTail?_of_name (List.forall_mem_cons.1 hrest).2 hgap' rest
            · exact bindingAt?_cons_cons_of_ne hd _ _
      · exact bindingAt?_cons_of_ne hc _

/-- **No binding starts inside the tail of a binding.** -/
theorem silent_of_isBindingTail (ht : IsBindingTail t) (rest : List Char) : Silent rest t := by
  obtain @⟨gap, name, gap', gap'', hgap, hname, hgap', hgap''⟩ := ht
  have hlast : Silent rest ('为' :: gap'') :=
    ⟨bindingAt?_cons_of_ne (by decide) _, silent_of_fills_inlineBlank hgap''⟩
  have hmiddle : Silent rest (gap' ++ '为' :: gap'') :=
    silent_append (silent_of_fills_inlineBlank hgap') hlast
  have hname' : Silent ((gap' ++ '为' :: gap'') ++ rest) name := by
    rw [List.append_assoc, List.cons_append]
    exact silent_of_name hname.2 hgap' _
  exact silent_append (silent_of_fills_inlineBlank hgap) (silent_append hname' hmiddle)

theorem silent_cons (hc : c ≠ '设') (ht : IsBindingTail t) (rest : List Char) :
    Silent rest (c :: t) :=
  ⟨bindingAt?_cons_of_ne hc _, silent_of_isBindingTail ht rest⟩

/-- Whether a character that can stand in front of a binding comes last; `free` says so of the
place before the text. -/
def freeAfter (free : Bool) (t : List Char) : Bool := t.foldl (fun _ c => isFree c) free

/-- A tail ends with a blank. -/
theorem exists_blank_of_isBindingTail (ht : IsBindingTail t) :
    ∃ front b, t = front ++ [b] ∧ CharSet.inlineBlank.mem b = true := by
  obtain @⟨gap, name, gap', gap'', -, -, -, hne, hblanks⟩ := ht
  obtain ⟨front, b, rfl⟩ := (List.eq_nil_or_concat gap'').resolve_left hne
  exact ⟨gap ++ (name ++ (gap' ++ '为' :: front)), b, by simp, hblanks b (by simp)⟩

/-- So a binding could follow a binding. -/
theorem freeAfter_of_isBindingTail (ht : IsBindingTail t) (free : Bool) :
    freeAfter free t = true := by
  obtain ⟨front, b, rfl, hb⟩ := exists_blank_of_isBindingTail ht
  rw [freeAfter, List.foldl_append, List.foldl_cons, List.foldl_nil]
  rcases mem_inlineBlank_iff.1 hb with rfl | rfl <;> decide +kernel

/-! ## The walk -/

/-- The first word of a binding that has `rest` behind it. -/
def firstWord (rest : List Char) : List Char := if startsValue rest then ['令'] else ['设', '置']

/-- The walk through a stretch of code with `z` behind it that replaces bindings.  It knows
whether a binding could start at its place, which is not so behind a binding. -/
inductive Rebinds (z : List Char) : Bool → List Char → List Char → Prop where
  | nil (free : Bool) : Rebinds z free [] []
  | copy {free : Bool} {c : Char} {y out : List Char}
      (hnone : free = true → bindingAt? (c :: (y ++ z)) = none)
      (hrest : Rebinds z (isFree c) y out) : Rebinds z free (c :: y) (c :: out)
  | bind {t y out : List Char} (ht : IsBindingTail t) (hend : EndsRun .inlineBlank (y ++ z))
      (hrest : Rebinds z false y out) :
      Rebinds z true ('设' :: '置' :: (t ++ y)) (firstWord (y ++ z) ++ (t ++ out))

/-- **Replacement of bindings is such a walk.**  Where a binding could start, it does not, unless
the place starts a line; so much is known of each place that the walk comes to. -/
theorem rebinds_of_rewrites
    (h : bindingPattern.Rewrites (bindingReplacement ['令']) z x y out)
    (hclosed : free = false → startsLine x.getLast? = false)
    (hfree : free = true → startsLine x.getLast? = true ∨ bindingAt? (y ++ z) = none) :
    Rebinds z free y out := by
  have hlast (x : List Char) (c : Char) : (x ++ [c]).getLast? = some c := List.getLast?_concat
  induction h generalizing free with
  | nil => exact .nil free
  | @copy x y out c hnone _ ih =>
      have hcons : x ++ c :: y ++ z = x ++ c :: (y ++ z) := by simp
      refine .copy (fun hopen => ?_) (ih (fun hc => ?_) fun hc => ?_)
      · refine (hfree hopen).elim (fun hstart => ?_) id
        -- a binding at the start of a line would have been a match
        by_contra hsome
        obtain ⟨v, hv⟩ := Option.ne_none_iff_exists'.1 hsome
        obtain ⟨t, ht, hsplit, hend⟩ := exists_of_bindingAt? hv
        have hmatch := matchAt?_bindingPattern (.start hstart) ht hend
        rw [List.nil_append, ← hsplit, ← hcons, hnone] at hmatch
        contradiction
      · rw [hlast]
        by_contra hstart
        obtain rfl : c = '\n' := by simpa [startsLine] using hstart
        exact absurd hc (by decide +kernel)
      · -- so would one behind the character that is left
        refine .inr (by_contra fun hsome => ?_)
        obtain ⟨v, hv⟩ := Option.ne_none_iff_exists'.1 hsome
        obtain ⟨t, ht, hsplit, hend⟩ := exists_of_bindingAt? hv
        have hmatch := matchAt?_bindingPattern (x := x) (.free hc) ht hend
        rw [List.singleton_append, ← hsplit, ← hcons, hnone] at hmatch
        contradiction
  | @exchange x w y out m hmatch hspan _ _ ih =>
      have htext : x ++ (w ++ y) ++ z = x ++ (w ++ (y ++ z)) := by simp
      rw [htext] at hmatch ⊢
      obtain ⟨lead, t, rest, hsplit, hlead, ht, hend, rfl⟩ :=
        exists_of_matchAt?_bindingPattern hmatch
      have hlength : w.length = (lead ++ '设' :: '置' :: t).length := by
        have hstop := congrArg Span.stop hspan
        simp only [bindingMatch] at hstop
        omega
      have hassoc : lead ++ '设' :: '置' :: (t ++ rest) = (lead ++ '设' :: '置' :: t) ++ rest := by
        simp
      obtain ⟨rfl, rfl⟩ := List.append_inj (hsplit.trans hassoc) hlength
      have hblank : startsLine (x ++ (lead ++ '设' :: '置' :: t)).getLast? = false := by
        obtain ⟨front, b, rfl, hb⟩ := exists_blank_of_isBindingTail ht
        have hend : x ++ (lead ++ '设' :: '置' :: (front ++ [b])) =
            (x ++ (lead ++ '设' :: '置' :: front)) ++ [b] := by simp
        rw [hend, hlast]
        rcases mem_inlineBlank_iff.1 hb with rfl | rfl <;> rfl
      have hlater : Rebinds z false y out :=
        ih (fun _ => hblank) (fun hopen => by contradiction)
      rw [← hassoc, bindingReplacement_bindingMatch]
      cases hlead with
      | start hstart =>
          cases free with
          | false => simp [hclosed rfl] at hstart
          | true => simpa [firstWord] using Rebinds.bind ht hend hlater
      | @free c hc =>
          have hbind := Rebinds.bind ht hend hlater
          rw [← hc] at hbind
          have hcopy : Rebinds z free _ _ := .copy
            (fun _ => bindingAt?_cons_of_ne (ne_of_isFree hc) _) hbind
          simpa [firstWord] using hcopy

/-- What holds at each place of a stretch of code, with `z` behind it, where a binding could
start. -/
def Everywhere (P : List Char → Prop) (z : List Char) : Bool → List Char → Prop
  | _, [] => True
  | free, c :: y => (free = true → P (c :: (y ++ z))) ∧ Everywhere P z (isFree c) y

/-- Places without a binding can be left out. -/
theorem everywhere_append_iff {P : List Char → Prop} (hP : ∀ u, bindingAt? u = none → P u)
    (ht : Silent (y ++ z) t) :
    Everywhere P z free (t ++ y) ↔ Everywhere P z (freeAfter free t) y := by
  induction t generalizing free with
  | nil => exact Iff.rfl
  | cons c t ih =>
      rw [List.cons_append, Everywhere, ih ht.2]
      have hhead : P (c :: (t ++ y ++ z)) := by
        refine hP _ ?_
        rw [List.append_assoc]
        exact ht.1
      exact and_iff_right fun _ => hhead

/-- Of the places of a binding only the first one can start a binding. -/
theorem everywhere_binding_iff {P : List Char → Prop} (hP : ∀ u, bindingAt? u = none → P u)
    (ht : IsBindingTail t) :
    Everywhere P z free ('设' :: '置' :: (t ++ y)) ↔
      (free = true → P ('设' :: '置' :: (t ++ (y ++ z)))) ∧ Everywhere P z true y := by
  have hsilent : Silent (y ++ z) ('置' :: t) := silent_cons (by decide) ht _
  have hrest : Everywhere P z (isFree '设') (('置' :: t) ++ y) ↔ _ :=
    everywhere_append_iff hP hsilent
  rw [freeAfter, List.foldl_cons, ← freeAfter, freeAfter_of_isBindingTail ht,
    List.cons_append] at hrest
  rw [Everywhere, hrest, List.cons_append, List.append_assoc]

/-- The places at which something holds, one by one. -/
theorem everywhere_iff {P : List Char → Prop} :
    Everywhere P z free y ↔
      ∀ u v, y = u ++ v → v ≠ [] → freeAfter free u = true → P (v ++ z) := by
  induction y generalizing free with
  | nil =>
      refine iff_of_true trivial fun u v hsplit hv => ?_
      exact absurd (List.append_eq_nil_iff.1 hsplit.symm).2 hv
  | cons c y ih =>
      rw [Everywhere, ih]
      constructor
      · rintro ⟨hhead, htail⟩ u v hsplit hv hfree
        cases u with
        | nil =>
            obtain rfl : c :: y = v := hsplit
            exact hhead hfree
        | cons a u =>
            obtain ⟨rfl, hrest⟩ := List.cons.inj hsplit
            exact htail u v hrest hv hfree
      · intro h
        refine ⟨fun hfree => h [] (c :: y) rfl (List.cons_ne_nil _ _) hfree,
          fun u v hsplit hv => ?_⟩
        exact h (c :: u) v (by rw [hsplit]; rfl) hv

theorem not_isBinding_of_bindingAt? {u : List Char} (h : bindingAt? u = none) :
    ¬ isBinding u = true := by
  simp [isBinding_eq_false h]

theorem not_isRow_of_bindingAt? {u : List Char} (h : bindingAt? u = none) : ¬ isRow u = true := by
  simp [isRow_eq_false h]

namespace Rebinds

/-- The walk replaces some first words. -/
theorem swaps (h : Rebinds z free y out) : Swaps (y ++ z) (out ++ z) := by
  induction h with
  | nil => exact .refl z
  | copy _ _ ih => exact .copy _ ih
  | @bind t y out _ _ _ ih =>
      have htail : Swaps (t ++ (y ++ z)) (t ++ (out ++ z)) := ih.append_left t
      rw [firstWord]
      split
      · simpa using Swaps.swap htail
      · simpa using Swaps.copy '设' (.copy '置' htail)

/-- A character at which no binding starts stays. -/
theorem of_cons (h : Rebinds z free (c :: y) out) (hnone : bindingAt? (c :: (y ++ z)) = none) :
    ∃ out', out = c :: out' ∧ Rebinds z (isFree c) y out' := by
  generalize htext : c :: y = text at h
  cases h with
  | nil => contradiction
  | copy _ hrest =>
      obtain ⟨rfl, rfl⟩ := List.cons.inj htext
      exact ⟨_, rfl, hrest⟩
  | @bind t y' out ht hend hrest =>
      obtain ⟨rfl, rfl⟩ := List.cons.inj htext
      have hsome := bindingAt?_eq_some ht hend
      simp only [List.cons_append, List.append_assoc] at hnone
      rw [hnone] at hsome
      contradiction

/-- So does a text in which no binding starts. -/
theorem of_silent (h : Rebinds z free (t ++ y) out) (ht : Silent (y ++ z) t) :
    ∃ out', out = t ++ out' ∧ Rebinds z (freeAfter free t) y out' := by
  induction t generalizing free out with
  | nil => exact ⟨out, rfl, h⟩
  | cons c t ih =>
      obtain ⟨hhead, htail⟩ := ht
      rw [← List.append_assoc] at hhead
      obtain ⟨out', rfl, hrest⟩ := of_cons h hhead
      obtain ⟨out'', rfl, hlater⟩ := ih hrest htail
      exact ⟨out'', rfl, hlater⟩

/-- What is put in for a binding, and the rest of the binding, hold no binding of a value. -/
theorem everywhere_bind_iff {P : List Char → Prop} (hP : ∀ u, bindingAt? u = none → P u)
    (hword : startsValue rest = false → P ('设' :: '置' :: (t ++ (out ++ z))))
    (ht : IsBindingTail t) (free : Bool) :
    Everywhere P z free (firstWord rest ++ (t ++ out)) ↔ Everywhere P z true out := by
  rw [firstWord]
  split
  · have hother : Silent (out ++ z) ('令' :: t) := silent_cons (by decide) ht _
    have hiff : Everywhere P z free (('令' :: t) ++ out) ↔ _ := everywhere_append_iff hP hother
    rwa [freeAfter, List.foldl_cons, ← freeAfter, freeAfter_of_isBindingTail ht] at hiff
  · next hvalue =>
    have hfirst := hword (by simpa using hvalue)
    exact (everywhere_binding_iff hP ht).trans (and_iff_right fun _ => hfirst)

/-- What ends with a blank ends within the stretch of code. -/
theorem exists_of_append_eq (hblank : ∀ o ∈ z, CharSet.inlineBlank.mem o = false)
    (ht : ∃ front b, t = front ++ [b] ∧ CharSet.inlineBlank.mem b = true)
    (h : y ++ z = t ++ rest) : ∃ y', y = t ++ y' ∧ rest = y' ++ z := by
  rcases List.append_eq_append_iff.1 h with ⟨a, hta, hza⟩ | ⟨a, hya, hra⟩
  · cases a with
    | nil => exact ⟨[], by simpa using hta.symm, by simpa using hza.symm⟩
    | cons o a =>
        -- otherwise the blank would stand behind the stretch
        obtain ⟨front, b, rfl, hb⟩ := ht
        have hlast := congrArg List.getLast? hta
        rw [List.getLast?_concat, List.getLast?_append, List.getLast?_eq_some_getLast
          (List.cons_ne_nil o a), Option.some_or] at hlast
        have hmem : b ∈ z := by
          rw [hza, Option.some.inj hlast]
          exact List.mem_append_left _ (List.getLast_mem _)
        rw [hblank b hmem] at hb
        contradiction
  · exact ⟨a, hya, hra⟩

section Short

variable (hz : z.length ≤ 1)

include hz

/-- Where a binding could start, the walk leaves none of a value. -/
theorem isBinding_eq_false (h : Rebinds z true y out) : isBinding (out ++ z) = false := by
  cases h with
  | nil => exact RuleCanon.isBinding_eq_false (bindingAt?_of_length_le hz)
  | @copy _ c y out hnone hrest =>
      have heq := hrest.swaps.isBinding_eq c
      rw [List.cons_append, ← heq]
      exact RuleCanon.isBinding_eq_false (hnone rfl)
  | @bind t y out ht hend hrest =>
      rw [firstWord]
      split
      · exact RuleCanon.isBinding_eq_false (bindingAt?_cons_of_ne (by decide) _)
      · next hvalue =>
        have hend' := hrest.swaps.endsRun_inlineBlank hend
        have heq := isBinding_append ht hend'
        rw [← hrest.swaps.startsValue_eq] at heq
        simpa using heq.trans (by simpa using hvalue)

/-- **The walk leaves no two bindings in a row.**  The first of them would not have been replaced,
so the walk would have come to the second one with its lead still there. -/
theorem not_isRow (hblank : ∀ o ∈ z, CharSet.inlineBlank.mem o = false)
    (h : Rebinds z free y out) {could : Bool} (hcould : free = true → could = true) :
    Everywhere (¬ isRow · = true) z could out := by
  induction h generalizing could with
  | nil => trivial
  | @copy free c y out hnone hrest ih =>
      refine ⟨fun _ hrow => ?_, ih id⟩
      obtain ⟨v, hv, hbinding⟩ := (Option.any_eq_true _ _).1 hrow
      have hrel := hrest.swaps.rel_bindingAt? c
      rw [hv] at hrel
      obtain ⟨u, hu, hswaps⟩ : ∃ u, bindingAt? (c :: (y ++ z)) = some u ∧ Swaps u v := by
        generalize bindingAt? (c :: (y ++ z)) = a at hrel
        cases hrel with
        | some h => exact ⟨_, rfl, h⟩
      obtain ⟨t, ht, hsplit, hend⟩ := exists_of_bindingAt? hu
      obtain ⟨rfl, htail⟩ := List.cons.inj hsplit
      have hends : ∃ front b, '置' :: t = front ++ [b] ∧ CharSet.inlineBlank.mem b = true := by
        obtain ⟨front, b, rfl, hb⟩ := exists_blank_of_isBindingTail ht
        exact ⟨'置' :: front, b, rfl, hb⟩
      obtain ⟨y', rfl, rfl⟩ := exists_of_append_eq hblank hends htail
      -- the walk goes through the first binding and comes to the second one
      have hsilent : Silent (y' ++ z) ('置' :: t) := silent_cons (by decide) ht _
      obtain ⟨out', rfl, hlater⟩ := of_silent hrest hsilent
      rw [freeAfter, List.foldl_cons, ← freeAfter, freeAfter_of_isBindingTail ht] at hlater
      have hafter := bindingAt?_eq_some ht (hlater.swaps.endsRun_inlineBlank hend)
      have hv' : bindingAt? ('设' :: '置' :: (t ++ (out' ++ z))) = some v := by simpa using hv
      obtain rfl : out' ++ z = v := Option.some.inj (hafter.symm.trans hv')
      rw [isBinding_eq_false hz hlater] at hbinding
      exact Bool.false_ne_true hbinding
  | @bind t y out ht hend hrest ih =>
      refine (everywhere_bind_iff (fun _ => not_isRow_of_bindingAt?) (fun hvalue hrow => ?_) ht _).2
        (ih fun _ => rfl)
      -- no value follows, let alone a binding
      rw [isRow_append ht (hrest.swaps.endsRun_inlineBlank hend)] at hrow
      have hstarts := startsValue_of_isBinding hrow
      rw [← hrest.swaps.startsValue_eq, hvalue] at hstarts
      contradiction

/-- **The walk leaves no binding of a value just if there were no two bindings in a row.**  Where
a binding could start and the walk is not aware of it, the walk has come from a binding. -/
theorem everywhere_not_isBinding_iff (h : Rebinds z free y out) {could : Bool}
    (hcould : free = true → could = true) :
    Everywhere (¬ isBinding · = true) z could out ↔
      Everywhere (¬ isRow · = true) z could y ∧
        (free = false → could = true → isBinding (y ++ z) = false) := by
  induction h generalizing could with
  | nil => exact iff_of_true trivial ⟨trivial, fun _ _ =>
      RuleCanon.isBinding_eq_false (bindingAt?_of_length_le hz)⟩
  | @copy free c y out hnone hrest ih =>
      have hlater := @ih (isFree c) id
      rw [and_iff_left fun hclosed hopen => by simp [hclosed] at hopen] at hlater
      rw [Everywhere, Everywhere, hlater, ← hrest.swaps.isBinding_eq c]
      have hhead : (could = true → ¬ isBinding (c :: (y ++ z)) = true) ↔
          (could = true → ¬ isRow (c :: (y ++ z)) = true) ∧
            (free = false → could = true → isBinding (c :: (y ++ z)) = false) := by
        cases free with
        | true =>
            have hbinding := not_isBinding_of_bindingAt? (hnone rfl)
            have hrow := not_isRow_of_bindingAt? (hnone rfl)
            simp [hbinding, hrow]
        | false =>
            simp only [Bool.not_eq_true, true_implies]
            refine ⟨fun hnot => ⟨fun hopen => ?_, hnot⟩, fun hboth => hboth.2⟩
            by_contra hrow
            have hbinding := isBinding_of_isRow (by simpa using hrow)
            rw [hnot hopen] at hbinding
            contradiction
      rw [hhead, List.cons_append]
      exact and_right_comm
  | @bind t y out ht hend hrest ih =>
      obtain rfl := hcould rfl
      have hend' := hrest.swaps.endsRun_inlineBlank hend
      have hout : Everywhere (¬ isBinding · = true) z true (firstWord (y ++ z) ++ (t ++ out)) ↔ _ :=
        everywhere_bind_iff (fun _ => not_isBinding_of_bindingAt?) (fun hvalue hbinding => ?_) ht
          true
      · rw [hout, ih fun _ => rfl, everywhere_binding_iff (fun _ => not_isRow_of_bindingAt?) ht,
          isRow_append ht hend]
        simp [and_comm]
      · rw [isBinding_append ht hend', ← hrest.swaps.startsValue_eq, hvalue] at hbinding
        contradiction

end Short

/-- **The walk changes nothing where there is no binding of a value.** -/
theorem eq_self (h : Rebinds z free y out) {could : Bool} (hcould : free = true → could = true)
    (hnone : Everywhere (¬ isBinding · = true) z could y) : out = y := by
  induction h generalizing could with
  | nil => rfl
  | copy _ _ ih => rw [ih id hnone.2]
  | @bind t y out ht hend hrest ih =>
      obtain rfl := hcould rfl
      obtain ⟨hhead, hlater⟩ :=
        (everywhere_binding_iff (fun _ => not_isBinding_of_bindingAt?) ht).1 hnone
      rw [isBinding_append ht hend] at hhead
      rw [ih (fun _ => rfl) hlater, firstWord, if_neg (hhead rfl)]
      rfl

end Rebinds

end RuleCanon
