import RuleCanon.Proofs.Idiom.Lines
import RuleCanon.Proofs.Literal.LineStart
import RuleCanon.Proofs.Pattern.Greedy

/-!
# Where bindings start

The pattern for bindings has a match at a place just if the text there can be read as a lead, the
first word, a name and the second word with blanks between them.  All of these are read as far as
they go, so there is one way to read them, and the match and its groups can be written down.

## Main Definitions

* `IsBindingTail` — what a binding reads behind its first word
* `bindingAt?` — what is left behind a binding that a text starts with
* `LeadsBinding` — what may stand in front of the first word

## Main Statements

* `matchAt?_bindingPattern` — the match at a place where a binding starts
* `exists_of_matchAt?_bindingPattern` — a match is one of those
* `bindingReplacement_bindingMatch` — what takes its place
-/

namespace RuleCanon

open Pattern

variable {t u v x y lead rest : List Char} {c : Char}

/-! ## Reading a binding -/

/-- The characters that the name in a binding can have. -/
def CharSet.boundName : CharSet := .compl (.oneOf [' ', '\t', '\r', '\n', '为'])

/-- What a binding reads behind its first word: blanks, a name, blanks, the second word and
blanks. -/
inductive IsBindingTail : List Char → Prop where
  | intro {gap name gap' gap'' : List Char} (hgap : Fills .inlineBlank gap)
      (hname : Fills .boundName name) (hgap' : Fills .inlineBlank gap')
      (hgap'' : Fills .inlineBlank gap'') : IsBindingTail (gap ++ (name ++ (gap' ++ '为' :: gap'')))

/-- What is left behind the second word of a binding that a text starts with. -/
def afterLink? : List Char → Option (List Char)
  | '为' :: rest => some rest
  | _ => none

/-- What is left behind the tail of a binding that a text starts with. -/
def bindingTail? (text : List Char) : Option (List Char) :=
  (afterRun? .inlineBlank text).bind fun text =>
    (afterRun? .boundName text).bind fun text =>
      (afterRun? .inlineBlank text).bind fun text =>
        (afterLink? text).bind (afterRun? .inlineBlank)

/-- What is left behind a binding that a text starts with. -/
def bindingAt? : List Char → Option (List Char)
  | '设' :: '置' :: text => bindingTail? text
  | _ => none

/-- No blank is part of a bound name. -/
theorem boundName_of_inlineBlank (c : Char) (hc : CharSet.inlineBlank.mem c = true) :
    CharSet.boundName.mem c = false := by
  rcases mem_inlineBlank_iff.1 hc with rfl | rfl <;> decide

theorem inlineBlank_of_boundName (c : Char) (hc : CharSet.boundName.mem c = true) :
    CharSet.inlineBlank.mem c = false := by
  by_contra hblank
  rw [boundName_of_inlineBlank c (by simpa using hblank)] at hc
  contradiction

theorem endsRun_inlineBlank_link (rest : List Char) : EndsRun .inlineBlank ('为' :: rest) := by
  intro c hc
  rw [← Option.some.inj hc]
  decide

/-- **A tail is read**, with all blanks behind it. -/
theorem bindingTail?_append (ht : IsBindingTail t) (rest : List Char) :
    bindingTail? (t ++ rest) = some (rest.dropWhile CharSet.inlineBlank.mem) := by
  obtain ⟨hgap, hname, hgap', hgap''⟩ := ht
  simp only [List.append_assoc, List.cons_append]
  rw [bindingTail?, afterRun?_append hgap,
    dropWhile_eq_self (hname.endsRun inlineBlank_of_boundName _), Option.bind_some,
    afterRun?_append hname, dropWhile_eq_self (hgap'.endsRun boundName_of_inlineBlank _),
    Option.bind_some, afterRun?_append hgap', dropWhile_eq_self (endsRun_inlineBlank_link _),
    Option.bind_some, afterLink?, Option.bind_some, afterRun?_append hgap'']

/-- **What is read is a tail**, with all blanks behind it. -/
theorem exists_of_bindingTail? (h : bindingTail? u = some v) :
    ∃ t, IsBindingTail t ∧ u = t ++ v ∧ EndsRun .inlineBlank v := by
  rw [bindingTail?] at h
  obtain ⟨u₁, h₁, h⟩ := Option.bind_eq_some_iff.1 h
  obtain ⟨u₂, h₂, h⟩ := Option.bind_eq_some_iff.1 h
  obtain ⟨u₃, h₃, h⟩ := Option.bind_eq_some_iff.1 h
  obtain ⟨u₄, h₄, h₅⟩ := Option.bind_eq_some_iff.1 h
  obtain ⟨gap, hgap, rfl, -⟩ := afterRun?_eq_some_iff.1 h₁
  obtain ⟨name, hname, rfl, -⟩ := afterRun?_eq_some_iff.1 h₂
  obtain ⟨gap', hgap', rfl, -⟩ := afterRun?_eq_some_iff.1 h₃
  obtain ⟨gap'', hgap'', rfl, hend⟩ := afterRun?_eq_some_iff.1 h₅
  unfold afterLink? at h₄
  split at h₄
  · cases h₄
    exact ⟨_, .intro hgap hname hgap' hgap'', by simp, hend⟩
  · contradiction

theorem bindingAt?_append (ht : IsBindingTail t) (rest : List Char) :
    bindingAt? ('设' :: '置' :: (t ++ rest)) = some (rest.dropWhile CharSet.inlineBlank.mem) :=
  bindingTail?_append ht rest

theorem exists_of_bindingAt? (h : bindingAt? u = some v) :
    ∃ t, IsBindingTail t ∧ u = '设' :: '置' :: (t ++ v) ∧ EndsRun .inlineBlank v := by
  unfold bindingAt? at h
  split at h
  · obtain ⟨t, ht, rfl, hend⟩ := exists_of_bindingTail? h
    exact ⟨t, ht, rfl, hend⟩
  · contradiction

/-- A binding starts with the first character of its first word. -/
theorem bindingAt?_cons_of_ne (hc : c ≠ '设') (rest : List Char) :
    bindingAt? (c :: rest) = none := by
  rw [bindingAt?]
  intro text h
  exact hc (List.cons.inj h).1

/-! ## The match -/

/-- Characters that can stand in front of the first word of a binding. -/
def isFree (c : Char) : Bool := !CharSet.nameRest.mem c

/-- What stands in front of the first word of a binding: nothing at the start of a line, or a
character that is no part of a name. -/
inductive LeadsBinding (previous : Option Char) : List Char → Prop where
  | start (h : startsLine previous = true) : LeadsBinding previous []
  | free {c : Char} (h : isFree c = true) : LeadsBinding previous [c]

/-- The match of a binding that starts at a position. -/
def bindingMatch (position : Nat) (lead tail : List Char) : Captures where
  span := ⟨position, position + (lead ++ '设' :: '置' :: tail).length⟩
  groups := [(2, ⟨position + lead.length + 2, position + (lead ++ '设' :: '置' :: tail).length⟩),
    (1, ⟨position, position + lead.length⟩)]

/-- What a binding reads from the second word on. -/
def bindingLink : Pattern := seq (one (.oneOf ['为'])) someBlanks

/-- What a binding reads behind its first word. -/
def bindingTail : Pattern := seq someBlanks (seq (someOf .boundName) (seq someBlanks bindingLink))

theorem refuses_bindingLink : bindingLink.Refuses .inlineBlank := by
  refine (refuses_one fun c hc => ?_).seq _
  rcases mem_inlineBlank_iff.1 hc with rfl | rfl <;> decide

/-- The first run behind the first word, which reads everything as far as it goes. -/
theorem head?_runs_bindingTail {r : Run} (ht : IsBindingTail t) (hend : EndsRun .inlineBlank rest)
    (hrest : r.rest = t ++ rest) : (bindingTail.runs r).head? = some (r.read t rest) := by
  obtain @⟨gap, name, gap', gap'', hgap, hname, hgap', hgap''⟩ := ht
  have hsplit : r.rest = gap ++ (name ++ (gap' ++ '为' :: (gap'' ++ rest))) := by
    simpa using hrest
  have hfirst := readsMost_someOf hsplit hgap (hname.endsRun inlineBlank_of_boundName _)
  have hsecond := readsMost_someOf (r := r.read gap (name ++ (gap' ++ '为' :: (gap'' ++ rest))))
    rfl hname (hgap'.endsRun boundName_of_inlineBlank _)
  have hthird := readsMost_someOf (r := r.read (gap ++ name) (gap' ++ '为' :: (gap'' ++ rest)))
    rfl hgap' (endsRun_inlineBlank_link _)
  have hword : (one (.oneOf ['为'])).runs (r.read (gap ++ name ++ gap') ('为' :: (gap'' ++ rest))) =
      _ := runs_one_of_mem rfl (by decide)
  have hlast := readsMost_someOf (r := r.read (gap ++ name ++ gap' ++ ['为']) (gap'' ++ rest))
    rfl hgap'' hend
  rw [Run.read_read] at hsecond hthird hword hlast
  rw [bindingTail, someBlanks, hfirst.runs_seq ((refuses_someOf boundName_of_inlineBlank).seq _),
    hsecond.runs_seq ((refuses_someOf inlineBlank_of_boundName).seq _),
    hthird.runs_seq refuses_bindingLink, bindingLink, runs_seq_of_runs_eq hword, someBlanks,
    hlast.head?_runs]
  simp

/-- The first run from the first word on. -/
theorem head?_runs_bindingRest {r : Run} (ht : IsBindingTail t) (hend : EndsRun .inlineBlank rest)
    (hrest : r.rest = '设' :: '置' :: (t ++ rest)) :
    (bindingRest.runs r).head? =
      some ((r.read ('设' :: '置' :: t) rest).record 2 (r.position + 2)) := by
  have hword : (exactly ['设', '置']).runs r = [r.read ['设', '置'] (t ++ rest)] :=
    runs_exactly hrest
  show ((seq (exactly ['设', '置']) (group 2 bindingTail)).runs r).head? = _
  rw [runs_seq_of_runs_eq hword, runs, List.head?_map, head?_runs_bindingTail ht hend rfl,
    Run.read_read]
  rfl

/-- A binding starts with its first word. -/
theorem runs_bindingRest_of_ne {r : Run} (hrest : r.rest = c :: rest) (hc : c ≠ '设') :
    bindingRest.runs r = [] := by
  have hword : (exactly ['设', '置']).runs r = [] := by
    show (seq (one (.oneOf ['设'])) (exactly ['置'])).runs r = []
    rw [runs, runs_one_of_not_mem hrest (by simpa [CharSet.mem] using hc), List.flatMap_nil]
  show (seq (exactly ['设', '置']) (group 2 bindingTail)).runs r = []
  rw [runs, hword, List.flatMap_nil]

/-- The first word does not start with a character that can stand in front of it. -/
theorem ne_of_isFree (hc : isFree c = true) : c ≠ '设' := by
  rintro rfl
  have hname : isFree '设' = false := by decide +kernel
  rw [hname] at hc
  contradiction

theorem head?_flatMap_cons {α β : Type} {f : α → List β} {a : α} {b : β} (l : List α)
    (h : (f a).head? = some b) : ((a :: l).flatMap f).head? = some b := by
  rw [List.flatMap_cons, List.head?_append, h, Option.some_or]

/-- **The match at a place where a binding starts.** -/
theorem matchAt?_bindingPattern (hlead : LeadsBinding x.getLast? lead) (ht : IsBindingTail t)
    (hend : EndsRun .inlineBlank rest) :
    bindingPattern.matchAt? (x ++ (lead ++ '设' :: '置' :: (t ++ rest))) x.length =
      some (bindingMatch x.length lead t) := by
  rw [matchAt?, charBefore?_length, List.drop_left, matchHere?, runs_bindingPattern,
    runs_bindingLead]
  set r : Run := { position := x.length, previous := x.getLast?,
                   rest := lead ++ '设' :: '置' :: (t ++ rest) }
  cases hlead with
  | start h =>
      have hanchor : (anchor .lineStart).runs r = [r] := if_pos h
      have hrun := head?_runs_bindingRest (r := r.record 1 r.position) ht hend rfl
      rw [hanchor, List.singleton_append, List.map_cons, head?_flatMap_cons _ hrun]
      rfl
  | @free c h =>
      have hone : (one (.compl .nameRest)).runs r = [r.read [c] ('设' :: '置' :: (t ++ rest))] :=
        runs_one_of_mem rfl h
      have hrun := head?_runs_bindingRest
        (r := (r.read [c] ('设' :: '置' :: (t ++ rest))).record 1 r.position) ht hend rfl
      have hnone :
          ∀ s ∈ (anchor .lineStart).runs r, bindingRest.runs (s.record 1 r.position) = [] := by
        intro s hs
        rw [runs] at hs
        split at hs
        · obtain rfl := List.mem_singleton.1 hs
          exact runs_bindingRest_of_ne rfl (ne_of_isFree h)
        · contradiction
      have hback : ((anchor .lineStart).runs r).flatMap
          (fun s => bindingRest.runs (s.record 1 r.position)) = [] :=
        List.flatMap_eq_nil_iff.2 hnone
      rw [hone, List.flatMap_map, List.flatMap_append, hback, List.nil_append,
        List.flatMap_singleton, hrun]
      simp [r, bindingMatch, Run.record, Run.read, Nat.add_assoc, Nat.add_comm]

/-- A word behind the first word is a tail. -/
theorem isBindingTail_of_spells {previous : Option Char} (h : bindingTail.Spells previous t) :
    IsBindingTail t := by
  obtain ⟨gap, t, rfl, hgap, name, t, rfl, hname, gap', t, rfl, hgap', -, gap'', rfl,
    ⟨c, hc, rfl⟩, hgap''⟩ := h
  obtain rfl : c = '为' := by simpa [CharSet.mem] using hc
  exact .intro (spells_someOf_iff.1 hgap) (spells_someOf_iff.1 hname) (spells_someOf_iff.1 hgap')
    (spells_someOf_iff.1 hgap'')

/-- What the pattern reads in front of the first word leads a binding. -/
theorem leadsBinding_of_spells {previous : Option Char}
    (h : bindingLead.Spells previous lead) : LeadsBinding previous lead := by
  rcases h with ⟨rfl, rest, hrest⟩ | ⟨c, hc, rfl⟩
  · exact .start hrest
  · exact .free hc

/-- **A match is a binding**, read as far as it goes. -/
theorem exists_of_matchAt?_bindingPattern {m : Captures}
    (h : bindingPattern.matchAt? (x ++ y) x.length = some m) :
    ∃ lead t rest, y = lead ++ '设' :: '置' :: (t ++ rest) ∧ LeadsBinding x.getLast? lead ∧
      IsBindingTail t ∧ EndsRun .inlineBlank rest ∧ m = bindingMatch x.length lead t := by
  have hmatch := h
  rw [matchAt?, charBefore?_length, List.drop_left, matchHere?] at h
  obtain ⟨s, hs, -⟩ := Option.map_eq_some_iff.1 h
  obtain ⟨w, hreads, lead, w, rfl, hlead, word, t, rfl, hword, ht⟩ :=
    spells_of_mem_runs (List.mem_of_mem_head? hs)
  obtain rfl : word = ['设', '置'] := spells_exactly_iff.1 hword
  have hy : y = lead ++ '设' :: '置' :: (t ++ s.rest) := by
    simpa using hreads.rest
  -- the word may have left blanks, but the first run has not
  obtain ⟨t', ht', hsplit, hend⟩ :=
    exists_of_bindingAt? (bindingAt?_append (isBindingTail_of_spells ht) s.rest)
  rw [hsplit] at hy
  subst hy
  have hlead' := leadsBinding_of_spells hlead
  rw [matchAt?_bindingPattern hlead' ht' hend] at hmatch
  exact ⟨lead, t', _, rfl, hlead', ht', hend, (Option.some.inj hmatch).symm⟩

/-- Whether a value follows on the same line. -/
def startsValue (rest : List Char) : Bool := rest.head?.any fun c => c != '\r' && c != '\n'

/-- **What takes the place of a binding**: another first word, if a value follows. -/
theorem bindingReplacement_bindingMatch (word x lead t rest : List Char) :
    bindingReplacement word (x ++ (lead ++ '设' :: '置' :: (t ++ rest)))
        (bindingMatch x.length lead t) =
      lead ++ (if startsValue rest then word else ['设', '置']) ++ t := by
  have hwhole : x ++ (lead ++ '设' :: '置' :: (t ++ rest)) =
      x ++ ((lead ++ '设' :: '置' :: t) ++ rest) := by simp
  have hsecond : x ++ (lead ++ '设' :: '置' :: (t ++ rest)) =
      (x ++ (lead ++ ['设', '置'])) ++ (t ++ rest) := by simp
  have hafter : charAfter? (x ++ (lead ++ '设' :: '置' :: (t ++ rest)))
      (bindingMatch x.length lead t).span.stop = rest.head? := by
    have hstop : (bindingMatch x.length lead t).span.stop =
        (x ++ (lead ++ '设' :: '置' :: t)).length := List.length_append.symm
    have hdrop (w : List Char) : (x ++ (w ++ rest)).drop (x ++ w).length = rest := by
      rw [← List.append_assoc, List.drop_left]
    rw [charAfter?, ← List.head?_drop, hwhole, hstop, hdrop]
  have hmatched : slice (x ++ (lead ++ '设' :: '置' :: (t ++ rest)))
      (bindingMatch x.length lead t).span.start (bindingMatch x.length lead t).span.stop =
        lead ++ '设' :: '置' :: t := by
    rw [hwhole]
    exact slice_between x _ rest
  have hgroup : (bindingMatch x.length lead t).textOf (x ++ (lead ++ '设' :: '置' :: (t ++ rest))) 1 =
      lead := slice_between x lead _
  have hgroup' :
      (bindingMatch x.length lead t).textOf (x ++ (lead ++ '设' :: '置' :: (t ++ rest))) 2 = t := by
    have hstart : x.length + lead.length + 2 = (x ++ (lead ++ ['设', '置'])).length := by
      simp [Nat.add_assoc]
    have hstop : x.length + (lead ++ '设' :: '置' :: t).length =
        (x ++ (lead ++ ['设', '置'])).length + t.length := by
      simp only [List.length_append, List.length_cons, List.length_nil]
      omega
    show slice _ (x.length + lead.length + 2) (x.length + (lead ++ '设' :: '置' :: t).length) = t
    rw [hsecond, hstart, hstop, slice_between]
  rw [bindingReplacement, hafter, hmatched, hgroup, hgroup', startsValue]
  split <;> simp

end RuleCanon
