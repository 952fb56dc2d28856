import RuleCanon.CommandLine.Invocation

/-!
# What reading arguments keeps

A grammar is read from left to right, and each option or operand changes the value so far.  A
property that every one of these changes keeps holds of the value in the end, unless a command was
read; then the command has made the last change, to a value that still had the property.

## Main Definitions

* `Grammar.Keeps` — grammars whose options and operand keep a property

## Main Statements

* `Grammar.Keeps.readFrom_cases` — the value that is read from arguments
* `Invocation.exists_readCanon` — what is asked for by `canon` was read from the arguments behind
  it
-/

namespace RuleCanon

/-! ## Steps that may fail -/

namespace Except

variable {ε α β : Type}

/-- Two steps succeed if the first one does and then the second one on its result. -/
theorem bind_eq_ok_iff {x : Except ε α} {f : α → Except ε β} {b : β} :
    (x >>= f) = .ok b ↔ ∃ a, x = .ok a ∧ f a = .ok b := by
  cases x <;> simp [bind, Except.bind]

theorem map_eq_ok_iff {x : Except ε α} {f : α → β} {b : β} :
    x.map f = .ok b ↔ ∃ a, x = .ok a ∧ f a = b := by
  cases x <;> simp [Except.map]

/-- Other words for an error do not matter for success. -/
theorem mapError_eq_ok_iff {δ : Type} {x : Except ε α} {f : ε → δ} {a : α} :
    x.mapError f = .ok a ↔ x = .ok a := by
  cases x with
  | error e => exact iff_of_false nofun nofun
  | ok b =>
      constructor
      · intro h
        exact congrArg Except.ok (Except.ok.inj h)
      · intro h
        exact congrArg Except.ok (Except.ok.inj h)

theorem exists_of_mapError_eq_error {δ : Type} {x : Except ε α} {f : ε → δ} {d : δ}
    (h : x.mapError f = .error d) : ∃ e, f e = d := by
  cases x with
  | error e => exact ⟨e, Except.error.inj h⟩
  | ok => contradiction

end Except

/-! ## Grammars -/

/-- Options that keep a property of the value. -/
def OptionAction.Keeps {α : Type} (P : α → Prop) : OptionAction α → Prop
  | .flag f => ∀ a, P a → P (f a)
  | .word _ f => ∀ word a, P a → P (f word a)
  | .words f => ∀ word a, P a → P (f word a)
  | .ending _ => True

namespace Grammar

variable {α : Type} {g : Grammar α} {P : α → Prop} {s t : State α} {o : OptionRule α}
  {word : String} {text : List Char}

/-- Options and operands that are held back and will keep a property. -/
def Held.Keeps (P : α → Prop) : Held α → Prop
  | .nothing => True
  | .option o => o.action.Keeps P
  | .optionWord o _ => o.action.Keeps P
  | .operand o _ => ∀ word a, P a → P (o.apply word a)

/-- A property of the value that what is held back will keep. -/
structure State.Has (s : State α) (P : α → Prop) : Prop where
  value : P s.value
  held : s.held.Keeps P

/-- Options and an operand that keep a property of the value. -/
structure Keeps (g : Grammar α) (P : α → Prop) : Prop where
  options : ∀ o ∈ g.options, o.action.Keeps P
  operand : ∀ o, g.operand = some o → ∀ word a, P a → P (o.apply word a)

theorem State.Has.mark (hs : s.Has P) {again : Bool} (h : s.mark o again = .ok t) : t.Has P := by
  unfold State.mark at h
  split at h
  · contradiction
  · cases h
    exact ⟨hs.value, hs.held⟩

theorem State.Has.apply (hs : s.Has P) (ho : o.action.Keeps P) (h : s.apply o word = .ok t) :
    t.Has P := by
  unfold State.apply at h
  split at h
  · next f haction =>
    obtain ⟨u, hu, heq⟩ := Except.bind_eq_ok_iff.1 h
    have hhas := hs.mark hu
    rw [haction] at ho
    cases heq
    exact ⟨ho _ hhas.value, hhas.held⟩
  · next path f haction =>
    obtain ⟨u, hu, heq⟩ := Except.bind_eq_ok_iff.1 h
    have hhas := hs.mark hu
    rw [haction] at ho
    split at heq
    · contradiction
    · cases heq
      exact ⟨ho _ _ hhas.value, hhas.held⟩
  · next f haction =>
    obtain ⟨u, hu, heq⟩ := Except.bind_eq_ok_iff.1 h
    have hhas := hs.mark hu
    rw [haction] at ho
    cases heq
    exact ⟨ho _ _ hhas.value, hhas.held⟩
  · contradiction

theorem State.Has.release (hs : s.Has P) (h : s.release = .ok t) : t.Has P := by
  obtain ⟨hvalue, hheld⟩ := hs
  unfold State.release at h
  split at h
  · cases h
    exact ⟨hvalue, hheld⟩
  · contradiction
  · next o word heq =>
    rw [heq] at hheld
    have hhas : State.Has { s with held := .nothing } P := ⟨hvalue, trivial⟩
    exact hhas.apply hheld h
  · next o word heq =>
    rw [heq] at hheld
    split at h
    · contradiction
    · cases h
      exact ⟨hheld _ _ hvalue, trivial⟩

theorem State.Has.takeOption (hs : s.Has P) (ho : o.action.Keeps P)
    {attached : Option (List Char)} (h : takeOption s o attached = .ok t) : t.Has P := by
  unfold Grammar.takeOption at h
  split at h
  · obtain ⟨u, hu, happly⟩ := Except.bind_eq_ok_iff.1 h
    exact (hs.release hu).apply ho happly
  · obtain ⟨u, hu, hrest⟩ := Except.bind_eq_ok_iff.1 h
    have hhas := hs.release hu
    split at hrest
    · cases hrest
      exact ⟨hhas.value, ho⟩
    · exact hhas.apply ho hrest

namespace Keeps

variable (hg : g.Keeps P)

include hg

theorem readName (hs : s.Has P) (h : g.readName s text = .ok t) : t.Has P := by
  unfold Grammar.readName at h
  dsimp only at h
  split at h
  · contradiction
  · next o hfind =>
    have ho := hg.options o (List.mem_of_find?_eq_some hfind)
    split at h
    · contradiction
    · exact hs.takeOption ho h

theorem readLetters (hs : s.Has P) (h : g.readLetters s text = .ok t) : t.Has P := by
  induction text generalizing s with
  | nil =>
      cases h
      exact hs
  | cons c text ih =>
      unfold Grammar.readLetters at h
      split at h
      · contradiction
      · next o hfind =>
        have ho := hg.options o (List.mem_of_find?_eq_some hfind)
        split at h
        · split at h <;> exact hs.takeOption ho h
        · obtain ⟨u, hu, hrest⟩ := Except.bind_eq_ok_iff.1 h
          exact ih (hs.takeOption ho hu) hrest

theorem readOperand (hs : s.Has P) (h : g.readOperand s word = .ok t) : t.Has P := by
  unfold Grammar.readOperand at h
  split at h
  · next o hoperand _ =>
    obtain ⟨u, hu, heq⟩ := Except.bind_eq_ok_iff.1 h
    cases heq
    exact ⟨(hs.release hu).value, hg.operand o hoperand⟩
  · split at h <;> contradiction

/-- **The value that is read from arguments** has the property, or a command has made it of one
that has. -/
theorem readFrom_cases (hs : s.Has P) {args : List String} {v : α}
    (h : g.readFrom s args = .ok v) :
    P v ∨ ∃ name command rest f a, g.commands.lookup name = some command ∧
      command rest = .ok f ∧ P a ∧ v = f a := by
  induction args generalizing s with
  | nil =>
      obtain ⟨u, hu, heq⟩ := Except.bind_eq_ok_iff.1 h
      cases heq
      exact .inl (hs.release hu).value
  | cons word rest ih =>
      unfold readFrom at h
      split at h
      · obtain ⟨u, hu, hrest⟩ := Except.bind_eq_ok_iff.1 h
        exact ih (hg.readOperand hs hu) hrest
      · split at h
        · next command hcommand =>
          obtain ⟨f, hf, hrest⟩ := Except.bind_eq_ok_iff.1 h
          obtain ⟨u, hu, heq⟩ := Except.bind_eq_ok_iff.1 hrest
          cases heq
          refine .inr ⟨word, command, rest, f, u.value, ?_, hf, (hs.release hu).value, rfl⟩
          unfold command? at hcommand
          split at hcommand
          · contradiction
          · exact hcommand
        · split at h
          · have hhas : State.Has { s with onlyOperands := true } P := ⟨hs.value, hs.held⟩
            exact ih hhas h
          · obtain ⟨u, hu, hrest⟩ := Except.bind_eq_ok_iff.1 h
            exact ih (hg.readName hs hu) hrest
          · obtain ⟨u, hu, hrest⟩ := Except.bind_eq_ok_iff.1 h
            exact ih (hg.readLetters hs hu) hrest
          · next o hheld _ _ _ =>
            have hoption := hs.held
            rw [hheld] at hoption
            have hhas : State.Has { s with held := .optionWord o word } P := ⟨hs.value, hoption⟩
            exact ih hhas h
          · obtain ⟨u, hu, hrest⟩ := Except.bind_eq_ok_iff.1 h
            exact ih (hg.readOperand hs hu) hrest

end Keeps

end Grammar

/-! ## Invocations -/

namespace Invocation

variable {args : List String} {i : Invocation} {o : CanonOptions}

/-- The options of the program do not ask for a command. -/
theorem keeps_grammar : grammar.Keeps fun i => i.command = none where
  options := by
    intro o ho
    simp only [grammar, List.mem_cons, List.not_mem_nil, or_false] at ho
    rcases ho with rfl | rfl | rfl | rfl
    · exact fun _ _ h => h
    · exact fun _ _ h => h
    · trivial
    · trivial
  operand := by
    intro o ho
    contradiction

/-- Of all commands only one is read as that for canonicalizing a text. -/
theorem readCanon_of_mem_commands {name : String} {reader : List String → Except Ending Command}
    {rest : List String} (hmem : (name, reader) ∈ commands)
    (h : reader rest = .ok (.canon o)) : readCanon rest = .ok (.canon o) := by
  simp only [commands, List.mem_cons, Prod.mk.injEq, List.not_mem_nil, or_false] at hmem
  rcases hmem with ⟨-, rfl⟩ | ⟨-, rfl⟩ | ⟨-, rfl⟩ | ⟨-, rfl⟩ | ⟨-, rfl⟩
  · exact h
  all_goals
    obtain ⟨u, -, heq⟩ := Except.bind_eq_ok_iff.1 h
    cases heq

/-- **What is asked for by `canon`** was read from the arguments behind it. -/
theorem exists_readCanon (h : read args = .ok i) (hcommand : i.command = some (.canon o)) :
    ∃ rest, readCanon rest = .ok (.canon o) := by
  obtain ⟨u, hu, hrest⟩ := Except.bind_eq_ok_iff.1 h
  have hsame : u = i := by
    split at hrest
    · contradiction
    · cases hrest
      rfl
  subst hsame
  have hstart : Grammar.State.Has { value := {} } fun i : Invocation => i.command = none :=
    ⟨rfl, trivial⟩
  rcases keeps_grammar.readFrom_cases hstart hu with
    hnone | ⟨name, command, rest, f, a, hlookup, hf, -, rfl⟩
  · rw [hnone] at hcommand
    contradiction
  · obtain ⟨front, back, hsplit, -⟩ := List.lookup_eq_some_iff.1 hlookup
    have hmem : (name, command) ∈ grammar.commands := by simp [hsplit]
    rcases List.mem_cons.1 hmem with heq | hmem
    · cases heq
      contradiction
    · obtain ⟨⟨other, reader⟩, hreader, heq⟩ := List.mem_map.1 hmem
      cases heq
      obtain ⟨c, hc, rfl⟩ := Except.map_eq_ok_iff.1 hf
      cases hcommand
      exact ⟨rest, readCanon_of_mem_commands hreader hc⟩

/-- A trace is never to be written to a file. -/
theorem output_eq_none_of_trace (h : read args = .ok i) (hcommand : i.command = some (.canon o))
    (htrace : o.trace = true) : o.output = none := by
  obtain ⟨rest, hrest⟩ := exists_readCanon h hcommand
  obtain ⟨u, -, hu⟩ := Except.bind_eq_ok_iff.1 hrest
  split at hu
  · contradiction
  · next hnot =>
    cases hu
    simpa [htrace] using hnot

end Invocation

end RuleCanon
