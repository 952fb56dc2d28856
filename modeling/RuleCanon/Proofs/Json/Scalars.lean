import Mathlib.Data.List.Basic
import Mathlib.Data.List.TakeDrop
import RuleCanon.Json.Reader
import RuleCanon.Json.Printer

/-!
# Strings and numbers are read back

A string is written character by character, and read as code units that only then become
characters.  What is written for one character is always read as its own code point, and no
code point of a character is half a surrogate pair, so the units spell the characters that were
written.  The digits of a number are read as far as they go: a number is read back in front of a
text that none of its parts could reach into.

## Main Definitions

* `Json.EndsNumber` — texts that may follow a number

## Main Statements

* `Json.readUnits_escapeChar` — one character
* `Json.readString_quote` — a string
* `Json.readNumber_numberText` — a number
-/

namespace RuleCanon.Json

/-! ## Strings -/

/-- A hexadecimal digit has the value that it was made for. -/
theorem hexValue?_hexDigit {n : Nat} (h : n < 16) : hexValue? (hexDigit n) = some n := by
  have hall : ∀ m < 16, hexValue? (hexDigit m) = some m := by decide
  exact hall n h

/-- The four digits of an escape by number spell the code point of the character. -/
theorem unit?_hexDigit {n : Nat} (h : n < 0x20) :
    unit? '0' '0' (hexDigit (n / 16)) (hexDigit (n % 16)) = some n := by
  have hzero : hexValue? '0' = some 0 := by decide
  rw [unit?, hzero, hexValue?_hexDigit (by omega), hexValue?_hexDigit (by omega)]
  simp only [Option.bind_eq_bind, Option.bind_some, Option.some.injEq]
  omega

/-- The three ways in which a character is written: by a letter, by its number, as itself. -/
theorem escapeChar_cases (c : Char) :
    (∃ l, l ≠ 'u' ∧ escaped? l = some c ∧ escapeChar c = ['\\', l]) ∨
    (c.toNat < 0x20 ∧
      escapeChar c = ['\\', 'u', '0', '0', hexDigit (c.toNat / 16), hexDigit (c.toNat % 16)]) ∨
    (c ≠ '"' ∧ c ≠ '\\' ∧ ¬ c.toNat < 0x20 ∧ escapeChar c = [c]) := by
  rw [escapeChar]
  split_ifs with hquote hslash hb hf hn hr ht hcontrol
  · exact .inl ⟨'"', by decide, by rw [hquote]; rfl, rfl⟩
  · exact .inl ⟨'\\', by decide, by rw [hslash]; rfl, rfl⟩
  · exact .inl ⟨'b', by decide, by rw [hb]; rfl, rfl⟩
  · exact .inl ⟨'f', by decide, by rw [hf]; rfl, rfl⟩
  · exact .inl ⟨'n', by decide, by rw [hn]; rfl, rfl⟩
  · exact .inl ⟨'r', by decide, by rw [hr]; rfl, rfl⟩
  · exact .inl ⟨'t', by decide, by rw [ht]; rfl, rfl⟩
  · exact .inr (.inl ⟨hcontrol, rfl⟩)
  · exact .inr (.inr ⟨hquote, hslash, hcontrol, rfl⟩)

/-- **A character is read back from its written form**, whatever comes after it. -/
theorem readUnits_escapeChar (c : Char) (rest : List Char) :
    readUnits (escapeChar c ++ rest) =
      (readUnits rest).map fun (units, after) => (c.toNat :: units, after) := by
  obtain ⟨l, hl, hescaped, heq⟩ | ⟨hcontrol, heq⟩ | ⟨hquote, hslash, hcontrol, heq⟩ :=
    escapeChar_cases c
  · rw [heq, List.cons_append, List.singleton_append,
      readUnits.eq_4 l rest fun _ _ _ _ _ h _ => hl h, hescaped]
    cases readUnits rest <;> rfl
  · rw [heq]
    simp only [List.cons_append, List.nil_append]
    rw [readUnits.eq_3, unit?_hexDigit hcontrol]
    cases readUnits rest <;> rfl
  · rw [heq, List.singleton_append, readUnits.eq_5 c rest hquote
      (fun _ _ _ _ _ h _ => hslash h) (fun _ _ h _ => hslash h),
      if_neg (not_or.2 ⟨hcontrol, hslash⟩)]
    cases readUnits rest <;> rfl

/-- The body of a string gives the code points of its characters. -/
theorem readUnits_flatMap_escapeChar (cs rest : List Char) :
    readUnits (cs.flatMap escapeChar ++ '"' :: rest) = some (cs.map Char.toNat, rest) := by
  induction cs with
  | nil => exact readUnits.eq_2 rest
  | cons c cs ih => rw [List.flatMap_cons, List.append_assoc, readUnits_escapeChar, ih]; rfl

/-- No code point of a character is half a surrogate pair. -/
theorem not_isSurrogate_toNat (c : Char) :
    isHighSurrogate c.toNat = false ∧ isLowSurrogate c.toNat = false := by
  have hvalid : c.toNat < 0xD800 ∨ 0xDFFF < c.toNat ∧ c.toNat < 0x110000 := c.valid
  simp only [isHighSurrogate, isLowSurrogate, Bool.and_eq_false_iff, decide_eq_false_iff_not]
  omega

/-- Code points of characters spell these characters. -/
theorem joinUnits_map_toNat (cs : List Char) : joinUnits (cs.map Char.toNat) = some cs := by
  induction cs with
  | nil => rfl
  | cons c cs ih =>
      obtain ⟨hhigh, hlow⟩ := not_isSurrogate_toNat c
      rw [List.map_cons, joinUnits.eq_def]
      simp only [hhigh, hlow, Bool.false_eq_true, if_false, ih, Option.map_some,
        Char.ofNat_toNat]

/-- **A string is read back**, up to the quote that closes it. -/
theorem readString_quote (s : String) (rest : List Char) :
    readString (s.toList.flatMap escapeChar ++ '"' :: rest) = some (some s, rest) := by
  rw [readString, readUnits_flatMap_escapeChar]
  simp only [Option.map_some, joinUnits_map_toNat, String.ofList_toList]

/-! ## Numbers -/

/-- What may follow a number: nothing that could be a part of it. -/
def EndsNumber (rest : List Char) : Prop :=
  ∀ c ∈ rest.head?, c.isDigit = false ∧ c ≠ '.' ∧ c ≠ 'e' ∧ c ≠ 'E'

/-- Digits are split off up to the first character that is none. -/
theorem splitDigits_append {digits rest : List Char} (hdigits : ∀ c ∈ digits, c.isDigit = true)
    (hrest : ∀ c ∈ rest.head?, c.isDigit = false) :
    splitDigits (digits ++ rest) = (digits, rest) := by
  rw [splitDigits, List.span_eq_takeWhile_dropWhile, List.takeWhile_append_of_pos hdigits,
    List.dropWhile_append_of_pos hdigits]
  cases rest with
  | nil => simp
  | cons c rest => simp [hrest c rfl]

/-- The digits of a number are all digits. -/
theorem isDigit_of_mem_toDigits (n : Nat) : ∀ c ∈ Nat.toDigits 10 n, c.isDigit = true :=
  fun _ => Nat.isDigit_of_mem_toDigits (by omega) (by omega)

/-- The digits of a number spell it. -/
theorem digitsValue_toDigits (n : Nat) : digitsValue (Nat.toDigits 10 n) = n :=
  Nat.ofDigitChars_toDigits (by omega) (by omega)

/-- Only zero starts with a zero. -/
theorem eq_zero_of_head?_toDigits (n : Nat) (h : (Nat.toDigits 10 n).head? = some '0') :
    n = 0 := by
  induction n using Nat.strongRecOn with
  | ind n ih =>
      by_cases hn : n < 10
      · have hall : ∀ m < 10, (Nat.toDigits 10 m).head? = some '0' → m = 0 := by decide
        exact hall n hn h
      · rw [Nat.toDigits_of_base_le (by omega) (by omega),
          List.head?_append_of_ne_nil _ Nat.toDigits_ne_nil] at h
        have := ih (n / 10) (by omega) h
        omega

/-- The digits of a number are what the grammar wants: there are some, and they do not start with
a zero that is not alone. -/
theorem not_leadingZero_toDigits (n : Nat) : ¬ (Nat.toDigits 10 n = [] ∨
    (Nat.toDigits 10 n).head? = some '0' ∧ (Nat.toDigits 10 n).length ≠ 1) := by
  rintro (hnil | ⟨hzero, hlength⟩)
  · exact Nat.toDigits_ne_nil hnil
  · rw [eq_zero_of_head?_toDigits n hzero] at hlength
    exact hlength (by decide)

/-- The digits of a number start with a digit. -/
theorem exists_toDigits_eq_cons (n : Nat) :
    ∃ d ds, Nat.toDigits 10 n = d :: ds ∧ d.isDigit = true := by
  obtain ⟨d, ds, h⟩ := List.exists_cons_of_ne_nil (Nat.toDigits_ne_nil (n := n) (b := 10))
  exact ⟨d, ds, h, isDigit_of_mem_toDigits n d (h ▸ List.mem_cons_self)⟩

/-- An integer is written as its digits, behind a minus sign if it is negative. -/
theorem toList_toString (e : Int) :
    (toString e).toList = (if e < 0 then ['-'] else []) ++ Nat.toDigits 10 e.natAbs := by
  rw [Int.toString_eq_repr, Int.repr_eq_if]
  split_ifs with hnonneg hneg hneg
  · omega
  · rw [Nat.repr_eq_ofList_toDigits, String.toList_ofList, List.nil_append,
      show e.toNat = e.natAbs by omega]
  · rw [Nat.repr_eq_ofList_toDigits, String.toList_append, String.toList_ofList,
      String.toList_ofList, show (-e).toNat = e.natAbs by omega]
  · omega

/-- The exponent of a number is read back. -/
theorem readExponent_numberText {rest : List Char} (e : Int) (hrest : EndsNumber rest) :
    readExponent ((if e = 0 then [] else 'e' :: (toString e).toList) ++ rest) =
      some (e, rest) := by
  have hsplit := splitDigits_append (isDigit_of_mem_toDigits e.natAbs) fun c hc => (hrest c hc).1
  have hvalue := digitsValue_toDigits e.natAbs
  obtain ⟨d, ds, hcons, hd⟩ := exists_toDigits_eq_cons e.natAbs
  rw [hcons, List.cons_append] at hsplit
  rw [hcons] at hvalue
  rw [toList_toString, hcons]
  split_ifs with hzero hneg
  · cases rest with
    | nil => rw [hzero]; rfl
    | cons c rest =>
        obtain ⟨-, -, he, hE⟩ := hrest c rfl
        rw [List.nil_append, readExponent.eq_def]
        simp only [he, hE, or_self, if_false, hzero]
  · have hnegative : -((e.natAbs : Nat) : Int) = e := by omega
    simp only [readExponent, List.cons_append, List.nil_append, true_or, if_true, hsplit, hvalue,
      hnegative]
  · have hpositive : ((e.natAbs : Nat) : Int) = e := by omega
    have hminus : d ≠ '-' := by rintro rfl; contradiction
    have hplus : d ≠ '+' := by rintro rfl; contradiction
    rw [List.nil_append, List.cons_append, List.cons_append, readExponent.eq_def]
    simp [hminus, hplus, hsplit, hvalue, hpositive]

/-- The exponent of a number cannot be a part of its digits, nor can what follows it. -/
theorem head?_exponent {rest : List Char} (e : Int) (hrest : EndsNumber rest) :
    ∀ c ∈ ((if e = 0 then [] else 'e' :: (toString e).toList) ++ rest).head?,
      c.isDigit = false ∧ c ≠ '.' := by
  split_ifs with hzero
  · exact fun c hc => ⟨(hrest c hc).1, (hrest c hc).2.1⟩
  · rintro c ⟨⟩
    decide

/-- **A number is read back** in front of a text that cannot be a part of it. -/
theorem readNumber_numberText {rest : List Char} (n : JsonNumber) (hrest : EndsNumber rest) :
    readNumber (numberText n ++ rest) = some (n, rest) := by
  obtain ⟨negative, digits, exponent⟩ := n
  have hexponent := readExponent_numberText exponent hrest
  have hhead := head?_exponent exponent hrest
  rw [numberText, List.append_assoc, List.append_assoc]
  generalize (if exponent = 0 then [] else 'e' :: (toString exponent).toList) ++ rest = after
    at hexponent hhead ⊢
  have hsplit := splitDigits_append (isDigit_of_mem_toDigits digits) fun c hc => (hhead c hc).1
  have hvalue := digitsValue_toDigits digits
  have hwhole := not_leadingZero_toDigits digits
  -- what follows the digits is no fraction
  have hpoint : ∀ tail, after = '.' :: tail → False := by
    rintro tail rfl
    exact (hhead '.' rfl).2 rfl
  cases negative with
  | true =>
      rw [if_pos rfl, List.singleton_append, readNumber]
      simp only [hsplit, if_neg hwhole]
      simp [hexponent, hvalue]
  | false =>
      have hminus : ∀ tail, Nat.toDigits 10 digits ++ after = '-' :: tail → False := by
        intro tail h
        obtain ⟨d, ds, hcons, hd⟩ := exists_toDigits_eq_cons digits
        rw [hcons, List.cons_append, List.cons.injEq] at h
        rw [h.1] at hd
        contradiction
      rw [if_neg Bool.false_ne_true, List.nil_append, readNumber.eq_2 _ hminus]
      simp only [hsplit, if_neg hwhole]
      simp [hexponent, hvalue]

end RuleCanon.Json
