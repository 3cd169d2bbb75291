-- Numbers in JSON text. A number is read from any text that the grammar of numbers allows, whatever
-- comes behind it that cannot belong to a number; and what is written for a number is such a text.
import Mathlib.Data.Nat.Digits.Defs
import PipeScript.Proofs.Json.Scanning

namespace PipeScript

namespace Numeral

/-! ## The grammar of numbers -/

/-- Decimal digits, at least one. -/
def Digits (cs : List Char) : Prop := cs ≠ [] ∧ ∀ c ∈ cs, c.isDigit = true

/-- The values of digits, the last one first. -/
def values (cs : List Char) : List Nat := (cs.map fun c => c.toNat - '0'.toNat).reverse

/-- A fraction in a text. -/
inductive FractionText : Option (List Nat) → List Char → Prop where
  | absent : FractionText none []
  | present {cs : List Char} : Digits cs → FractionText (some (values cs)) ('.' :: cs)

/-- An exponent in a text, with or without a sign. -/
inductive ExponentText : Option (Bool × List Nat) → List Char → Prop where
  | absent : ExponentText none []
  | unsigned {mark : Char} {cs : List Char} : mark = 'e' ∨ mark = 'E' → Digits cs →
    ExponentText (some (false, values cs)) (mark :: cs)
  | signed {mark sign : Char} {cs : List Char} : mark = 'e' ∨ mark = 'E' →
    sign = '+' ∨ sign = '-' → Digits cs →
    ExponentText (some (sign == '-', values cs)) (mark :: sign :: cs)

/-- A number without its sign in a text. Its first digit is a zero only if it is the only one in
front of the point. -/
inductive UnsignedText (negative : Bool) : Numeral → List Char → Prop where
  | mk {cs fs es : List Char} {fraction : Option (List Nat)}
      {exponent : Option (Bool × List Nat)} :
    Digits cs → (cs.head? = some '0' → cs = ['0']) → FractionText fraction fs →
    ExponentText exponent es →
    UnsignedText negative ⟨negative, values cs, fraction, exponent⟩ (cs ++ (fs ++ es))

/-- A number in a text. -/
inductive Text : Numeral → List Char → Prop where
  | positive {n : Numeral} {cs : List Char} : UnsignedText false n cs → Text n cs
  | negative {n : Numeral} {cs : List Char} : UnsignedText true n cs → Text n ('-' :: cs)

/-! ## Reading a numeral -/

/-- Reads characters that all belong to a numeral. -/
def run : Part → Numeral → List Char → Option (Part × Numeral)
  | part, n, [] => some (part, n)
  | part, n, c :: rest =>
    match n.next part c with
    | .more part n => run part n rest
    | .done | .fault => none

theorem run_cons {part next : Part} {n m : Numeral} {c : Char} (h : n.next part c = .more next m)
    (rest : List Char) : run part n (c :: rest) = run next m rest := by
  rw [run, h]

theorem run_append {part next : Part} {n m : Numeral} {cs : List Char}
    (h : run part n cs = some (next, m)) (more : List Char) :
    run part n (cs ++ more) = run next m more := by
  induction cs generalizing part n with
  | nil =>
    cases h
    rfl
  | cons c cs ih =>
    rw [run] at h
    split at h
    · rename_i hnext
      rw [List.cons_append, run_cons hnext]
      exact ih h
    · cases h
    · cases h

theorem toNat_of_isDigit {c : Char} (h : c.isDigit = true) : 48 ≤ c.toNat ∧ c.toNat ≤ 57 := by
  simp only [Char.isDigit, Bool.and_eq_true, decide_eq_true_eq, ge_iff_le,
    UInt32.le_iff_toNat_le] at h
  exact h

theorem digit?_of_isDigit {c : Char} (h : c.isDigit = true) :
    digit? c = some (c.toNat - '0'.toNat) := by
  unfold digit?
  rw [if_pos]
  exact toNat_of_isDigit h

/-- Digits behind one another are all taken in. -/
theorem run_digits {part : Part} {add : Numeral → Nat → Numeral}
    (hadd : ∀ (n : Numeral) c d, digit? c = some d → n.next part c = .more part (add n d))
    {cs : List Char} (h : ∀ c ∈ cs, c.isDigit = true) (n : Numeral) :
    run part n cs = some (part, (values cs).foldr (fun d n => add n d) n) := by
  induction cs generalizing n with
  | nil => rfl
  | cons c cs ih =>
    rw [List.forall_mem_cons] at h
    rw [run_cons (hadd n c _ (digit?_of_isDigit h.1)), ih h.2]
    simp [values]

/-- The first digit may lead to another part than those behind it. -/
theorem run_firstDigits {first part : Part} {add : Numeral → Nat → Numeral}
    (hfirst : ∀ (n : Numeral) c d, digit? c = some d → n.next first c = .more part (add n d))
    (hadd : ∀ (n : Numeral) c d, digit? c = some d → n.next part c = .more part (add n d))
    {cs : List Char} (h : Digits cs) (n : Numeral) :
    run first n cs = some (part, (values cs).foldr (fun d n => add n d) n) := by
  obtain ⟨hne, hdigits⟩ := h
  cases cs with
  | nil => exact absurd rfl hne
  | cons c cs =>
    rw [List.forall_mem_cons] at hdigits
    rw [run_cons (hfirst n c _ (digit?_of_isDigit hdigits.1)), run_digits hadd hdigits.2]
    simp [values]

theorem foldr_addWhole (digits : List Nat) (n : Numeral) :
    digits.foldr (fun d n => n.addWhole d) n = { n with whole := digits ++ n.whole } := by
  induction digits with
  | nil => rfl
  | cons d rest ih =>
    rw [List.foldr_cons, ih]
    rfl

theorem foldr_addFraction (digits : List Nat) (n : Numeral) :
    digits.foldr (fun d n => n.addFraction d) n =
      { n with fraction := n.fraction.map (digits ++ ·) } := by
  induction digits with
  | nil => simp
  | cons d rest ih =>
    rw [List.foldr_cons, ih]
    simp [addFraction, Function.comp_def]

theorem foldr_addExponent (digits : List Nat) (n : Numeral) :
    digits.foldr (fun d n => n.addExponent d) n =
      { n with exponent := n.exponent.map fun e => (e.1, digits ++ e.2) } := by
  induction digits with
  | nil => simp
  | cons d rest ih =>
    rw [List.foldr_cons, ih]
    simp [addExponent, Function.comp_def]

/-- The digits in front of the point. -/
theorem run_whole (negative : Bool) {cs : List Char} (h : Digits cs)
    (hzero : cs.head? = some '0' → cs = ['0']) :
    ∃ part, (part = .zero ∨ part = .whole) ∧
      run .sign (.empty negative) cs = some (part, ⟨negative, values cs, none, none⟩) := by
  obtain ⟨hne, hdigits⟩ := h
  cases cs with
  | nil => exact absurd rfl hne
  | cons c cs =>
    rw [List.forall_mem_cons] at hdigits
    by_cases hc : c = '0'
    · obtain rfl : cs = [] := by simpa [hc] using hzero
      subst hc
      exact ⟨.zero, .inl rfl, rfl⟩
    · have hpositive : ¬ c.toNat - 48 = 0 := by
        intro hz
        have hle := (toNat_of_isDigit hdigits.1).1
        have hsame : c.toNat = '0'.toNat := show c.toNat = 48 by omega
        exact hc (Char.toNat_inj.mp hsame)
      have hfirst : (empty negative).next .sign c =
          .more .whole ⟨negative, [c.toNat - '0'.toNat], none, none⟩ := by
        simp [next, digit?_of_isDigit hdigits.1, start, hpositive, empty]
      have hmore : ∀ (n : Numeral) c d, digit? c = some d →
          n.next .whole c = .more .whole (n.addWhole d) := fun n c d hd => by simp [next, hd]
      refine ⟨.whole, .inr rfl, ?_⟩
      rw [run_cons hfirst, run_digits hmore hdigits.2, foldr_addWhole]
      simp [values]

/-- A fraction behind the whole part. -/
theorem run_fraction {part : Part} (hpart : part = .zero ∨ part = .whole) (n : Numeral)
    {fraction : Option (List Nat)} {cs : List Char} (h : FractionText fraction cs) :
    ∃ next, (next = .zero ∨ next = .whole ∨ next = .fraction) ∧
      run part { n with fraction := none } cs = some (next, { n with fraction }) := by
  cases h with
  | absent =>
    refine ⟨part, ?_, rfl⟩
    rcases hpart with rfl | rfl
    · exact .inl rfl
    · exact .inr (.inl rfl)
  | present hdigits =>
    have hpoint : ({ n with fraction := none } : Numeral).next part '.' =
        .more .point { n with fraction := some [] } := by
      rcases hpart with rfl | rfl <;> rfl
    have hfirst : ∀ (n : Numeral) c d, digit? c = some d →
        n.next .point c = .more .fraction (n.addFraction d) := fun n c d hd => by simp [next, hd]
    have hmore : ∀ (n : Numeral) c d, digit? c = some d →
        n.next .fraction c = .more .fraction (n.addFraction d) :=
      fun n c d hd => by simp [next, hd]
    refine ⟨.fraction, .inr (.inr rfl), ?_⟩
    rw [run_cons hpoint, run_firstDigits hfirst hmore hdigits, foldr_addFraction]
    simp

/-- An exponent behind the fraction, or behind the whole part. -/
theorem run_exponent {part : Part} (hpart : part = .zero ∨ part = .whole ∨ part = .fraction)
    (n : Numeral) {exponent : Option (Bool × List Nat)} {cs : List Char}
    (h : ExponentText exponent cs) :
    ∃ next : Part, next.final = true ∧
      run part { n with exponent := none } cs = some (next, { n with exponent }) := by
  have hmark : ∀ mark, mark = 'e' ∨ mark = 'E' →
      ({ n with exponent := none } : Numeral).next part mark =
        .more .mark { n with exponent := some (false, []) } := by
    rintro mark (rfl | rfl) <;> rcases hpart with rfl | rfl | rfl <;> rfl
  have hmore : ∀ (n : Numeral) c d, digit? c = some d →
      n.next .exponent c = .more .exponent (n.addExponent d) := fun n c d hd => by simp [next, hd]
  cases h with
  | absent =>
    refine ⟨part, ?_, rfl⟩
    rcases hpart with rfl | rfl | rfl <;> rfl
  | unsigned he hdigits =>
    have hfirst : ∀ (n : Numeral) c d, digit? c = some d →
        n.next .mark c = .more .exponent (n.addExponent d) := fun n c d hd => by simp [next, hd]
    refine ⟨.exponent, rfl, ?_⟩
    rw [run_cons (hmark _ he), run_firstDigits hfirst hmore hdigits, foldr_addExponent]
    simp
  | signed he hsign hdigits =>
    rename_i sign cs
    have hsigned : ({ n with exponent := some (false, []) } : Numeral).next .mark sign =
        .more .markSign { n with exponent := some (sign == '-', []) } := by
      rcases hsign with rfl | rfl <;> rfl
    have hfirst : ∀ (n : Numeral) c d, digit? c = some d →
        n.next .markSign c = .more .exponent (n.addExponent d) :=
      fun n c d hd => by simp [next, hd]
    refine ⟨.exponent, rfl, ?_⟩
    rw [run_cons (hmark _ he), run_cons hsigned, run_firstDigits hfirst hmore hdigits,
      foldr_addExponent]
    simp

/-- A number in a text is read to its end. -/
theorem UnsignedText.run {negative : Bool} {n : Numeral} {cs : List Char}
    (h : UnsignedText negative n cs) :
    ∃ part : Part, part.final = true ∧ run .sign (.empty negative) cs = some (part, n) := by
  cases h with
  | @mk cs fs es fraction exponent hwhole hzero hfraction hexponent =>
    obtain ⟨first, hfirst, hrun⟩ := run_whole negative hwhole hzero
    obtain ⟨second, hsecond, hrunFraction⟩ :=
      run_fraction hfirst ⟨negative, values cs, none, none⟩ hfraction
    obtain ⟨last, hfinal, hrunExponent⟩ :=
      run_exponent hsecond ⟨negative, values cs, fraction, none⟩ hexponent
    refine ⟨last, hfinal, ?_⟩
    rw [run_append hrun, run_append hrunFraction]
    exact hrunExponent

end Numeral

/-! ## Scanning a number -/

namespace Token

/-- The text goes on with something that ends a number. -/
def Stops : List Char → Prop
  | [] => True
  | c :: _ => c = ',' ∨ c = ']' ∨ c = '\x7d' ∨ isSpace c = true

theorem scan_run {part next : Numeral.Part} {n m : Numeral} {cs : List Char}
    (h : Numeral.run part n cs = some (next, m)) (rest : List Char) :
    scan (.number part n) (cs ++ rest) = scan (.number next m) rest := by
  induction cs generalizing part n with
  | nil =>
    cases h
    rfl
  | cons c cs ih =>
    rw [Numeral.run] at h
    split at h
    · rename_i part' n' hnext
      have hstep : step (.number part n) c = ([], .number part' n') := by simp [step, hnext]
      rw [List.cons_append, scan_silent _ hstep]
      exact ih h
    · cases h
    · cases h

theorem next_stop {part : Numeral.Part} (hpart : part.final = true) (n : Numeral) {c : Char}
    (h : c = ',' ∨ c = ']' ∨ c = '\x7d' ∨ isSpace c = true) : n.next part c = .done := by
  simp only [isSpace, Bool.or_eq_true, decide_eq_true_eq] at h
  rcases h with rfl | rfl | rfl | ((rfl | rfl) | rfl) | rfl <;> cases part <;>
    first | rfl | cases hpart

theorem scan_stop {part : Numeral.Part} (hpart : part.final = true) (n : Numeral)
    {rest : List Char} (h : Stops rest) :
    scan (.number part n) rest = .scalar (.number n) :: scan .between rest := by
  cases rest with
  | nil => simp [scan, finish, hpart]
  | cons c rest => simp [scan, step, next_stop hpart n h]

/-- A digit between tokens begins a number. -/
theorem step_digit {c : Char} (h : c.isDigit = true) :
    step .between c = step (.number .sign (.empty false)) c := by
  have hall : ∀ d < 10, step .between (Char.ofNat (48 + d)) =
      step (.number .sign (.empty false)) (Char.ofNat (48 + d)) := by decide
  have hbounds := Numeral.toNat_of_isDigit h
  have hd := hall (c.toNat - 48) (by omega)
  rwa [show 48 + (c.toNat - 48) = c.toNat by omega, Char.ofNat_toNat] at hd

/-- A number is read from its text. -/
theorem scan_numeral {n : Numeral} {cs : List Char} (h : Numeral.Text n cs) {rest : List Char}
    (hrest : Stops rest) :
    scan .between (cs ++ rest) = .scalar (.number n) :: scan .between rest := by
  cases h with
  | negative h =>
    obtain ⟨part, hfinal, hrun⟩ := h.run
    rw [List.cons_append, scan_silent (.number .sign (.empty true)) rfl, scan_run hrun]
    exact scan_stop hfinal n hrest
  | positive h =>
    obtain ⟨part, hfinal, hrun⟩ := h.run
    rw [← scan_stop hfinal n hrest, ← scan_run hrun rest]
    cases h with
    | @mk ds fs es fraction exponent hdigits hzero hfraction hexponent =>
      obtain ⟨hne, hdigits⟩ := hdigits
      cases ds with
      | nil => exact absurd rfl hne
      | cons c ds =>
        have hstep := step_digit (hdigits c List.mem_cons_self)
        simp only [List.cons_append, scan, hstep]

end Token

/-! ## Whole numbers as they are written -/

namespace Numeral

/-- The digits of a number, the last one first. -/
def digitsOf (n : Nat) : List Nat := if n = 0 then [0] else Nat.digits 10 n

/-- The numeral of a whole number. -/
def ofInt (value : Int) : Numeral := ⟨value < 0, digitsOf value.natAbs, none, none⟩

theorem valueOf_eq_ofDigits (digits : List Nat) : valueOf digits = Nat.ofDigits 10 digits := by
  induction digits with
  | nil => rfl
  | cons d rest ih =>
    rw [Nat.ofDigits_cons, ← ih]
    simp only [valueOf, List.foldr_cons]
    omega

theorem valueOf_digitsOf (n : Nat) : valueOf (digitsOf n) = n := by
  unfold digitsOf
  split
  · rename_i h
    rw [h]
    rfl
  · rw [valueOf_eq_ofDigits, Nat.ofDigits_digits]

/-- A whole number that fits 64 bits is the number of its numeral. -/
theorem number?_ofInt {value : Int} (hlow : -9223372036854775808 ≤ value)
    (hhigh : value ≤ 18446744073709551615) : (ofInt value).number? = some (.int value) := by
  unfold number? ofInt
  simp only [Option.isSome_none, Bool.false_eq_true, or_self, if_false, valueOf_digitsOf,
    decide_eq_true_eq]
  by_cases hneg : value < 0
  · have hfits : 0 < value.natAbs ∧ value.natAbs ≤ Nat.pow 2 63 := by
      rw [show Nat.pow 2 63 = 9223372036854775808 from rfl]
      omega
    rw [if_pos hneg, if_pos hfits]
    congr 2
    omega
  · have hfits : value.natAbs ≤ significandLimit := by
      rw [show significandLimit = 18446744073709551615 from rfl]
      omega
    rw [if_neg hneg, if_pos hfits]
    congr 2
    omega

theorem digitChar_value : ∀ d < 10, (Nat.digitChar d).toNat - '0'.toNat = d := by decide

theorem values_toDigits (n : Nat) : values (Nat.toDigits 10 n) = digitsOf n := by
  induction n using Nat.strongRecOn with
  | _ n ih =>
    by_cases hn : n < 10
    · have hdigits : digitsOf n = [n] := by
        unfold digitsOf
        split
        · rename_i h
          rw [h]
        · rename_i h
          exact Nat.digits_of_lt 10 n h hn
      rw [Nat.toDigits_of_lt_base hn, hdigits]
      simp only [values, List.map_cons, List.map_nil, List.reverse_singleton, digitChar_value n hn]
    · -- all digits but the last one, then the last one
      have hdigits : digitsOf n = n % 10 :: digitsOf (n / 10) := by
        unfold digitsOf
        rw [if_neg (by omega), if_neg (by omega), Nat.digits_def' (by decide) (by omega)]
      have hlast := digitChar_value (n % 10) (by omega)
      rw [Nat.toDigits_of_base_le (by decide) (by omega), hdigits, ← ih (n / 10) (by omega)]
      simp only [values, List.map_append, List.map_cons, List.map_nil, List.reverse_append,
        List.reverse_singleton, List.singleton_append, hlast]

theorem digits_toDigits (n : Nat) : Digits (Nat.toDigits 10 n) := by
  refine ⟨?_, fun c hc => Nat.isDigit_of_mem_toDigits (by decide) (by decide) hc⟩
  by_cases hn : n < 10
  · simp [Nat.toDigits_of_lt_base hn]
  · simp [Nat.toDigits_of_base_le (b := 10) (by decide) (show 10 ≤ n by omega)]

/-- Only zero is written with a zero in front. -/
theorem eq_zero_of_head?_toDigits {n : Nat} (h : (Nat.toDigits 10 n).head? = some '0') :
    n = 0 := by
  induction n using Nat.strongRecOn with
  | _ n ih =>
    by_cases hn : n < 10
    · have hall : ∀ d < 10, Nat.digitChar d = '0' → d = 0 := by decide
      rw [Nat.toDigits_of_lt_base hn] at h
      exact hall n hn (by simpa using h)
    · rw [Nat.toDigits_of_base_le (by decide) (by omega)] at h
      cases hfront : Nat.toDigits 10 (n / 10) with
      | nil => exact absurd hfront (digits_toDigits (n / 10)).1
      | cons c rest =>
        have hless := ih (n / 10) (by omega)
        rw [hfront] at h hless
        have := hless (by simpa using h)
        omega

theorem unsignedText_toDigits (negative : Bool) (n : Nat) :
    UnsignedText negative ⟨negative, digitsOf n, none, none⟩ (Nat.toDigits 10 n) := by
  have hzero : (Nat.toDigits 10 n).head? = some '0' → Nat.toDigits 10 n = ['0'] := by
    intro h
    rw [eq_zero_of_head?_toDigits h]
    rfl
  have htext : UnsignedText negative _ _ := .mk (digits_toDigits n) hzero .absent .absent
  rwa [values_toDigits, List.append_nil, List.append_nil] at htext

/-- A whole number is written as a number. -/
theorem text_intText (value : Int) : Text (ofInt value) (intText value) := by
  cases value with
  | ofNat n => exact .positive (unsignedText_toDigits false n)
  | negSucc n =>
    have htext := unsignedText_toDigits true (n + 1)
    simpa [ofInt, intText, Int.negSucc_lt_zero] using Text.negative htext

end Numeral

end PipeScript
