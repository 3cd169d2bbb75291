-- A binary64 number is written as a number of JSON: with digits on both sides of the point or with
-- an exponent, and never with a zero too many in front.
import Mathlib.Data.List.DropRight
import PipeScript.Proofs.Json.Numerals

namespace PipeScript

namespace Binary64

open Numeral (Digits UnsignedText)

/-! ## The shortest digits -/

theorem digits_zero : Digits ['0'] := ⟨by simp, by simp⟩

/-- There are digits, and the first one is a zero only in the number zero. -/
structure Scientific.Proper (s : Scientific) : Prop where
  digits : Digits s.digits
  leading : s.digits.head? = some '0' → s = ⟨['0'], 0⟩

/-- Zero does not read as a positive magnitude. -/
theorem ne_zero_of_readsAs {units n : Nat} {place : Int} (hunits : units ≠ 0)
    (h : readsAs units n place = true) : n ≠ 0 := by
  rintro rfl
  have hstep : spacing units ≤ units :=
    (Nat.pow_le_pow_right (by decide) (Nat.sub_le _ _)).trans (Nat.log2_self_le hunits)
  -- the midpoint towards the lower neighbour lies above zero
  have hlow : ∀ below ≤ 2 * spacing units,
      0 < (4 * units - below) * Nat.pow 10 (-place).toNat := by
    intro below hbelow
    exact Nat.mul_pos (by omega) (Nat.pow_pos (by decide))
  have hpositive := hlow (if 1 < spacing units ∧ units = Nat.pow 2 52 * spacing units
    then spacing units else 2 * spacing units) (by split <;> omega)
  unfold readsAs at h
  simp only [Nat.mul_zero, Nat.zero_mul] at h
  split at h
  · simp only [Bool.and_eq_true, decide_eq_true_eq] at h
    omega
  · simp only [Bool.and_eq_true, decide_eq_true_eq] at h
    omega

/-- Without the zeros at its end a positive number keeps its first digit. -/
theorem proper_ofGrid (place : Int) {n : Nat} (h : n ≠ 0) : (Scientific.ofGrid place n).Proper := by
  have hform : (Scientific.ofGrid place n).digits = (Nat.toDigits 10 n).rdropWhile (· = '0') := rfl
  obtain ⟨hne, hdigits⟩ := Numeral.digits_toDigits n
  have hhead : (Nat.toDigits 10 n).head? ≠ some '0' :=
    fun hzero => h (Numeral.eq_zero_of_head?_toDigits hzero)
  have hfront := List.rdropWhile_prefix (· = '0') (Nat.toDigits 10 n)
  have hkept : (Nat.toDigits 10 n).rdropWhile (· = '0') ≠ [] := by
    rw [Ne, List.rdropWhile_eq_nil_iff]
    intro hzeros
    have hfirst := hzeros _ (List.head_mem hne)
    exact hhead (by rw [List.head?_eq_some_head hne, of_decide_eq_true hfirst])
  refine ⟨⟨hform ▸ hkept, fun c hc => hdigits c (hfront.subset (hform ▸ hc))⟩, fun hzero => ?_⟩
  obtain ⟨dropped, hsplit⟩ := hfront
  rw [← hsplit, List.head?_append, ← hform, hzero] at hhead
  exact absurd rfl hhead

theorem proper_shortest {units : Nat} (h : units ≠ 0) : (shortest units).Proper := by
  unfold shortest
  cases hfound : (List.range 17).findSome? fun (more : Nat) =>
      (onGrid units (leadingPower units - more)).map
        (Scientific.ofGrid (leadingPower units - more)) with
  | none =>
    simp only [hfound, Option.getD_none]
    exact ⟨digits_zero, fun _ => rfl⟩
  | some s =>
    simp only [hfound, Option.getD_some]
    obtain ⟨more, -, hmore⟩ := List.exists_of_findSome?_eq_some hfound
    obtain ⟨n, hn, rfl⟩ := Option.map_eq_some_iff.mp hmore
    have hreads := List.find?_some hn
    exact proper_ofGrid _ (ne_zero_of_readsAs h hreads)

/-! ## The text -/

theorem digits_append {cs ds : List Char} (hcs : ∀ c ∈ cs, c.isDigit = true) (hds : Digits ds) :
    Digits (cs ++ ds) := by
  refine ⟨by simp [hds.1], fun c hc => ?_⟩
  rcases List.mem_append.mp hc with hc | hc
  · exact hcs c hc
  · exact hds.2 c hc

theorem isDigit_replicate (count : Nat) : ∀ c ∈ List.replicate count '0', c.isDigit = true := by
  intro c hc
  rw [(List.mem_replicate.mp hc).2]
  rfl

/-- The digits of a fraction; a zero where there are none. -/
theorem digits_fraction {cs : List Char} (h : ∀ c ∈ cs, c.isDigit = true) :
    Digits (if cs.isEmpty then ['0'] else cs) := by
  cases cs with
  | nil => exact digits_zero
  | cons c cs => exact ⟨by simp, h⟩

/-- Digits on both sides of a point are a number. -/
theorem unsignedText_point (negative : Bool) {cs fs : List Char} (hcs : Digits cs)
    (hzero : cs.head? = some '0' → cs = ['0']) (hfs : Digits fs) :
    ∃ n, UnsignedText negative n (cs ++ '.' :: fs) := by
  have htext : UnsignedText negative _ _ := .mk hcs hzero (.present hfs) .absent
  rw [List.append_nil] at htext
  exact ⟨_, htext⟩

theorem unsignedText_positional (negative : Bool) {s : Scientific} (h : s.Proper) :
    ∃ n, UnsignedText negative n (positionalText s) := by
  unfold positionalText
  split
  · exact unsignedText_point negative digits_zero (fun _ => rfl)
      (digits_append (isDigit_replicate _) h.digits)
  · obtain ⟨⟨hne, hdigits⟩, hleading⟩ := h
    cases hs : s.digits with
    | nil => exact absurd hs hne
    | cons d ds =>
      rw [hs] at hdigits hleading
      refine unsignedText_point negative ⟨by simp, fun c hc => ?_⟩ ?_
        (digits_fraction fun c hc => hdigits c (List.mem_of_mem_drop hc))
      · rcases List.mem_append.mp hc with hc | hc
        · exact hdigits c (List.mem_of_mem_take hc)
        · exact isDigit_replicate _ c hc
      · intro hzero
        have hform := hleading (by simpa using hzero)
        obtain ⟨rfl, rfl⟩ : d = '0' ∧ ds = [] := by simpa [hform] using hs.symm
        simp [hform]

theorem unsignedText_exponent (negative : Bool) {s : Scientific} (h : s.Proper) :
    ∃ n, UnsignedText negative n (exponentText s) := by
  obtain ⟨⟨hne, hdigits⟩, -⟩ := h
  unfold exponentText
  cases hs : s.digits with
  | nil => exact absurd hs hne
  | cons d ds =>
    rw [hs, List.forall_mem_cons] at hdigits
    have hfraction : ∃ fraction, Numeral.FractionText fraction
        (if ds.isEmpty then [] else '.' :: ds) := by
      cases ds with
      | nil => exact ⟨none, .absent⟩
      | cons c ds => exact ⟨_, .present ⟨by simp, hdigits.2⟩⟩
    obtain ⟨fraction, hfraction⟩ := hfraction
    have hsign : (if s.exponent < 0 then '-' else '+') = '+' ∨
        (if s.exponent < 0 then '-' else '+') = '-' := by
      split <;> simp
    have hfirst : Digits [d] := ⟨by simp, by simpa using hdigits.1⟩
    have htext : UnsignedText negative _ _ :=
      .mk hfirst (by simp) hfraction
        (.signed (.inl rfl) hsign (Numeral.digits_toDigits s.exponent.natAbs))
    exact ⟨_, by simpa using htext⟩

theorem unsignedText_magnitude (negative : Bool) (units : Nat) :
    ∃ n, UnsignedText negative n (magnitudeText units) := by
  unfold magnitudeText
  split
  · exact unsignedText_point negative digits_zero (fun _ => rfl) digits_zero
  · rename_i h
    simp only []
    split
    · exact unsignedText_positional negative (proper_shortest h)
    · exact unsignedText_exponent negative (proper_shortest h)

end Binary64

namespace Numeral

/-- The numeral of a binary64 number, as its text has it. -/
def ofFloat (x : Binary64) : Numeral :=
  ((run .sign (.empty x.negative) (Binary64.magnitudeText x.units)).map (·.2)).getD (.empty false)

theorem text_float (x : Binary64) : Text (ofFloat x) x.text.toList := by
  obtain ⟨n, h⟩ := Binary64.unsignedText_magnitude x.negative x.units
  obtain ⟨part, -, hrun⟩ := h.run
  have hn : ofFloat x = n := by
    unfold ofFloat
    rw [hrun]
    rfl
  obtain ⟨negative, units⟩ := x
  rw [hn, Binary64.text, String.toList_ofList]
  cases negative with
  | false => exact .positive h
  | true => exact .negative h

end Numeral

end PipeScript
