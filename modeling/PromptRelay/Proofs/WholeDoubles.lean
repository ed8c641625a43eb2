import Mathlib.Data.Rat.Cast.Order
import Mathlib.Tactic.Linarith
import Mathlib.Tactic.Positivity
import PromptRelay.FloatText
import PromptRelay.Proofs.DecimalNumbers

namespace PromptRelay

namespace Binary64

/-- The number that a finite double stands for. -/
def value? : Binary64 → Option ℚ
  | .finite negative significand exponent =>
    some ((if negative then -1 else 1) * significand * (2 : ℚ) ^ exponent)
  | _ => none

theorem log2_le_of_lt {n : Nat} (some_ : n ≠ 0) (small : n < 2 ^ 53) : n.log2 ≤ 52 := by
  have below := (Nat.log2_lt some_).mpr small
  omega

/-- A whole number of at most 53 bits has its bits as a significand, shifted up to the highest place. -/
theorem significand_bounds {n : Nat} (some_ : n ≠ 0) (small : n < 2 ^ 53) :
    hiddenBit ≤ n * 2 ^ (52 - n.log2) ∧ n * 2 ^ (52 - n.log2) < 2 * hiddenBit := by
  have place := log2_le_of_lt some_ small
  have least := Nat.mul_le_mul_right (2 ^ (52 - n.log2)) (Nat.log2_self_le some_)
  have greatest := (Nat.mul_lt_mul_right (Nat.two_pow_pos (52 - n.log2))).mpr
    (Nat.lt_log2_self (n := n))
  rw [← Nat.pow_add] at least greatest
  rw [show n.log2 + (52 - n.log2) = 52 by omega] at least
  rw [show n.log2 + 1 + (52 - n.log2) = 53 by omega] at greatest
  exact ⟨least, greatest⟩

theorem scale_neg (n k : Nat) : scale n 1 (-k) = (n * 2 ^ k, 1) := by
  rw [scale, Int.neg_neg, Int.toNat_natCast]
  split
  next up =>
    have zero : k = 0 := by omega
    subst zero
    simp
  next => rfl

theorem exponentOf_one {n : Nat} (some_ : n ≠ 0) (small : n < 2 ^ 53) :
    exponentOf n 1 = -(52 - n.log2 : Nat) := by
  have place := log2_le_of_lt some_ small
  have first : (n.log2 : Int) - (Nat.log2 1 : Int) - 52 = -(52 - n.log2 : Nat) := by
    rw [show Nat.log2 1 = 0 by decide]
    omega
  have full := Nat.not_lt.mpr (significand_bounds some_ small).1
  simp only [exponentOf, first, scale_neg, Nat.div_one, full, if_false, minExponent]
  omega

theorem roundHalfEven_one (n : Nat) : roundHalfEven n 1 = n := by
  simp [roundHalfEven, Nat.mod_one]

theorem ofRatio_one {n : Nat} (some_ : n ≠ 0) (small : n < 2 ^ 53) :
    ofRatio false n 1 = .finite false (n * 2 ^ (52 - n.log2)) (-(52 - n.log2 : Nat)) := by
  have room := Nat.ne_of_lt (significand_bounds some_ small).2
  have low : ¬maxExponent < -(52 - n.log2 : Nat) := by
    rw [maxExponent]
    omega
  simp only [ofRatio, some_, if_false, exponentOf_one some_ small, scale_neg, roundHalfEven_one, room,
    low]

theorem value?_ofRatio_one {n : Nat} (some_ : n ≠ 0) (small : n < 2 ^ 53) :
    (ofRatio false n 1).value? = some (n : ℚ) := by
  rw [ofRatio_one some_ small, value?]
  simp

/-- A whole number below 2⁵³ is a double, so its decimal digits stand for just that number. -/
theorem value?_ofDecimal {n : Nat} (small : n < 2 ^ 53) :
    (ofDecimal false n 0).value? = some (n : ℚ) := by
  by_cases zero : n = 0
  · subst zero
    simp [ofDecimal, value?]
  · have short : digitCount n ≤ 16 :=
      (Nat.length_toDigits_le_iff (by decide) (by decide)).mpr (Nat.lt_trans small (by decide))
    have within : ¬(310 < (digitCount n : Int) + 0) ∧ ¬((digitCount n : Int) + 0 < -330) := by omega
    have whole : n * Nat.pow 10 (Int.toNat 0) = n := Nat.mul_one n
    simp only [ofDecimal, zero, within, if_false, le_refl, if_true, whole]
    exact value?_ofRatio_one zero small

theorem value?_finite_of_unsigned {negative : Bool} {m : Nat} (unsigned : ¬(negative ∧ m ≠ 0))
    (e : Int) : (finite negative m e).value? = some ((m : ℚ) * 2 ^ e) := by
  cases negative with
  | false => simp [value?]
  | true =>
    have zero : m = 0 := by simpa using unsigned
    subst zero
    simp [value?]

/-- A double is read as a whole number exactly if it stands for that number. -/
theorem toNat?_eq_some_iff {x : Binary64} {n : Nat} :
    x.toNat? = some n ↔ x.value? = some (n : ℚ) := by
  cases x with
  | nan => simp [toNat?, value?]
  | infinite negative => simp [toNat?, value?]
  | finite negative m e =>
    simp only [toNat?]
    split
    next below =>
      obtain ⟨rfl, some_⟩ := below
      have positive : (0 : ℚ) < m * 2 ^ e :=
        mul_pos (Nat.cast_pos.mpr (Nat.pos_of_ne_zero some_)) (zpow_pos two_pos e)
      have least : (0 : ℚ) ≤ n := Nat.cast_nonneg n
      simp only [value?, if_true, Option.some.injEq, reduceCtorEq, false_iff]
      intro eq
      linarith
    next unsigned =>
      rw [value?_finite_of_unsigned unsigned, Option.some.injEq]
      split
      next up =>
        obtain ⟨k, rfl⟩ := Int.eq_ofNat_of_zero_le up
        rw [Int.toNat_natCast, Option.some.injEq, zpow_natCast]
        exact_mod_cast Iff.rfl
      next down =>
        obtain ⟨k, rfl⟩ : ∃ k : Nat, e = -k := ⟨(-e).toNat, by omega⟩
        have whole : (m : ℚ) * 2 ^ (-(k : Int)) = n ↔ m = n * 2 ^ k := by
          rw [zpow_neg, zpow_natCast, ← div_eq_mul_inv, div_eq_iff (by positivity)]
          exact_mod_cast Iff.rfl
        rw [whole, Int.neg_neg, Int.toNat_natCast, Nat.pow_eq]
        split
        next divides =>
          rw [Option.some.injEq,
            Nat.div_eq_iff_eq_mul_left (Nat.two_pow_pos k) (Nat.dvd_of_mod_eq_zero divides)]
        next rest =>
          simp only [reduceCtorEq, false_iff]
          rintro rfl
          exact rest (Nat.mul_mod_left n (2 ^ k))

end Binary64

theorem IsDecimal.digitsValue_eq {n : Nat} {s : List Char} (h : IsDecimal n s) : digitsValue s = n := by
  have step : ∀ (s : List Char) (value : Nat), (∀ c ∈ s, c.isDigit = true) →
      s.foldl (fun value c => value * 10 + (digitValue? c).getD 0) value = Nat.ofDigitChars 10 s value := by
    intro s
    induction s with
    | nil => exact fun _ _ => rfl
    | cons c s ih =>
      intro value digit
      have own := digitValue?_eq_some_iff.mpr ⟨digit c List.mem_cons_self, rfl⟩
      rw [List.foldl_cons, own, Option.getD_some, ih _ fun d mem => digit d (List.mem_cons_of_mem c mem),
        Nat.ofDigitChars_cons, Nat.mul_comm]
  rw [digitsValue, step s 0 h.digit, h.value]

theorem toLower_of_isDigit {c : Char} (digit : c.isDigit = true) : c.toLower = c := by
  have bounds := isDigit_iff_toNat.mp digit
  refine dif_neg fun upper => ?_
  have least : 'A'.toNat ≤ c.toNat := UInt32.le_iff_toNat_le.mp upper.1
  have letter : 'A'.toNat = 65 := rfl
  omega

/-- Digits spell no word. -/
theorem IsDecimal.spells_eq_false {n : Nat} {s : List Char} (h : IsDecimal n s) {word : String}
    (letter : word.toList.head?.any Char.isDigit = false) : spells word s = false := by
  obtain ⟨some_, digit, -⟩ := h
  cases s with
  | nil => exact absurd rfl some_
  | cons c s =>
    have own := digit c List.mem_cons_self
    refine Bool.eq_false_iff.mpr fun spelled => ?_
    have eq : (c :: s).map Char.toLower = word.toList := by simpa [spells] using spelled
    rw [← eq, List.map_cons, toLower_of_isDigit own] at letter
    simp [own] at letter

theorem IsDecimal.takeSign_eq {n : Nat} {s : List Char} (h : IsDecimal n s) :
    takeSign s = (false, s) := by
  unfold takeSign
  split
  next => exact absurd (h.digit '-' List.mem_cons_self) (by decide)
  next => exact absurd (h.digit '+' List.mem_cons_self) (by decide)
  next => rfl

theorem IsDecimal.readDecimal_eq {n : Nat} {s : List Char} (h : IsDecimal n s) :
    readDecimal false s = some ⟨false, n, 0⟩ := by
  have inside : ∀ c ∈ s, isDigit c = true := fun c mem => isDigit_eq c ▸ h.digit c mem
  have stop : ∀ c ∈ ([] : List Char).head?, isDigit c = false := by simp
  obtain ⟨whole, rest⟩ := takeWhile_append_stop inside stop
  rw [List.append_nil] at whole rest
  simp [readDecimal, whole, rest, h.ne_nil, readPower, h.digitsValue_eq]

/-- Plain digits are read as a double just of their number, unless it has more than 53 bits. -/
theorem IsDecimal.readBinary64_eq {n : Nat} {s : List Char} (h : IsDecimal n s) :
    readBinary64 s = some (.ofDecimal false n 0) := by
  have inf : spells "inf" s = false := h.spells_eq_false rfl
  have infinity : spells "infinity" s = false := h.spells_eq_false rfl
  have nan : spells "nan" s = false := h.spells_eq_false rfl
  simp [readBinary64, h.takeSign_eq, inf, infinity, nan, h.readDecimal_eq]

end PromptRelay
