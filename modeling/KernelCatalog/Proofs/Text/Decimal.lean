import KernelCatalog.Text.Decimal
import Mathlib.Tactic.IntervalCases

/-!
# Reading decimal numbers

The decimal digits of a number are read back as the number.

* `unsigned?_toString`: a number that is not too large is read back from its digits.
-/

namespace KernelCatalog.Text

theorem isDigit_of_mem_toString {n : Nat} {c : Char} (h : c ∈ (toString n).toList) :
    c.isDigit = true := by
  rw [Nat.toString_eq_ofList_toDigits, String.toList_ofList] at h
  exact Nat.isDigit_of_mem_toDigits (by decide) (by decide) h

theorem toList_toString_ne_nil (n : Nat) : (toString n).toList ≠ [] := by
  rw [Nat.toString_eq_ofList_toDigits, String.toList_ofList]
  exact Nat.toDigits_ne_nil

theorem digit?_digitChar {d : Nat} (h : d < 10) : digit? d.digitChar = some d := by
  interval_cases d <;> rfl

theorem digits?_toDigits (n : Nat) (rest : List Char) :
    digits? 0 (Nat.toDigits 10 n ++ rest) = digits? n rest := by
  induction n using Nat.strongRecOn generalizing rest with
  | ind n ih =>
    rcases Nat.lt_or_ge n 10 with hn | hn
    · rw [Nat.toDigits_of_lt_base hn, List.singleton_append, digits?, digit?_digitChar hn]
      simp only [Nat.zero_mul, Nat.zero_add]
    · rw [Nat.toDigits_of_base_le (by decide) hn, List.append_assoc, List.singleton_append,
        ih (n / 10) (by omega), digits?, digit?_digitChar (Nat.mod_lt _ (by decide))]
      simp only [Nat.div_add_mod']

/-- **A number that is not too large is read back.** -/
theorem unsigned?_toString {limit n : Nat} (h : n ≤ limit) :
    unsigned? limit (toString n) = some n := by
  have hvalue : digits? 0 (toString n).toList = some n := by
    rw [Nat.toString_eq_ofList_toDigits, String.toList_ofList]
    simpa [digits?] using digits?_toDigits n []
  unfold unsigned?
  split
  · next rest heq =>
    have hplus : '+' ∈ (toString n).toList := heq ▸ List.mem_cons_self
    exact absurd (isDigit_of_mem_toString hplus) (by decide)
  · have hne : ¬ (toString n).toList.isEmpty = true := by
      rw [List.isEmpty_iff]
      exact toList_toString_ne_nil n
    dsimp only
    rw [if_neg hne, hvalue]
    exact if_pos h

theorem toString_injective {m n : Nat} (h : toString m = toString n) : m = n := by
  have hm := unsigned?_toString (Nat.le_max_left m n)
  rw [h, unsigned?_toString (Nat.le_max_right m n)] at hm
  exact (Option.some.inj hm).symm

end KernelCatalog.Text
