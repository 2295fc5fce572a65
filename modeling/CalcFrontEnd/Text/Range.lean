/-
  CODE POINT RANGES — how a property of characters is written down.

  A character class that a standard fixes by enumeration (white space, letters, numerals) is kept as
  a list of closed ranges of code points in ascending order.

  1. **Data** — `Range`, a closed interval of code points; `Ascending`, the order the lists keep.

  2. **Program** — `covers ranges n` walks the list and stops at the first range that starts after
     `n`, so a small code point is settled by the first few ranges.

  3. **Specification** — `covers_iff`: for an ascending list the early stop loses nothing, `covers`
     holds exactly when some range of the list contains `n`.
-/

namespace CalcFrontEnd.Text

/-- A closed range of code points. -/
structure Range where
  first : Nat
  last : Nat
deriving DecidableEq, Repr

/-- Whether some range of an ascending list contains the code point `n`. -/
def covers : List Range → Nat → Bool
  | [], _ => false
  | r :: ranges, n => r.first ≤ n && (n ≤ r.last || covers ranges n)

/-- Every range is non-empty and ends before the next one starts. -/
def Ascending : List Range → Bool
  | [] => true
  | [r] => r.first ≤ r.last
  | r :: s :: ranges => r.first ≤ r.last && r.last < s.first && Ascending (s :: ranges)

/-! ## The early stop is harmless -/

/-- In an ascending list nothing starts before the first range does. -/
theorem first_le_of_mem : ∀ {r : Range} {ranges : List Range}, Ascending (r :: ranges) →
    ∀ s ∈ ranges, r.first ≤ s.first
  | _, [], _, _, hs => by simp at hs
  | r, t :: ranges, h, s, hs => by
      simp only [Ascending, Bool.and_eq_true, decide_eq_true_eq] at h
      rcases List.mem_cons.mp hs with rfl | hs
      · omega
      · have := first_le_of_mem h.2 s hs
        omega

/-- The tail of an ascending list is ascending. -/
theorem ascending_tail {r : Range} : ∀ {ranges : List Range}, Ascending (r :: ranges) →
    Ascending ranges
  | [], _ => rfl
  | _ :: _, h => by
      simp only [Ascending, Bool.and_eq_true] at h
      exact h.2

/-- On an ascending list `covers` is membership in one of the ranges. -/
theorem covers_iff : ∀ {ranges : List Range} {n : Nat}, Ascending ranges →
    (covers ranges n = true ↔ ∃ r ∈ ranges, r.first ≤ n ∧ n ≤ r.last)
  | [], _, _ => by simp [covers]
  | r :: ranges, n, h => by
      simp only [covers, Bool.and_eq_true, Bool.or_eq_true, decide_eq_true_eq, covers_iff (ascending_tail h),
        List.mem_cons, exists_eq_or_imp]
      constructor
      · rintro ⟨h₁, h₂ | h₂⟩
        · exact Or.inl ⟨h₁, h₂⟩
        · exact Or.inr h₂
      · rintro (⟨h₁, h₂⟩ | ⟨s, hs, h₁, h₂⟩)
        · exact ⟨h₁, Or.inl h₂⟩
        · exact ⟨Nat.le_trans (first_le_of_mem h s hs) h₁, Or.inr ⟨s, hs, h₁, h₂⟩⟩

end CalcFrontEnd.Text
