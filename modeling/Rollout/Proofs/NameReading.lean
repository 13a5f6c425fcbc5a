import Rollout.Proofs.NameFields

/-!
# Reading job names

Names are read leniently: with signs, between blanks, in digits of any script. The names that are
made are read back as what they were made of.

A decimal is made of the digits of the basic alphabet, so no blank, no underscore and no further
sign is among them, and all of them are cut off its front (`Numeral.spanDigits_of_isDigit`). The
digits that are too many to be read are those that are too many to be written
(`Numeral.readInteger_toString`). `JobName.parse_text` follows, as the pieces of a name are its
fields.
-/

namespace Rollout

/-! ### Digits of the basic alphabet -/

namespace Text

/-- A digit of the basic alphabet has a code point in one range. -/
theorem toNat_of_isDigit {c : Char} (h : c.isDigit = true) : 48 ≤ c.toNat ∧ c.toNat ≤ 57 := by
  rw [Char.isDigit, Bool.and_eq_true, decide_eq_true_eq, decide_eq_true_eq] at h
  exact h

theorem digitValue?_of_isDigit {c : Char} (h : c.isDigit = true) :
    digitValue? c = some (c.toNat - 48) := by
  have hrange := toNat_of_isDigit h
  -- the first run of ten digits is the one of the basic alphabet
  have hfirst : (decide (0x30 ≤ c.toNat) && decide (c.toNat < 0x30 + 10)) = true := by
    rw [Bool.and_eq_true, decide_eq_true_eq, decide_eq_true_eq]
    omega
  have hzeros : digitZeros = 0x30 :: digitZeros.tail := rfl
  rw [digitValue?, hzeros]
  simp only [List.find?_cons, hfirst, Option.map_some]

theorem not_isBlank_of_isDigit {c : Char} (h : c.isDigit = true) : isBlank c = false := by
  have hrange := toNat_of_isDigit h
  simp only [isBlank, blankRanges, Ranges.contains_cons, Ranges.contains_nil, Bool.or_eq_false_iff,
    Bool.and_eq_false_iff, decide_eq_false_iff_not, and_true]
  omega

/-- A text without blanks is trimmed already. -/
theorem trim_of_not_isBlank {s : List Char} (h : ∀ c ∈ s, isBlank c = false) : trim s = s := by
  have hkept : ∀ t : List Char, (∀ c ∈ t, isBlank c = false) → t.dropWhile isBlank = t := by
    intro t ht
    cases t with
    | nil => rfl
    | cons c rest => rw [List.dropWhile_cons, ht c List.mem_cons_self, if_neg Bool.false_ne_true]
  rw [trim, hkept s h, hkept s.reverse fun c hc => h c (List.mem_reverse.mp hc),
    List.reverse_reverse]

end Text

namespace Numeral

open Text

/-- **All digits of a decimal are cut off its front.** Only digits occur in it, so nothing is left
over. -/
theorem spanDigits_of_isDigit {s : List Char} (h : ∀ c ∈ s, c.isDigit = true) :
    spanDigits digitValue? s = (s.map (·.toNat - 48), []) := by
  induction s with
  | nil => rfl
  | cons c rest ih =>
    have hc := digitValue?_of_isDigit (h c List.mem_cons_self)
    have hrest := ih fun d hd => h d (List.mem_cons_of_mem c hd)
    cases rest with
    | nil => rw [spanDigits, hc]; rfl
    | cons next tail =>
      -- an underscore is no digit
      have hnext : next ≠ '_' := by
        rintro rfl
        exact absurd (h '_' (List.mem_cons_of_mem c List.mem_cons_self)) (by decide)
      rw [spanDigits, hc, hrest]
      · rfl
      · exact fun _ _ heq => absurd heq hnext

/-- The sign is what the decimal does not start with. -/
theorem splitSign_of_isDigit {s : List Char} (h : ∀ c ∈ s, c.isDigit = true) :
    splitSign s = (false, s) := by
  rcases s with - | ⟨c, rest⟩
  · rfl
  · have hc := h c List.mem_cons_self
    unfold splitSign
    split
    · next heq => 
      obtain ⟨rfl, -⟩ := List.cons.inj heq
      exact absurd hc (by decide)
    · next heq =>
      obtain ⟨rfl, -⟩ := List.cons.inj heq
      exact absurd hc (by decide)
    · rfl

theorem ofDigits_eq {s : List Char} :
    ofDigits (s.map (·.toNat - 48)) = Nat.ofDigitChars 10 s 0 := by
  rw [ofDigits, List.foldl_map, Nat.ofDigitChars_eq_foldl]
  rfl

theorem length_repr_le {n count : Nat} (hcount : 0 < count) (h : n < tenTo count) :
    n.repr.toList.length ≤ count := by
  rw [Nat.toList_repr]
  exact (Nat.length_toDigits_le_iff (by decide) hcount).mpr h

theorem isDigit_of_mem_repr {n : Nat} : ∀ c ∈ n.repr.toList, c.isDigit = true := by
  intro c hc
  rw [Nat.toList_repr] at hc
  exact Nat.isDigit_of_mem_toDigits (by decide) (by decide) hc

/-- A decimal has digits. -/
theorem not_isEmpty_toString (n : Int) : (toString n).toList.isEmpty = false := by
  rw [List.isEmpty_eq_false_iff, Int.toString_eq_repr, Int.repr_eq_if]
  split
  · rw [Nat.toList_repr]
    exact Nat.toDigits_ne_nil
  · rw [String.toList_append]
    exact List.append_ne_nil_of_left_ne_nil (by decide) _

/-- A natural number that can be written is read from its decimal, after any sign. -/
theorem spanDigits_repr {n : Nat} (h : n < writableBound) :
    ∃ digit digits, spanDigits digitValue? n.repr.toList = (digit :: digits, []) ∧
      (digit :: digits).length ≤ digitLimit ∧ ofDigits (digit :: digits) = n := by
  have hspan := spanDigits_of_isDigit (isDigit_of_mem_repr (n := n))
  have hvalue : ofDigits (n.repr.toList.map (·.toNat - 48)) = n := by
    rw [ofDigits_eq, Nat.toList_repr, Nat.ofDigitChars_ten_toDigits]
  have hlength : (n.repr.toList.map (·.toNat - 48)).length ≤ digitLimit := by
    rw [List.length_map]
    exact length_repr_le (by decide) h
  cases hmap : n.repr.toList.map (·.toNat - 48) with
  | nil =>
    -- a decimal has a digit at least
    rw [Nat.toList_repr, List.map_eq_nil_iff] at hmap
    exact absurd hmap Nat.toDigits_ne_nil
  | cons digit digits =>
    rw [hmap] at hspan hvalue hlength
    exact ⟨digit, digits, hspan, hlength, hvalue⟩

/-- A sign, and the decimal of a natural number that can be written. -/
theorem readInteger_of_decimal {text : String} {negative : Bool} {n : Nat}
    (hsign : splitSign (trim text.toList) = (negative, n.repr.toList)) (h : n < writableBound) :
    readInteger text = .ok (signed negative n) := by
  obtain ⟨digit, digits, hspan, hlength, hvalue⟩ := spanDigits_repr h
  rw [readInteger, hsign]
  simp only [hspan]
  rw [if_neg (Nat.not_lt.mpr hlength), hvalue]
  rfl

/-- **An integer that can be written reads back as itself.** The sign is dealt with first, and then
the digits by their number. -/
theorem readInteger_toString {n : Int} (h : Writable n = true) :
    readInteger (toString n) = .ok n := by
  have hbound : n.natAbs < writableBound := decide_eq_true_eq.mp h
  have hblank : ∀ m : Nat, ∀ c ∈ m.repr.toList, isBlank c = false := fun m c hc =>
    not_isBlank_of_isDigit (isDigit_of_mem_repr c hc)
  rw [Int.toString_eq_repr, Int.repr_eq_if]
  split
  · -- the digits alone
    next hpos =>
    have hsign : splitSign (trim n.toNat.repr.toList) = (false, n.toNat.repr.toList) := by
      rw [trim_of_not_isBlank (hblank _), splitSign_of_isDigit isDigit_of_mem_repr]
    rw [readInteger_of_decimal hsign (by omega), signed_false, Int.toNat_of_nonneg hpos]
  · -- the digits after a sign, which is no blank either
    next hneg =>
    have hminus : ("-" ++ (-n).toNat.repr).toList = '-' :: (-n).toNat.repr.toList := by
      rw [String.toList_append]
      rfl
    have hall : ∀ c ∈ '-' :: (-n).toNat.repr.toList, isBlank c = false := by
      intro c hc
      rcases List.mem_cons.mp hc with rfl | hc
      · decide
      · exact hblank _ c hc
    have hsign : splitSign (trim ("-" ++ (-n).toNat.repr).toList) =
        (true, (-n).toNat.repr.toList) := by
      rw [hminus, trim_of_not_isBlank hall]
      rfl
    rw [readInteger_of_decimal hsign (by omega), signed_true, Int.toNat_of_nonneg (by omega),
      Int.neg_neg]

end Numeral

namespace JobName

theorem not_isEmpty_of_isFieldName {s : String} (h : isFieldName s = true) :
    s.toList.isEmpty = false := by
  rw [isFieldName, Bool.and_eq_true, Bool.not_eq_true'] at h
  rw [List.isEmpty_eq_false_iff, Ne, String.toList_eq_nil_iff]
  rintro rfl
  exact absurd h.1 (by decide)

/-- **A name reads back as its fields.** The name falls into its pieces, and each piece reads as
what it was written from. -/
theorem parse_text {name : JobName} (h : name.IsValid) (hwritable : name.writable = true) :
    parse name.text = .ok name := by
  rw [writable, Bool.and_eq_true] at hwritable
  rw [parse]
  simp only [pieces_text h, not_isEmpty_of_isFieldName h.1, not_isEmpty_of_isFieldName h.2,
    Numeral.not_isEmpty_toString, String.ofList_toList,
    Numeral.readInteger_toString hwritable.1, Numeral.readInteger_toString hwritable.2]
  rfl

end JobName

end Rollout
