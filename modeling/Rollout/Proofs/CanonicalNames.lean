import Rollout.Proofs.NameReading

/-!
# Canonical names

Names are read leniently, so many texts read as the same four fields. One of them is the name that
is made of these fields, the canonical one: whatever is read can be written again, and reads the
same from then on.

Writing can only fail for a number that needs too many digits. A numeral of any script has digits
below ten (`Numeral.lt_ten_of_mem_spanDigits`), so its value needs no more decimal digits than it
has (`Numeral.ofDigits_lt`), and what was short enough to be read is short enough to be written
(`Numeral.writable_of_readInteger`).

* `Numeral.decimalLength`: how many decimal digits an integer has.
* `JobName.Decimals`: the two numbers have no more digits than are written.
* `JobName.exists_canonical`: from a reading to its canonical name.
* `JobName.round_trip`: names and fields determine each other.
-/

namespace Rollout

/-! ### Values of digits -/

namespace Text

/-- A digit of any script is below ten. -/
theorem lt_ten_of_digitValue? {c : Char} {digit : Nat} (h : digitValue? c = some digit) :
    digit < 10 := by
  obtain ⟨start, hstart, rfl⟩ := Option.map_eq_some_iff.mp h
  -- Digits come in runs of ten, and a digit is worth its distance from the start of its run.
  have hrun := List.find?_some hstart
  rw [Bool.and_eq_true, decide_eq_true_eq, decide_eq_true_eq] at hrun
  omega

end Text

namespace Numeral

open Text

/-- **The digits at the front of a text are below ten**, whatever scripts they are of. Each script
has ten in a row, and the value is the place in that row. -/
theorem lt_ten_of_mem_spanDigits {s : List Char} {digit : Nat}
    (h : digit ∈ (spanDigits digitValue? s).1) : digit < 10 := by
  -- one case for each way the span goes on: at the end, after an underscore, after a digit
  fun_induction spanDigits digitValue? s with
  | case1 => cases h
  | case2 => cases h
  | case3 c value hc =>
    obtain rfl := List.mem_singleton.mp h
    exact lt_ten_of_digitValue? hc
  | case4 => cases h
  | case5 c next rest value hc =>
    obtain rfl := List.mem_singleton.mp h
    exact lt_ten_of_digitValue? hc
  | case6 c next rest value hc _ _ tail ih =>
    rcases List.mem_cons.mp h with rfl | h
    · exact lt_ten_of_digitValue? hc
    · exact ih h
  | case7 => cases h
  | case8 c next rest _ value hc tail ih =>
    rcases List.mem_cons.mp h with rfl | h
    · exact lt_ten_of_digitValue? hc
    · exact ih h

theorem tenTo_le {m n : Nat} (h : m ≤ n) : tenTo m ≤ tenTo n := Nat.pow_le_pow_right (by decide) h

/-- Digits that follow a value multiply it by ten each. -/
theorem foldl_digits_lt {digits : List Nat} (h : ∀ digit ∈ digits, digit < 10) (value : Nat) :
    digits.foldl (fun value digit => 10 * value + digit) value <
      (value + 1) * tenTo digits.length := by
  -- On the digits, for any value so far: the next digit multiplies it by ten and adds less than
  -- ten.
  induction digits generalizing value with
  | nil => exact Nat.lt_of_lt_of_eq (Nat.lt_succ_self value) (Nat.mul_one _).symm
  | cons digit rest ih =>
    have hdigit := h digit List.mem_cons_self
    have hrest := ih (fun d hd => h d (List.mem_cons_of_mem digit hd)) (10 * value + digit)
    have hpower : tenTo (rest.length + 1) = 10 * tenTo rest.length := Nat.pow_succ'
    calc (digit :: rest).foldl (fun value digit => 10 * value + digit) value
        < (10 * value + digit + 1) * tenTo rest.length := hrest
      _ ≤ (10 * (value + 1)) * tenTo rest.length := Nat.mul_le_mul_right _ (by omega)
      _ = (value + 1) * tenTo (digit :: rest).length := by
        rw [List.length_cons, hpower, Nat.mul_comm 10, Nat.mul_assoc]

/-- **Digits have the value of as many decimal digits.** It is the case of `foldl_digits_lt` in
which no digits stand before them. -/
theorem ofDigits_lt {digits : List Nat} (h : ∀ digit ∈ digits, digit < 10) :
    ofDigits digits < tenTo digits.length := by
  have hfold := foldl_digits_lt h 0
  rwa [Nat.zero_add, Nat.one_mul] at hfold

/-! ### Numbers that are written -/

/-- How many decimal digits an integer has. The sign is none. -/
def decimalLength (n : Int) : Nat := (Nat.toDigits 10 n.natAbs).length

theorem writable_iff {n : Int} : Writable n = true ↔ decimalLength n ≤ digitLimit := by
  have hlength : ∀ count, 0 < count → (decimalLength n ≤ count ↔ n.natAbs < tenTo count) :=
    fun count hcount => Nat.length_toDigits_le_iff (by decide) hcount
  rw [Writable, decide_eq_true_eq, hlength digitLimit (by decide)]
  exact Iff.rfl

/-- A sign needs no digit. -/
theorem writable_signed {negative : Bool} {n : Nat} (h : n < writableBound) :
    Writable (signed negative n) = true := by
  have hmagnitude : (signed negative n).natAbs = n := by
    cases negative with
    | false => rw [signed_false, Int.natAbs_natCast]
    | true => rw [signed_true, Int.natAbs_neg, Int.natAbs_natCast]
  rw [Writable, hmagnitude]
  exact decide_eq_true h

/-- **What is read as an integer can be written.** The limit on digits is the same in both
directions, and leading zeros only make the reading longer. -/
theorem writable_of_readInteger {given : String} {n : Int} (h : readInteger given = .ok n) :
    Writable n = true := by
  -- A text without digits, one with too many and one with something behind them are not read, which
  -- leaves one case.
  simp only [readInteger] at h
  split at h
  · cases h
  · cases h
  next digits rest _ _ hspan =>
    split at h
    · cases h
    next hlength =>
      split at h
      next =>
        obtain rfl := Except.ok.inj h
        -- each digit counts less than ten, and there are no more of them than can be written
        have hfront : (spanDigits digitValue? (splitSign (trim given.toList)).2).1 = digits :=
          congrArg Prod.fst hspan
        have hdigits : ∀ digit ∈ digits, digit < 10 := by
          intro digit hdigit
          rw [← hfront] at hdigit
          exact lt_ten_of_mem_spanDigits hdigit
        exact writable_signed
          (Nat.lt_of_lt_of_le (ofDigits_lt hdigits) (tenTo_le (Nat.le_of_not_lt hlength)))
      · cases h

end Numeral

/-! ### What is read from a name -/

namespace JobName

/-- A piece that is not empty is a field. -/
theorem isFieldName_of_mem_pieces {s piece : List Char} (h : piece ∈ Text.pieces '.' s)
    (hne : piece.isEmpty = false) : isFieldName (String.ofList piece) = true := by
  rw [isFieldName, Bool.and_eq_true, Bool.not_eq_true', Bool.not_eq_true', String.toList_ofList]
  -- A field must not be empty and must not hold a dot.
  constructor
  · rw [Bool.eq_false_iff, Ne, String.isEmpty_iff, String.ofList_eq_empty_iff]
    exact fun hnil => Bool.false_ne_true (hne ▸ hnil ▸ rfl)
  · rw [List.contains_eq_mem, decide_eq_false_iff_not]
    exact Text.not_mem_of_mem_pieces h

/-- **The fields of a reading make a name.** Two of them are checked not to be empty, and as pieces
they hold no dot; the two numbers were short enough to be read. -/
theorem isValid_of_parse {given : String} {name : JobName} (h : parse given = .ok name) :
    name.IsValid ∧ name.writable = true := by
  unfold parse at h
  split at h
  next app version type ordinal hpieces =>
    split at h
    · cases h
    next hne =>
      simp only [Bool.or_eq_true, not_or, Bool.not_eq_true] at hne
      obtain ⟨⟨⟨happ, -⟩, htype⟩, -⟩ := hne
      split at h
      next hversion hordinal =>
        obtain rfl := Except.ok.inj h
        -- both texts are pieces of what was given, and pieces hold no dot
        have happ_mem : app ∈ Text.pieces '.' given.toList := by
          rw [hpieces]
          exact List.mem_cons_self
        have htype_mem : type ∈ Text.pieces '.' given.toList := by
          rw [hpieces]
          simp only [List.mem_cons, true_or, or_true]
        refine ⟨⟨?_, ?_⟩, ?_⟩
        · exact isFieldName_of_mem_pieces happ_mem happ
        · exact isFieldName_of_mem_pieces htype_mem htype
        · rw [writable, Bool.and_eq_true]
          exact ⟨Numeral.writable_of_readInteger hversion, Numeral.writable_of_readInteger hordinal⟩
      · cases h
  · cases h

/-- **A reading has a canonical name**, which reads the same. The name that was read may be another
one, with signs, zeros, blanks or digits of other scripts. -/
theorem exists_canonical {given : String} {name : JobName} (h : parse given = .ok name) :
    ∃ canonical,
      text? (.text name.app) (.int name.version) (.text name.type) (.int name.ordinal) =
        .ok canonical ∧ parse canonical = .ok name := by
  -- Once the fields are known to make a name, it is that of the first half of the round trip.
  obtain ⟨hvalid, hwritable⟩ := isValid_of_parse h
  exact ⟨name.text, text?_of_isValid hvalid hwritable, parse_text hvalid hwritable⟩

/-! ### Names and fields -/

/-- The two numbers have no more decimal digits than are written. In this form the limit can be
compared with the length of a text. -/
def Decimals (name : JobName) : Prop :=
  Numeral.decimalLength name.version ≤ Numeral.digitLimit ∧
    Numeral.decimalLength name.ordinal ≤ Numeral.digitLimit

theorem writable_iff_decimals {name : JobName} : name.writable = true ↔ name.Decimals := by
  rw [writable, Bool.and_eq_true, Numeral.writable_iff, Numeral.writable_iff, Decimals]

end JobName

/-- **Jobs that have names are equal exactly if their fields are.** -/
theorem Job.sameName_iff {a b : Job} {given given' : String} (ha : a.name? = .ok given)
    (hb : b.name? = .ok given') :
    ∃ same, Job.sameName a b = .ok same ∧
      (same = true ↔ a.app = b.app ∧ a.version = b.version ∧ a.type = b.type ∧
        a.ordinal = b.ordinal) := by
  refine ⟨given == given', by rw [Job.sameName, ha, hb]; rfl, ?_⟩
  rw [beq_iff_eq]
  -- Equal names have one reading, and equal fields make one name.
  constructor
  · rintro rfl
    exact JobName.fields_of_text? ha hb
  · rintro ⟨happ, hversion, htype, hordinal⟩
    rw [Job.name?, happ, hversion, htype, hordinal] at ha
    exact Except.ok.inj (ha.symm.trans hb)

namespace JobName

/-- **Names and fields determine each other.** Two fields and two integers of no more decimal digits
than are written make a name, which reads back as them. So no two quadruples of fields share a name,
and jobs that have names are equal exactly if their fields are. And whatever text is read as a name,
however leniently: its fields make a name too, which reads back as the same fields. -/
theorem round_trip :
    (∀ name : JobName, name.IsValid → name.Decimals →
      ∃ given,
        text? (.text name.app) (.int name.version) (.text name.type) (.int name.ordinal) =
          .ok given ∧ parse given = .ok name) ∧
    (∀ app version type ordinal app' version' type' ordinal' given,
      text? app version type ordinal = .ok given →
      text? app' version' type' ordinal' = .ok given →
      app = app' ∧ version = version' ∧ type = type' ∧ ordinal = ordinal') ∧
    (∀ (a b : Job) (given given' : String), a.name? = .ok given → b.name? = .ok given' →
      ∃ same, Job.sameName a b = .ok same ∧
        (same = true ↔ a.app = b.app ∧ a.version = b.version ∧ a.type = b.type ∧
          a.ordinal = b.ordinal)) ∧
    (∀ given name, parse given = .ok name →
      ∃ canonical,
        text? (.text name.app) (.int name.version) (.text name.type) (.int name.ordinal) =
          .ok canonical ∧ parse canonical = .ok name) := by
  -- The first part is left for the end: it only needs the bound on digits turned into writability.
  refine ⟨fun name hvalid hdecimals => ?_, fun _ _ _ _ _ _ _ _ _ => fields_of_text?,
    fun _ _ _ _ => Job.sameName_iff, fun _ _ => exists_canonical⟩
  have hwritable := writable_iff_decimals.mpr hdecimals
  exact ⟨name.text, text?_of_isValid hvalid hwritable, parse_text hvalid hwritable⟩

/-- A job of the fields `web`, -3 and `web`. -/
def webJobOf (ordinal : Int) : Job where
  app := .text "web"
  version := .int (-3)
  type := .text "web"
  ordinal := .int ordinal
  environment := .dict []
  image := ⟨.text "web", .text "1"⟩
  command := .text "run"

/-- A name with a negative version, another job of the same version, and a text in which the fields
of the name are written with a sign, blanks, an underscore and digits of another script. -/
theorem round_trip_web :
    (∃ given, text? (.text "web") (.int (-3)) (.text "web") (.int 12) = .ok given ∧
      parse given = .ok ⟨"web", -3, "web", 12⟩) ∧
    (webJobOf 12).name? = .ok "web.-3.web.12" ∧ (webJobOf 1).name? = .ok "web.-3.web.1" ∧
    (∃ same, Job.sameName (webJobOf 12) (webJobOf 1) = .ok same ∧
      (same = true ↔ (webJobOf 12).app = (webJobOf 1).app ∧
        (webJobOf 12).version = (webJobOf 1).version ∧ (webJobOf 12).type = (webJobOf 1).type ∧
        (webJobOf 12).ordinal = (webJobOf 1).ordinal)) ∧
    parse "web. -0_3\n.web.+\u0661\u0662" = .ok ⟨"web", -3, "web", 12⟩ ∧
    ∃ canonical, text? (.text "web") (.int (-3)) (.text "web") (.int 12) = .ok canonical ∧
      parse canonical = .ok ⟨"web", -3, "web", 12⟩ := by
  have hvalid : (⟨"web", -3, "web", 12⟩ : JobName).IsValid := ⟨by decide, by decide⟩
  have hdecimals : (⟨"web", -3, "web", 12⟩ : JobName).Decimals :=
    ⟨by decide +kernel, by decide +kernel⟩
  have hwritten := round_trip.1 _ hvalid hdecimals
  have hname : (webJobOf 12).name? = .ok "web.-3.web.12" := eq_ok_of_toOption (by decide +kernel)
  have hother : (webJobOf 1).name? = .ok "web.-3.web.1" := eq_ok_of_toOption (by decide +kernel)
  have hsame := round_trip.2.2.1 _ _ _ _ hname hother
  have hread : parse "web. -0_3\n.web.+\u0661\u0662" = .ok ⟨"web", -3, "web", 12⟩ :=
    eq_ok_of_toOption (by decide +kernel)
  have hrewritten := round_trip.2.2.2 _ _ hread
  exact ⟨hwritten, hname, hother, hsame, hread, hrewritten⟩

end JobName

end Rollout
