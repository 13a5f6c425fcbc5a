import Mathlib.Data.List.Basic
import Mathlib.Data.List.Forall2
import Rollout.Job.Basic

/-!
# The fields of a job name

A job name is its four fields with dots between them. No field holds a dot: the two text fields
because they are checked, the two numbers because a decimal has none. Cutting a name at its dots
therefore gives the fields back (`JobName.pieces_text`), and two names agree only if all four fields
do (`JobName.text_injective`).

Everything that joins tracked jobs with the scheduler goes by names, so all that follows about one
application and one version rests on this:

* `IsNameOf app name` says that a name is one of the names that jobs of an application can have;
* `JobName.fields_of_text?` reads the fields off a name.
-/

namespace Rollout

/-! ### Results -/

/-- Two steps succeed if the first does and the second does with its result. -/
theorem bind_eq_ok {ε α β : Type} {first : Except ε α} {next : α → Except ε β} {result : β} :
    (first >>= next) = .ok result ↔ ∃ value, first = .ok value ∧ next value = .ok result := by
  cases first with
  | error failure =>
    constructor
    · intro h
      cases h
    · rintro ⟨value, hvalue, -⟩
      cases hvalue
  | ok value => exact ⟨fun h => ⟨value, rfl, h⟩, fun ⟨_, hvalue, h⟩ => Except.ok.inj hvalue ▸ h⟩

theorem eq_ok_of_toOption {ε α : Type} {result : Except ε α} {value : α}
    (h : result.toOption = some value) : result = .ok value := by
  cases result with
  | error failure => cases h
  | ok answer => exact congrArg _ (Option.some.inj h)

section MapM

variable {ε α β : Type} {f : α → Except ε β} {items : List α} {results : List β}

/-- Steps along a list succeed with the results that they have one by one. So what a loop does is
read off a relation between two lists, by induction on that relation. -/
theorem mapM_eq_ok : items.mapM f = .ok results ↔
    List.Forall₂ (fun item result => f item = .ok result) items results := by
  constructor
  · intro h
    -- The results are not fixed: they get shorter along with the items.
    induction items generalizing results with
    | nil =>
      obtain rfl := Except.ok.inj h
      exact .nil
    | cons item rest ih =>
      rw [List.mapM_cons] at h
      obtain ⟨first, hfirst, h⟩ := bind_eq_ok.mp h
      obtain ⟨others, hothers, h⟩ := bind_eq_ok.mp h
      obtain rfl := Except.ok.inj h
      exact .cons hfirst (ih hothers)
  · intro h
    induction h with
    | nil => rfl
    | cons hfirst _ ih =>
      rw [List.mapM_cons, hfirst, ih]
      rfl

/-- Steps along a list succeed if each of them does. -/
theorem exists_mapM_eq_ok (h : ∀ item ∈ items, ∃ result, f item = .ok result) :
    ∃ results, items.mapM f = .ok results := by
  induction items with
  | nil => exact ⟨[], rfl⟩
  | cons item rest ih =>
    obtain ⟨⟨first, hfirst⟩, hrest⟩ := List.forall_mem_cons.mp h
    obtain ⟨others, hothers⟩ := ih hrest
    exact ⟨first :: others, mapM_eq_ok.mpr (.cons hfirst (mapM_eq_ok.mp hothers))⟩

/-- The results of steps along a list. -/
theorem mem_of_mapM_eq_ok (h : items.mapM f = .ok results) {result : β} :
    result ∈ results ↔ ∃ item ∈ items, f item = .ok result := by
  have hall := mapM_eq_ok.mp h
  -- The induction is on how the lists go together, which already holds the loop.
  clear h
  induction hall with
  | nil => simp
  | cons hfirst _ ih =>
    rw [List.mem_cons, List.exists_mem_cons_iff, hfirst, Except.ok.injEq, eq_comm]
    exact or_congr_right ih

/-- Steps that come to the same for all items come to the same along the list. -/
theorem mapM_congr_of_mem {g : α → Except ε β} (h : ∀ item ∈ items, f item = g item) :
    items.mapM f = items.mapM g := by
  induction items with
  | nil => rfl
  | cons item rest ih =>
    obtain ⟨hfirst, hrest⟩ := List.forall_mem_cons.mp h
    rw [List.mapM_cons, List.mapM_cons, hfirst, ih hrest]

/-- Of two lists side by side, each item of the second one has its counterpart. -/
theorem exists_of_forall₂ {R : α → β → Prop} (h : List.Forall₂ R items results) {result : β}
    (hmem : result ∈ results) : ∃ item ∈ items, R item result := by
  induction h with
  | nil => cases hmem
  | cons hfirst _ ih =>
    rcases List.mem_cons.mp hmem with rfl | hrest
    · exact ⟨_, List.mem_cons_self, hfirst⟩
    · obtain ⟨item, hitem, hof⟩ := ih hrest
      exact ⟨item, List.mem_cons_of_mem _ hitem, hof⟩

end MapM

/-- A value passes as a name if it is a text that can be a field. -/
theorem checkName_eq_ok {what s : String} {given : Value} :
    checkName what given = .ok s ↔ given = .text s ∧ isFieldName s = true := by
  cases given with
  | text t =>
    rw [JobName.checkName_text]
    split
    · next h => simp only [Except.ok.injEq, Value.text.injEq]; exact ⟨fun e => ⟨e, e ▸ h⟩, And.left⟩
    · next h =>
      simp only [reduceCtorEq, Value.text.injEq, false_iff, not_and]
      rintro rfl hs
      exact h hs
  | _ => simp [checkName]

theorem checkNumber_eq_ok {what : String} {given : Value} {n : Int} :
    checkNumber what given = .ok n ↔ given = .int n := by
  cases given <;> simp [checkNumber]

/-! ### Decimals hold no dot -/

theorem dot_not_mem_repr (n : Nat) : '.' ∉ n.repr.toList := by
  intro hmem
  rw [Nat.toList_repr] at hmem
  have hdigit := Nat.isDigit_of_mem_toDigits (by decide) (by decide) hmem
  exact absurd hdigit (by decide)

/-- The decimal of an integer has no dot. -/
theorem dot_not_mem_toString (n : Int) : '.' ∉ (toString n).toList := by
  intro hmem
  rw [Int.toString_eq_repr, Int.repr_eq_if] at hmem
  split at hmem
  · exact dot_not_mem_repr _ hmem
  · rw [String.toList_append] at hmem
    rcases List.mem_append.mp hmem with h | h
    · exact absurd h (by decide)
    · exact dot_not_mem_repr _ h

theorem minus_not_mem_repr (n : Nat) : '-' ∉ n.repr.toList := by
  intro hmem
  rw [Nat.toList_repr] at hmem
  have hdigit := Nat.isDigit_of_mem_toDigits (by decide) (by decide) hmem
  exact absurd hdigit (by decide)

theorem repr_injective {m n : Nat} (h : m.repr = n.repr) : m = n := by
  have hdigits : Nat.toDigits 10 m = Nat.toDigits 10 n := by
    rw [← Nat.toList_repr, ← Nat.toList_repr, h]
  -- Reading the digits back gives the number, so equal digits come from one number.
  have hvalue := congrArg (Nat.ofDigitChars 10 · 0) hdigits
  simpa only [Nat.ofDigitChars_ten_toDigits] using hvalue

/-- An integer is known by its decimal. -/
theorem toString_int_injective {m n : Int} (h : toString m = toString n) : m = n := by
  rw [Int.toString_eq_repr, Int.toString_eq_repr, Int.repr_eq_if, Int.repr_eq_if] at h
  -- a decimal with a minus and one without differ in their first character
  have hclash : ∀ a b : Nat, a.repr ≠ "-" ++ b.repr := by
    intro a b heq
    refine minus_not_mem_repr a ?_
    rw [heq, String.toList_append]
    exact List.mem_append_left _ (by decide)
  -- Both signs of either number: the two mixed cases are the clash.
  split at h <;> split at h
  · have := repr_injective h
    omega
  · exact absurd h (hclash _ _)
  · exact absurd h.symm (hclash _ _)
  · have := repr_injective ((String.append_right_inj "-").mp h)
    omega

/-! ### Names and their pieces -/

theorem dot_not_mem_of_isFieldName {s : String} (h : isFieldName s = true) : '.' ∉ s.toList := by
  simp only [isFieldName, Bool.and_eq_true, Bool.not_eq_true', List.contains_eq_mem,
    decide_eq_false_iff_not] at h
  exact h.2

namespace Text

/-- A text without the separator is one piece. -/
theorem pieces_of_not_mem {separator : Char} {s : List Char} (h : separator ∉ s) :
    pieces separator s = [s] := by
  induction s with
  | nil => rfl
  | cons c rest ih =>
    rw [List.mem_cons, not_or] at h
    unfold pieces
    rw [if_neg (Ne.symm h.1), ih h.2]

/-- What stands in front of the first separator is the first piece. Applied once for each field,
this cuts a whole name. -/
theorem pieces_append {separator : Char} {s : List Char} (h : separator ∉ s) (rest : List Char) :
    pieces separator (s ++ separator :: rest) = s :: pieces separator rest := by
  induction s with
  | nil => rw [List.nil_append, pieces_separator]
  | cons c tail ih =>
    rw [List.mem_cons, not_or] at h
    rw [List.cons_append, pieces, if_neg (Ne.symm h.1), ih h.2]

end Text

namespace JobName

/-- The text fields of a name are fields. Its numbers are integers by their type, of any size and
sign. -/
def IsValid (name : JobName) : Prop := isFieldName name.app = true ∧ isFieldName name.type = true

/-- **The pieces of a name are its fields.** Neither fields nor integers contain the dot that the
name is put together with. -/
theorem pieces_text {name : JobName} (h : name.IsValid) :
    Text.pieces '.' name.text.toList =
      [name.app.toList, (toString name.version).toList, name.type.toList,
        (toString name.ordinal).toList] := by
  have happ := dot_not_mem_of_isFieldName h.1
  have htype := dot_not_mem_of_isFieldName h.2
  have hdot : ".".toList = ['.'] := rfl
  -- The name is put into the form that it is cut from: a field, a dot, and the rest.
  have htext : name.text.toList =
      name.app.toList ++ '.' :: ((toString name.version).toList ++ '.' ::
        (name.type.toList ++ '.' :: (toString name.ordinal).toList)) := by
    simp only [text, String.toList_append, hdot, List.append_assoc, List.cons_append,
      List.nil_append]
  -- No field holds a dot: two by validation, two since decimals have none.
  rw [htext, Text.pieces_append happ, Text.pieces_append (dot_not_mem_toString _),
    Text.pieces_append htype, Text.pieces_of_not_mem (dot_not_mem_toString _)]

/-- **Names are injective**: two names that agree as texts agree in all four fields. Validity is
needed: without it, the dots of a type could be taken for the dots between fields. -/
theorem text_injective {a b : JobName} (ha : a.IsValid) (hb : b.IsValid) (h : a.text = b.text) :
    a = b := by
  -- Equal texts have equal pieces, and the pieces are the fields.
  have hpieces := (pieces_text ha).symm.trans ((congrArg _ (congrArg _ h)).trans (pieces_text hb))
  simp only [List.cons.injEq, String.toList_inj, and_true] at hpieces
  obtain ⟨happ, hversion, htype, hordinal⟩ := hpieces
  cases a
  cases b
  simp only [JobName.mk.injEq]
  exact ⟨happ, toString_int_injective hversion, htype, toString_int_injective hordinal⟩

/-- **Which fields make a name**: two fields, and two integers that can be written. The checks of
the program come to exactly this. -/
theorem text?_eq_ok {app version type ordinal : Value} {given : String}
    (h : text? app version type ordinal = .ok given) :
    ∃ name : JobName, name.IsValid ∧ name.writable = true ∧ given = name.text ∧
      app = .text name.app ∧ version = .int name.version ∧ type = .text name.type ∧
      ordinal = .int name.ordinal := by
  -- The checks are made in the order of the fields, and the name is written only after all of them.
  obtain ⟨name, hcheck, hname⟩ := bind_eq_ok.mp h
  obtain ⟨app', happ, hcheck⟩ := bind_eq_ok.mp hcheck
  obtain ⟨version', hversion, hcheck⟩ := bind_eq_ok.mp hcheck
  obtain ⟨type', htype, hcheck⟩ := bind_eq_ok.mp hcheck
  obtain ⟨ordinal', hordinal, hcheck⟩ := bind_eq_ok.mp hcheck
  obtain rfl := Except.ok.inj hcheck
  obtain ⟨rfl, hvalidApp⟩ := checkName_eq_ok.mp happ
  obtain ⟨rfl, hvalidType⟩ := checkName_eq_ok.mp htype
  obtain rfl := checkNumber_eq_ok.mp hversion
  obtain rfl := checkNumber_eq_ok.mp hordinal
  split at hname
  · next hwritable =>
    exact ⟨_, ⟨hvalidApp, hvalidType⟩, hwritable, (Except.ok.inj hname).symm, rfl, rfl, rfl, rfl⟩
  · cases hname

/-- Fields that make a name have it: the converse of `text?_eq_ok`, for names whose numbers are
short enough to be written. -/
theorem text?_of_isValid {name : JobName} (h : name.IsValid) (hwritable : name.writable = true) :
    text? (.text name.app) (.int name.version) (.text name.type) (.int name.ordinal) =
      .ok name.text := by
  refine bind_eq_ok.mpr ⟨name, ?_, if_pos hwritable⟩
  refine bind_eq_ok.mpr ⟨_, checkName_eq_ok.mpr ⟨rfl, h.1⟩, ?_⟩
  refine bind_eq_ok.mpr ⟨_, rfl, ?_⟩
  exact bind_eq_ok.mpr ⟨_, checkName_eq_ok.mpr ⟨rfl, h.2⟩, rfl⟩

/-- **A name has one reading**: fields that make the same name are the same. -/
theorem fields_of_text? {app version type ordinal app' version' type' ordinal' : Value}
    {given : String} (h : text? app version type ordinal = .ok given)
    (h' : text? app' version' type' ordinal' = .ok given) :
    app = app' ∧ version = version' ∧ type = type' ∧ ordinal = ordinal' := by
  obtain ⟨name, hvalid, -, hgiven, happ, hversion, htype, hordinal⟩ := text?_eq_ok h
  obtain ⟨name', hvalid', -, hgiven', happ', hversion', htype', hordinal'⟩ := text?_eq_ok h'
  -- Both readings are valid names with the same text, so they are one name.
  obtain rfl := text_injective hvalid hvalid' (hgiven.symm.trans hgiven')
  exact ⟨happ.trans happ'.symm, hversion.trans hversion'.symm, htype.trans htype'.symm,
    hordinal.trans hordinal'.symm⟩

end JobName

/-! ### Names of an application -/

/-- The text is one of the names that jobs of an application can have. The other fields are left
open, and need not be those of any job that is there. -/
def IsNameOf (app given : String) : Prop :=
  ∃ version type ordinal, JobName.text? (.text app) version type ordinal = .ok given

theorem IsNameOf.app_unique {app other given : String} (h : IsNameOf app given)
    (hother : IsNameOf other given) : app = other := by
  obtain ⟨_, _, _, htext⟩ := h
  obtain ⟨_, _, _, hotherText⟩ := hother
  exact Value.text.inj (JobName.fields_of_text? htext hotherText).1

/-- The text is the name of a job of a version of the application. -/
def IsVersionOf (app : String) (version : Int) (given : String) : Prop :=
  ∃ type ordinal, JobName.text? (.text app) (.int version) type ordinal = .ok given

theorem IsVersionOf.unique {app given : String} {version other : Int}
    (h : IsVersionOf app version given) (h' : IsVersionOf app other given) : version = other := by
  obtain ⟨_, _, htext⟩ := h
  obtain ⟨_, _, htext'⟩ := h'
  exact Value.int.inj (JobName.fields_of_text? htext htext').2.1

namespace Job

theorem label_of_name? {job : Job} {name : String} (h : job.name? = .ok name) :
    job.label = name := by
  rw [label, h]
  rfl

theorem isNameOf_of_name? {job : Job} {app given : String} (happ : job.app = .text app)
    (h : job.name? = .ok given) : IsNameOf app given := by
  refine ⟨job.version, job.type, job.ordinal, ?_⟩
  rw [← happ]
  exact h

end Job

end Rollout
