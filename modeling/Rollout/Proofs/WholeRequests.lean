import Mathlib.Data.List.Forall2
import Mathlib.Data.List.Induction
import Rollout.Proofs.Targets

/-!
# Requests are validated as a whole

A scale request is a map from objects of any kind to objects of any kind, and it is a validator of
someone else's making that says what they mean. Whatever lawful validator that is, the request is
looked at as a whole before anything is done: either each of its entries is taken for a process type
and a number of instances (`Validator.Takes`), or the request is refused with all that is wrong, in
the order of the entries.

The laws of validators are about one entry more. From them follows by induction along the map what
comes of it as a whole, namely its `Validator.outcome`:

* `Validator.entryIssues_eq_nil_iff`: nothing is wrong with an entry exactly if it is taken for
  something. A bad entry therefore counts wherever it stands.
* `Validator.IsLawful.validate_eq`: what comes of a map, told from its entries.
* `Validator.IsLawful.validate_toObjects`: what is kept of a map is kept of itself.

That a refused request changes nothing (`Session.refused_as_a_whole`) needs no argument about
collaborators: the plan of a refused request is done before its first call.

Conversely, rules for entries make a lawful validator (`Validator.isLawful_of_outcome`). In this way
the validator of the program is found to be lawful (`ScaleRequest.lax_isLawful`), and so is one that
takes bytes for the texts which they encode. With the latter, keys that are no texts may be
accepted, and two keys may come to one (`Session.not_only_texts`).
-/

namespace Rollout

/-! ### Named things set one after the other -/

namespace Named

variable {α : Type}

/-- What is set is there, and nothing else is new. -/
theorem mem_of_mem_set {name : String} {value : α} {table : Named α} {entry : String × α}
    (h : entry ∈ set name value table) : entry = (name, value) ∨ entry ∈ table := by
  induction table with
  | nil => exact .inl (List.mem_singleton.mp h)
  | cons first rest ih =>
    rw [set] at h
    -- Either this is the entry of the name, which is replaced, or the name is looked for further
    -- on.
    split at h
    · exact (List.mem_cons.mp h).imp_right (List.mem_cons_of_mem first)
    · rcases List.mem_cons.mp h with rfl | hrest
      · exact .inr List.mem_cons_self
      · exact (ih hrest).imp_right (List.mem_cons_of_mem first)

/-- Everything that is there was set. -/
theorem mem_of_mem_collect {entries : List (String × α)} {entry : String × α}
    (h : entry ∈ collect entries) : entry ∈ entries := by
  induction entries using List.reverseRecOn with
  | nil => exact h
  | append_singleton earlier last ih =>
    rw [collect_concat] at h
    rcases mem_of_mem_set h with rfl | hearlier
    · exact List.mem_append_right _ (List.mem_singleton_self _)
    · exact List.mem_append_left _ (ih hearlier)

/-- Names stand in the order in which they were set first. -/
theorem names_collect (entries : List (String × α)) :
    (collect entries).names = (entries.map (·.1)).eraseDups := by
  -- From the end, since `collect` sets the last name last.
  induction entries using List.reverseRecOn with
  | nil => rfl
  | append_singleton earlier last ih =>
    have hknown : last.1 ∈ (collect earlier).names ↔ last.1 ∈ earlier.map (·.1) := by
      rw [ih, List.mem_eraseDups]
    rw [collect_concat, List.map_append, List.eraseDups_append, ← ih, List.map_singleton]
    -- the last name is known already, or it is new and goes to the end
    by_cases hmem : last.1 ∈ (collect earlier).names
    · have hnothing : [last.1].removeAll (earlier.map (·.1)) = [] := by
        simp [List.removeAll, hknown.mp hmem]
      rw [names_set_of_mem _ hmem, hnothing, List.eraseDups_nil, List.append_nil]
    · have hitself : [last.1].removeAll (earlier.map (·.1)) = [last.1] := by
        simp [List.removeAll, mt hknown.mpr hmem]
      rw [set_of_not_mem _ hmem, hitself, names, List.map_append]
      rfl

theorem nodup_names_collect (entries : List (String × α)) : (collect entries).names.Nodup := by
  induction entries using List.reverseRecOn with
  | nil => exact List.nodup_nil
  | append_singleton earlier last ih =>
    rw [collect_concat]
    exact nodup_names_set _ _ ih

/-- Names that are distinct are set without a loss. -/
theorem collect_eq_self {entries : List (String × α)} (h : (entries.map (·.1)).Nodup) :
    collect entries = entries := by
  induction entries using List.reverseRecOn with
  | nil => rfl
  | append_singleton earlier last ih =>
    rw [List.map_append, List.nodup_append] at h
    rw [collect_concat, ih h.1, set_of_not_mem _ fun hmem => ?_]
    exact h.2.2 _ hmem _ (List.mem_singleton_self _) rfl

end Named

/-! ### What is taken -/

namespace Validator

variable {ν : Type} {validator : Validator ν} {entry : ν × ν} {entries : List (ν × ν)}

/-- An entry is taken for a process type and an integer that is not negative. It is what the
documentation calls a valid entry, told from what the validator makes of keys and of quantities. -/
def Takes (validator : Validator ν) (entry : ν × ν) (taken : String × Int) : Prop :=
  validator.text? entry.1 = .ok taken.1 ∧ validator.integer? entry.2 = .ok taken.2 ∧ 0 ≤ taken.2

/-- What an entry is taken for, if it is taken for something. -/
def taken? (validator : Validator ν) (entry : ν × ν) : Option (String × Int) :=
  match validator.text? entry.1, validator.quantity? entry.2 with
  | .ok type, .ok n => some (type, n)
  | _, _ => none

/-- What comes of a map by its entries alone. -/
def outcome (validator : Validator ν) (entries : List (ν × ν)) :
    Except (List Issue) (Named Int) :=
  match entries.flatMap validator.entryIssues with
  | [] => .ok (Named.collect (entries.filterMap validator.taken?))
  | issues => .error issues

/-- A quantity is an integer that is not negative. -/
theorem quantity?_eq_ok {given : ν} {n : Int} :
    validator.quantity? given = .ok n ↔ validator.integer? given = .ok n ∧ 0 ≤ n := by
  rw [quantity?]
  cases validator.integer? given with
  | error issue => exact ⟨fun h => (nomatch h), fun h => nomatch h.1⟩
  | ok m =>
    dsimp only
    -- Only the sign is left to be looked at.
    split
    · next hneg =>
      refine ⟨fun h => (nomatch h), fun ⟨heq, hnonneg⟩ => ?_⟩
      rw [Except.ok.inj heq] at hneg
      exact absurd hnonneg (Int.not_le.mpr hneg)
    · next hnonneg =>
      refine ⟨fun h => ⟨h, ?_⟩, And.left⟩
      rw [← Except.ok.inj h]
      exact Int.not_lt.mp hnonneg

/-- An entry is taken for something, and nothing is wrong with it, or something is. -/
theorem taken_cases (validator : Validator ν) (entry : ν × ν) :
    (∃ type n, validator.text? entry.1 = .ok type ∧ validator.quantity? entry.2 = .ok n ∧
        validator.taken? entry = some (type, n) ∧ validator.entryIssues entry = []) ∨
      validator.taken? entry = none ∧ validator.entryIssues entry ≠ [] := by
  rw [taken?, entryIssues, keyIssues]
  -- Bad if the key is bad or the quantity is: either one alone gives an issue.
  cases validator.text? entry.1 with
  | error issue => exact .inr ⟨rfl, List.cons_ne_nil _ _⟩
  | ok type =>
    cases validator.quantity? entry.2 with
    | error issue => exact .inr ⟨rfl, List.cons_ne_nil _ _⟩
    | ok n => exact .inl ⟨type, n, rfl, rfl, rfl, rfl⟩

/-- **Nothing is wrong with an entry exactly if it is taken for something.** Key and quantity are
looked at apart, and both must be taken. -/
theorem entryIssues_eq_nil_iff :
    validator.entryIssues entry = [] ↔ ∃ taken, validator.Takes entry taken := by
  rcases validator.taken_cases entry with ⟨type, n, htype, hn, -, hnone⟩ | ⟨htaken, hsome⟩
  · exact iff_of_true hnone ⟨(type, n), htype, quantity?_eq_ok.mp hn⟩
  · refine iff_of_false hsome fun ⟨⟨type, n⟩, htype, hn⟩ => ?_
    rw [taken?, htype, quantity?_eq_ok.mpr hn] at htaken
    cases htaken

/-- Where nothing is wrong, each entry is taken for something. -/
theorem forall₂_takes (h : ∀ entry ∈ entries, ∃ taken, validator.Takes entry taken) :
    List.Forall₂ validator.Takes entries (entries.filterMap validator.taken?) := by
  -- Entry by entry: each is taken for exactly one thing, so none is skipped.
  induction entries with
  | nil => exact .nil
  | cons entry rest ih =>
    obtain ⟨hentry, hrest⟩ := List.forall_mem_cons.mp h
    obtain ⟨⟨type, n⟩, htype, hn⟩ := hentry
    have htaken : validator.taken? entry = some (type, n) := by
      rw [taken?, htype, quantity?_eq_ok.mpr hn]
    rw [List.filterMap_cons, htaken]
    exact .cons ⟨htype, hn⟩ (ih hrest)

theorem nonneg_of_takes {taken : List (String × Int)}
    (h : List.Forall₂ validator.Takes entries taken) : ∀ entry ∈ taken, 0 ≤ entry.2 := by
  induction h with
  | nil => exact fun _ hmem => nomatch hmem
  | cons hfirst _ ih => exact List.forall_mem_cons.mpr ⟨hfirst.2.2, ih⟩

/-- Texts in different keys are different. -/
theorem nodup_of_takes (htext : ∀ s, validator.text? (validator.text s) = .ok s)
    (hmap : IsMap entries) (hkeys : ∀ entry ∈ entries, ∃ type, entry.1 = validator.text type)
    {taken : List (String × Int)} (h : List.Forall₂ validator.Takes entries taken) :
    (taken.map (·.1)).Nodup := by
  -- The keys are the texts that they are taken for, so these differ as the keys do.
  have hsame : entries.map (·.1) = (taken.map (·.1)).map validator.text := by
    clear hmap
    induction h with
    | nil => rfl
    | cons hfirst _ ih =>
      obtain ⟨⟨type, htype⟩, hrest⟩ := List.forall_mem_cons.mp hkeys
      have heq := hfirst.1
      rw [htype, htext] at heq
      rw [List.map_cons, List.map_cons, List.map_cons, ih hrest, htype, Except.ok.inj heq]
  rw [IsMap, hsame] at hmap
  exact hmap.of_map _

/-! ### What comes of a map -/

/-- **One entry more** adds its issues to those before, or is the first bad one, or sets a number.
These are the three laws of a lawful validator, which is why they decide what comes of a map. -/
theorem outcome_concat (validator : Validator ν) (entries : List (ν × ν)) (entry : ν × ν) :
    validator.outcome (entries ++ [entry]) =
      match validator.outcome entries, validator.taken? entry with
      | .error issues, _ => .error (issues ++ validator.entryIssues entry)
      | .ok _, none => .error (validator.entryIssues entry)
      | .ok kept, some (type, n) => .ok (kept.set type n) := by
  rw [outcome, outcome, List.flatMap_append, List.flatMap_singleton, List.filterMap_append]
  -- Whether something was wrong before decides, and only then the new entry.
  cases hbefore : entries.flatMap validator.entryIssues with
  | cons first others => rfl
  | nil =>
    rcases validator.taken_cases entry with ⟨type, n, -, -, htaken, hnone⟩ | ⟨htaken, hsome⟩
    · rw [hnone, htaken, List.filterMap_cons, htaken, List.filterMap_nil]
      exact congrArg Except.ok (Named.collect_concat _ _)
    · rw [htaken, List.nil_append]
      cases hissues : validator.entryIssues entry with
      | nil => exact absurd hissues hsome
      | cons first others => rfl

theorem IsMap.of_concat (h : IsMap (entries ++ [entry])) : IsMap entries := by
  rw [IsMap, List.map_append, List.nodup_append] at h
  exact h.1

/-- **What comes of a map** is what its entries say, if the validator is lawful. The issues of all
entries are reported, not only those of the first bad one. -/
theorem IsLawful.validate_eq (hlawful : validator.IsLawful) (hmap : IsMap entries) :
    validator.validate entries = validator.outcome entries := by
  -- From the end, as the laws are about one entry more. A map without its last entry is a map
  -- still.
  induction entries using List.reverseRecOn with
  | nil => exact hlawful.validate_nil
  | append_singleton earlier last ih =>
    have hearlier := ih hmap.of_concat
    rw [outcome_concat]
    cases houtcome : validator.outcome earlier with
    | error issues => exact hlawful.refused hmap (hearlier.trans houtcome)
    | ok kept =>
      rw [houtcome] at hearlier
      rcases validator.taken_cases last with ⟨type, n, htype, hn, htaken, -⟩ | ⟨htaken, hsome⟩
      · rw [htaken]
        exact hlawful.accepted hmap hearlier htype hn
      · rw [htaken]
        exact hlawful.spoiled hmap hearlier hsome

/-- A validator that goes by what the entries say is lawful. -/
theorem isLawful_of_outcome (htext : ∀ s, validator.text? (validator.text s) = .ok s)
    (hint : ∀ n, validator.integer? (validator.int n) = .ok n)
    (h : ∀ entries, IsMap entries → validator.validate entries = validator.outcome entries) :
    validator.IsLawful where
  text?_text := htext
  integer?_int := hint
  validate_nil := h [] List.nodup_nil
  refused hmap hrefused := by
    rw [h _ hmap, outcome_concat, ← h _ hmap.of_concat, hrefused]
  spoiled := by
    intro entries entry kept hmap hkept hissues
    rw [h _ hmap, outcome_concat, ← h _ hmap.of_concat, hkept]
    rcases validator.taken_cases entry with ⟨-, -, -, -, -, hnone⟩ | ⟨htaken, -⟩
    · exact absurd hnone hissues
    · rw [htaken]
  accepted := by
    intro entries entry kept type n hmap hkept htype hn
    rw [h _ hmap, outcome_concat, ← h _ hmap.of_concat, hkept, taken?, htype, hn]

/-- A map with a bad entry is refused with what is wrong with its entries. -/
theorem outcome_of_bad (h : ∃ entry ∈ entries, ¬ ∃ taken, validator.Takes entry taken) :
    entries.flatMap validator.entryIssues ≠ [] ∧
      validator.outcome entries = .error (entries.flatMap validator.entryIssues) := by
  have hne : entries.flatMap validator.entryIssues ≠ [] := by
    -- If nothing were wrong with the map, nothing would be wrong with this entry.
    obtain ⟨entry, hmem, hbad⟩ := h
    exact fun hnil => hbad (entryIssues_eq_nil_iff.mp (List.flatMap_eq_nil_iff.mp hnil entry hmem))
  refine ⟨hne, ?_⟩
  rw [outcome]
  split
  · next hnil => exact absurd hnil hne
  · rfl

/-- A map of good entries is accepted with what they are taken for. -/
theorem outcome_of_good (h : ∀ entry ∈ entries, ∃ taken, validator.Takes entry taken) :
    validator.outcome entries =
      .ok (Named.collect (entries.filterMap validator.taken?)) := by
  have hnil : entries.flatMap validator.entryIssues = [] :=
    List.flatMap_eq_nil_iff.mpr fun entry hmem => entryIssues_eq_nil_iff.mpr (h entry hmem)
  rw [outcome, hnil]

/-- What was kept of a map, as a map of objects. -/
def toObjects (validator : Validator ν) (kept : Named Int) : List (ν × ν) :=
  kept.map fun entry => (validator.text entry.1, validator.int entry.2)

/-- **What is kept is kept as it is** when it is validated once more. So a request that was
validated before can be handed on without harm. -/
theorem IsLawful.validate_toObjects (hlawful : validator.IsLawful) {kept : Named Int}
    (hnames : kept.names.Nodup) (hkept : ∀ entry ∈ kept, 0 ≤ entry.2) :
    validator.validate (validator.toObjects kept) = .ok kept := by
  have hmap : IsMap (validator.toObjects kept) := by
    rw [IsMap, toObjects, List.map_map]
    have hsplit : (Prod.fst ∘ fun entry : String × Int =>
        (validator.text entry.1, validator.int entry.2)) = validator.text ∘ Prod.fst := rfl
    rw [hsplit, ← List.map_map]
    -- Distinct names make distinct keys.
    refine List.Nodup.map (fun s t hsame => ?_) hnames
    -- texts that are the same object are taken for the same text
    have htaken := congrArg validator.text? hsame
    rw [hlawful.text?_text, hlawful.text?_text] at htaken
    exact Except.ok.inj htaken
  have htaken (entry : String × Int) (hmem : entry ∈ kept) :
      validator.Takes (validator.text entry.1, validator.int entry.2) entry :=
    ⟨hlawful.text?_text _, hlawful.integer?_int _, hkept entry hmem⟩
  have hgood : ∀ entry ∈ validator.toObjects kept, ∃ taken, validator.Takes entry taken := by
    intro entry hmem
    obtain ⟨own, hown, rfl⟩ := List.mem_map.mp hmem
    exact ⟨own, htaken own hown⟩
  -- Both lists run side by side, entry for entry.
  have hsame : (validator.toObjects kept).filterMap validator.taken? = kept := by
    have hall := forall₂_takes hgood
    rw [toObjects, List.forall₂_map_left_iff] at hall
    -- each entry is taken for what it was
    have heq : List.Forall₂ Eq kept ((validator.toObjects kept).filterMap validator.taken?) := by
      refine hall.imp fun own taken htakes => ?_
      obtain ⟨htype, hn, -⟩ := htakes
      rw [hlawful.text?_text] at htype
      rw [hlawful.integer?_int] at hn
      exact Prod.ext (Except.ok.inj htype) (Except.ok.inj hn)
    exact (List.forall₂_eq_eq_eq ▸ heq).symm
  rw [hlawful.validate_eq hmap, outcome_of_good hgood, hsame, Named.collect_eq_self hnames]

end Validator

/-! ### The validator of the program -/

namespace ScaleRequest

/-- What counts as a number of instances is the same with and without a sign. -/
theorem quantity?_lax (given : Value) :
    lax.quantity? given = (quantity given).map Int.ofNat := by
  have hinteger : lax.integer? given = integer given := rfl
  rw [Validator.quantity?, quantity, hinteger]
  cases integer given with
  | error issue => rfl
  | ok n =>
    -- The sign is what tells the two ranges apart, and the negative ones are refused by both.
    cases n with
    | ofNat n => exact if_neg (Int.not_lt.mpr (Int.natCast_nonneg n))
    | negSucc n => exact if_pos (Int.negSucc_lt_zero n)

/-- The validator of the program finds the same wrong with an entry as its rules do. -/
theorem entryIssues_lax (entry : Value × Value) :
    lax.entryIssues entry = entryIssues entry.1 entry.2 := by
  obtain ⟨key, given⟩ := entry
  rw [Validator.entryIssues, quantity?_lax]
  unfold entryIssues
  -- only texts are taken for texts
  cases key <;> cases quantity given <;> rfl

/-- The validator of the program takes an entry for what its rules make of it. -/
theorem taken?_lax (entry : Value × Value) :
    lax.taken? entry = (pair? entry.1 entry.2).map fun kept => (kept.1, Int.ofNat kept.2) := by
  obtain ⟨key, given⟩ := entry
  rw [Validator.taken?, quantity?_lax]
  unfold pair?
  cases key <;> cases quantity given <;> rfl

/-- **The validator of the program is lawful.** -/
theorem lax_isLawful : lax.IsLawful := by
  refine Validator.isLawful_of_outcome (fun _ => rfl) (fun _ => rfl) fun entries hmap => ?_
  show (ofEntries entries).map toIntegers = _
  have hissues : entries.flatMap (fun entry => entryIssues entry.1 entry.2) =
      entries.flatMap lax.entryIssues :=
    congrArg (entries.flatMap ·) (funext fun entry => (entryIssues_lax entry).symm)
  -- The validator of the program collects the issues of all entries at once, just as the outcome
  -- does.
  rw [ofEntries, Validator.outcome, hissues]
  cases hnil : entries.flatMap lax.entryIssues with
  | cons first others => rfl
  | nil =>
    -- only texts are taken for texts, so no key is lost
    have hgood := fun entry hmem =>
      Validator.entryIssues_eq_nil_iff.mp (List.flatMap_eq_nil_iff.mp hnil entry hmem)
    have htexts : ∀ entry ∈ entries, ∃ type, entry.1 = Value.text type := by
      intro entry hmem
      obtain ⟨_, htype, -⟩ := hgood entry hmem
      cases hkey : entry.1 with
      | text type => exact ⟨type, rfl⟩
      | _ =>
        rw [hkey] at htype
        cases htype
    have hnames := Validator.nodup_of_takes (fun _ => rfl) hmap htexts
      (Validator.forall₂_takes hgood)
    have htaken : lax.taken? = fun entry : Value × Value =>
        (pair? entry.1 entry.2).map fun kept => (kept.1, Int.ofNat kept.2) := funext taken?_lax
    rw [Named.collect_eq_self hnames, htaken, ← List.map_filterMap]
    rfl

end ScaleRequest

/-! ### Scaling -/

namespace Session

/-- **Scale requests are validated as a whole**, by any lawful validator and for any map. With a bad
entry in the map, wherever it stands, scaling fails with all that is wrong in the order of the
entries. It is done before its first call, so that the session is as it was. Without one, scaling
starts from natural numbers under the texts that the keys are taken for, in the order in which these
occur first, and what is kept of the map would be kept of itself. If all keys are texts, they are
the same keys in the same order. -/
theorem refused_as_a_whole {ν : Type} {validator : Validator ν} (hlawful : validator.IsLawful)
    {session : Session} {opened : Opened} {name : Value} {formation : Formation}
    (hopened : session.opened = some opened) (hformation : session.formation? name = some formation)
    (blueprint : Blueprint) {quantities : List (ν × ν)} (hmap : Validator.IsMap quantities) :
    ((∃ entry ∈ quantities, ¬ ∃ taken, validator.Takes entry taken) →
      ∃ issues, issues = quantities.flatMap validator.entryIssues ∧ issues ≠ [] ∧
        (Failure.invalidQuantities issues).kind = .validation ∧
        Scale.scaleBy validator blueprint quantities formation =
          .done ⟨formation, .error (.invalidQuantities issues)⟩ ∧
        session.perform (Step.scaleBy validator blueprint quantities name) =
          (.error (.invalidQuantities issues), session)) ∧
    ((∀ entry ∈ quantities, ∃ taken, validator.Takes entry taken) →
      ∃ taken kept, List.Forall₂ validator.Takes quantities taken ∧
        validator.validate quantities = .ok kept ∧ kept = Named.collect taken ∧
        kept.names = (taken.map (·.1)).eraseDups ∧ (∀ entry ∈ kept, 0 ≤ entry.2) ∧
        ((∀ entry ∈ quantities, ∃ type, entry.1 = validator.text type) → kept = taken) ∧
        Scale.scaleBy validator blueprint quantities formation =
          Scale.scaleTypes blueprint (ScaleRequest.ofIntegers kept) formation ∧
        validator.validate (validator.toObjects kept) = .ok kept) := by
  have hvalidate := hlawful.validate_eq hmap
  constructor
  -- A refused request is a plan without calls, so the world is left as it was found.
  · intro hbad
    obtain ⟨hne, houtcome⟩ := Validator.outcome_of_bad hbad
    have hissues := hvalidate.trans houtcome
    refine ⟨_, rfl, hne, rfl, ?_, perform_scaleBy_of_invalid hopened hformation hissues⟩
    rw [Scale.scaleBy, hissues]
    rfl
  -- A good request is worth what its entries are taken for, set one after the other.
  · intro hgood
    have htakes := Validator.forall₂_takes hgood
    have hkept := hvalidate.trans (Validator.outcome_of_good hgood)
    generalize quantities.filterMap validator.taken? = taken at htakes hkept
    have hnonneg : ∀ entry ∈ Named.collect taken, 0 ≤ entry.2 := fun entry hmem =>
      Validator.nonneg_of_takes htakes entry (Named.mem_of_mem_collect hmem)
    refine ⟨taken, _, htakes, hkept, rfl, Named.names_collect taken, hnonneg, fun hkeys => ?_, ?_,
      ?_⟩
    · exact Named.collect_eq_self
        (Validator.nodup_of_takes hlawful.text?_text hmap hkeys htakes)
    · rw [Scale.scaleBy, hkept]
    · exact hlawful.validate_toObjects (Named.nodup_names_collect taken) hnonneg

/-- Two bad entries behind a good one: a numeral with a fraction under a process type, and a
negative number under a key that is no text. -/
def badlyMixed : List (Value × Value) :=
  [(.text "web", .text "+0_3.00"), (.text "clock", .text "2.5"), (.bool true, .int (-1))]

/-- **Three issues are reported for two bad entries**, and the good one in front changes nothing. -/
theorem badlyMixed_refused :
    ScaleRequest.lax.IsLawful ∧ ready.opened = some freshlyOpened ∧
      ready.formation? (.text "formation") = some (Formation.web 1) ∧
      Validator.IsMap badlyMixed ∧
      ready.perform (Step.scaleBy ScaleRequest.lax (.web 3) badlyMixed (.text "formation")) =
        (.error (.invalidQuantities
          [⟨.unreadable, [.text "quantities", .text "clock"]⟩,
            ⟨.notText, [.text "quantities", .int 1, .text "[key]"]⟩,
            ⟨.negative, [.text "quantities", .int 1]⟩]), ready) := by
  have hmap : Validator.IsMap badlyMixed := by
    rw [Validator.IsMap, badlyMixed]
    simp
  -- One of the bad entries is enough for the theorem to apply.
  have hbad : ∃ entry ∈ badlyMixed, ¬ ∃ taken, ScaleRequest.lax.Takes entry taken := by
    refine ⟨_, List.mem_cons_of_mem _ List.mem_cons_self, ?_⟩
    rintro ⟨taken, -, hn, -⟩
    have herror : ScaleRequest.integer (.text "2.5") = .error .unreadable := by decide +kernel
    cases herror.symm.trans hn
  have hopened : ready.opened = some freshlyOpened := rfl
  have hformation : ready.formation? (.text "formation") = some (Formation.web 1) := rfl
  obtain ⟨issues, hissues, -, -, -, hperform⟩ :=
    (refused_as_a_whole ScaleRequest.lax_isLawful hopened hformation (.web 3) hmap).1 hbad
  refine ⟨ScaleRequest.lax_isLawful, hopened, hformation, hmap, ?_⟩
  rw [hperform, hissues]
  rfl

/-- Values, and bytes that encode a text. It shows that objects may be more than values, and that
what they are taken for may coincide. -/
inductive Raw where
  | value (given : Value)
  | bytes (encoded : String)

/-- Rules that take bytes for the text that they encode. -/
def decodingRules : Validator Raw where
  text s := .value (.text s)
  int n := .value (.int n)
  text?
    | .value given => ScaleRequest.lax.text? given
    | .bytes encoded => .ok encoded
  integer?
    | .value given => ScaleRequest.integer given
    | .bytes encoded => ScaleRequest.integerOfText encoded
  location
    | .value given => ScaleRequest.keyLocation given
    | .bytes encoded => .text ("b" ++ Text.quoted encoded)
  validate _ := .ok []

/-- The validator that goes by these rules. -/
def decoding : Validator Raw := { decodingRules with validate := decodingRules.outcome }

/-- The same process type under two keys: a text, and the bytes that encode it. -/
def twofold : List (Raw × Raw) :=
  [(.value (.text "web"), .value (.int 1)), (.bytes "web", .value (.int 2))]

/-- **Not only texts are accepted as keys**, by a validator that decodes bytes. A request with such
a key is not refused but scales the release, and its two keys come to one. A key which no map can
have is refused indeed, but before any validator sees it, and with another failure. -/
theorem not_only_texts :
    decoding.IsLawful ∧ Validator.IsMap twofold ∧
      (∃ entry ∈ twofold, ∀ type, entry.1 ≠ decoding.text type) ∧
      decoding.validate twofold = .ok [("web", 2)] ∧
      (launched.perform (Step.scaleBy decoding (.web 3) twofold (.text "formation"))).1.toOption =
        some () ∧
      launched.world.scheduled = ["web.3.web.1"] ∧
      (launched.perform
        (Step.scaleBy decoding (.web 3) twofold (.text "formation"))).2.world.scheduled =
        ["web.3.web.1", "web.3.web.2"] ∧
      Value.dictionary? [(.list [.text "x"], .int 1)] =
        (.error .unsuitable : Except Failure (List (Value × Value))) := by
  -- The validator goes by its rules by definition, so lawfulness asks for no more than the two
  -- readings.
  refine ⟨Validator.isLawful_of_outcome (fun _ => rfl) (fun _ => rfl) fun _ _ => rfl, ?_,
    ⟨_, List.mem_cons_of_mem _ List.mem_cons_self, nofun⟩, rfl, by decide +kernel,
    by decide +kernel, by decide +kernel, rfl⟩
  rw [Validator.IsMap, twofold]
  simp

end Session

end Rollout
