import Mathlib.Algebra.Ring.Nat
import Mathlib.Data.List.Induction
import Rollout.Proofs.EnvironmentDocuments
import Rollout.Proofs.Holdings

/-!
# Expanding a formation

A formation is expanded into the jobs of its instances. This file says which jobs these are, how
many, and in which order: as many as the quantities add up to, one for each process type and each
instance from one up to its quantity, strictly ascending in process type and instance
(`Job.IsExpansion`).

* `Job.Template.expand_eq_flatMap`: expanding is collecting the jobs of the entries. Count,
  membership and order are read off this equation.
* `Formation.IsExpandable.sorted`: entries with texts of their own have one ascending arrangement,
  so that the order in which a formation was put together does not matter
  (`Formation.IsExpandable.sortedEntries_of_perm`).
* `Environment.IsOf`: what the environment of configuration variables is. Variables whose names are
  written alike are one variable.

That names are distinct follows from the order, since a name has one reading
(`JobName.fields_of_text?`). An instance number of more digits than a text may have makes no name,
so names are promised for all instances whose number can be written.
-/

namespace Rollout

/-! ### Environments -/

namespace Environment

/-- The environment of configuration variables: it was made of them, holds each name once, and has
for every name what the last variable of that name said. -/
structure IsOf (vars : List (Value × Value)) (environment : Environment) : Prop where
  made : ofVars vars = .ok environment
  distinct : environment.names.Nodup
  /-- The environment is its own plain mapping. -/
  plain : ofValue? (.ofFields environment) = .ok environment
  /-- Of all variables whose names are written alike, the last one counts. -/
  last : ∀ name, environment.lookup name =
    (vars.reverse.find? fun entry => entry.1.shown = name).map fun entry => entry.2.shown

/-- Variables that can be written are texts. -/
theorem texts_of_writable {vars : List (Value × Value)}
    (h : ∀ entry ∈ vars, entry.1.writable = true ∧ entry.2.writable = true) :
    texts vars = .ok (vars.map fun entry => (entry.1.shown, entry.2.shown)) := by
  induction vars with
  | nil => rfl
  | cons entry rest ih =>
    obtain ⟨⟨hname, hvalue⟩, hrest⟩ := List.forall_mem_cons.mp h
    -- Both are written, so neither test fails.
    rw [texts, Value.shown?, if_pos hname, Value.shown?, if_pos hvalue, ih hrest]
    rfl

/-- A name that was set several times has what it was set to last. -/
theorem lookup_collect (entries : List (String × String)) (name : String) :
    (Named.collect entries).lookup name =
      (entries.reverse.find? fun entry => entry.1 = name).map (·.2) := by
  -- From the end: setting one more name is what `collect` does last, and what the search from the
  -- back finds first.
  induction entries using List.reverseRecOn with
  | nil => rfl
  | append_singleton earlier last ih =>
    rw [Named.collect_concat, Named.lookup_set, ih, List.reverse_append, List.reverse_singleton,
      List.singleton_append, List.find?_cons]
    -- the last entry is what the name was set to, or it was set to it before
    by_cases hname : name = last.1
    · rw [if_pos hname, decide_eq_true hname.symm]
      rfl
    · rw [if_neg hname, decide_eq_false (Ne.symm hname)]

/-- **Variables that can be written make an environment.** Names and values are both written as
texts, so variables whose names are written alike become one. -/
theorem exists_isOf {vars : List (Value × Value)}
    (h : ∀ entry ∈ vars, entry.1.writable = true ∧ entry.2.writable = true) :
    ∃ environment, IsOf vars environment := by
  have hmade : ofVars vars =
      .ok (Named.collect (vars.map fun entry => (entry.1.shown, entry.2.shown))) := by
    rw [ofVars, texts_of_writable h]
    rfl
  have hdistinct := nodup_of_ofVars hmade
  refine ⟨_, hmade, hdistinct, ofValue?_ofFields hdistinct, fun name => ?_⟩
  rw [lookup_collect, ← List.map_reverse, List.find?_map, Option.map_map]
  rfl

end Environment

/-! ### Formations in order -/

/-- How many instances a process is expanded to; none if its quantity cannot be counted. -/
def ProcessType.instances (process : ProcessType) : Nat :=
  process.quantity.count?.toOption.getD 0

/-- A formation that can be expanded: its process types are texts that can stand in a name, each of
them is there once, and all quantities can be counted. That no type is there twice is no
restriction, since a formation is a mapping. -/
structure Formation.IsExpandable (formation : Formation) : Prop where
  types : ∀ entry ∈ formation, ∃ type, entry.1 = .text type ∧ isFieldName type = true
  distinct : (formation.map (·.1)).Nodup
  counted : ∀ entry ∈ formation, ∃ count, entry.2.quantity.count? = .ok count

namespace Formation.IsExpandable

variable {formation other : Formation}

theorem perm (h : formation.IsExpandable) (hperm : other.Perm formation) : other.IsExpandable where
  types entry hmem := h.types entry (hperm.mem_iff.mp hmem)
  distinct := (hperm.map _).nodup_iff.mpr h.distinct
  counted entry hmem := h.counted entry (hperm.mem_iff.mp hmem)

theorem texts (h : formation.IsExpandable) : ∀ entry ∈ formation, ∃ type, entry.1 = .text type :=
  fun entry hmem => (h.types entry hmem).imp fun _ htype => htype.1

theorem sorted?_eq (h : formation.IsExpandable) :
    Job.sorted? formation = .ok (Value.sortedEntries formation) :=
  if_pos (Value.allComparable_of_texts h.texts)

/-- **Sorted entries are strictly ascending in their process types.** They are strict because the
types are texts without repetitions. -/
theorem sorted (h : formation.IsExpandable) :
    (Value.sortedEntries formation).Pairwise fun a b => a.1.shown < b.1.shown := by
  rw [Value.sortedEntries_of_allOrdered (Value.allOrdered_of_texts h.texts)]
  -- An arrangement of distinct texts ascends strictly, so it is enough to know that they are
  -- distinct.
  apply strict_inOrder fun entry : Value × ProcessType => entry.1.shown
  · intro a ha b hb
    obtain ⟨s, hs⟩ := h.texts a ha
    obtain ⟨t, ht⟩ := h.texts b hb
    rw [hs, ht]
    rfl
  · -- texts are shown as themselves, so distinct process types stay distinct
    refine List.pairwise_map.mpr ((List.pairwise_map.mp h.distinct).imp_of_mem ?_)
    intro a b ha hb hne heq
    obtain ⟨s, hs⟩ := h.texts a ha
    obtain ⟨t, ht⟩ := h.texts b hb
    rw [hs, ht, Value.shown_text, Value.shown_text] at heq
    exact hne (by rw [hs, ht, heq])

/-- **Sorting forgets in which order the entries came**: an ascending arrangement is determined by
what it holds. -/
theorem sortedEntries_of_perm (h : formation.IsExpandable) (hperm : other.Perm formation) :
    Value.sortedEntries other = Value.sortedEntries formation := by
  have hsorted : (Value.sortedEntries other).Perm (Value.sortedEntries formation) :=
    calc (Value.sortedEntries other).Perm other := Value.perm_sortedEntries other
      List.Perm _ formation := hperm
      List.Perm _ (Value.sortedEntries formation) := (Value.perm_sortedEntries formation).symm
  -- Two arrangements of the same entries agree if their order is strict: neither of two different
  -- entries could come first.
  apply hsorted.eq_of_pairwise _ (h.perm hperm).sorted h.sorted
  intro a b _ _ hab hba
  exact absurd (String.lt_trans hab hba) (String.lt_irrefl _)

end Formation.IsExpandable

/-! ### The jobs of a formation -/

namespace Job

/-- The order of jobs: by process type, and within one process type by instance. It is strict, so
jobs in this order are distinct. -/
def Before (a b : Job) : Prop :=
  ∃ s t m n, a.type = .text s ∧ b.type = .text t ∧ a.ordinal = .int m ∧ b.ordinal = .int n ∧
    (s < t ∨ s = t ∧ m < n)

/-- The jobs of a formation in a version of an application: how many they are, which they are, in
which order they stand, and that each has a name of its own. -/
structure IsExpansion (app : String) (version : Int) (environment : Environment) (image : Image)
    (formation : Formation) (jobs : List Job) : Prop where
  length_eq : jobs.length = (formation.map fun entry => entry.2.instances).sum
  mem_iff : ∀ job, job ∈ jobs ↔ ∃ entry ∈ formation, ∃ n, 1 ≤ n ∧ n ≤ entry.2.instances ∧
    job = ⟨.text app, .int version, entry.1, .int n, .ofFields environment, image, entry.2.command⟩
  ascending : jobs.Pairwise Before
  /-- Every instance whose number can be written has its name. -/
  named : ∀ job ∈ jobs, ∀ type n, job.type = .text type → job.ordinal = .int n →
    Numeral.Writable n = true → job.name? = .ok (JobName.mk app version type n).text
  distinct : jobs.Pairwise fun a b => ∀ name, a.name? = .ok name → b.name? ≠ .ok name

/-- A job that is before another one has another name. -/
theorem Before.name?_ne {a b : Job} (h : a.Before b) (name : String) (ha : a.name? = .ok name) :
    b.name? ≠ .ok name := by
  intro hb
  obtain ⟨s, t, m, n, hs, ht, hm, hn, hlt⟩ := h
  -- One name for both would mean the same process type and the same instance.
  obtain ⟨-, -, htype, hordinal⟩ := JobName.fields_of_text? ha hb
  rw [hs, ht] at htype
  rw [hm, hn] at hordinal
  obtain rfl := Value.text.inj htype
  obtain rfl := Value.int.inj hordinal
  rcases hlt with hlt | ⟨-, hlt⟩
  · exact String.lt_irrefl _ hlt
  · exact Int.lt_irrefl _ hlt

namespace Template

variable {template : Template} {entries : Formation}

/-- **Expanding collects the jobs of the entries.** By induction on the entries; only a quantity
that is no count could end it early. -/
theorem expand_eq_flatMap (h : ∀ entry ∈ entries, ∃ count, entry.2.quantity.count? = .ok count) :
    template.expand entries = .ok (entries.flatMap fun entry =>
      template.jobs entry.1 entry.2.command entry.2.instances) := by
  induction entries with
  | nil => rfl
  | cons entry rest ih =>
    obtain ⟨type, process⟩ := entry
    obtain ⟨⟨count, hcount⟩, hrest⟩ := List.forall_mem_cons.mp h
    have hinstances : process.instances = count := by
      rw [ProcessType.instances, hcount]
      rfl
    -- The first entry contributes its instances, and the others theirs by induction.
    rw [expand, hcount, ih hrest, List.flatMap_cons, hinstances]
    rfl

/-- The instances of a process type are counted from one. -/
theorem mem_jobs {type command : Value} {count : Nat} {job : Job} :
    job ∈ template.jobs type command count ↔
      ∃ n, 1 ≤ n ∧ n ≤ count ∧ job = template.job type command n := by
  rw [jobs, List.mem_map]
  constructor
  · rintro ⟨n, hn, rfl⟩
    exact ⟨n + 1, Nat.le_add_left 1 n, List.mem_range.mp hn, rfl⟩
  · rintro ⟨n, hpos, hle, rfl⟩
    refine ⟨n - 1, List.mem_range.mpr (by omega), ?_⟩
    rw [Nat.sub_add_cancel hpos]

theorem ascending_jobs (type : String) (command : Value) (count : Nat) :
    (template.jobs (.text type) command count).Pairwise Before := by
  refine List.pairwise_map.mpr (List.pairwise_lt_range.imp fun {m n} hlt => ?_)
  exact ⟨type, type, _, _, rfl, rfl, rfl, rfl, .inr ⟨rfl, by omega⟩⟩

/-- Entries in ascending order give jobs in ascending order. -/
theorem ascending_flatMap (template : Template)
    (htypes : ∀ entry ∈ entries, ∃ type, entry.1 = .text type)
    (hsorted : entries.Pairwise fun a b => a.1.shown < b.1.shown) :
    (entries.flatMap fun entry =>
      template.jobs entry.1 entry.2.command entry.2.instances).Pairwise Before := by
  -- Within an entry the instances ascend, and between two entries the process types do.
  refine List.pairwise_flatMap.mpr ⟨fun entry hmem => ?_, ?_⟩
  · obtain ⟨type, htype⟩ := htypes entry hmem
    rw [htype]
    exact ascending_jobs type _ _
  · refine hsorted.imp_of_mem fun {a b} ha hb hlt job hjob other hother => ?_
    obtain ⟨m, -, -, rfl⟩ := mem_jobs.mp hjob
    obtain ⟨n, -, -, rfl⟩ := mem_jobs.mp hother
    obtain ⟨s, hs⟩ := htypes a ha
    obtain ⟨t, ht⟩ := htypes b hb
    rw [hs, ht] at hlt
    exact ⟨s, t, m, n, hs, ht, rfl, rfl, .inl hlt⟩

end Template

/-- The name of an instance whose number can be written. -/
theorem name?_of_writable {app type : String} {version n : Int} (happ : isFieldName app = true)
    (htype : isFieldName type = true) (hversion : Numeral.Writable version = true)
    (hn : Numeral.Writable n = true) {job : Job} (hjobApp : job.app = .text app)
    (hjobVersion : job.version = .int version) (hjobType : job.type = .text type)
    (hjobOrdinal : job.ordinal = .int n) :
    job.name? = .ok (JobName.mk app version type n).text := by
  have hvalid : (JobName.mk app version type n).IsValid := ⟨happ, htype⟩
  have hwritable : (JobName.mk app version type n).writable = true :=
    Bool.and_eq_true_iff.mpr ⟨hversion, hn⟩
  rw [name?, hjobApp, hjobVersion, hjobType, hjobOrdinal]
  exact JobName.text?_of_isValid hvalid hwritable

/-- **A formation that can be expanded is, and the jobs are those of its instances.** It brings
together what was said of the entries, their order and their environment. -/
theorem isExpansion_expand {app : String} {version : Int} {formation : Formation}
    (happ : isFieldName app = true) (hversion : Numeral.Writable version = true)
    (h : formation.IsExpandable) (environment : Environment) (image : Image) :
    ∃ jobs, Template.expand ⟨.text app, .int version, environment, image⟩
        (Value.sortedEntries formation) = .ok jobs ∧
      IsExpansion app version environment image formation jobs := by
  have hsame := Value.mem_sortedEntries formation
  have hperm := Value.perm_sortedEntries formation
  have hcounted : ∀ entry ∈ Value.sortedEntries formation,
      ∃ count, entry.2.quantity.count? = .ok count := fun entry hmem =>
    h.counted entry ((hsame entry).mp hmem)
  have hascending := Template.ascending_flatMap ⟨.text app, .int version, environment, image⟩
    (fun entry hmem => h.texts entry ((hsame entry).mp hmem)) h.sorted
  -- All parts are about the jobs in the order of the arrangement; that it holds the same entries as
  -- the formation brings them back to it.
  refine ⟨_, Template.expand_eq_flatMap hcounted, ⟨?_, fun job => ?_, hascending, ?_, ?_⟩⟩
  · calc (List.flatMap _ (Value.sortedEntries formation)).length
        = ((Value.sortedEntries formation).map fun entry => entry.2.instances).sum := by
          rw [List.length_flatMap]
          simp only [Template.jobs, List.length_map, List.length_range]
      -- a sum does not see the order
      _ = (formation.map fun entry => entry.2.instances).sum := (hperm.map _).sum_nat
  · simp only [List.mem_flatMap, hsame, Template.mem_jobs]
    rfl
  · intro job hmem type n htype hordinal hn
    obtain ⟨entry, hentry, hjob⟩ := List.mem_flatMap.mp hmem
    obtain ⟨m, -, -, rfl⟩ := Template.mem_jobs.mp hjob
    obtain ⟨kind, hkind, hfield⟩ := h.types entry ((hsame entry).mp hentry)
    obtain rfl : kind = type := Value.text.inj (hkind.symm.trans htype)
    exact name?_of_writable happ hfield hversion hn rfl rfl htype hordinal
  · exact hascending.imp Before.name?_ne

/-- **Formation expansion.** The jobs of a formation are told by its entries: which they are, how
many, under which names and in which order; and in which order the entries came makes no
difference. -/
theorem expand_determined {app : String} {version : Int} {vars : List (Value × Value)}
    {formation : Formation} (image : Image) (happ : isFieldName app = true)
    (hversion : Numeral.Writable version = true)
    (hvars : ∀ entry ∈ vars, entry.1.writable = true ∧ entry.2.writable = true)
    (hformation : formation.IsExpandable) :
    ∃ environment jobs, Environment.IsOf vars environment ∧
      expand (.text app) (.int version) image vars formation = .ok jobs ∧
      IsExpansion app version environment image formation jobs ∧
      ∀ other : Formation, other.Perm formation →
        expand (.text app) (.int version) image vars other = .ok jobs := by
  obtain ⟨environment, henvironment⟩ := Environment.exists_isOf hvars
  obtain ⟨jobs, hjobs, hexpansion⟩ :=
    isExpansion_expand happ hversion hformation environment image
  -- The environment is made of the variables alone, and the arrangement is the same for every order
  -- of the entries.
  have hall : ∀ other : Formation, other.Perm formation →
      expand (.text app) (.int version) image vars other = .ok jobs := by
    intro other hperm
    rw [expand, henvironment.made, (hformation.perm hperm).sorted?_eq,
      hformation.sortedEntries_of_perm hperm]
    exact hjobs
  exact ⟨environment, jobs, henvironment, hall formation (.refl _), hexpansion, hall⟩

/-- Process types out of order, one of them without instances. -/
def unsorted : Formation :=
  [(.text "web", ⟨.text "web", .text "./run", .whole 2, .text "app"⟩),
    (.text "clock", ⟨.text "clock", .text "./tick", .whole 0, .text "app"⟩),
    (.text "Worker", ⟨.text "Worker", .text "./work", .flag true, .text ""⟩)]

/-- Variables two of which are written alike. -/
def clashing : List (Value × Value) :=
  [(.int 1, .text "first"), (.text "HOST", .none), (.text "1", .bool false)]

/-- **Capitals come first**, process types without instances are passed over, and of two variables
that are written alike the last one counts. -/
theorem expand_unsorted :
    ∃ environment jobs, Environment.IsOf clashing environment ∧
      environment = [("1", "False"), ("HOST", "None")] ∧
      expand (.text "app") (.int (-3)) ⟨.text "repo", .text "v3"⟩ clashing unsorted.reverse =
        .ok jobs ∧
      IsExpansion "app" (-3) environment ⟨.text "repo", .text "v3"⟩ unsorted jobs ∧
      jobs.map label = ["app.-3.Worker.1", "app.-3.web.1", "app.-3.web.2"] := by
  have hformation : unsorted.IsExpandable := by
    refine ⟨?_, by simp [unsorted], ?_⟩ <;> simp only [unsorted, List.forall_mem_cons]
    · exact ⟨⟨_, rfl, by decide⟩, ⟨_, rfl, by decide⟩, ⟨_, rfl, by decide⟩, fun _ h => nomatch h⟩
    · exact ⟨⟨_, rfl⟩, ⟨_, rfl⟩, ⟨_, rfl⟩, fun _ h => nomatch h⟩
  have hvars : ∀ entry ∈ clashing, entry.1.writable = true ∧ entry.2.writable = true := by
    decide +kernel
  obtain ⟨environment, jobs, henvironment, hexpand, hexpansion, hany⟩ :=
    expand_determined ⟨.text "repo", .text "v3"⟩ (by decide : isFieldName "app" = true)
      (by decide +kernel : Numeral.Writable (-3) = true) hvars hformation
  refine ⟨environment, jobs, henvironment, ?_, hany _ (List.reverse_perm _), hexpansion, ?_⟩
  · exact Except.ok.inj (henvironment.made.symm.trans (eq_ok_of_toOption (by decide +kernel)))
  · have hlabels : (expand (.text "app") (.int (-3)) ⟨.text "repo", .text "v3"⟩ clashing
        unsorted).toOption.map (fun jobs => jobs.map label) =
          some ["app.-3.Worker.1", "app.-3.web.1", "app.-3.web.2"] := by decide +kernel
    rw [hexpand] at hlabels
    exact Option.some.inj hlabels

end Job

end Rollout
