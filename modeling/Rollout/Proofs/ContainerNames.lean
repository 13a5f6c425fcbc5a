import Rollout.Proofs.DaemonTalk

/-!
# Names at the gate of the daemon

A job is only started under a name that the daemon takes (`Daemon.TakesName`) and that is a job
name. The adapter checks both before it says anything, with two recognisers of its own: one for
container names, and the lenient reader of job names.

Each recogniser lets a line end at the very end pass: the first drops it
(`Adapter.isContainerName_iff`), and the second reads the last field between blanks. So one line
end behind a name that the daemon takes passes both, and the daemon is asked to run a container
under a name that it does not take.

* `Adapter.Passes`: the names that pass both recognisers.
* `Adapter.schedule_reaches_iff`: exactly these get as far as the daemon's `run`, if the daemon has
  a client and a network to give; with any other one nothing is said and the job is rejected.
* `Adapter.passes_iff`: they are the names that the gate is meant for, and those with a line end
  behind them.
-/

namespace Rollout

namespace Daemon

/-- A letter or a digit of ASCII. -/
def IsLetterOrDigit (c : Char) : Prop :=
  ('A' ≤ c ∧ c ≤ 'Z') ∨ ('a' ≤ c ∧ c ≤ 'z') ∨ ('0' ≤ c ∧ c ≤ '9')

instance (c : Char) : Decidable (IsLetterOrDigit c) :=
  inferInstanceAs (Decidable (('A' ≤ c ∧ c ≤ 'Z') ∨ ('a' ≤ c ∧ c ≤ 'z') ∨ ('0' ≤ c ∧ c ≤ '9')))

/-- What the daemon takes as the name of a container. It is stated by the characters, apart from the
way in which the adapter tests it, so that the two can be compared. -/
structure TakesName (name : List Char) : Prop where
  chars : ∀ c ∈ name, IsLetterOrDigit c ∨ c = '_' ∨ c = '.' ∨ c = '-'
  first : ∀ c ∈ name.head?, IsLetterOrDigit c
  length : 2 ≤ name.length

theorem TakesName.not_mem_lineEnd {name : List Char} (h : TakesName name) : '\n' ∉ name :=
  fun hmem => absurd (h.chars '\n' hmem) (by decide)

end Daemon

namespace Adapter

/-! ### The two recognisers -/

theorem isAlphanumeric_iff {c : Char} : isAlphanumeric c = true ↔ Daemon.IsLetterOrDigit c := by
  have hupper : c.isUpper = true ↔ 'A' ≤ c ∧ c ≤ 'Z' := decide_eq_true_iff
  have hlower : c.isLower = true ↔ 'a' ≤ c ∧ c ≤ 'z' :=
    Bool.and_eq_true_iff.trans (and_congr decide_eq_true_iff decide_eq_true_iff)
  have hdigit : c.isDigit = true ↔ '0' ≤ c ∧ c ≤ '9' :=
    Bool.and_eq_true_iff.trans (and_congr decide_eq_true_iff decide_eq_true_iff)
  have hletter : c.isAlpha = true ↔ c.isUpper = true ∨ c.isLower = true := Bool.or_eq_true_iff
  have hany : isAlphanumeric c = true ↔ c.isAlpha = true ∨ c.isDigit = true := Bool.or_eq_true_iff
  -- All that is left is to put the three ranges into one order.
  rw [hany, hletter, hupper, hlower, hdigit, or_assoc, Daemon.IsLetterOrDigit]

theorem isNameChar_iff {c : Char} :
    isNameChar c = true ↔ Daemon.IsLetterOrDigit c ∨ c = '_' ∨ c = '.' ∨ c = '-' := by
  simp only [isNameChar, Bool.or_eq_true, decide_eq_true_eq, isAlphanumeric_iff, or_assoc]

/-- Only a line end is dropped. -/
theorem dropLineEnd_cases (s : List Char) :
    (dropLineEnd s = s ∧ s.getLast? ≠ some '\n') ∨ s = dropLineEnd s ++ ['\n'] := by
  rw [dropLineEnd]
  -- A line end is the last character, or it is none of our business.
  split
  · next hlast =>
    obtain ⟨front, rfl⟩ := List.getLast?_eq_some_iff.mp hlast
    rw [List.dropLast_concat]
    exact .inr rfl
  · next hlast => exact .inl ⟨rfl, hlast⟩

/-- **What passes as a container name**, less a line end at its very end. -/
theorem isContainerName_iff_dropLineEnd {name : String} :
    isContainerName name = true ↔ Daemon.TakesName (dropLineEnd name.toList) := by
  rw [isContainerName]
  split
  · -- the pattern takes one alphanumeric character, and at least one more of the others
    next first rest hname =>
    rw [hname, Bool.and_eq_true, Bool.and_eq_true, Bool.not_eq_true', List.isEmpty_eq_false_iff,
      isAlphanumeric_iff, List.all_eq_true]
    constructor
    · rintro ⟨⟨hfirst, hrest⟩, hchars⟩
      refine ⟨fun c hc => ?_, fun c hc => ?_, ?_⟩
      · rcases List.mem_cons.mp hc with rfl | hc
        · exact .inl hfirst
        · exact isNameChar_iff.mp (hchars c hc)
      · obtain rfl := Option.some.inj hc
        exact hfirst
      · have := List.length_pos_iff.mpr hrest
        rw [List.length_cons]
        omega
    · rintro ⟨hchars, hfirst, hlength⟩
      refine ⟨⟨hfirst first rfl, ?_⟩, fun c hc => ?_⟩
      · rintro rfl
        exact Nat.not_succ_le_self 1 hlength
      · exact isNameChar_iff.mpr (hchars c (List.mem_cons_of_mem first hc))
  · -- nothing is left but perhaps a line end, and a container has a longer name
    next hname =>
    rw [hname]
    simp only [Bool.false_eq_true, false_iff]
    exact fun htakes => absurd htakes.length (by decide)

/-- **One line end is let pass** behind a name that the daemon takes. -/
theorem isContainerName_iff {name : String} :
    isContainerName name = true ↔
      Daemon.TakesName name.toList ∨
        ∃ front, name.toList = front ++ ['\n'] ∧ Daemon.TakesName front := by
  rw [isContainerName_iff_dropLineEnd]
  rcases dropLineEnd_cases name.toList with ⟨hkept, hlast⟩ | hdropped
  · -- no line end is dropped, so the name does not end in one
    rw [hkept]
    refine ⟨.inl, ?_⟩
    rintro (htakes | ⟨front, hfront, -⟩)
    · exact htakes
    · rw [hfront, List.getLast?_concat] at hlast
      exact absurd rfl hlast
  · -- one is dropped, and then the name as it stands is none for the daemon
    constructor
    · exact fun htakes => .inr ⟨_, hdropped, htakes⟩
    · rintro (htakes | ⟨front, hfront, htakes⟩)
      · refine absurd ?_ htakes.not_mem_lineEnd
        rw [hdropped]
        exact List.mem_append_right _ List.mem_cons_self
      · obtain rfl := List.append_cancel_right (hdropped.symm.trans hfront)
        exact htakes

/-- The names that the adapter asks the daemon to run a container under. -/
def Passes (name : String) : Prop :=
  isContainerName name = true ∧ ∃ fields, JobName.parse name = .ok fields

/-- The names that the gate is meant for: the daemon takes them, and they are job names. It is what
the comment on the pattern promises. -/
def IsProper (name : String) : Prop :=
  Daemon.TakesName name.toList ∧ ∃ fields, JobName.parse name = .ok fields

/-- A job name with a line end behind a name that the daemon takes. The line end is blank, so the
last number is read all the same. -/
def HasLineEnd (name : String) : Prop :=
  ∃ front, name.toList = front ++ ['\n'] ∧ Daemon.TakesName front ∧
    ∃ fields, JobName.parse name = .ok fields

/-- **Besides the names that it is meant for, the gate lets those with a line end pass.** -/
theorem passes_iff {name : String} : Passes name ↔ IsProper name ∨ HasLineEnd name := by
  rw [Passes, isContainerName_iff]
  constructor
  · rintro ⟨htakes | ⟨front, hfront, htakes⟩, hparse⟩
    · exact .inl ⟨htakes, hparse⟩
    · exact .inr ⟨front, hfront, htakes, hparse⟩
  · rintro (⟨htakes, hparse⟩ | ⟨front, hfront, htakes, hparse⟩)
    · exact ⟨.inl htakes, hparse⟩
    · exact ⟨.inr ⟨front, hfront, htakes⟩, hparse⟩

/-- The rejection of a name. -/
def refusal (name : String) : Failure :=
  .rejected (if isContainerName name then .notJobName name else .badContainerName name)

/-- A name that passes both recognisers is labelled, and any other one is rejected. -/
theorem labels?_cases (name : String) :
    (Passes name ∧ ∃ labels, labels? name = .ok labels) ∨
      ¬Passes name ∧ labels? name = .error (refusal name) := by
  rw [labels?, refusal]
  -- The two recognisers are applied one after the other, and either one may reject.
  cases hname : isContainerName name with
  | false => exact .inr ⟨fun h => Bool.false_ne_true (hname.symm.trans h.1), rfl⟩
  | true =>
    cases hparse : JobName.parse name with
    | ok fields => exact .inl ⟨⟨hname, fields, hparse⟩, _, rfl⟩
    | error failure =>
      refine .inr ⟨?_, rfl⟩
      rintro ⟨-, fields, hfields⟩
      cases hparse.symm.trans hfields

/-! ### On a daemon that has a client and a network to give -/

/-- What is said about clients and networks goes well. A network may be missing, if it is made. -/
def isServed : Exchange Daemon.Service → Bool
  | ⟨.connect, answer⟩ => answer.toOption.isSome
  | ⟨.findNetwork _, .ok ()⟩ => true
  | ⟨.findNetwork _, .error cause⟩ => cause.kind = .daemonMissing
  | ⟨.makeNetwork _, answer⟩ => answer.toOption.isSome
  | _ => true

section Served

variable {adapter after : Adapter} {said : Talk} {result : Except Failure Unit}

theorem Connects.eq_ok (h : Connects adapter said result after)
    (hserved : ∀ exchange ∈ said, isServed exchange = true) : result = .ok () := by
  cases h with
  | there _ | taken _ => rfl
  | refused _ cause => cases hserved _ List.mem_cons_self

/-- There is a network then. -/
theorem Prepares.eq_ok (h : Prepares adapter said result after)
    (hserved : ∀ exchange ∈ said, isServed exchange = true) : result = .ok () := by
  -- Of the six ways three succeed; each of the others had something said that did not go well.
  cases h with
  | there _ | found _ _ | made _ _ _ _ => rfl
  | unconnected _ hconnect => exact hconnect.eq_ok hserved
  | unsearched _ _ cause hcause =>
    have hmissing := hserved _ (List.mem_append_right _ List.mem_cons_self)
    exact absurd (decide_eq_true_eq.mp hmissing) hcause
  | unmade _ _ _ _ failure =>
    cases hserved ⟨.makeNetwork adapter.network, .error failure⟩
      (List.mem_append_right _ (List.mem_cons_of_mem _ List.mem_cons_self))

/-- **A container is asked for then.** -/
theorem Starts.asks_run {definition : Definition} (h : Starts adapter definition said result after)
    (hready : IsReady definition) (hserved : ∀ exchange ∈ said, isServed exchange = true) :
    ∃ spec answer, ⟨.run spec, answer⟩ ∈ said := by
  -- With client and network there is nothing left that could come before the container.
  cases h with
  | unprepared hprepare => cases hprepare.eq_ok hserved
  | unready _ hunready _ => exact absurd hready hunready
  | run _ spec _ _ => exact ⟨spec, result, List.mem_append_right _ List.mem_cons_self⟩

end Served

/-! ### The gate -/

section Gate

variable {definition : Definition} {adapter after : Adapter} {said : Talk}
  {result : Except Failure Unit}

/-- With a name that passes a container is asked for. -/
theorem asks_run_of_passes (hready : IsReady definition)
    (hcoherent : adapter.networkReady = true → adapter.connected = true)
    (h : (schedule definition).Tells adapter said result after) (hpasses : Passes definition.name)
    (hserved : ∀ exchange ∈ said, isServed exchange = true) :
    ∃ spec answer, ⟨.run spec, answer⟩ ∈ said := by
  rcases labels?_cases definition.name with ⟨-, labels, hlabels⟩ | ⟨hother, -⟩
  · obtain ⟨inner, hstarts, -⟩ := schedule_tells h hlabels hcoherent
    exact hstarts.asks_run hready hserved
  · exact absurd hpasses hother

/-- With any other name the job is rejected, and nothing is said. -/
theorem rejects_of_not_passes (h : (schedule definition).Tells adapter said result after)
    (hother : ¬Passes definition.name) :
    said = [] ∧ result = .error (refusal definition.name) ∧ after = adapter := by
  rcases labels?_cases definition.name with ⟨hpasses, -⟩ | ⟨-, hlabels⟩
  · exact absurd hpasses hother
  · exact schedule_tells_of_labels?_eq_error h hlabels

/-- **A job gets as far as the daemon exactly if its name passes.** If clients and networks are to
be had, a container is asked for if and only if the name passes both recognisers; these are the
names that the daemon takes and that are job names, and further those with one line end behind them.
With any other name the job is rejected, and nothing at all is said to the daemon. -/
theorem schedule_reaches_iff (hready : IsReady definition)
    (hcoherent : adapter.networkReady = true → adapter.connected = true)
    (h : (schedule definition).Tells adapter said result after) :
    ((∀ exchange ∈ said, isServed exchange = true) →
      ((∃ spec answer, ⟨.run spec, answer⟩ ∈ said) ↔
        IsProper definition.name ∨ HasLineEnd definition.name)) ∧
    (¬(IsProper definition.name ∨ HasLineEnd definition.name) →
      said = [] ∧ result = .error (refusal definition.name) ∧ after = adapter) := by
  rw [← passes_iff]
  refine ⟨fun hserved => ⟨fun hreached => ?_, fun hpasses => ?_⟩, rejects_of_not_passes h⟩
  -- Without a name that passes nothing is said, so no container can have been asked for.
  · by_contra hother
    obtain ⟨spec, answer, hmem⟩ := hreached
    rw [(rejects_of_not_passes h hother).1] at hmem
    cases hmem
  · exact asks_run_of_passes hready hcoherent h hpasses hserved

/-- A job under a name. -/
def jobNamed (name : String) : Definition :=
  ⟨name, .text "./run", ⟨.text "repo", .text "v3"⟩, .ofFields []⟩

theorem isReady_jobNamed (name : String) : IsReady (jobNamed name) := ⟨⟨_, _, rfl⟩, ⟨_, rfl⟩⟩

/-- An adapter that was not used yet. -/
def unused : Adapter := ⟨false, .text "relman", false⟩

/-- What an unused adapter says to a daemon without containers and networks, to start a job. -/
def firstTalk (name : String) : Talk :=
  ((schedule (jobNamed name)).run.run unused).conversation Daemon.answer ⟨[], [], .dict []⟩

/-- **A proper name is let pass, and one of three fields is not.** -/
theorem schedule_reaches_web :
    (∃ spec answer, ⟨.run spec, answer⟩ ∈ firstTalk "web.3.web.1") ∧
      firstTalk "web.3.web" = [] := by
  have htold (name : String) := schedule_reaches_iff (isReady_jobNamed name) (by decide)
    (Act.tells_perform Daemon.answer (schedule (jobNamed name)) unused ⟨[], [], .dict []⟩)
  have hkept : dropLineEnd "web.3.web.1".toList = "web.3.web.1".toList := by decide +kernel
  -- The pattern is tested by running it; that it is a name for the daemon follows.
  have htakes : Daemon.TakesName "web.3.web.1".toList :=
    hkept ▸ isContainerName_iff_dropLineEnd.mp (by decide +kernel)
  have hproper : IsProper "web.3.web.1" :=
    ⟨htakes, ⟨"web", 3, "web", 1⟩, eq_ok_of_toOption (by decide +kernel)⟩
  have hserved : ∀ exchange ∈ firstTalk "web.3.web.1", isServed exchange = true :=
    List.all_eq_true.mp (by decide +kernel)
  have hnone : ∀ fields, JobName.parse "web.3.web" ≠ .ok fields := by
    intro fields hfields
    have hread : (JobName.parse "web.3.web").toOption = none := by decide +kernel
    rw [hfields] at hread
    cases hread
  have hother : ¬(IsProper "web.3.web" ∨ HasLineEnd "web.3.web") := by
    rintro (⟨-, fields, hfields⟩ | ⟨-, -, -, fields, hfields⟩) <;> exact hnone fields hfields
  exact ⟨((htold _).1 hserved).mpr (.inl hproper), ((htold _).2 hother).1⟩

/-- **A name with a line end gets as far as the daemon**, which does not take it. -/
theorem not_only_proper :
    ¬∀ said result after, (schedule (jobNamed "web.3.web.1\n")).Tells unused said result after →
      (∀ exchange ∈ said, isServed exchange = true) →
      ((∃ spec answer, ⟨.run spec, answer⟩ ∈ said) ↔ IsProper "web.3.web.1\n") := by
  intro hclaimed
  have htells := Act.tells_perform Daemon.answer (schedule (jobNamed "web.3.web.1\n")) unused
    ⟨[], [], .dict []⟩
  have hserved : ∀ exchange ∈ firstTalk "web.3.web.1\n", isServed exchange = true :=
    List.all_eq_true.mp (by decide +kernel)
  have hpasses : Passes "web.3.web.1\n" :=
    ⟨by decide +kernel, ⟨"web", 3, "web", 1⟩, eq_ok_of_toOption (by decide +kernel)⟩
  -- The gate lets the name pass, and so the daemon is asked for a container.
  have hreached := asks_run_of_passes (isReady_jobNamed _) (by decide) htells hpasses hserved
  have hproper := (hclaimed _ _ _ htells hserved).mp hreached
  exact hproper.1.not_mem_lineEnd (by decide)

end Gate

end Adapter

end Rollout
