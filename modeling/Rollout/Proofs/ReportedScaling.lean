import Rollout.Proofs.Reporting

/-!
# What scaling reports

A request is worked off entry by entry, and every process type that its loop brings to another
quantity is reported, before the new quantity is written down. So what the log is told has to be
read off the conversation of each loop:

* `Scale.RunsThrough` says what is said in a loop that comes to its end: each missing instance is
  scheduled and tracked, or each superfluous one is taken from the scheduler and from the store;
* `Scale.leads_adjust_iff`: a loop comes to its end if and only if that is said;
* `Scale.tells_scaleTypes`: what a whole request tells the log (`Scale.Tells`).

That the event can be worded at all, though its numbers may have any number of digits, is because
the higher one of them is in the name of a job by then (`Scale.RunsThrough.writable`).
-/

namespace Rollout

open Plan (Leads leads_done_iff leads_call_iff leads_bind_iff leads_work_bind_iff)

variable {allowed : Event → Prop} {blueprint : Blueprint} {exchanges : List Said}

/-! ### Quantities -/

namespace Quantity

variable {quantity : Quantity} {current : Nat}

/-- What can be counted up to can be compared, and the comparison is that of the numbers. -/
theorem compare?_of_count? (h : quantity.count? = .ok current) (n : Nat) :
    quantity.compare? n = some (compare current n) := by
  cases quantity with
  | whole m =>
    obtain rfl := Except.ok.inj h
    rfl
  | flag b =>
    obtain rfl := Except.ok.inj h
    rfl
  | real x => cases h

/-- What can be counted up to can be shown, unless it has too many digits. -/
theorem exists_shown (h : quantity.count? = .ok current) (hwritable : Numeral.Writable current) :
    ∃ shown, quantity.toValue.shown? = .ok shown := by
  -- A flag counts as zero or one and is shown as a word, so only whole numbers can be too long.
  cases quantity with
  | whole m =>
    obtain rfl := Except.ok.inj h
    exact ⟨_, if_pos hwritable⟩
  | flag b => exact ⟨_, rfl⟩
  | real x => cases h

end Quantity

/-! ### Loops -/

namespace Scale

variable {release : Release} {tracked : List (String × Job)} {type : String}
  {process : ProcessType} {current target : Nat} {ordinals : List Nat}

/-- What is said when instances are withdrawn, one after the other: each is tracked under its name,
and is taken from the scheduler and from the store. -/
inductive Withdrawn (release : Release) (tracked : List (String × Job)) (type : String) :
    List Nat → List Said → Prop where
  | nil : Withdrawn release tracked type [] []
  | cons {ordinal : Nat} {rest : List Nat} {name own : String} {job : Job} {exchanges : List Said}
      (hname : JobName.text? release.app release.version (.text type) (.int ordinal) = .ok name)
      (hjob : find? tracked name = some job) (hown : job.name? = .ok own)
      (hrest : Withdrawn release tracked type rest exchanges) :
    Withdrawn release tracked type (ordinal :: rest)
      (⟨.unschedule (.text own), .ok ()⟩ :: ⟨.remove job, .ok ()⟩ :: exchanges)

theorem leads_withdrawOrdinal_iff {ordinal : Nat} :
    Leads (withdrawOrdinal release tracked type ordinal).attempt exchanges (.done (.ok ())) ↔
      ∃ name job own,
        JobName.text? release.app release.version (.text type) (.int ordinal) = .ok name ∧
        find? tracked name = some job ∧ job.name? = .ok own ∧
        exchanges = [⟨.unschedule (.text own), .ok ()⟩, ⟨.remove job, .ok ()⟩] := by
  -- The name has to be made, and then its job has to be among the tracked ones.
  rw [withdrawOrdinal, Work.leads_ofExcept_bind_iff]
  constructor
  · rintro (⟨name, hname, h⟩ | ⟨_, -, -, heq⟩)
    · cases hjob : find? tracked name with
      | none =>
        rw [hjob] at h
        cases (leads_done_iff.mp h).2
      | some job =>
        rw [hjob] at h
        obtain ⟨own, hown, heq⟩ := Placement.leads_withdraw_iff.mp h
        exact ⟨name, job, own, hname, hjob, hown, heq⟩
    · cases heq
  · rintro ⟨name, job, own, hname, hjob, hown, heq⟩
    refine .inl ⟨name, hname, ?_⟩
    rw [hjob]
    exact Placement.leads_withdraw_iff.mpr ⟨own, hown, heq⟩

/-- **All instances above a target are withdrawn if each of them is**, and only then. -/
theorem leads_withdrawAbove_iff {count : Nat} :
    Leads (withdrawAbove release tracked type target count).attempt exchanges (.done (.ok ())) ↔
      Withdrawn release tracked type (ordinalsAbove target count) exchanges := by
  -- On the number of instances, of which the highest is the first to go.
  induction count generalizing exchanges with
  | zero =>
    constructor
    · intro h
      obtain ⟨rfl, -⟩ := leads_done_iff.mp h
      exact .nil
    · intro h
      cases h
      exact .here
  | succ count ih =>
    rw [withdrawAbove, leads_work_bind_iff]
    constructor
    · -- the first part is the highest instance, and the rest are those below it
      rintro (⟨_, first, second, hfirst, hsecond, rfl⟩ | ⟨_, -, heq⟩)
      · obtain ⟨name, job, own, hname, hjob, hown, rfl⟩ := leads_withdrawOrdinal_iff.mp hfirst
        exact .cons hname hjob hown (ih.mp hsecond)
      · cases heq
    · intro h
      cases h with
      | cons hname hjob hown hrest =>
        exact .inl ⟨(), _, _, leads_withdrawOrdinal_iff.mpr ⟨_, _, _, hname, hjob, hown, rfl⟩,
          ih.mpr hrest, rfl⟩

/-- The loop over the instances of a process type came to its end, upward or downward. A loop
downward asks for the tracked jobs first, and so has one exchange more. -/
inductive RunsThrough (blueprint : Blueprint) (type : String) (process : ProcessType)
    (target : Nat) : List Said → Prop where
  /-- All instances after the current quantity were placed, up to the target. -/
  | up {environment : Environment} {current : Nat} {exchanges : List Said}
      (henvironment : Environment.ofVars blueprint.vars = .ok environment)
      (hcurrent : process.quantity.count? = .ok current) (hless : current < target)
      (hplaced : Placement.Placed ((blueprint.template environment).instances (.text type)
        process.command (current + 1) (target - current)) exchanges) :
    RunsThrough blueprint type process target exchanges
  /-- All instances after the target were withdrawn, from the current quantity on. -/
  | down {jobs : List Job} {tracked : List (String × Job)} {current : Nat} {exchanges : List Said}
      (hcurrent : process.quantity.count? = .ok current) (hmore : target < current)
      (htracked : byName jobs = .ok tracked)
      (hwithdrawn : Withdrawn blueprint.release tracked type
        (ordinalsAbove target (current - target)) exchanges) :
    RunsThrough blueprint type process target
      (⟨.list blueprint.release.app, .ok jobs⟩ :: exchanges)

theorem leads_growTo_iff (hcurrent : process.quantity.count? = .ok current) :
    Leads (growTo blueprint type process target).attempt exchanges (.done (.ok ())) ↔
      ∃ environment, Environment.ofVars blueprint.vars = .ok environment ∧
        Placement.Placed ((blueprint.template environment).instances (.text type)
          process.command (current + 1) (target - current)) exchanges := by
  rw [growTo, Work.leads_ofExcept_bind_iff, hcurrent]
  simp only [Work.leads_ofExcept_bind_iff, placeFrom_eq_placeAll, Placement.leads_placeAll_iff]
  -- Of the ways to go wrong before the first call none ends well.
  constructor
  · rintro (⟨environment, henvironment, ⟨_, ⟨⟩, h⟩ | ⟨_, heq, -⟩⟩ | ⟨_, -, -, heq⟩)
    · exact ⟨environment, henvironment, h⟩
    · cases heq
    · cases heq
  · rintro ⟨environment, henvironment, h⟩
    exact .inl ⟨environment, henvironment, .inl ⟨_, rfl, h⟩⟩

theorem leads_shrinkTo_iff (hcurrent : process.quantity.count? = .ok current) :
    Leads (shrinkTo release type process target).attempt exchanges (.done (.ok ())) ↔
      ∃ jobs tracked later, byName jobs = .ok tracked ∧
        exchanges = ⟨.list release.app, .ok jobs⟩ :: later ∧
        Withdrawn release tracked type (ordinalsAbove target (current - target)) later := by
  rw [shrinkTo, leads_work_bind_iff, hcurrent]
  simp only [Action.leads_list_iff, Work.leads_ofExcept_bind_iff, leads_withdrawAbove_iff]
  constructor
  · rintro (⟨jobs, _, later, rfl,
      ⟨tracked, htracked, ⟨_, ⟨⟩, h⟩ | ⟨_, heq, -⟩⟩ | ⟨_, -, -, heq⟩, rfl⟩ | ⟨_, -, heq⟩)
    · exact ⟨jobs, tracked, later, htracked, rfl, h⟩
    · cases heq
    · cases heq
    · cases heq
  · rintro ⟨jobs, tracked, later, htracked, rfl, h⟩
    exact .inl ⟨jobs, _, later, rfl, .inl ⟨tracked, htracked, .inl ⟨_, rfl, h⟩⟩, rfl⟩

/-- **When the loop of a process type comes to its end**, where there is none if the quantity is the
target already. -/
theorem leads_adjust_iff (hcurrent : process.quantity.count? = .ok current) :
    Leads (adjust blueprint type process target).attempt exchanges (.done (.ok ())) ↔
      current = target ∧ exchanges = [] ∨
        RunsThrough blueprint type process target exchanges := by
  have hsame {other : Nat} (hother : process.quantity.count? = .ok other) : other = current :=
    Except.ok.inj (hother.symm.trans hcurrent)
  rw [adjust, Quantity.compare?_of_count? hcurrent]
  -- The comparison decides which loop there is, if there is one.
  rcases lt_trichotomy current target with hless | rfl | hmore
  · rw [compare_lt_iff_lt.mpr hless]
    refine (leads_growTo_iff hcurrent).trans ⟨?_, ?_⟩
    · rintro ⟨environment, henvironment, h⟩
      exact .inr (.up henvironment hcurrent hless h)
    · rintro (⟨rfl, -⟩ | h)
      · exact absurd hless (lt_irrefl _)
      -- the two kinds of loops never have the same start and the same end
      · cases h with
        | up henvironment hother _ h =>
          obtain rfl := hsame hother
          exact ⟨_, henvironment, h⟩
        | down hother hmore =>
          obtain rfl := hsame hother
          exact absurd hless hmore.not_gt
  · rw [compare_eq_iff_eq.mpr rfl]
    constructor
    · intro h
      exact .inl ⟨rfl, (leads_done_iff.mp h).1⟩
    · rintro (⟨-, rfl⟩ | h)
      · exact .here
      · cases h with
        | up _ hother hless => exact absurd (hsame hother ▸ hless) (lt_irrefl _)
        | down hother hmore => exact absurd (hsame hother ▸ hmore) (lt_irrefl _)
  · rw [compare_gt_iff_gt.mpr hmore]
    refine (leads_shrinkTo_iff hcurrent).trans ⟨?_, ?_⟩
    · rintro ⟨jobs, tracked, later, htracked, rfl, h⟩
      exact .inr (.down hcurrent hmore htracked h)
    · rintro (⟨rfl, -⟩ | h)
      · exact absurd hmore (lt_irrefl _)
      · cases h with
        | up _ hother hless =>
          obtain rfl := hsame hother
          exact absurd hless hmore.not_gt
        | down hother _ htracked h =>
          obtain rfl := hsame hother
          exact ⟨_, _, _, htracked, rfl, h⟩

/-- **Both quantities can be written once the loop came to its end**, since the higher one of them
is in the name of a job. This is why the event that reports the change never fails to be worded. -/
theorem RunsThrough.writable (h : RunsThrough blueprint type process target exchanges)
    (hcurrent : process.quantity.count? = .ok current) :
    current ≠ target ∧ Numeral.Writable current ∧ Numeral.Writable target := by
  -- less than a number that can be written can be written
  have hbelow {m n : Nat} (hle : m ≤ n) (hn : Numeral.Writable n = true) :
      Numeral.Writable m = true := by
    rw [Numeral.Writable, decide_eq_true_eq] at hn ⊢
    exact lt_of_le_of_lt hle hn
  have hnamed {app version : Value} {name : String} {n : Nat}
      (hname : JobName.text? app version (.text type) (.int n) = .ok name) :
      Numeral.Writable n = true := by
    obtain ⟨fields, -, hwritable, -, -, -, -, hordinal⟩ := JobName.text?_eq_ok hname
    rw [Value.int.inj hordinal]
    exact (Bool.and_eq_true_iff.mp hwritable).2
  cases h with
  | up _ hother hless hplaced =>
    obtain rfl := Except.ok.inj (hother.symm.trans hcurrent)
    obtain ⟨name, hname⟩ := hplaced.exists_name <| List.mem_map.mpr
      ⟨target, List.mem_range'_1.mpr ⟨hless, by omega⟩, rfl⟩
    exact ⟨hless.ne, hbelow hless.le (hnamed hname), hnamed hname⟩
  | down hother hmore _ hwithdrawn =>
    obtain rfl := Except.ok.inj (hother.symm.trans hcurrent)
    obtain ⟨count, rfl⟩ := Nat.exists_eq_add_of_lt hmore
    rw [show target + count + 1 - target = count + 1 by omega, ordinalsAbove] at hwithdrawn
    cases hwithdrawn with
    | cons hname => exact ⟨hmore.ne', hnamed hname, hbelow hmore.le (hnamed hname)⟩

/-! ### Reports -/

theorem reports_growTo : Action.Reports allowed (growTo blueprint type process target) := by
  refine .bind (.of_ofExcept _) fun _ => .bind (.of_ofExcept _) fun _ => ?_
  rw [placeFrom_eq_placeAll]
  exact Placement.reports_placeAll _

theorem reports_withdrawAbove (release : Release) (tracked : List (String × Job)) (count : Nat) :
    Action.Reports allowed (withdrawAbove release tracked type target count) := by
  -- On the number of instances, none of which is reported by itself.
  induction count with
  | zero => exact .of_pure ()
  | succ count ih =>
    refine .bind (.bind (.of_ofExcept _) fun name => ?_) fun _ => ih
    cases find? tracked name with
    | none => exact .of_throw _
    | some job => exact Placement.reports_withdraw job

/-- Instances are placed and withdrawn without a report. -/
theorem reports_adjust : Action.Reports allowed (adjust blueprint type process target) := by
  rw [adjust]
  split
  · exact reports_growTo
  · exact .bind (.of_list _) fun _ => .bind (.of_ofExcept _) fun tracked =>
      .bind (.of_ofExcept _) fun _ => reports_withdrawAbove blueprint.release tracked _
  · exact .of_pure ()

theorem reports_scaleType (hinfo : ∀ message, allowed (.info blueprint.release message)) :
    (scaleType blueprint type process target).Reports allowed := by
  refine .bind (Action.Reports.bind reports_adjust fun _ => ?_) fun changed => ?_
  · rw [logChange]
    split
    · exact .bind (.of_ofExcept _) fun _ => .bind (.of_ofExcept _) fun _ => .of_log (hinfo _)
    · exact .of_pure ()
  · cases changed with
    | error failure => exact .done
    | ok _ => exact .bind (Action.Reports.of_update _) fun _ => .done

theorem reports_scaleTypes (hinfo : ∀ message, allowed (.info blueprint.release message))
    (request : ScaleRequest) (formation : Formation) :
    (scaleTypes blueprint request formation).Reports allowed := by
  -- On the entries of the request; the formation changes from one to the next.
  induction request generalizing formation with
  | nil => exact .done
  | cons first rest ih =>
    obtain ⟨type, target⟩ := first
    rw [scaleTypes]
    split
    · exact ih formation
    · refine .bind (reports_scaleType hinfo) fun scaled => ?_
      obtain ⟨process, failure | _⟩ := scaled
      · exact .done
      · exact ih _

/-- **Scaling reports what it brought to another quantity**, and nothing else. It says so before the
new quantity is written down, so it may have been said in vain. -/
theorem reports_scale (hinfo : ∀ message, allowed (.info blueprint.release message))
    (quantities : List (Value × Value)) (formation : Formation) :
    (scale blueprint quantities formation).Reports allowed := by
  rw [scale_eq]
  split
  · exact .done
  · exact reports_scaleTypes hinfo _ formation

/-- A process type was brought to its target, and what the log was told: nothing if it was there
already, and one event if its loop came to its end. -/
inductive Brings (blueprint : Blueprint) (type : String) (process : ProcessType) (target : Nat) :
    List Said → List Event → Prop where
  | equal (hequal : process.quantity.count? = .ok target) :
    Brings blueprint type process target [] []
  | changed {exchanges : List Said} {current wanted : String}
      (hthrough : RunsThrough blueprint type process target exchanges)
      (hcurrent : process.quantity.toValue.shown? = .ok current)
      (htarget : (Value.int target).shown? = .ok wanted) :
    Brings blueprint type process target
      (exchanges ++
        [⟨.log (.info blueprint.release s!"Scaled {type} from {current} to {wanted}"), .ok ()⟩])
      [.info blueprint.release s!"Scaled {type} from {current} to {wanted}"]

/-- The loop of a process type was broken off: it is not at its target, and nothing that was said is
a loop that came to its end. Parts of what was said count as well, so no loop ended before what
broke it off. -/
structure BreaksOff (blueprint : Blueprint) (type : String) (process : ProcessType) (target : Nat)
    (exchanges : List Said) : Prop where
  differs : process.quantity.count? ≠ .ok target
  broken : ∀ first rest, exchanges = first ++ rest →
    ¬RunsThrough blueprint type process target first

/-- Once a process type is at its target the log is told, unless it was there already. -/
theorem Brings.of_logChange {loop told : List Said} {logged : Except Failure Unit}
    (hcurrent : process.quantity.count? = .ok current)
    (hloop : Leads (adjust blueprint type process target).attempt loop (.done (.ok ())))
    (h : Leads (logChange blueprint.release type process target).attempt told (.done logged))
    (htaken : ∀ exchange ∈ told, exchange.IsTaken) :
    logged = .ok () ∧
      Brings blueprint type process target (loop ++ told) (reported (loop ++ told)) := by
  rw [logChange, Quantity.compare?_of_count? hcurrent] at h
  have hsilent : reported loop = [] := Plan.Reports.reported_eq_nil reports_adjust hloop
  -- nothing is logged if the process type was at its target already
  rcases (leads_adjust_iff hcurrent).mp hloop with ⟨rfl, rfl⟩ | hthrough
  · rw [if_neg fun hne => hne (congrArg some (compare_eq_iff_eq.mpr rfl))] at h
    obtain ⟨rfl, rfl⟩ := leads_done_iff.mp h
    exact ⟨rfl, .equal hcurrent⟩
  · -- jobs were named by both quantities, so both can be written
    obtain ⟨hne, hwritable, hwritable'⟩ := hthrough.writable hcurrent
    obtain ⟨shown, hshown⟩ := Quantity.exists_shown hcurrent hwritable
    have hwanted : (Value.int target).shown? = .ok (Value.int target).shown := if_pos hwritable'
    rw [if_pos fun heq => hne (compare_eq_iff_eq.mp (Option.some.inj heq)), hshown, hwanted] at h
    obtain ⟨rfl, rfl⟩ := Action.said_of_log h htaken
    refine ⟨rfl, ?_⟩
    rw [reported_append, hsilent]
    exact .changed hthrough hshown hwanted

/-- **One process type** is brought to its target and written down, unless its loop is broken off;
the log is told before it is written down. -/
theorem tells_scaleType {scaled : ProcessType} {ending : Except Failure Unit}
    (hcurrent : process.quantity.count? = .ok current)
    (h : Leads (scaleType blueprint type process target) exchanges (.done (scaled, ending)))
    (htaken : ∀ exchange ∈ exchanges, exchange.IsTaken) :
    (∃ failure, BreaksOff blueprint type process target exchanges ∧ scaled = process ∧
      ending = .error failure ∧ reported exchanges = []) ∨
    ∃ first answer, Brings blueprint type process target first (reported exchanges) ∧
      exchanges = first ++ [⟨.update (process.scaled target blueprint.release.app), answer⟩] ∧
      scaled = process.scaled target blueprint.release.app ∧
      ending = answer.map fun _ => () := by
  obtain ⟨changed, first, second, hfirst, hsecond, rfl⟩ := leads_bind_iff.mp h
  -- The loop and its event are one piece of work: it succeeded, or it failed and the event with it.
  rcases leads_work_bind_iff.mp hfirst with ⟨_, loop, told, hloop, htold, rfl⟩ |
      ⟨failure, hloop, rfl⟩
  · obtain ⟨rfl, hbrings⟩ := Brings.of_logChange hcurrent hloop htold fun exchange hmem =>
      htaken exchange (List.mem_append_left _ (List.mem_append_right _ hmem))
    -- What succeeded is written down in one call.
    obtain ⟨answer, later, rfl, hlater⟩ := leads_call_iff.mp hsecond
    obtain ⟨rfl, heq⟩ := leads_done_iff.mp hlater
    obtain ⟨rfl, rfl⟩ := Prod.mk.inj heq
    refine .inr ⟨loop ++ told, answer, ?_, rfl, rfl, rfl⟩
    rw [reported_append (loop ++ told)]
    exact (List.append_nil (reported (loop ++ told))).symm ▸ hbrings
  · obtain ⟨rfl, heq⟩ := leads_done_iff.mp hsecond
    obtain ⟨rfl, rfl⟩ := Prod.mk.inj heq
    rw [List.append_nil]
    -- had the loop come to its end, it would not have failed
    have hbroken {first' rest : List Said} (hsplit : first = first' ++ rest) :
        ¬Leads (adjust blueprint type scaled target).attempt first' (.done (.ok ())) := by
      rintro hended
      rw [hsplit] at hloop
      obtain ⟨left, hleft, hlast⟩ := hloop.of_append
      obtain rfl := hleft.unique hended
      cases (leads_done_iff.mp hlast).2
    refine .inl ⟨failure, ⟨fun hequal => ?_, fun first' rest hsplit hthrough => ?_⟩, rfl, rfl,
      Plan.Reports.reported_eq_nil reports_adjust hloop⟩
    · obtain rfl := Except.ok.inj (hequal.symm.trans hcurrent)
      exact hbroken (List.nil_append first).symm
        ((leads_adjust_iff hcurrent).mpr (.inl ⟨rfl, rfl⟩))
    · exact hbroken hsplit ((leads_adjust_iff hcurrent).mpr (.inr hthrough))

/-- What a request tells the log, and what it comes to, going by what was said: its entries are
worked off in order, up to one that fails. The constructors are the five things that may become of
an entry, and only the last of them goes on after a change. -/
inductive Tells (blueprint : Blueprint) :
    ScaleRequest → Formation → List Said → Result → List Event → Prop where
  | done {formation : Formation} : Tells blueprint [] formation [] ⟨formation, .ok ()⟩ []
  /-- The formation does not know the process type. -/
  | ignored {type : String} {target : Nat} {rest : ScaleRequest} {formation : Formation}
      {exchanges : List Said} {result : Result} {events : List Event}
      (hnone : formation.process? type = none)
      (hrest : Tells blueprint rest formation exchanges result events) :
    Tells blueprint ((type, target) :: rest) formation exchanges result events
  /-- The loop of the process type was broken off. -/
  | aborted {type : String} {target : Nat} {rest : ScaleRequest} {formation : Formation}
      {process : ProcessType} {exchanges : List Said} {failure : Failure}
      (hsome : formation.process? type = some process)
      (hbroken : BreaksOff blueprint type process target exchanges) :
    Tells blueprint ((type, target) :: rest) formation exchanges
      ⟨formation.replace type process, .error failure⟩ []
  /-- The process type was brought to its target, but its new quantity was not written down. -/
  | unkept {type : String} {target : Nat} {rest : ScaleRequest} {formation : Formation}
      {process : ProcessType} {first : List Said} {failure : Failure} {events : List Event}
      (hsome : formation.process? type = some process)
      (hbrings : Brings blueprint type process target first events) :
    Tells blueprint ((type, target) :: rest) formation
      (first ++ [⟨.update (process.scaled target blueprint.release.app), .error failure⟩])
      ⟨formation.replace type (process.scaled target blueprint.release.app), .error failure⟩ events
  /-- The process type was brought to its target and its new quantity was written down. -/
  | kept {type : String} {target : Nat} {rest : ScaleRequest} {formation : Formation}
      {process written : ProcessType} {first later : List Said} {result : Result}
      {events told : List Event} (hsome : formation.process? type = some process)
      (hbrings : Brings blueprint type process target first events)
      (hrest : Tells blueprint rest
        (formation.replace type (process.scaled target blueprint.release.app)) later result told) :
    Tells blueprint ((type, target) :: rest) formation
      (first ++
        ⟨.update (process.scaled target blueprint.release.app), .ok written⟩ :: later)
      result (events ++ told)

end Scale

/-- All quantities of the formation are numbers that can be counted up to. A quantity of another
kind breaks scaling off by itself. -/
def Formation.IsCounted (formation : Formation) : Prop :=
  ∀ entry ∈ formation, ∃ count, entry.2.quantity.count? = .ok count

theorem Formation.IsCounted.replace {formation : Formation} {process : ProcessType}
    (h : formation.IsCounted) (type : String)
    (hprocess : ∃ count, process.quantity.count? = .ok count) :
    (formation.replace type process).IsCounted := by
  intro entry hmem
  rcases mem_or_of_mem_replace entry hmem with hold | rfl
  · exact h entry hold
  · exact hprocess

/-- **What a request tells the log.** By induction on the request; the formation has counts all
along, as an entry replaces a count by a count. -/
theorem Scale.tells_scaleTypes {request : ScaleRequest} {formation : Formation} {result : Result}
    (hcounted : formation.IsCounted)
    (h : Leads (scaleTypes blueprint request formation) exchanges (.done result))
    (htaken : ∀ exchange ∈ exchanges, exchange.IsTaken) :
    Tells blueprint request formation exchanges result (reported exchanges) ∧
      result.formation.IsCounted := by
  -- On the entries of the request, with what was said about the rest of them behind.
  induction request generalizing formation exchanges with
  | nil =>
    obtain ⟨rfl, rfl⟩ := leads_done_iff.mp h
    exact ⟨.done, hcounted⟩
  | cons first rest ih =>
    obtain ⟨type, target⟩ := first
    rw [scaleTypes] at h
    cases hprocess : formation.process? type with
    | none =>
      -- an unknown process type is passed over
      rw [hprocess] at h
      exact (ih hcounted h htaken).imp_left (.ignored hprocess)
    | some process =>
      rw [hprocess] at h
      obtain ⟨⟨scaled, ending⟩, first, later, hfirst, hlater, rfl⟩ := leads_bind_iff.mp h
      obtain ⟨entry, hmem, rfl⟩ := Value.exists_mem_of_find? hprocess
      obtain ⟨current, hcurrent⟩ := hcounted entry hmem
      rcases tells_scaleType hcurrent hfirst
          (fun exchange hmem => htaken exchange (List.mem_append_left _ hmem)) with
        ⟨failure, hbroken, rfl, rfl, hnothing⟩ | ⟨loop, answer, hbrings, rfl, rfl, rfl⟩
      · -- the instances could not be moved: the request ends, with the process as it was
        obtain ⟨rfl, rfl⟩ := leads_done_iff.mp hlater
        rw [List.append_nil, hnothing]
        exact ⟨.aborted hprocess hbroken, hcounted.replace type ⟨_, hcurrent⟩⟩
      · have hscaled : (formation.replace type
            (entry.2.scaled target blueprint.release.app)).IsCounted :=
          hcounted.replace type ⟨target, rfl⟩
        cases answer with
        | error failure =>
          -- the instances were moved, but what is wanted was not kept: the request ends after the
          -- change
          obtain ⟨rfl, rfl⟩ := leads_done_iff.mp hlater
          rw [List.append_nil]
          exact ⟨.unkept hprocess hbrings, hscaled⟩
        | ok written =>
          obtain ⟨htells, hresult⟩ := ih hscaled hlater fun exchange hmem =>
            htaken exchange (List.mem_append_right _ hmem)
          rw [reported_append, List.append_assoc]
          exact ⟨.kept hprocess hbrings htells, hresult⟩

/-- **What scaling tells the log**, if the request is valid. -/
theorem Scale.tells_scale {quantities : List (Value × Value)} {request : ScaleRequest}
    {formation : Formation} {result : Result}
    (hrequest : ScaleRequest.ofEntries quantities = .ok request) (hcounted : formation.IsCounted)
    (h : Leads (scale blueprint quantities formation) exchanges (.done result))
    (htaken : ∀ exchange ∈ exchanges, exchange.IsTaken) :
    Tells blueprint request formation exchanges result (reported exchanges) ∧
      result.formation.IsCounted := by
  rw [scale_eq, hrequest] at h
  exact tells_scaleTypes hcounted h htaken

end Rollout
