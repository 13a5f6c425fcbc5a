import Rollout.Proofs.StruckScaling
import Rollout.Proofs.Unhindered

/-!
# Scaling a process type without faults

What `Scale.scaleType` comes to if no fault of the world strikes any of its calls, told from where
it starts. There are the instances `1` to `tracked` of the process type under jobs and `1` to
`scheduled` at the scheduler, and the process says `current`. All three are the same before a first
run. After a run that was cut short they may differ by one from each other, or more of them may be
there than the process says.

* `Ledger.goes_placeFrom`, `Ledger.fails_placeFrom`: upward. An instance may be scheduled a second
  time, so one that is scheduled and not tracked is no obstacle. One that is tracked is: the job
  store refuses a second job of its name.
* `Ledger.goes_shrinkTo`, `Ledger.fails_shrinkTo`, `Ledger.Ran.shrinkTo_untracked`: downward. The
  scheduler refuses to unschedule what is not scheduled, and an instance that is not tracked is
  missed before anything is withdrawn.
* `Ledger.Ran.scaleType_of_goes`, `Ledger.Ran.scaleType_of_failed`: what either comes to for the
  process.
-/

namespace Rollout

open Scale World

theorem Scale.ByName.exists_find? {listed : List (String × Job)} {names : List String}
    (h : ByName listed names) {name : String} (hmem : name ∈ names) :
    ∃ job, find? listed name = some job ∧ job.name? = .ok name := by
  cases hfind : find? listed name with
  | some job => exact ⟨job, rfl, (h.find?_some hfind).1⟩
  | none => exact absurd hmem (h.find?_none hfind)

namespace Ledger

variable {stores : Stores} {moment : Moment} {ledger after start : Ledger} {record : List Attempt}
  {app type name : String} {release : Release} {blueprint : Blueprint} {process : ProcessType}
  {current target n count tracked scheduled : Nat}

/-! ### Upward -/

/-- A job of a new name is placed. -/
theorem goes_place {job : Job} (hjob : job.IsStorable) (hname : job.name? = .ok name)
    (hnew : name ∉ ledger.tracked) :
    Goes stores moment (Placement.place job) ledger (fun _ after => ∃ definition row,
      definition.name = name ∧ row.name = name ∧ after = (ledger.schedule definition).add row) := by
  obtain ⟨reference, href⟩ := Image.exists_reference? hjob.repo hjob.id
  refine .ofExcept_bind (Placement.definition?_of_isStorable hjob hname) ?_
  refine .bind (.schedule href ledger) ?_
  rintro _ between rfl
  have hbetween : name ∉
      (ledger.schedule ⟨name, job.command, job.image, job.environment⟩).tracked := hnew
  exact (Goes.add hjob hname hbetween).imp fun _ _ ⟨row, hrow, hafter⟩ =>
    ⟨_, row, rfl, hrow, hafter⟩

/-- A job of a name that is tracked is scheduled, and then the job store refuses it. -/
theorem fails_place {job : Job} (hjob : job.IsStorable) (hname : job.name? = .ok name)
    (hmem : name ∈ ledger.tracked) :
    Fails stores moment (Placement.place job) ledger (fun failure after =>
      failure.kind = .repository ∧ ∃ definition, definition.name = name ∧
        after = ledger.schedule definition) := by
  obtain ⟨reference, href⟩ := Image.exists_reference? hjob.repo hjob.id
  refine .ofExcept_bind (Placement.definition?_of_isStorable hjob hname) ?_
  refine Goes.bind_fails (.schedule href ledger) ?_
  rintro _ between rfl
  have hbetween : name ∈
      (ledger.schedule ⟨name, job.command, job.image, job.environment⟩).tracked := hmem
  exact (Fails.add hjob hname hbetween).imp fun _ _ ⟨hkind, hafter⟩ => ⟨hkind, _, rfl, hafter⟩

/-- **Missing instances are placed.** The first of them may be scheduled already. -/
theorem goes_placeFrom {environment : Environment} {command : String}
    (hblueprint : blueprint.IsTyped app)
    (henvironment : Environment.ofVars blueprint.vars = .ok environment)
    (htarget : CellNumber.fits target = true)
    (hnames : ∀ m, m ≤ target → ∃ name, instanceName? blueprint.release type m = .ok name)
    (h : Brought blueprint.release type start n scheduled ledger)
    (hnext : scheduled = n ∨ scheduled = n + 1) (hle : scheduled ≤ target)
    (hcount : n + count = target) :
    Goes stores moment
      (placeFrom (blueprint.template environment) type (.text command) (n + 1) count) ledger
      (fun _ after => Brought blueprint.release type start target target after) := by
  induction count generalizing n scheduled ledger with
  | zero =>
    obtain rfl : n = target := hcount
    obtain rfl : scheduled = n := by omega
    exact .pure h
  | succ count ih =>
    obtain ⟨name, hname⟩ := hnames (n + 1) (by omega)
    have hjob : ((blueprint.template environment).job (.text type) (.text command) (n + 1)).name? =
        .ok name := hname
    have hnew : name ∉ ledger.tracked := by
      rw [h.tracked.mem_iff hname]
      omega
    refine .bind (goes_place (Blueprint.isStorable_job hblueprint henvironment
      (CellNumber.fits_of_le (by omega) htarget)) hjob hnew) ?_
    rintro _ _ ⟨definition, row, rfl, hrow, rfl⟩
    -- the next instance is scheduled now, whether or not it was before
    have hscheduled : Brought blueprint.release type start n (n + 1)
        (ledger.schedule definition) := by
      rcases hnext with rfl | rfl
      · exact h.schedule hname
      · exact h.reschedule hname (by omega) (Nat.le_refl _)
    exact ih (hscheduled.add (hname.trans (congrArg Except.ok hrow.symm))) (.inl rfl) (by omega)
      (by omega)

/-- **Where more is tracked than the process says**, the next instance is refused. The scheduler
takes it first, where it writes over a definition of the same name. -/
theorem fails_placeFrom {environment : Environment} {command : String}
    (hblueprint : blueprint.IsTyped app)
    (henvironment : Environment.ofVars blueprint.vars = .ok environment)
    (htarget : CellNumber.fits target = true)
    (h : Brought blueprint.release type start tracked scheduled ledger) (hlt : n < tracked)
    (hle : tracked ≤ scheduled) (hcount : n + (count + 1) = target) :
    Fails stores moment
      (placeFrom (blueprint.template environment) type (.text command) (n + 1) (count + 1)) ledger
      (fun failure after => failure.kind = .repository ∧ after.jobs = ledger.jobs ∧
        after.processes = ledger.processes ∧
        ∀ name, name ∈ after.scheduled ↔ name ∈ ledger.scheduled) := by
  obtain ⟨name, hname, hmem⟩ := (h.tracked (n + 1 : Nat)).mpr (by omega)
  have hjob : ((blueprint.template environment).job (.text type) (.text command) (n + 1)).name? =
      .ok name := hname
  have hfits : CellNumber.fits (n + 1 : Nat) = true := CellNumber.fits_of_le (by omega) htarget
  refine (Fails.bind (fails_place (Blueprint.isStorable_job hblueprint henvironment hfits) hjob
    hmem)).imp ?_
  rintro failure _ ⟨hkind, definition, rfl, rfl⟩
  refine ⟨hkind, rfl, rfl, fun other => ?_⟩
  -- it was scheduled already, as all that is tracked is
  refine (mem_scheduled_schedule ledger).trans (or_iff_right_of_imp ?_)
  rintro rfl
  exact (h.scheduled.mem_iff hname).mpr (by omega)

/-! ### Downward -/

theorem goes_withdraw {job : Job} (hname : job.name? = .ok name) (hmem : name ∈ ledger.scheduled) :
    Goes stores moment (Placement.withdraw job) ledger
      (fun _ after => after = ledger.retire name) := by
  refine .ofExcept_bind hname (.bind (.unschedule hmem) ?_)
  rintro _ _ rfl
  exact .remove hname _

theorem fails_withdraw {job : Job} (hname : job.name? = .ok name) (hnot : name ∉ ledger.scheduled) :
    Fails stores moment (Placement.withdraw job) ledger
      (fun failure after => failure.kind = .rejection ∧ after = ledger) :=
  .ofExcept_bind hname (Fails.bind (.unschedule hnot))

/-- An instance that is found by its name and scheduled is withdrawn. -/
theorem goes_withdrawOrdinal {listed : List (String × Job)} {job : Job}
    (hname : instanceName? release type n = .ok name) (hfind : find? listed name = some job)
    (hjob : job.name? = .ok name) (hmem : name ∈ ledger.scheduled) :
    Goes stores moment (withdrawOrdinal release listed type n) ledger
      (fun _ after => after = ledger.retire name) := by
  refine .ofExcept_bind hname ?_
  rw [hfind]
  exact goes_withdraw hjob hmem

/-- One that is not scheduled is not withdrawn. -/
theorem fails_withdrawOrdinal {listed : List (String × Job)} {job : Job}
    (hname : instanceName? release type n = .ok name) (hfind : find? listed name = some job)
    (hjob : job.name? = .ok name) (hnot : name ∉ ledger.scheduled) :
    Fails stores moment (withdrawOrdinal release listed type n) ledger
      (fun failure after => failure.kind = .rejection ∧ after = ledger) := by
  refine .ofExcept_bind hname ?_
  rw [hfind]
  exact fails_withdraw hjob hnot

/-- **Superfluous instances are withdrawn**, if all of them can be found by their names. By
induction on how many there are, from the highest on. -/
theorem goes_withdrawAbove {listed : List (String × Job)} {names : List String}
    (hlisted : ByName listed names)
    (hfound : ∀ m name, m ≤ target + count → instanceName? release type m = .ok name →
      1 ≤ m → name ∈ names)
    (h : Brought release type start (target + count) (target + count) ledger) :
    Goes stores moment (withdrawAbove release listed type target count) ledger
      (fun _ after => Brought release type start target target after) := by
  induction count generalizing ledger with
  | zero => exact .pure h
  | succ count ih =>
    obtain ⟨name, hname, hmem⟩ := (h.scheduled (target + count + 1 : Nat)).mpr (by omega)
    obtain ⟨job, hfind, hjob⟩ := hlisted.exists_find?
      (hfound _ name (Nat.le_refl _) hname (by omega))
    refine .bind (goes_withdrawOrdinal hname hfind hjob hmem) ?_
    rintro _ _ rfl
    exact ih (fun m given hm => hfound m given (by omega)) ((h.unschedule hname).remove hname)

/-- The name of an instance is one of the application of its release. -/
theorem isNameOf_of_instanceName? (happ : release.app = .text app)
    (hname : instanceName? release type n = .ok name) : IsNameOf app name := by
  rw [instanceName?, happ] at hname
  exact ⟨_, _, _, hname⟩

/-- **Scaling down lists the tracked jobs first**, and then withdraws from the highest instance
on. -/
theorem Ran.shrinkTo_unhindered {result : Except Failure Unit} (hsound : ledger.IsSound)
    (happ : release.app = .text app) (hquantity : process.quantity = .whole current)
    (hran : Ran stores moment (shrinkTo release type process target).attempt ledger record result
      after) (hcalm : Unhindered record) :
    ∃ listed first second, ByName listed (ledger.trackedOf app) ∧
      Ran stores moment (withdrawAbove release listed type target (current - target)).attempt ledger
        second result after ∧
      record = first ++ second ∧ ∀ attempt ∈ first, attempt.call = .list release.app := by
  rw [shrinkTo] at hran
  rcases hran.work_bind_cases with ⟨jobs, between, first, second, hlist, hrest, rfl⟩ |
      ⟨failure, hlist, rfl⟩
  · have hlist' : Ran stores moment (Action.list (.text app)).attempt ledger first (.ok jobs)
        between := happ ▸ hlist
    obtain ⟨_, heq, hjobs, rfl⟩ := Goes.list hsound app _ _ _ hlist' hcalm.left
    obtain rfl := Except.ok.inj heq
    -- readable rows can be told apart by their names
    obtain ⟨listed, hby, hlisted⟩ := byName_of_namesOf hjobs
    obtain ⟨_, heq, hrest⟩ | ⟨_, heq, -⟩ := hrest.ofExcept_bind_cases
    · obtain rfl := Except.ok.inj (hby.symm.trans heq)
      rw [hquantity] at hrest
      obtain ⟨_, heq, hrest⟩ | ⟨_, heq, -⟩ := hrest.ofExcept_bind_cases
      · obtain rfl := Except.ok.inj heq
        refine ⟨listed, first, second, hlisted, hrest, rfl, ?_⟩
        -- the record of the first part has at most the listing on it
        rcases Ran.ask_cases hlist with ⟨_, -, -, rfl⟩ | ⟨_, -, rfl⟩
        · exact fun attempt hmem => List.mem_singleton.mp hmem ▸ rfl
        · intro attempt hmem
          rw [Stores.noted] at hmem
          split at hmem
          · exact List.mem_singleton.mp hmem ▸ rfl
          · cases hmem
      · cases heq
    · cases hby.symm.trans heq
  · have hlist' : Ran stores moment (Action.list (.text app)).attempt ledger record
        (.error failure) after := happ ▸ hlist
    obtain ⟨_, heq, -⟩ := Goes.list hsound app _ _ _ hlist' hcalm
    cases heq

/-- **What is superfluous is withdrawn.** -/
theorem goes_shrinkTo (hsound : ledger.IsSound) (happ : release.app = .text app)
    (hquantity : process.quantity = .whole current) (hle : target ≤ current)
    (h : Brought release type start current current ledger) :
    Goes stores moment (shrinkTo release type process target) ledger
      (fun _ after => Brought release type start target target after) := by
  intro record result after hran hcalm
  obtain ⟨listed, first, second, hlisted, hrest, rfl, -⟩ :=
    hran.shrinkTo_unhindered hsound happ hquantity hcalm
  have htotal : target + (current - target) = current := by omega
  refine goes_withdrawAbove hlisted (fun m name hm hname hpos => ?_) (htotal.symm ▸ h) _ _ _ hrest
    hcalm.right
  exact hsound.mem_trackedOf.mpr ⟨isNameOf_of_instanceName? happ hname,
    (h.tracked.mem_iff hname).mpr ⟨hpos, by omega⟩⟩

/-- **Where less is scheduled than tracked**, the scheduler rejects the last instance. It is asked
first, so nothing is changed. -/
theorem fails_shrinkTo (hsound : ledger.IsSound) (happ : release.app = .text app)
    (hquantity : process.quantity = .whole current) (hlt : target < current)
    (h : Brought release type start current scheduled ledger) (hless : scheduled < current) :
    Fails stores moment (shrinkTo release type process target) ledger
      (fun failure after => failure.kind = .rejection ∧ after = ledger) := by
  intro record result after hran hcalm
  obtain ⟨listed, first, second, hlisted, hrest, rfl, -⟩ :=
    hran.shrinkTo_unhindered hsound happ hquantity hcalm
  obtain ⟨name, hname, hmem⟩ := (h.tracked current).mpr (by omega)
  obtain ⟨job, hfind, hjob⟩ := hlisted.exists_find?
    (hsound.mem_trackedOf.mpr ⟨isNameOf_of_instanceName? happ hname, hmem⟩)
  have hnot : name ∉ ledger.scheduled := by
    rw [h.scheduled.mem_iff hname]
    omega
  -- the loop starts at the last instance
  obtain ⟨count, hcount⟩ : ∃ count, current - target = count + 1 := ⟨current - target - 1, by omega⟩
  have hlast : target + count + 1 = current := by omega
  rw [hcount, withdrawAbove, hlast] at hrest
  exact (Fails.bind (fails_withdrawOrdinal hname hfind hjob hnot)) _ _ _ hrest hcalm.right

/-- **Where less is tracked than the process says**, the last instance is missed, and only the
tracked jobs have been asked for. -/
theorem Ran.shrinkTo_untracked {result : Except Failure Unit} (hsound : ledger.IsSound)
    (happ : release.app = .text app) (hquantity : process.quantity = .whole current)
    (hlt : target < current) (hname : instanceName? release type current = .ok name)
    (hnot : name ∉ ledger.tracked)
    (hran : Ran stores moment (shrinkTo release type process target).attempt ledger record result
      after) (hcalm : Unhindered record) :
    result = .error (.untracked (.text name)) ∧ after = ledger ∧
      ∀ attempt ∈ record, attempt.call = .list release.app := by
  obtain ⟨listed, first, second, hlisted, hrest, rfl, hcalls⟩ :=
    hran.shrinkTo_unhindered hsound happ hquantity hcalm
  -- what is listed is tracked, so the name is not found
  have hfind : find? listed name = none := by
    cases hfind : find? listed name with
    | none => rfl
    | some job =>
      exact absurd (hsound.mem_trackedOf.mp (hlisted.find?_some hfind).2).2 hnot
  -- instances are withdrawn from the highest on, and that is the missing one
  obtain ⟨count, hcount⟩ : ∃ count, current - target = count + 1 := ⟨current - target - 1, by omega⟩
  have hlast : target + count + 1 = current := by omega
  rw [hcount, withdrawAbove, hlast] at hrest
  have hmissed {result : Except Failure Unit} {second : List Attempt} {last : Ledger}
      (hrest : Ran stores moment (withdrawOrdinal release listed type current).attempt ledger second
        result last) :
      result = .error (.untracked (.text name)) ∧ second = [] ∧ last = ledger := by
    obtain ⟨known, hknown, hthrow⟩ | ⟨_, hnameless, -⟩ := hrest.ofExcept_bind_cases
    · obtain rfl := Except.ok.inj (hname.symm.trans hknown)
      rw [hfind] at hthrow
      exact hthrow.done_cases
    · cases hname.symm.trans hnameless
  obtain ⟨_, between, third, fourth, hfirst, -⟩ | ⟨failure, hfirst, rfl⟩ := hrest.work_bind_cases
  · cases (hmissed hfirst).1
  · obtain ⟨heq, rfl, rfl⟩ := hmissed hfirst
    rw [List.append_nil]
    exact ⟨congrArg Except.error (Except.error.inj heq), rfl, hcalls⟩

/-! ### One process type -/

/-- What scaling up starts with. -/
theorem growTo_eq {environment : Environment} {command : String}
    (henvironment : Environment.ofVars blueprint.vars = .ok environment)
    (hcommand : process.command = .text command) (hquantity : process.quantity = .whole current) :
    growTo blueprint type process target =
      placeFrom (blueprint.template environment) type (.text command) (current + 1)
        (target - current) := by
  rw [growTo, henvironment, hquantity, hcommand]
  rfl

/-- Logging a change goes well. -/
theorem goes_logChange (hblueprint : blueprint.IsTyped app)
    (hquantity : process.quantity = .whole current) (hcurrent : CellNumber.fits current = true)
    (htarget : CellNumber.fits target = true) (ledger : Ledger) :
    Goes stores moment (logChange blueprint.release type process target) ledger
      (fun _ after => after = ledger) := by
  have hshown {n : Nat} (hn : CellNumber.fits n = true) :
      (Value.int n).shown? = .ok (Value.int n).shown := by
    rw [Value.shown?, Value.writable, CellNumber.writable_of_fits hn]
    rfl
  rw [logChange]
  split
  · rw [hquantity, Quantity.toValue]
    exact .ofExcept_bind (hshown hcurrent) (.ofExcept_bind (hshown htarget)
      (.log (Blueprint.isStorable_event hblueprint _ _) ledger))
  · exact .pure rfl

/-- **A process type whose instances can be brought to the target** takes the new quantity, which is
written down. -/
theorem Ran.scaleType_of_goes {scaled : ProcessType} {ending : Except Failure Unit}
    (hblueprint : blueprint.IsTyped app) (hprocess : process.IsStorable)
    (htype : process.type = .text type)
    (howner : process.app = .text "" ∨ process.app = .text app)
    (hquantity : process.quantity = .whole current) (htarget : CellNumber.fits target = true)
    (hkeeps : moment.keepsProcesses = true) {done : Ledger → Prop}
    (hgoes : Goes stores moment (adjust blueprint type process target) ledger fun _ => done)
    (hran : Ran stores moment (scaleType blueprint type process target) ledger record
      (scaled, ending) after) (hcalm : Unhindered record) :
    ending = .ok () ∧ scaled = process.scaled target (.text app) ∧ ∃ moved row, done moved ∧
      after = moved.want row ∧ row.app = app ∧ row.type = type ∧
      row.quantity.toValue = .int target := by
  -- a stored quantity fits its cell, and so the change of it can be logged
  have hcurrent : CellNumber.fits current = true := by
    obtain ⟨n, hn, hfits⟩ := hprocess.quantity
    obtain rfl := Quantity.whole.inj (hquantity.symm.trans hn)
    exact hfits
  obtain ⟨changed, between, first, second, hchanged, hrest, rfl⟩ := Ran.bind_cases
    (Work.attempt do
      adjust blueprint type process target
      logChange blueprint.release type process target) hran
  have hboth : Goes stores moment (do
      adjust blueprint type process target
      logChange blueprint.release type process target) ledger fun _ => done :=
    hgoes.bind fun _ middle hmiddle =>
      (goes_logChange hblueprint hquantity hcurrent htarget middle).imp
        fun _ _ hafter => hafter ▸ hmiddle
  obtain ⟨_, rfl, hdone⟩ := hboth _ _ _ hchanged hcalm.left
  -- after the instances, what is wanted is written down
  obtain ⟨kept, last, third, fourth, hkept, hreturn, rfl⟩ := Ran.bind_cases
    (Action.update (process.scaled target blueprint.release.app)).attempt hrest
  obtain ⟨hresult, rfl, rfl⟩ := hreturn.done_cases
  obtain ⟨rfl, rfl⟩ := Prod.mk.inj hresult
  rw [hblueprint.app] at hkept ⊢
  have hstorable := isStorable_scaled hprocess htarget app
  obtain ⟨_, rfl, row, hrow, rfl⟩ := Goes.update hkeeps hstorable between _ _ _ hkept
    hcalm.right.left
  have hscaledType : (process.scaled target (.text app)).type = .text type := htype
  exact ⟨rfl, rfl, between, row, hdone, rfl,
    ProcessRow.fields_of_ofProcess hscaledType (Formation.app_scaled howner) rfl hrow⟩

/-- **One whose instances cannot be brought to the target** stays as it is. -/
theorem Ran.scaleType_of_failed {scaled : ProcessType} {ending : Except Failure Unit}
    {failed : Failure → List Attempt → Ledger → Prop}
    (hfails : ∀ record result after, Ran stores moment
      (adjust blueprint type process target).attempt ledger record result after →
        Unhindered record → ∃ failure, result = .error failure ∧ failed failure record after)
    (hran : Ran stores moment (scaleType blueprint type process target) ledger record
      (scaled, ending) after) (hcalm : Unhindered record) :
    scaled = process ∧ ∃ failure, ending = .error failure ∧ failed failure record after := by
  obtain ⟨changed, between, first, second, hchanged, hrest, rfl⟩ := Ran.bind_cases
    (Work.attempt do
      adjust blueprint type process target
      logChange blueprint.release type process target) hran
  obtain ⟨_, middle, third, fourth, hadjust, -, rfl⟩ | ⟨failure, hadjust, rfl⟩ :=
    hchanged.work_bind_cases
  · -- the instances cannot have been brought to the target
    obtain ⟨_, heq, -⟩ := hfails _ _ _ hadjust hcalm.left.left
    cases heq
  · obtain ⟨_, heq, hfailed⟩ := hfails _ _ _ hadjust hcalm.left
    obtain ⟨hresult, rfl, rfl⟩ := hrest.done_cases
    obtain ⟨rfl, rfl⟩ := Prod.mk.inj hresult
    rw [List.append_nil]
    exact ⟨rfl, failure, rfl, Except.error.inj heq ▸ hfailed⟩

end Ledger

end Rollout
