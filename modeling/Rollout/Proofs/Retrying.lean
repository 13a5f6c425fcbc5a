import Rollout.Proofs.Agreement
import Rollout.Proofs.CutShort
import Rollout.Proofs.Drift
import Rollout.Proofs.UnhinderedScaling

/-!
# Scaling once more

A request to scale one process type was broken off by a fault, and the same request is made again
with the formation that was left. Nothing strikes it this time. Whether it succeeds depends on the
call that the fault struck, since that call says how many instances are tracked, how many are
scheduled and what the process says (`Ledger.StruckAt`).

* If nothing was done yet the request starts as it did the first time. One instance that is
  scheduled already is scheduled again, and if only the new quantity could not be written down,
  nothing but that is left.
* If instances were placed the process does not say so. The first of them is placed again, and the
  job store refuses its name.
* If instances were withdrawn the process does not say so either. The last of them is missed.
* If the last instance is scheduled no longer but still tracked, the scheduler refuses to
  unschedule it.

`Ledger.Retried` lists these cases, and `Ledger.Ran.scaleType_retried` proves them on the ledger
that the first request left. In a world this is `World.scale_retried`.
-/

namespace Rollout

open Scale World

/-! ### The call that was struck -/

namespace Call

/-- The call is to schedule or to track an instance. Which of the two was struck shows only in
whether the scheduler has it. -/
inductive Places (release : Release) (type : String) (n : Nat) : Call → Prop where
  | schedule {definition : Definition}
      (hname : instanceName? release type n = .ok definition.name) :
      Places release type n (.schedule definition)
  | add {job : Job} {name : String} (hname : instanceName? release type n = .ok name)
      (hjob : job.name? = .ok name) : Places release type n (.add job)

/-- The call is to schedule an instance no longer. -/
inductive Unschedules (release : Release) (type : String) (n : Nat) : Call → Prop where
  | mk {name : String} (hname : instanceName? release type n = .ok name) :
      Unschedules release type n (.unschedule (.text name))

/-- The call is to track an instance no longer. -/
inductive Untracks (release : Release) (type : String) (n : Nat) : Call → Prop where
  | mk {job : Job} {name : String} (hname : instanceName? release type n = .ok name)
      (hjob : job.name? = .ok name) : Untracks release type n (.remove job)

/-- The call is to write a quantity down. -/
def IsUpdate : Call → Prop
  | .update _ => True
  | .schedule _ | .unschedule _ | .report | .list _ | .add _ | .remove _ | .log _ | .wait _
  | .cancelled => False

/-- The call is made of the scheduler. A request that is found out before such a call has not been
noticed by the scheduler at all. -/
def IsScheduling : Call → Prop
  | .schedule _ | .unschedule _ | .report => True
  | .list _ | .add _ | .remove _ | .update _ | .log _ | .wait _ | .cancelled => False

end Call

theorem ordinal_eq_of_instanceName? {release : Release} {type name : String} {m n : Nat}
    (h : instanceName? release type m = .ok name) (h' : instanceName? release type n = .ok name) :
    m = n :=
  Int.ofNat.inj (Value.int.inj (JobName.fields_of_text? h h').2.2.2)

/-- **Where one instance has a name, all have** whose ordinals are integers of 64 bits. -/
theorem Blueprint.exists_instanceName_of_name {app type name : String} {blueprint : Blueprint}
    (hblueprint : blueprint.IsTyped app) {m n : Nat}
    (hname : instanceName? blueprint.release type m = .ok name) (hn : CellNumber.fits n = true) :
    ∃ other, instanceName? blueprint.release type n = .ok other := by
  -- A name shows that the application and the process type can stand in names; the ordinal only has
  -- to be a number.
  obtain ⟨fields, ⟨happ, htype⟩, -, -, hownApp, -, hownType, -⟩ := JobName.text?_eq_ok hname
  rw [hblueprint.app] at hownApp
  obtain rfl := Value.text.inj hownApp
  obtain rfl := Value.text.inj hownType
  exact blueprint.exists_instanceName hblueprint happ htype hn

namespace Ledger

variable {stores : Stores} {moment : Moment} {ledger after start : Ledger} {record : List Attempt}
  {app type name : String} {release : Release} {blueprint : Blueprint} {process : ProcessType}
  {current target n tracked scheduled quantity : Nat} {call : Call}

namespace StruckAt

/-- Where an instance was to be placed, all instances before it are there. -/
theorem of_places (h : StruckAt release type current target call tracked scheduled quantity)
    (hplaces : call.Places release type n) :
    current ≤ tracked ∧ tracked < target ∧ tracked + 1 = n ∧ tracked ≤ scheduled ∧
      scheduled ≤ n ∧ quantity = current := by
  cases hplaces with
  | schedule hname =>
    cases h with
    | schedule hle hlt hstruck =>
      have := ordinal_eq_of_instanceName? hname hstruck
      omega
  | add hname hjob =>
    cases h with
    | add hle hlt hstruck hown =>
      obtain rfl := Except.ok.inj (hjob.symm.trans hown)
      have := ordinal_eq_of_instanceName? hname hstruck
      omega

/-- Where an instance was to be scheduled no longer, it is the last one. -/
theorem of_unschedules (h : StruckAt release type current target call tracked scheduled quantity)
    (hcall : call.Unschedules release type n) :
    target < n ∧ n ≤ current ∧ tracked = n ∧ scheduled = n ∧ quantity = current := by
  obtain ⟨hname⟩ := hcall
  cases h with
  | unschedule hle hlt hstruck =>
    have := ordinal_eq_of_instanceName? hname hstruck
    omega

/-- Where an instance was to be tracked no longer, it is the last one that is tracked. -/
theorem of_untracks (h : StruckAt release type current target call tracked scheduled quantity)
    (hcall : call.Untracks release type n) :
    target < n ∧ n ≤ current ∧ tracked = n ∧ scheduled + 1 = n ∧ quantity = current := by
  obtain ⟨hname, hjob⟩ := hcall
  cases h with
  | remove hle hlt hstruck hown =>
    obtain rfl := Except.ok.inj (hjob.symm.trans hown)
    have := ordinal_eq_of_instanceName? hname hstruck
    omega

/-- Where the quantity was to be written down, all is done but that. -/
theorem of_isUpdate (h : StruckAt release type current target call tracked scheduled quantity)
    (hcall : call.IsUpdate) : tracked = target ∧ scheduled = target ∧ quantity = target := by
  cases h with
  | update => exact ⟨rfl, rfl, rfl⟩
  | schedule | add | unschedule | remove => exact hcall.elim

/-- Where nothing was done yet, or everything, the process says what is tracked, and one instance
more may be scheduled at most. These are the states from which a request can be made as if it were
the first time. -/
theorem of_resumable (h : StruckAt release type current target call tracked scheduled quantity)
    (hcall : call.Places release type (current + 1) ∨ call.Unschedules release type current ∨
      call.IsUpdate) :
    tracked = quantity ∧ (scheduled = quantity ∨ scheduled = quantity + 1 ∧ quantity < target) := by
  -- For each of the three calls the numbers are known, and the rest is arithmetic.
  rcases hcall with hcall | hcall | hcall
  · have := h.of_places hcall
    omega
  · have := h.of_unschedules hcall
    omega
  · have := h.of_isUpdate hcall
    omega

/-- Where an instance before the last one was to be withdrawn, the process says more than what is
tracked. -/
theorem of_missed (h : StruckAt release type current target call tracked scheduled quantity)
    (hlt : n < current)
    (hcall : call.Unschedules release type n ∨ call.Untracks release type n) :
    tracked < quantity ∧ quantity = current := by
  rcases hcall with hcall | hcall
  · have := h.of_unschedules hcall
    omega
  · have := h.of_untracks hcall
    omega

/-- **The call that was struck** is one of these. Each of them leaves its own residue, and the
residue decides how scaling once more ends. -/
theorem cases_call (h : StruckAt release type current target call tracked scheduled quantity) :
    call.Places release type (tracked + 1) ∨ call.Unschedules release type tracked ∨
      call.Untracks release type tracked ∨ call.IsUpdate := by
  -- Two of the five residues belong to placing, and each of the others to a call of its own.
  cases h with
  | schedule _ _ hname => exact .inl (.schedule hname)
  | add _ _ hname hjob => exact .inl (.add hname hjob)
  | unschedule _ _ hname => exact .inr (.inl ⟨hname⟩)
  | remove _ _ hname hjob => exact .inr (.inr (.inl ⟨hname, hjob⟩))
  | update => exact .inr (.inr (.inr trivial))

end StruckAt

/-! ### How a request ends that is made again -/

/-- A request that was broken off at a call left a ledger and a process. Made again without faults
it leaves another ledger and another process, with a record and an ending. -/
structure Retried (app : String) (release : Release) (type : String) (current target : Nat)
    (call : Call) (left after : Ledger) (process scaled : ProcessType) (record : List Attempt)
    (ending : Except Failure Unit) : Prop where
  /-- The call was to place, to withdraw or to write down what the request asks for. -/
  struck : (∃ n, current < n ∧ n ≤ target ∧ call.Places release type n) ∨
    (∃ n, target < n ∧ n ≤ current ∧
      (call.Unschedules release type n ∨ call.Untracks release type n)) ∨ call.IsUpdate
  /-- The request reaches its end if nothing was done by then, or everything. -/
  resumes : call.Places release type (current + 1) ∨ call.Unschedules release type current ∨
      call.IsUpdate →
    ending = .ok () ∧ IsRange target (HasInstance release type after.tracked) ∧
      IsRange target (HasInstance release type after.scheduled) ∧ IsWanted app type target after ∧
      scaled.quantity = .whole target
  /-- An instance that was placed is refused by the job store. -/
  duplicate : ∀ n, current + 1 < n → call.Places release type n →
    ∃ failure, ending = .error failure ∧ failure.kind = .repository
  /-- The last instance is not scheduled any more, which the scheduler rejects. -/
  rejected : call.Untracks release type current →
    ∃ failure, ending = .error failure ∧ failure.kind = .rejection
  /-- The last instance was withdrawn and is missed, before the scheduler is asked for anything. -/
  untracked : ∀ n, n < current → call.Unschedules release type n ∨ call.Untracks release type n →
    (∃ name, instanceName? release type current = .ok name ∧
      ending = .error (.untracked (.text name))) ∧
    ∀ attempt ∈ record, ¬attempt.call.IsScheduling
  /-- A request that fails again changes nothing that shows. -/
  unchanged : ∀ failure, ending = .error failure → after.jobs = left.jobs ∧
    after.processes = left.processes ∧ (∀ name, name ∈ after.scheduled ↔ name ∈ left.scheduled) ∧
    scaled = process

/-- What is left by a request that was broken off, and what is known of it. The process is the one
that the request left, so its quantity is the old one or, if only the writing failed, the target. -/
structure Leaves (app : String) (blueprint : Blueprint) (type : String) (current target : Nat)
    (call : Call) (process : ProcessType) (left : Ledger) : Prop where
  sound : left.IsSound
  storable : process.IsStorable
  own : process.type = .text type
  owned : process.app = .text "" ∨ process.app = .text app
  stands : ∃ start tracked scheduled quantity,
    StruckAt blueprint.release type current target call tracked scheduled quantity ∧
    Brought blueprint.release type start tracked scheduled left ∧
    process.quantity = .whole quantity
  /-- The variables can be set, if instances were to be placed. -/
  environment : current < target →
    ∃ environment, Environment.ofVars blueprint.vars = .ok environment

namespace Retried

variable {left : Ledger} {scaled : ProcessType} {ending : Except Failure Unit}

/-- The call that was struck is one that places, withdraws or writes down what is asked for. -/
theorem struck_of (h : StruckAt release type current target call tracked scheduled quantity) :
    (∃ n, current < n ∧ n ≤ target ∧ call.Places release type n) ∨
      (∃ n, target < n ∧ n ≤ current ∧
        (call.Unschedules release type n ∨ call.Untracks release type n)) ∨ call.IsUpdate := by
  rcases h.cases_call with hcall | hcall | hcall | hcall
  · obtain ⟨hle, hlt, -⟩ := h.of_places hcall
    exact .inl ⟨_, by omega, hlt, hcall⟩
  · obtain ⟨hlt, hle, -⟩ := h.of_unschedules hcall
    exact .inr (.inl ⟨_, hlt, hle, .inl hcall⟩)
  · obtain ⟨hlt, hle, -⟩ := h.of_untracks hcall
    exact .inr (.inl ⟨_, hlt, hle, .inr hcall⟩)
  · exact .inr (.inr hcall)

/-- A request that reaches its end started where the process says, but for one instance that may be
scheduled already. The other endings are ruled out by the numbers that the call left. -/
theorem of_ok (h : StruckAt release type current target call tracked scheduled quantity)
    (htracked : tracked = quantity)
    (hscheduled : scheduled = quantity ∨ scheduled = quantity + 1 ∧ quantity < target)
    (hending : ending = .ok ()) (hafter : IsRange target (HasInstance release type after.tracked) ∧
      IsRange target (HasInstance release type after.scheduled) ∧ IsWanted app type target after ∧
      scaled.quantity = .whole target) :
    Retried app release type current target call left after process scaled record ending where
  struck := struck_of h
  resumes _ := ⟨hending, hafter⟩
  duplicate n hlt hcall := by
    have := h.of_places hcall
    omega
  rejected hcall := by
    have := h.of_untracks hcall
    omega
  untracked n hlt hcall := by
    have := h.of_missed hlt hcall
    omega
  unchanged failure hfailure := by cases hending.symm.trans hfailure

/-- A request that is refused by the job store started where more is tracked than the process
says. -/
theorem of_duplicate (h : StruckAt release type current target call tracked scheduled quantity)
    (htracked : quantity < tracked)
    (hending : ∃ failure, ending = .error failure ∧ failure.kind = .repository)
    (hafter : after.jobs = left.jobs ∧ after.processes = left.processes ∧
      ∀ name, name ∈ after.scheduled ↔ name ∈ left.scheduled) :
    Retried app release type current target call left after process process record ending where
  struck := struck_of h
  resumes hcall := by
    have := h.of_resumable hcall
    omega
  duplicate _ _ _ := hending
  rejected hcall := by
    have := h.of_untracks hcall
    omega
  untracked n hlt hcall := by
    have := h.of_missed hlt hcall
    omega
  unchanged _ _ := ⟨hafter.1, hafter.2.1, hafter.2.2, rfl⟩

/-- A request that the scheduler rejects started where the last instance is tracked and not
scheduled. -/
theorem of_rejected (h : StruckAt release type current target call tracked scheduled quantity)
    (htarget : target < quantity) (htracked : tracked = quantity)
    (hscheduled : scheduled < quantity)
    (hending : ∃ failure, ending = .error failure ∧ failure.kind = .rejection) :
    Retried app release type current target call left left process process record ending where
  struck := struck_of h
  resumes hcall := by
    have := h.of_resumable hcall
    omega
  duplicate n hlt hcall := by
    have := h.of_places hcall
    omega
  rejected _ := hending
  untracked n hlt hcall := by
    have := h.of_missed hlt hcall
    omega
  unchanged _ _ := ⟨rfl, rfl, fun _ => .rfl, rfl⟩

/-- A request that misses an instance started where less is tracked than the process says. -/
theorem of_untracked (h : StruckAt release type current target call tracked scheduled quantity)
    (htracked : tracked < quantity)
    (hname : instanceName? release type quantity = .ok name)
    (hending : ending = .error (.untracked (.text name)))
    (hrecord : ∀ attempt ∈ record, ¬attempt.call.IsScheduling) :
    Retried app release type current target call left left process process record ending where
  struck := struck_of h
  resumes hcall := by
    have := h.of_resumable hcall
    omega
  duplicate n hlt hcall := by
    have := h.of_places hcall
    omega
  rejected hcall := by
    have := h.of_untracks hcall
    omega
  untracked n hlt hcall :=
    ⟨⟨name, (h.of_missed hlt hcall).2 ▸ hname, hending⟩, hrecord⟩
  unchanged _ _ := ⟨rfl, rfl, fun _ => .rfl, rfl⟩

end Retried

/-! ### Adjusting without faults -/

/-- **Instances are brought to the target** from where the process says, even if the next one is
scheduled already. -/
theorem goes_adjust (hsound : ledger.IsSound) (hblueprint : blueprint.IsTyped app)
    (hprocess : process.IsStorable) (hquantity : process.quantity = .whole quantity)
    (henvironment : quantity < target →
      ∃ environment, Environment.ofVars blueprint.vars = .ok environment)
    (htarget : CellNumber.fits target = true)
    (hnames : quantity < target → ∀ m, m ≤ target →
      ∃ name, instanceName? blueprint.release type m = .ok name)
    (h : Brought blueprint.release type start quantity scheduled ledger)
    (hscheduled : scheduled = quantity ∨ scheduled = quantity + 1 ∧ quantity < target) :
    Goes stores moment (adjust blueprint type process target) ledger
      (fun _ after => Brought blueprint.release type start target target after) := by
  obtain ⟨command, hcommand⟩ := hprocess.command
  rw [adjust_eq hquantity]
  -- More, fewer or as many: each case is a range that is placed or withdrawn, or none.
  split
  · next hlt =>
    obtain ⟨environment, henvironment⟩ := henvironment hlt
    rw [growTo_eq henvironment hcommand hquantity]
    exact goes_placeFrom hblueprint henvironment htarget (hnames hlt) h
      (hscheduled.imp_right And.left) (by omega) (by omega)
  · next hle =>
    -- an instance that is scheduled already is only left by growing
    obtain rfl : scheduled = quantity := by omega
    split
    · next hgt => exact goes_shrinkTo hsound hblueprint.app hquantity (Nat.le_of_lt hgt) h
    · obtain rfl : scheduled = target := by omega
      exact .pure h

/-- **Instances that the process does not know of** are refused by the job store. They were tracked
by the attempt that was broken off, and placing starts again from the quantity. -/
theorem fails_adjust_of_lt (hblueprint : blueprint.IsTyped app) (hprocess : process.IsStorable)
    (hquantity : process.quantity = .whole quantity)
    (henvironment : ∃ environment, Environment.ofVars blueprint.vars = .ok environment)
    (htarget : CellNumber.fits target = true)
    (h : Brought blueprint.release type start tracked scheduled ledger) (hlt : quantity < tracked)
    (hle : tracked ≤ scheduled) (hgrows : quantity < target) :
    Fails stores moment (adjust blueprint type process target) ledger
      (fun failure after => failure.kind = .repository ∧ after.jobs = ledger.jobs ∧
        after.processes = ledger.processes ∧
        ∀ name, name ∈ after.scheduled ↔ name ∈ ledger.scheduled) := by
  obtain ⟨environment, henvironment⟩ := henvironment
  obtain ⟨command, hcommand⟩ := hprocess.command
  obtain ⟨count, hcount⟩ : ∃ count, target - quantity = count + 1 :=
    ⟨target - quantity - 1, by omega⟩
  -- It grows, and the first instance to place is one that is tracked already.
  rw [adjust_eq hquantity, if_pos hgrows, growTo_eq henvironment hcommand hquantity, hcount]
  exact fails_placeFrom hblueprint henvironment htarget h hlt hle (by omega)

/-- Where the quantity is to be smaller, instances are withdrawn. -/
theorem adjust_eq_shrinkTo (hquantity : process.quantity = .whole quantity)
    (hlt : target < quantity) :
    adjust blueprint type process target = shrinkTo blueprint.release type process target := by
  rw [adjust_eq hquantity, if_neg (Nat.lt_asymm hlt), if_pos hlt]

/-! ### The ledger that is left -/

/-- Variables that cannot be set stop a request before its first call. So where a call was put on
record while instances were to be placed, the variables made an environment. -/
theorem Ran.exists_environment {scaled : ProcessType} {ending : Except Failure Unit}
    {attempt : Attempt} (hquantity : process.quantity = .whole current) (hlt : current < target)
    (hran : Ran stores moment (scaleType blueprint type process target) ledger record
      (scaled, ending) after) (hmem : attempt ∈ record) :
    ∃ environment, Environment.ofVars blueprint.vars = .ok environment := by
  cases hvars : Environment.ofVars blueprint.vars with
  | ok environment => exact ⟨environment, rfl⟩
  | error issue =>
    obtain ⟨changed, between, first, second, hchanged, hrest, rfl⟩ := Ran.bind_cases
      (Work.attempt do
        adjust blueprint type process target
        logChange blueprint.release type process target) hran
    have hadjust {result : Except Failure Unit} {third : List Attempt} {last : Ledger}
        (h : Ran stores moment (adjust blueprint type process target).attempt ledger third result
          last) : (∃ failure, result = .error failure) ∧ third = [] := by
      rw [adjust_eq hquantity, if_pos hlt, growTo, hvars] at h
      obtain ⟨_, heq, -⟩ | ⟨failure, -, hresult, hthird, -⟩ := h.ofExcept_bind_cases
      · cases heq
      · exact ⟨⟨failure, hresult⟩, hthird⟩
    -- nothing was called, so there is nothing on record
    obtain ⟨_, middle, third, fourth, hdone, -⟩ | ⟨failure, hfailed, rfl⟩ :=
      hchanged.work_bind_cases
    · obtain ⟨_, heq⟩ := (hadjust hdone).1
      cases heq
    · rw [(hadjust hfailed).2, hrest.done_cases.2.1] at hmem
      cases hmem

/-- **Work keeps a ledger sound**, even if it ends in the middle of a stroke. -/
theorem Worked.isSound {scope : Scope} {now : String} {ending : Option Failure}
    (hplaces : ∀ job, scope.places job → job.IsTextual)
    (h : Worked scope now record ending ledger after) (hsound : ledger.IsSound) :
    after.IsSound := by
  -- Whole strokes keep the ledger sound, and only the last one can have been struck halfway.
  obtain ⟨middle, hstrokes, hlast⟩ := h
  obtain ⟨hmiddle, -⟩ : middle.IsSound ∧ (ledger.AgreesOn "" → middle.AgreesOn "") :=
    isSound_of_strokes hplaces hstrokes hsound
  rcases hlast with rfl | ⟨failure, -, hhalved⟩
  · exact hmiddle
  · -- half a stroke leaves what is tracked as it is
    cases hhalved <;> exact ⟨hmiddle.readable, hmiddle.distinct⟩

/-- **What a request leaves that was broken off**: it stands where the call says that was struck,
and the job store is as sound as before. -/
theorem Ran.leaves {scaled : ProcessType} {ending : Except Failure Unit} {attempt : Attempt}
    {failure : Failure} (hstore : stores.jobs.isSome = true) (hsound : ledger.IsSound)
    (hblueprint : blueprint.IsTyped app) (hprocess : process.IsStorable)
    (htype : process.type = .text type)
    (howner : process.app = .text "" ∨ process.app = .text app)
    (hquantity : process.quantity = .whole current) (htarget : CellNumber.fits target = true)
    (h : Brought blueprint.release type ledger current current ledger)
    (hran : Ran stores moment (scaleType blueprint type process target) ledger record
      (scaled, ending) after)
    (hmem : attempt ∈ record) (hchange : attempt.call.IsChange)
    (hfault : attempt.fault = some failure) :
    ending = .error failure ∧
      Leaves app blueprint type current target attempt.call scaled after := by
  obtain ⟨hending, tracked, scheduled, quantity, hat, hbrought, hscaled⟩ :=
    (hran.scaleType_struck hblueprint.app htype howner hquantity rfl h).2 attempt hmem hchange
      failure hfault
  -- the one process type stands for a formation of its own
  have hstems : process.StemsFrom blueprint [(.text type, process)] :=
    ⟨⟨_, List.mem_singleton_self _, rfl⟩,
      fun htrue => .inr ⟨_, List.mem_singleton_self _, rfl, htrue⟩⟩
  -- As work of that formation, the request is a number of strokes, which keep the job store sound.
  have hworked : Worked (.ofRelease blueprint [(.text type, process)] fun _ => True) moment.now
      record (failureOf? ending) ledger after :=
    (Worked.of_scaleType hstore hstems trivial hran).1
  have htextual : Formation.IsTextual [(.text type, process)] :=
    fun entry hentry => List.mem_singleton.mp hentry ▸ hprocess.command
  have hafter : after.IsSound := hworked.isSound
    (fun job hjob => Blueprint.Submits.isTextual hjob ⟨hblueprint.repo, hblueprint.id⟩ htextual)
    hsound
  -- a change was attempted, so the environment was made before
  have henvironment (hlt : current < target) :
      ∃ environment, Environment.ofVars blueprint.vars = .ok environment :=
    hran.exists_environment hquantity hlt hmem
  rcases hscaled with ⟨rfl, rfl⟩ | ⟨rfl, rfl⟩
  · exact ⟨hending, hafter, hprocess, htype, howner, ⟨ledger, tracked, scheduled, _, hat, hbrought,
      hquantity⟩, henvironment⟩
  · exact ⟨hending, hafter, isStorable_scaled hprocess htarget app, htype,
      .inr (Formation.app_scaled howner), ⟨ledger, tracked, scheduled, _, hat, hbrought, rfl⟩,
      henvironment⟩

/-! ### Once more -/

section Again

variable {scaled : ProcessType} {ending : Except Failure Unit}

/-- What is left to do is done, if the process says where the instances stand. -/
theorem Ran.scaleType_resumes (hblueprint : blueprint.IsTyped app)
    (htarget : CellNumber.fits target = true) (hkeeps : moment.keepsProcesses = true)
    (h : Leaves app blueprint type current target call process ledger)
    (hat : StruckAt blueprint.release type current target call quantity scheduled quantity)
    (hbrought : Brought blueprint.release type start quantity scheduled ledger)
    (hquantity : process.quantity = .whole quantity)
    (hscheduled : scheduled = quantity ∨ scheduled = quantity + 1 ∧ quantity < target)
    (hran : Ran stores moment (scaleType blueprint type process target) ledger record
      (scaled, ending) after) (hcalm : Unhindered record) :
    Retried app blueprint.release type current target call ledger after process scaled record
      ending := by
  -- instances are still to be placed only if they were to be placed before
  have hplaces (hlt : quantity < target) :
      current < target ∧ ∃ m name, instanceName? blueprint.release type m = .ok name := by
    rcases hat.cases_call with hcall | hcall | hcall | hcall
    · have := hat.of_places hcall
      refine ⟨by omega, ?_⟩
      cases hcall with
      | schedule hname | add hname => exact ⟨_, _, hname⟩
    · have := hat.of_unschedules hcall
      omega
    · have := hat.of_untracks hcall
      omega
    · have := hat.of_isUpdate hcall
      omega
  -- so all of them have names, and nothing can fail without a fault
  have hgoes : Goes stores moment (adjust blueprint type process target) ledger _ := goes_adjust
    h.sound hblueprint h.storable hquantity
    (fun hlt => h.environment (hplaces hlt).1) htarget
    (fun hlt m hm => by
      obtain ⟨-, _, _, hname⟩ := hplaces hlt
      exact blueprint.exists_instanceName_of_name hblueprint hname
        (CellNumber.fits_of_le hm htarget)) hbrought hscheduled
  obtain ⟨hending, rfl, moved, row, hmoved, rfl, rfl, rfl, hrow⟩ := hran.scaleType_of_goes
    hblueprint h.storable h.own h.owned hquantity htarget hkeeps hgoes hcalm
  exact .of_ok hat rfl hscheduled hending
    ⟨hmoved.tracked, hmoved.scheduled, isWanted_want row hrow moved, rfl⟩

/-- Instances that the process does not know of are in the way of new ones. -/
theorem Ran.scaleType_duplicates (hblueprint : blueprint.IsTyped app)
    (htarget : CellNumber.fits target = true)
    (h : Leaves app blueprint type current target call process ledger)
    (hat : StruckAt blueprint.release type current target call tracked scheduled current)
    (hbrought : Brought blueprint.release type start tracked scheduled ledger)
    (hquantity : process.quantity = .whole current) (hplaced : current < tracked)
    (hscheduled : tracked ≤ scheduled) (hlt : current < target)
    (hran : Ran stores moment (scaleType blueprint type process target) ledger record
      (scaled, ending) after) (hcalm : Unhindered record) :
    Retried app blueprint.release type current target call ledger after process scaled record
      ending := by
  have hfails : Fails stores moment (adjust blueprint type process target) ledger _ :=
    fails_adjust_of_lt hblueprint h.storable hquantity (h.environment hlt) htarget hbrought hplaced
      hscheduled hlt
  obtain ⟨rfl, failure, hending, hkind, hafter⟩ := hran.scaleType_of_failed hfails hcalm
  exact .of_duplicate hat hplaced ⟨failure, hending, hkind⟩ hafter

/-- The scheduler rejects the last instance if it is not scheduled. -/
theorem Ran.scaleType_rejected (hblueprint : blueprint.IsTyped app)
    (h : Leaves app blueprint type current target call process ledger)
    (hat : StruckAt blueprint.release type current target call current scheduled current)
    (hbrought : Brought blueprint.release type start current scheduled ledger)
    (hquantity : process.quantity = .whole current) (hlt : target < current)
    (hscheduled : scheduled < current)
    (hran : Ran stores moment (scaleType blueprint type process target) ledger record
      (scaled, ending) after) (hcalm : Unhindered record) :
    Retried app blueprint.release type current target call ledger after process scaled record
      ending := by
  have hfails : Fails stores moment (adjust blueprint type process target) ledger
      (fun failure after => failure.kind = .rejection ∧ after = ledger) := by
    rw [adjust_eq_shrinkTo hquantity hlt]
    exact fails_shrinkTo h.sound hblueprint.app hquantity hlt hbrought hscheduled
  obtain ⟨rfl, failure, hending, hkind, rfl⟩ := hran.scaleType_of_failed hfails hcalm
  exact .of_rejected hat hlt rfl hscheduled ⟨failure, hending, hkind⟩

/-- The last instance is missed if it is not tracked, and nothing is asked of the scheduler. -/
theorem Ran.scaleType_misses (hblueprint : blueprint.IsTyped app)
    (h : Leaves app blueprint type current target call process ledger)
    (hat : StruckAt blueprint.release type current target call tracked scheduled current)
    (hbrought : Brought blueprint.release type start tracked scheduled ledger)
    (hquantity : process.quantity = .whole current) (hlt : target < current)
    (htracked : tracked < current) (hname : instanceName? blueprint.release type n = .ok name)
    (hran : Ran stores moment (scaleType blueprint type process target) ledger record
      (scaled, ending) after) (hcalm : Unhindered record) :
    Retried app blueprint.release type current target call ledger after process scaled record
      ending := by
  obtain ⟨counted, hcounted, hfits⟩ := h.storable.quantity
  obtain rfl := Quantity.whole.inj (hquantity.symm.trans hcounted)
  obtain ⟨last, hlast⟩ := blueprint.exists_instanceName_of_name hblueprint hname hfits
  -- the last instance that the process counts is beyond those that are tracked
  have hnot : last ∉ ledger.tracked := by
    rw [hbrought.tracked.mem_iff hlast]
    omega
  have hmissed (first : List Attempt) (result : Except Failure Unit) (between : Ledger)
      (hadjust : Ran stores moment (adjust blueprint type process target).attempt ledger first
        result between) (hcalm : Unhindered first) :
      ∃ failure, result = .error failure ∧ failure = .untracked (.text last) ∧ between = ledger ∧
        ∀ attempt ∈ first, attempt.call = .list blueprint.release.app := by
    rw [adjust_eq_shrinkTo hquantity hlt] at hadjust
    obtain ⟨hresult, hrest⟩ := hadjust.shrinkTo_untracked h.sound hblueprint.app hquantity hlt
      hlast hnot hcalm
    exact ⟨_, hresult, rfl, hrest⟩
  obtain ⟨rfl, failure, hending, rfl, rfl, hcalls⟩ := hran.scaleType_of_failed hmissed hcalm
  -- All that is on record is one listing of what is tracked.
  refine .of_untracked hat htracked hlast hending fun attempt hmem => ?_
  rw [hcalls attempt hmem]
  exact id

/-- **A process type is scaled once more**, and no fault strikes. -/
theorem Ran.scaleType_retried (hblueprint : blueprint.IsTyped app)
    (htarget : CellNumber.fits target = true) (hkeeps : moment.keepsProcesses = true)
    (h : Leaves app blueprint type current target call process ledger)
    (hran : Ran stores moment (scaleType blueprint type process target) ledger record
      (scaled, ending) after) (hcalm : Unhindered record) :
    Retried app blueprint.release type current target call ledger after process scaled record
      ending := by
  obtain ⟨start, tracked, scheduled, quantity, hat, hbrought, hquantity⟩ := h.stands
  -- the call that was struck says where the instances stand, and whether the process says the same
  rcases hat.cases_call with hcall | hcall | hcall | hcall
  · obtain ⟨hle, hlt, -, hscheduled, hnext, rfl⟩ := hat.of_places hcall
    rcases Nat.eq_or_lt_of_le hle with rfl | hplaced
    · exact hran.scaleType_resumes hblueprint htarget hkeeps h hat hbrought hquantity (by omega)
        hcalm
    · exact hran.scaleType_duplicates hblueprint htarget h hat hbrought hquantity hplaced
        hscheduled (by omega) hcalm
  · -- nothing was withdrawn yet, or the highest instance is missing by now
    obtain ⟨hlt, hle, -, rfl, rfl⟩ := hat.of_unschedules hcall
    rcases Nat.eq_or_lt_of_le hle with rfl | hwithdrawn
    · exact hran.scaleType_resumes hblueprint htarget hkeeps h hat hbrought hquantity (.inl rfl)
        hcalm
    · obtain ⟨hname⟩ := hcall
      exact hran.scaleType_misses hblueprint h hat hbrought hquantity (by omega) hwithdrawn hname
        hcalm
  · -- the scheduler let go of an instance that is tracked still
    obtain ⟨hlt, hle, -, hscheduled, rfl⟩ := hat.of_untracks hcall
    rcases Nat.eq_or_lt_of_le hle with rfl | hwithdrawn
    · exact hran.scaleType_rejected hblueprint h hat hbrought hquantity hlt (by omega) hcalm
    · obtain ⟨hname, -⟩ := hcall
      exact hran.scaleType_misses hblueprint h hat hbrought hquantity (by omega) hwithdrawn hname
        hcalm
  · -- all instances are where they are to be, and only the row is missing
    obtain ⟨rfl, rfl, rfl⟩ := hat.of_isUpdate hcall
    exact hran.scaleType_resumes hblueprint htarget hkeeps h hat hbrought hquantity (.inl rfl)
      hcalm

end Again

/-- A request for one process type that is known scales it, and nothing else. -/
theorem Ran.scaleTypes_singleton {formation : Formation} {result : Scale.Result}
    (hknown : formation.process? type = some process)
    (hran : Ran stores moment (scaleTypes blueprint [(type, target)] formation) ledger record result
      after) :
    ∃ scaled, result.formation = formation.replace type scaled ∧
      Ran stores moment (scaleType blueprint type process target) ledger record
        (scaled, result.ending) after := by
  rw [scaleTypes, hknown] at hran
  obtain ⟨⟨scaled, ending⟩, between, first, second, hfirst, hrest, rfl⟩ := Ran.bind_cases
    (scaleType blueprint type process target) hran
  refine ⟨scaled, ?_⟩
  -- The request has one entry, so both endings leave nothing to work off.
  cases ending with
  | error | ok =>
    obtain ⟨rfl, rfl, rfl⟩ := hrest.done_cases
    rw [List.append_nil]
    exact ⟨rfl, hfirst⟩

end Ledger

/-! ### In a world -/

namespace World

variable {opened : Opened} {stores : Stores} {world between again last : World} {ledger : Ledger}
  {app type : String} {blueprint : Blueprint} {formation : Formation} {process : ProcessType}
  {quantities : List (Value × Value)} {current target : Nat} {first second : Scale.Result}
  {attempt : Attempt} {failure : Failure}

/-- **How a request ends that was broken off by a fault and is made again without one.** At first
the instances of the process type are those up to its quantity, tracked and scheduled alike. A fault
strikes a call of the first request, which fails with it. The second request has the formation that
the first one left, and meets no fault; `Ledger.Retried` says how it ends, for each call that may
have been struck. -/
theorem scale_retried (hserve : stores.Serve opened) (hstore : stores.processes.isSome = true)
    (hshows : world.Shows opened ledger) (hsound : ledger.IsSound)
    (hblueprint : blueprint.IsTyped app) (hknown : formation.process? type = some process)
    (hprocess : process.IsStorable) (htype : process.type = .text type)
    (howner : process.app = .text "" ∨ process.app = .text app)
    (hquantity : process.quantity = .whole current)
    (htracked : IsRange current (HasInstance blueprint.release type ledger.tracked))
    (hscheduled : IsRange current (HasInstance blueprint.release type ledger.scheduled))
    (hrequest : ScaleRequest.ofEntries quantities = .ok [(type, target)])
    (htarget : CellNumber.fits target = true)
    (hrun : run stores (scale blueprint quantities formation) world = (first, between))
    (hmem : attempt ∈ attempts stores (scale blueprint quantities formation) world)
    (hchange : attempt.call.IsChange) (hfault : attempt.fault = some failure)
    (hsame : ∀ left, between.Shows opened left → again.Shows opened left)
    (hagain : run stores (scale blueprint quantities first.formation) again = (second, last))
    (hcalm : Ledger.Unhindered
      (attempts stores (scale blueprint quantities first.formation) again)) :
    first.ending = .error failure ∧ ∃ left after before scaled,
      between.Shows opened left ∧ last.Shows opened after ∧
      first.formation = formation.replace type before ∧
      second.formation = first.formation.replace type scaled ∧
      Ledger.Retried app blueprint.release type current target attempt.call left after before scaled
        (attempts stores (scale blueprint quantities first.formation) again) second.ending := by
  have hplan (formation : Formation) : scale blueprint quantities formation =
      scaleTypes blueprint [(type, target)] formation := by
    rw [scale_eq, hrequest]
  -- The first request ran on a ledger, where the struck call tells what it left.
  obtain ⟨left, hran, hshown, -⟩ := run_ran hserve hshows (isAt_moment stores world)
    (scale blueprint quantities formation)
  rw [hrun] at hran hshown
  rw [hplan] at hran hmem
  obtain ⟨before, hbefore, hfirst⟩ := hran.scaleTypes_singleton hknown
  have hjobs : stores.jobs.isSome = true := by
    rw [hserve.jobs]
    rfl
  obtain ⟨hending, hleaves⟩ := hfirst.leaves hjobs hsound hblueprint hprocess htype howner hquantity
    htarget ⟨htracked, hscheduled, fun name _ => .refl name ledger, rfl⟩ hmem hchange hfault
  -- the process type is known by the process that the first request left
  have hknown' : first.formation.process? type = some before := by
    rw [hbefore, Formation.process?_replace, if_pos rfl, hknown]
    rfl
  -- The second one runs on the ledger that was left, without a fault.
  obtain ⟨after, hran', hshown', -⟩ := run_ran hserve (hsame left hshown)
    (isAt_moment stores again) (scale blueprint quantities first.formation)
  rw [hagain] at hran' hshown'
  rw [hplan] at hran' hcalm ⊢
  obtain ⟨scaled, hscaled, hsecond⟩ := hran'.scaleTypes_singleton hknown'
  exact ⟨hending, left, after, before, scaled, hshown, hshown', hbefore, hscaled,
    hsecond.scaleType_retried hblueprint htarget hstore hleaves hcalm⟩

/-- A world in which the scheduler rejects a name once. -/
def rejecting (name : String) : World :=
  { Session.fresh.world with faults := [.rejecting .schedule name] }

/-- A request for instances of a release where there are none, and the scheduler rejects a name. -/
def brokenOff (version : Int) (name : String) (target : Nat) : Scale.Result × World :=
  run Session.freshlyOpened.stores
    (scale (.web version) (Session.requesting target) (.web 0)) (rejecting name)

theorem run_rejecting (version : Int) (name : String) (target : Nat) :
    run Session.freshlyOpened.stores (scale (.web version) (Session.requesting target) (.web 0))
      (rejecting name) = ((brokenOff version name target).1, (brokenOff version name target).2) :=
  rfl

/-- The world that such a request leaves, without faults. -/
def spared (version : Int) (name : String) (target : Nat) : World :=
  { (brokenOff version name target).2 with faults := [] }

/-- The same request, with the formation that was left. -/
def requestAgain (version : Int) (name : String) (target : Nat) : Plan Collaborators Scale.Result :=
  scale (.web version) (Session.requesting target) (brokenOff version name target).1.formation

/-- The same request once more. -/
def onceMore (version : Int) (name : String) (target : Nat) : Scale.Result × World :=
  run Session.freshlyOpened.stores (requestAgain version name target) (spared version name target)

theorem run_requestAgain (version : Int) (name : String) (target : Nat) :
    run Session.freshlyOpened.stores (scale (.web version) (Session.requesting target)
      (brokenOff version name target).1.formation) (spared version name target) =
        ((onceMore version name target).1, (onceMore version name target).2) :=
  rfl

theorem shows_spared {version : Int} {name : String} {target : Nat} {left : Ledger}
    (h : (brokenOff version name target).2.Shows opened left) :
    (spared version name target).Shows opened left :=
  h.of_same rfl rfl rfl

/-- If the first of three instances is rejected once, the request is made again. -/
theorem scale_retried_after_rejection :
    ∃ attempt ∈ attempts Session.freshlyOpened.stores
        (scale (.web 1) (Session.requesting 3) (.web 0)) (rejecting "web.1.web.1"),
      attempt.call.IsChange ∧ ∃ failure left after before scaled, attempt.fault = some failure ∧
        (onceMore 1 "web.1.web.1" 3).2.Shows Session.freshlyOpened after ∧
        Ledger.Retried "web" (Blueprint.web 1).release "web" 0 3 attempt.call left after before
          scaled
          (attempts Session.freshlyOpened.stores (requestAgain 1 "web.1.web.1" 3)
            (spared 1 "web.1.web.1" 3)) (onceMore 1 "web.1.web.1" 3).1.ending := by
  have hstruck : ∃ attempt ∈ attempts Session.freshlyOpened.stores
      (scale (.web 1) (Session.requesting 3) (.web 0)) (rejecting "web.1.web.1"),
      attempt.call.IsChange ∧ attempt.fault.isSome = true := by decide +kernel
  obtain ⟨attempt, hmem, hchange, hsome⟩ := hstruck
  obtain ⟨failure, hfault⟩ := Option.isSome_iff_exists.mp hsome
  have hserve := Session.freshlyOpened.serve_stores
  obtain ⟨hmemory, htime, hjobs, hprocesses, hevents⟩ := (Session.fresh_inOrder "web").shows
  have hshows : (rejecting "web.1.web.1").Shows Session.freshlyOpened ⟨[], [], []⟩ :=
    ⟨hmemory, htime, hjobs, hprocesses, hevents⟩
  have hnone : IsRange 0 (HasInstance (Blueprint.web 1).release "web" []) := fun ordinal =>
    iff_of_false (fun ⟨_, _, hmem⟩ => nomatch hmem) (by omega)
  have hknown : (Formation.web 0).process? "web" =
      some ⟨.text "web", .text "./run", .whole 0, .text ""⟩ := rfl
  -- no fault is left that could strike again
  obtain ⟨left, -, hleft, -⟩ := run_ran hserve hshows (isAt_moment _ _)
    (scale (.web 1) (Session.requesting 3) (.web 0))
  have hcalm : Ledger.Unhindered (attempts Session.freshlyOpened.stores
      (requestAgain 1 "web.1.web.1" 3) (spared 1 "web.1.web.1" 3)) := fun attempt hmem =>
    faults_of_mem_attempts hserve (shows_spared hleft) (spares_of_no_faults rfl _) attempt hmem rfl
  obtain ⟨-, left, after, before, scaled, -, hafter, -, -, hretried⟩ := scale_retried hserve rfl
    hshows (Session.fresh_inOrder "web").sound (Blueprint.isTyped_web (by decide +kernel)) hknown
    ⟨⟨_, rfl⟩, ⟨_, rfl⟩, ⟨0, rfl, by decide +kernel⟩, ⟨_, rfl⟩⟩ rfl (.inl rfl) rfl hnone hnone
    (Session.ofEntries_requesting 3) (by decide +kernel) (run_rejecting 1 _ 3) hmem hchange hfault
    (fun _ => shows_spared) (run_requestAgain 1 _ 3) hcalm
  exact ⟨attempt, hmem, hchange, failure, left, after, before, scaled, hfault, hafter, hretried⟩

/-- **A request that was struck before it did anything does not always reach its end** when it is
made again. A version of more than 64 bits makes a name, and the scheduler takes it at the second
time. The job store does not. -/
theorem not_always_resumed :
    (instanceName? (Blueprint.web 9223372036854775808).release "web" 1).toOption =
        some "web.9223372036854775808.web.1" ∧
      (attempts Session.freshlyOpened.stores
          (scale (.web 9223372036854775808) (Session.requesting 1) (.web 0))
          (rejecting "web.9223372036854775808.web.1")).map
        (fun attempt => (attempt.call.verb, attempt.fault.isSome)) = [("schedule", true)] ∧
      (failureOf? (onceMore 9223372036854775808 "web.9223372036854775808.web.1" 1).1.ending).map
        Failure.kind = some .overflow := by
  decide +kernel

end World

end Rollout
