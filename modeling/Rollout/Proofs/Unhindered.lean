import Rollout.Proofs.RollingOut
import Rollout.Proofs.Strokes

/-!
# Runs without faults

A run whose record holds no fault (`Ledger.Unhindered`) is decided by the ledger on which it starts.
Two laws of total correctness tell how work ends then: `Ledger.Goes` says that it succeeds with a
postcondition, and `Ledger.Fails` that it fails with one.

Each call that operations make has a lemma for the one or the other, with what decides between the
two as its premise:

* scheduling goes well if the image has a reference, and a name is unscheduled exactly if it is
  scheduled (`Goes.unschedule`, `Fails.unschedule`);
* a job is tracked exactly if its name is new (`Goes.add`, `Fails.add`), and listing goes well as
  long as all rows can be read (`Goes.list`).

`Goes.bind` and `Goes.bind_fails` put calls together to work: it goes well step by step, or up to
the step that fails.
-/

namespace Rollout

/-- An event that can be stored is admitted. -/
theorem EventRow.exists_admit? {event : Event} (h : event.IsStorable) (now : String) :
    ∃ row, admit? now event = .ok row := by
  obtain ⟨level, message, app, version⟩ := event
  -- Each field of the event is of the kind that its column takes, and the version fits 64 bits.
  obtain ⟨level, rfl⟩ := h.level
  obtain ⟨app, rfl⟩ := h.app
  obtain ⟨n, rfl, hfits⟩ := h.version
  obtain ⟨message, rfl⟩ := h.message
  refine ⟨⟨now, Text.upperCase level, some app, .int n, message⟩, ?_⟩
  rw [admit?]
  show ofEvent now (Text.upperCase level) (.text app) (.int n) (.text message) = _
  simp only [ofEvent, Cell.bind_text, Cell.bind_int _ hfits]
  rfl

/-- A process that can be stored has a row, which reads back as the process. -/
theorem ProcessRow.exists_ofProcess {process : ProcessType} (h : process.IsStorable)
    (now : String) : ∃ row, ofProcess now process = .ok row ∧ row.process? = .ok process := by
  obtain ⟨type, command, quantity, app⟩ := process
  obtain ⟨type, rfl⟩ := h.type
  obtain ⟨command, rfl⟩ := h.command
  obtain ⟨n, rfl, hfits⟩ := h.quantity
  obtain ⟨app, rfl⟩ := h.app
  refine ⟨⟨app, type, command, .int n, now⟩, ?_, rfl⟩
  simp only [ofProcess, Quantity.toValue, Cell.bind_text, Cell.bind_int _ hfits]
  rfl

theorem Image.exists_reference? {image : Image} (hrepo : ∃ s, image.repo = .text s)
    (hid : ∃ s, image.id = .text s) : ∃ reference, image.reference? = .ok reference := by
  obtain ⟨repo, id⟩ := image
  obtain ⟨repo, rfl⟩ := hrepo
  obtain ⟨id, rfl⟩ := hid
  exact ⟨_, rfl⟩

namespace Ledger

variable {α β : Type} {stores : Stores} {moment : Moment} {ledger after : Ledger}
  {record first second : List Attempt}

/-- No call on the record met a fault. Then every answer is the one that the ledger decides, and
what work comes to can be computed. -/
def Unhindered (record : List Attempt) : Prop := ∀ attempt ∈ record, attempt.fault = none

theorem Unhindered.left (h : Unhindered (first ++ second)) : Unhindered first :=
  fun attempt hmem => h attempt (List.mem_append_left _ hmem)

theorem Unhindered.right (h : Unhindered (first ++ second)) : Unhindered second :=
  fun attempt hmem => h attempt (List.mem_append_right _ hmem)

/-- **A call that meets no fault** is answered from the ledger. What became of it is thereby
determined, up to whether the cleanup is cancelled. -/
theorem Ran.ask_unhindered {request : Call} {answer : request.Answer}
    (h : Ran stores moment request.ask ledger record answer after) (hcalm : Unhindered record) :
    ∃ cancelled, (answer, after) = ledger.answer { moment with cancelled } request := by
  -- A call is either struck by a fault, which its record would show, or answered from the ledger.
  rcases ask_cases h with ⟨failure, -, -, rfl⟩ | ⟨cancelled, hanswer, -⟩
  · cases hcalm _ (List.mem_singleton_self _)
  · exact ⟨cancelled, hanswer⟩

/-- Work that meets no fault succeeds, and `done` holds then. A law of total correctness: success is
part of what it says, not a condition of it. -/
def Goes (stores : Stores) (moment : Moment) (work : Action α) (ledger : Ledger)
    (done : α → Ledger → Prop) : Prop :=
  ∀ record result after, Ran stores moment work.attempt ledger record result after →
    Unhindered record → ∃ value, result = .ok value ∧ done value after

/-- Work that meets no fault fails all the same, and `failed` holds then. The cause lies in the
ledger or in the request, and a retry meets it again. -/
def Fails (stores : Stores) (moment : Moment) (work : Action α) (ledger : Ledger)
    (failed : Failure → Ledger → Prop) : Prop :=
  ∀ record result after, Ran stores moment work.attempt ledger record result after →
    Unhindered record → ∃ failure, result = .error failure ∧ failed failure after

variable {work : Action α} {next : α → Action β} {middle : α → Ledger → Prop}
  {done : β → Ledger → Prop} {failed : Failure → Ledger → Prop}

namespace Goes

theorem pure {value : α} {done : α → Ledger → Prop} (h : done value ledger) :
    Goes stores moment (Pure.pure value) ledger done := by
  intro record result after hran _
  obtain ⟨rfl, rfl, rfl⟩ := hran.done_cases
  exact ⟨value, rfl, h⟩

/-- A first step that goes well hands on: what is left of the run is a run of the second step,
which meets no fault either. -/
theorem handsOn (h : Goes stores moment work ledger middle) {result : Except Failure β}
    (hran : Ran stores moment (work >>= next).attempt ledger record result after)
    (hcalm : Unhindered record) : ∃ value between rest, middle value between ∧
      Ran stores moment (next value).attempt between rest result after ∧ Unhindered rest := by
  rcases hran.work_bind_cases with ⟨value, between, first, second, hfirst, hsecond, rfl⟩ |
      ⟨failure, hfirst, rfl⟩
  · obtain ⟨value', heq, hmiddle⟩ := h _ _ _ hfirst hcalm.left
    obtain rfl := Except.ok.inj heq
    exact ⟨value, between, second, hmiddle, hsecond, hcalm.right⟩
  · -- the first step cannot have failed
    obtain ⟨_, heq, -⟩ := h _ _ _ hfirst hcalm
    cases heq

/-- **Work in two steps goes well** if the second step does from where the first one ended. -/
theorem bind (h : Goes stores moment work ledger middle)
    (h' : ∀ value between, middle value between → Goes stores moment (next value) between done) :
    Goes stores moment (work >>= next) ledger done := by
  intro record result after hran hcalm
  obtain ⟨value, between, rest, hmiddle, hrest, hcalm'⟩ := h.handsOn hran hcalm
  exact h' value between hmiddle rest result after hrest hcalm'

/-- **Work in two steps fails** if the first step goes well and the second one does not. What the
first one has done stays. -/
theorem bind_fails (h : Goes stores moment work ledger middle)
    (h' : ∀ value between, middle value between → Fails stores moment (next value) between failed) :
    Fails stores moment (work >>= next) ledger failed := by
  intro record result after hran hcalm
  obtain ⟨value, between, rest, hmiddle, hrest, hcalm'⟩ := h.handsOn hran hcalm
  exact h' value between hmiddle rest result after hrest hcalm'

theorem ofExcept {known : Except Failure α} {value : α} (hknown : known = .ok value)
    (ledger : Ledger) : Goes stores moment (Work.ofExcept known) ledger
      (fun other after => other = value ∧ after = ledger) := by
  intro record result after hran _
  obtain ⟨rfl, -, rfl⟩ := hran.done_cases
  exact ⟨value, hknown, rfl, rfl⟩

theorem ofExcept_bind {known : Except Failure α} {value : α} (hknown : known = .ok value)
    (h : Goes stores moment (next value) ledger done) :
    Goes stores moment (Work.ofExcept known >>= next) ledger done :=
  (ofExcept hknown ledger).bind fun _ _ ⟨hvalue, hsame⟩ => hvalue ▸ hsame ▸ h

theorem imp {done done' : α → Ledger → Prop} (h : Goes stores moment work ledger done)
    (himp : ∀ value after, done value after → done' value after) :
    Goes stores moment work ledger done' := by
  intro record result after hran hcalm
  obtain ⟨value, hresult, hdone⟩ := h _ _ _ hran hcalm
  exact ⟨value, hresult, himp value after hdone⟩

/-! ### Calls that go well -/

theorem schedule {definition : Definition} {reference : String}
    (href : definition.image.reference? = .ok reference) (ledger : Ledger) :
    Goes stores moment (Action.schedule definition) ledger
      (fun _ after => after = ledger.schedule definition) := by
  intro record result after hran hcalm
  obtain ⟨cancelled, hanswer⟩ := hran.ask_unhindered hcalm
  rw [answer, href] at hanswer
  obtain ⟨rfl, rfl⟩ := Prod.mk.inj hanswer
  exact ⟨(), rfl, rfl⟩

theorem unschedule {name : String} (hmem : name ∈ ledger.scheduled) :
    Goes stores moment (Action.unschedule name) ledger
      (fun _ after => after = ledger.unschedule name) := by
  intro record result after hran hcalm
  obtain ⟨cancelled, hanswer⟩ := hran.ask_unhindered hcalm
  rw [answer_unschedule_of_mem hmem] at hanswer
  obtain ⟨rfl, rfl⟩ := Prod.mk.inj hanswer
  exact ⟨(), rfl, rfl⟩

theorem add {job : Job} {name : String} (hjob : job.IsStorable) (hname : job.name? = .ok name)
    (hnew : name ∉ ledger.tracked) :
    Goes stores moment (Action.add job) ledger
      (fun _ after => ∃ row : JobRow, row.name = name ∧ after = ledger.add row) := by
  intro record result after hran hcalm
  obtain ⟨cancelled, hanswer⟩ := hran.ask_unhindered hcalm
  obtain ⟨row, hrow, -, hadmit⟩ := JobRow.admit?_of_isStorable hjob hname moment.now ledger.jobs
  -- The name is not among the tracked ones, so the constraint on names lets the row in.
  have hunique : JobRow.unique? ledger.jobs row = .ok row := if_neg (hrow ▸ hnew)
  rw [answer, hadmit, hunique] at hanswer
  obtain ⟨rfl, rfl⟩ := Prod.mk.inj hanswer
  exact ⟨(), rfl, row, hrow, rfl⟩

theorem remove {job : Job} {name : String} (hname : job.name? = .ok name) (ledger : Ledger) :
    Goes stores moment (Action.remove job) ledger
      (fun _ after => after = ledger.remove name) := by
  intro record result after hran hcalm
  obtain ⟨cancelled, hanswer⟩ := hran.ask_unhindered hcalm
  rw [answer, hname] at hanswer
  obtain ⟨rfl, rfl⟩ := Prod.mk.inj hanswer
  exact ⟨(), rfl, rfl⟩

/-- The jobs of an application are listed under their tracked names. -/
theorem list (hsound : ledger.IsSound) (app : String) :
    Goes stores moment (Action.list (.text app)) ledger
      (fun jobs after => Job.NamesOf jobs (ledger.trackedOf app) ∧ after = ledger) := by
  intro record result after hran hcalm
  obtain ⟨cancelled, hanswer⟩ := hran.ask_unhindered hcalm
  obtain ⟨jobs, hjobs, -⟩ := hsound.exists_listed app
  rw [answer, listed?_text, hjobs] at hanswer
  obtain ⟨rfl, rfl⟩ := Prod.mk.inj hanswer
  exact ⟨jobs, rfl, hsound.namesOf_listed hjobs, rfl⟩

theorem update {process : ProcessType} (hkeeps : moment.keepsProcesses = true)
    (hprocess : process.IsStorable) (ledger : Ledger) :
    Goes stores moment (Action.update process) ledger (fun _ after => ∃ row,
      ProcessRow.ofProcess moment.now process = .ok row ∧ after = ledger.want row) := by
  intro record result after hran hcalm
  obtain ⟨cancelled, hanswer⟩ := hran.ask_unhindered hcalm
  -- The store answers with what it reads back from the row it wrote, and that is the process.
  obtain ⟨row, hrow, hread⟩ := ProcessRow.exists_ofProcess hprocess moment.now
  rw [answer, if_pos hkeeps, hrow] at hanswer
  obtain ⟨rfl, rfl⟩ := Prod.mk.inj hanswer
  exact ⟨process, hread, row, hrow, rfl⟩

theorem log {event : Event} (hevent : event.IsStorable) (ledger : Ledger) :
    Goes stores moment (Action.log event) ledger (fun _ after => after = ledger) := by
  intro record result after hran hcalm
  -- Logging is a call whose answer is then weighed; only the call can change anything.
  obtain ⟨answered, between, first, second, hlog, hrest, rfl⟩ :=
    Ran.bind_cases (Call.ask (.log event)) hran
  obtain ⟨cancelled, hanswer⟩ := hlog.ask_unhindered hcalm.left
  obtain ⟨row, hrow⟩ := EventRow.exists_admit? hevent moment.now
  rw [answer, hrow] at hanswer
  obtain ⟨rfl, rfl⟩ := Prod.mk.inj hanswer
  obtain ⟨rfl, -, rfl⟩ := hrest.done_cases
  exact ⟨(), rfl, rfl⟩

end Goes

namespace Fails

/-- Work of which a first step fails does not go further. -/
theorem bind (h : Fails stores moment work ledger failed) :
    Fails stores moment (work >>= next) ledger failed := by
  intro record result after hran hcalm
  rcases hran.work_bind_cases with ⟨value, between, first, second, hfirst, -, rfl⟩ |
      ⟨failure, hfirst, rfl⟩
  -- The first step does not succeed, so the second one never starts.
  · obtain ⟨_, heq, -⟩ := h _ _ _ hfirst hcalm.left
    cases heq
  · obtain ⟨_, heq, hfailed⟩ := h _ _ _ hfirst hcalm
    exact ⟨failure, rfl, Except.error.inj heq ▸ hfailed⟩

theorem ofExcept_bind {known : Except Failure α} {value : α} (hknown : known = .ok value)
    (h : Fails stores moment (next value) ledger failed) :
    Fails stores moment (Work.ofExcept known >>= next) ledger failed :=
  (Goes.ofExcept hknown ledger).bind_fails fun _ _ ⟨hvalue, hsame⟩ => hvalue ▸ hsame ▸ h

theorem imp {failed' : Failure → Ledger → Prop} (h : Fails stores moment work ledger failed)
    (himp : ∀ failure after, failed failure after → failed' failure after) :
    Fails stores moment work ledger failed' := by
  intro record result after hran hcalm
  obtain ⟨failure, hresult, hfailed⟩ := h _ _ _ hran hcalm
  exact ⟨failure, hresult, himp failure after hfailed⟩

/-! ### Calls that fail -/

theorem unschedule {name : String} (hnot : name ∉ ledger.scheduled) :
    Fails stores moment (Action.unschedule name) ledger
      (fun failure after => failure.kind = .rejection ∧ after = ledger) := by
  intro record result after hran hcalm
  obtain ⟨cancelled, hanswer⟩ := hran.ask_unhindered hcalm
  rw [answer_unschedule_of_not_mem hnot] at hanswer
  obtain ⟨rfl, rfl⟩ := Prod.mk.inj hanswer
  exact ⟨_, rfl, rfl, rfl⟩

/-- The job store refuses a name that it has. -/
theorem add {job : Job} {name : String} (hjob : job.IsStorable) (hname : job.name? = .ok name)
    (hmem : name ∈ ledger.tracked) :
    Fails stores moment (Action.add job) ledger
      (fun failure after => failure.kind = .repository ∧ after = ledger) := by
  intro record result after hran hcalm
  obtain ⟨cancelled, hanswer⟩ := hran.ask_unhindered hcalm
  obtain ⟨row, hrow, -, hadmit⟩ := JobRow.admit?_of_isStorable hjob hname moment.now ledger.jobs
  -- This time the constraint on names turns the row away.
  have hduplicate : JobRow.unique? ledger.jobs row = .error (.storage (.duplicate "jobs" "name")) :=
    if_pos (hrow ▸ hmem)
  rw [answer, hadmit, hduplicate, hname] at hanswer
  obtain ⟨rfl, rfl⟩ := Prod.mk.inj hanswer
  exact ⟨_, rfl, rfl, rfl⟩

end Fails

end Ledger

end Rollout
