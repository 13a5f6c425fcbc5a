import Rollout.Proofs.Strokes

/-!
# How work ends where a fault strikes

Work that changes something may be struck by a fault at any of its calls. It then ends with the
failure of the fault, and what it leaves depends on the call. `Ledger.Ends` states both sides: a
postcondition for work that succeeds, and a second one for the call that was struck. It is a law of
partial correctness: work may also fail without a fault, and nothing is said about that.

* `Ends.bind`: in a sequence only the last step that was made can have been struck, since work stops
  at its first failure.
* `Ends.schedule`, `Ends.unschedule`, `Ends.add`, `Ends.remove` and `Ends.update` are the five calls
  that change something. A fault that strikes one of them leaves the ledger as it was.
* `Ends.list` and `Ends.log` are calls that change nothing. A fault may strike them as well, and no
  second postcondition is needed for that.
-/

namespace Rollout

/-! ### Calls that change something -/

/-- The call is made to change what is scheduled, tracked or wanted. Reports and lists only look,
logging goes to a table that operations never read, and the other two ask for nothing but time. -/
def Call.IsChange : Call → Prop
  | .schedule _ | .unschedule _ | .add _ | .remove _ | .update _ => True
  | .report | .list _ | .log _ | .wait _ | .cancelled => False

instance : DecidablePred Call.IsChange
  | .schedule _ | .unschedule _ | .add _ | .remove _ | .update _ => isTrue trivial
  | .report | .list _ | .log _ | .wait _ | .cancelled => isFalse id

namespace Ledger

variable {α β : Type} {stores : Stores} {moment : Moment} {ledger after : Ledger}
  {record : List Attempt}

/-- How work that starts on a ledger ends: `done` holds if it succeeds, and if a change on its
record was struck by a fault, the work fails with the failure of the fault and `residue` holds of
that call. -/
def Ends (stores : Stores) (moment : Moment) (work : Action α) (ledger : Ledger)
    (done : α → Ledger → Prop) (residue : Call → Ledger → Prop) : Prop :=
  ∀ record result after, Ran stores moment work.attempt ledger record result after →
    (∀ value, result = .ok value → done value after) ∧
    ∀ attempt ∈ record, attempt.call.IsChange → ∀ failure, attempt.fault = some failure →
      result = .error failure ∧ residue attempt.call after

namespace Ends

variable {work : Action α} {next : α → Action β} {middle : α → Ledger → Prop}
  {done : β → Ledger → Prop} {residue : Call → Ledger → Prop}

/-- **Work in two steps**: where the first step succeeded no fault struck in it. -/
theorem bind (h : Ends stores moment work ledger middle residue)
    (h' : ∀ value between, middle value between →
      Ends stores moment (next value) between done residue) :
    Ends stores moment (work >>= next) ledger done residue := by
  intro record result after hran
  rcases hran.work_bind_cases with ⟨value, between, first, second, hfirst, hsecond, rfl⟩ |
      ⟨failure, hfirst, rfl⟩
  · obtain ⟨hmiddle, hstruck⟩ := h _ _ _ hfirst
    obtain ⟨hdone, hstruck'⟩ := h' _ _ (hmiddle value rfl) _ _ _ hsecond
    refine ⟨hdone, fun attempt hmem hchange failure hfault => ?_⟩
    rcases List.mem_append.mp hmem with hearly | hlate
    -- Struck and successful at once: the first half of the law rules that out.
    · cases (hstruck attempt hearly hchange failure hfault).1
    · exact hstruck' attempt hlate hchange failure hfault
  -- The first step failed, so it is the only one that made calls.
  · refine ⟨fun value hvalue => (nomatch hvalue), fun attempt hmem hchange cause hfault => ?_⟩
    obtain ⟨hcause, hresidue⟩ := (h _ _ _ hfirst).2 attempt hmem hchange cause hfault
    exact ⟨congrArg Except.error (Except.error.inj hcause), hresidue⟩

theorem pure {value : α} {done : α → Ledger → Prop} (h : done value ledger) :
    Ends stores moment (Pure.pure value) ledger done residue := by
  intro record result after hran
  obtain ⟨rfl, rfl, rfl⟩ := hran.done_cases
  refine ⟨fun other hother => ?_, fun _ hmem => nomatch hmem⟩
  rw [← Except.ok.inj hother]
  exact h

theorem throw {failure : Failure} {done : α → Ledger → Prop} :
    Ends stores moment (MonadExcept.throw failure : Action α) ledger done residue := by
  intro record result after hran
  obtain ⟨rfl, rfl, rfl⟩ := hran.done_cases
  exact ⟨fun _ hother => (nomatch hother), fun _ hmem => nomatch hmem⟩

theorem ofExcept {known : Except Failure α} :
    Ends stores moment (Work.ofExcept known) ledger
      (fun value after => known = .ok value ∧ after = ledger) residue := by
  intro record result after hran
  obtain ⟨rfl, rfl, rfl⟩ := hran.done_cases
  exact ⟨fun value hvalue => ⟨hvalue, rfl⟩, fun _ hmem => nomatch hmem⟩

theorem ofExcept_bind {known : Except Failure α}
    (h : ∀ value, known = .ok value → Ends stores moment (next value) ledger done residue) :
    Ends stores moment (Work.ofExcept known >>= next) ledger done residue :=
  ofExcept.bind fun value _ ⟨hknown, hsame⟩ => hsame ▸ h value hknown

/-- A rule with a weaker postcondition, and a weaker statement about the call that was struck. -/
theorem imp {done done' : α → Ledger → Prop} {residue residue' : Call → Ledger → Prop}
    (h : Ends stores moment work ledger done residue)
    (hdone : ∀ value after, done value after → done' value after)
    (hresidue : ∀ call after, residue call after → residue' call after) :
    Ends stores moment work ledger done' residue' := by
  intro record result after hran
  obtain ⟨h₁, h₂⟩ := h _ _ _ hran
  refine ⟨fun value hvalue => hdone _ _ (h₁ value hvalue), ?_⟩
  intro attempt hmem hchange failure hfault
  obtain ⟨hresult, hleft⟩ := h₂ attempt hmem hchange failure hfault
  exact ⟨hresult, hresidue _ _ hleft⟩

end Ends

/-! ### Single calls -/

/-- A fault that strikes a call leaves the ledger as it was. -/
theorem Ran.ask_struck {request : Call} {answer : request.Answer}
    (h : Ran stores moment request.ask ledger record answer after) :
    ∀ attempt ∈ record, ∀ failure, attempt.fault = some failure →
      answer = request.fail failure ∧ attempt.call = request ∧ after = ledger := by
  intro attempt hmem failure hfault
  -- Of a single call there is one entry on record at most.
  rcases ask_cases h with ⟨cause, rfl, rfl, rfl⟩ | ⟨cancelled, -, rfl⟩
  · obtain rfl := List.mem_singleton.mp hmem
    obtain rfl := Option.some.inj hfault
    exact ⟨rfl, rfl, rfl⟩
  · -- a call that was answered is noted without a fault
    rw [Stores.noted] at hmem
    split at hmem
    · obtain rfl := List.mem_singleton.mp hmem
      cases hfault
    · cases hmem

namespace Ends

variable {residue : Call → Ledger → Prop}

theorem schedule (definition : Definition) (ledger : Ledger) :
    Ends stores moment (Action.schedule definition) ledger
      (fun _ after => after = ledger.schedule definition)
      (fun call after => call = .schedule definition ∧ after = ledger) := by
  intro record result after hran
  refine ⟨fun _ hvalue => ?_, fun attempt hmem _ failure hfault =>
    hran.ask_struck attempt hmem failure hfault⟩
  rcases hran.schedule_cases with ⟨-, hafter, -⟩ | ⟨_, hfailed, -⟩
  · exact hafter
  · cases hfailed.symm.trans hvalue

theorem unschedule (name : String) (ledger : Ledger) :
    Ends stores moment (Action.unschedule name) ledger
      (fun _ after => after = ledger.unschedule name)
      (fun call after => call = .unschedule (.text name) ∧ after = ledger) := by
  intro record result after hran
  refine ⟨fun _ hvalue => ?_, fun attempt hmem _ failure hfault =>
    hran.ask_struck attempt hmem failure hfault⟩
  rcases hran.unschedule_cases with ⟨-, -, hafter⟩ | ⟨_, hfailed, -⟩
  · exact hafter
  · cases hfailed.symm.trans hvalue

theorem add {job : Job} {name : String} (hname : job.name? = .ok name) (ledger : Ledger) :
    Ends stores moment (Action.add job) ledger
      (fun _ after => ∃ row : JobRow, row.name = name ∧ after = ledger.add row)
      (fun call after => call = .add job ∧ after = ledger) := by
  intro record result after hran
  refine ⟨fun _ hvalue => ?_, fun attempt hmem _ failure hfault =>
    hran.ask_struck attempt hmem failure hfault⟩
  rcases hran.ask_cases with ⟨failure, rfl, -⟩ | ⟨cancelled, hanswer, -⟩
  · cases hvalue
  · rw [answer] at hanswer
    split at hanswer
    -- The row that was admitted has the name of the job.
    · next row hrow =>
      have hrowName := (JobRow.name_of_admit? hrow).1
      exact ⟨row, Except.ok.inj (hrowName.symm.trans hname), (Prod.mk.inj hanswer).2⟩
    · rw [(Prod.mk.inj hanswer).1] at hvalue
      cases hvalue

theorem remove {job : Job} {name : String} (hname : job.name? = .ok name) (ledger : Ledger) :
    Ends stores moment (Action.remove job) ledger (fun _ after => after = ledger.remove name)
      (fun call after => call = .remove job ∧ after = ledger) := by
  intro record result after hran
  refine ⟨fun _ hvalue => ?_, fun attempt hmem _ failure hfault =>
    hran.ask_struck attempt hmem failure hfault⟩
  rcases hran.remove_cases hname with ⟨-, hafter⟩ | ⟨_, hfailed, -⟩
  · exact hafter
  · cases hfailed.symm.trans hvalue

theorem update (process : ProcessType) (ledger : Ledger) :
    Ends stores moment (Action.update process) ledger
      (fun _ after => ∃ row, ProcessRow.ofProcess moment.now process = .ok row ∧
        after = ledger.want row)
      (fun call after => call = .update process ∧ after = ledger) := by
  intro record result after hran
  refine ⟨fun _ hvalue => ?_, fun attempt hmem _ failure hfault =>
    hran.ask_struck attempt hmem failure hfault⟩
  rcases hran.ask_cases with ⟨failure, rfl, -⟩ | ⟨cancelled, hanswer, -⟩
  · cases hvalue
  · rw [answer] at hanswer
    split at hanswer
    · split at hanswer
      · next row hrow => exact ⟨row, hrow, (Prod.mk.inj hanswer).2⟩
      · rw [(Prod.mk.inj hanswer).1] at hvalue
        cases hvalue
    · rw [(Prod.mk.inj hanswer).1] at hvalue
      cases hvalue

/-- Listing changes nothing, so no change is struck. -/
theorem list (app : Value) (ledger : Ledger) :
    Ends stores moment (Action.list app) ledger (fun _ after => after = ledger) residue := by
  intro record result after hran
  refine ⟨fun _ _ => hran.list_cases.1, fun attempt hmem hchange failure hfault => ?_⟩
  have hcall := (hran.ask_struck attempt hmem failure hfault).2.1
  rw [hcall] at hchange
  exact hchange.elim

/-- Logging changes nothing, so no change is struck. -/
theorem log (event : Event) (ledger : Ledger) :
    Ends stores moment (Action.log event) ledger (fun _ after => after = ledger) residue := by
  intro record result after hran
  refine ⟨fun _ _ => hran.log_cases, fun attempt hmem hchange failure hfault => ?_⟩
  obtain ⟨answered, between, first, second, hlog, hrest, rfl⟩ :=
    Ran.bind_cases (Call.ask (.log event)) hran
  -- The log weighs the answer and makes no further call.
  have hsecond : second = [] := by
    rcases answered with cause | done
    · exact hrest.done_cases.2.1
    · exact hrest.done_cases.2.1
  rw [hsecond, List.append_nil] at hmem
  rw [(hlog.ask_struck attempt hmem failure hfault).2.1] at hchange
  exact hchange.elim

end Ends

end Ledger

end Rollout
