import Rollout.Proofs.Attempts
import Rollout.Proofs.Histories

/-!
# Operations in strokes

Scheduler and store are changed in pairs of calls: a job is scheduled and then tracked, or taken
from the scheduler and then from the store. Such a pair is a *stroke*, and so is writing down what
is wanted of a process type. Whatever is asked of it, whatever fails and whenever it is cancelled,
an operation does a number of strokes, and if it ends with a failure, perhaps the first half of one
more (`Ledger.Worked`). Which jobs it may do this to is its `Scope`.

* `Ledger.Stroke` and `Ledger.Halved` say what a stroke and the first half of one do to a ledger.
* `Worked.bind`: work in two steps does what both of them do.
* `Worked.of_place`, `Worked.of_placeAll` and `Worked.of_withdraw` are the pairs of calls that the
  operations are made of.

All that is to be known of what operations leave behind can be read off these few cases, once for
all operations.
-/

namespace Rollout

open Relation (ReflTransGen)

/-- What an operation may do. Rolling out may only place, a cleanup may only withdraw and tries
again, and scaling may do everything but that. -/
structure Scope where
  /-- The jobs that it may place. -/
  places : Job → Prop
  /-- The jobs that it may withdraw. -/
  withdraws : Job → Prop
  /-- The processes that it may write down. -/
  writes : ProcessType → Prop
  /-- It tries again when a call fails. -/
  tries : Prop

/-- The failure that work ended with. -/
def failureOf? {α : Type} : Except Failure α → Option Failure
  | .ok _ => none
  | .error failure => some failure

theorem failureOf?_eq_some {α : Type} {result : Except Failure α} {failure : Failure} :
    failureOf? result = some failure ↔ result = .error failure := by
  cases result <;> simp [failureOf?]

namespace Ledger

variable {α β : Type} {stores : Stores} {scope : Scope} {moment : Moment} {now : String}
  {ledger middle after : Ledger} {record first second : List Attempt} {ending : Option Failure}

/-- A stroke of an operation. Each one leaves scheduler and store in step if they were: it is only
between the two halves of one that they are not. -/
inductive Stroke (scope : Scope) (now : String) : Ledger → Ledger → Prop where
  /-- A job is scheduled and tracked. -/
  | placed {ledger : Ledger} {job : Job} {definition : Definition} {row : JobRow}
      (hjob : scope.places job) (hdefinition : Placement.definition? job = .ok definition)
      (hrow : JobRow.admit? now ledger.jobs job = .ok row) :
      Stroke scope now ledger ((ledger.schedule definition).add row)
  /-- A job is neither scheduled nor tracked any longer. -/
  | withdrawn {ledger : Ledger} {job : Job} {name : String} (hjob : scope.withdraws job)
      (hname : job.name? = .ok name) (hmem : name ∈ ledger.scheduled) :
      Stroke scope now ledger (ledger.retire name)
  /-- What is wanted of a process type is written down. -/
  | wanted {ledger : Ledger} {process : ProcessType} {row : ProcessRow}
      (hprocess : scope.writes process) (hrow : ProcessRow.ofProcess now process = .ok row) :
      Stroke scope now ledger (ledger.want row)

/-- Strokes of an operation, one after the other. Whatever a stroke preserves, an operation without
faults preserves. -/
abbrev Strokes (scope : Scope) (now : String) : Ledger → Ledger → Prop :=
  ReflTransGen (Stroke scope now)

/-- The first half of a stroke, and what became of the second one. These two are the only ways in
which scheduler and store get out of step; the record tells which call was struck and by what. -/
inductive Halved (scope : Scope) (now : String) (record : List Attempt) (failure : Failure) :
    Ledger → Ledger → Prop where
  /-- A job is scheduled, and the last call was to have it tracked: a fault failed there, or the job
  was refused. -/
  | unadded {ledger : Ledger} {job : Job} {definition : Definition} {fault : Option Failure}
      (hjob : scope.places job) (hdefinition : Placement.definition? job = .ok definition)
      (hlast : [⟨.schedule definition, none⟩, ⟨.add job, fault⟩] <:+ record)
      (hreason : fault = some failure ∨
        fault = none ∧ ∃ cause, JobRow.admit? now ledger.jobs job = .error cause) :
      Halved scope now record failure ledger (ledger.schedule definition)
  /-- A job is scheduled no longer, and a fault failed where it was to be tracked no longer. If the
  operation tries again, it may be a wait before a further try that ended it. -/
  | unremoved {ledger : Ledger} {job : Job} {name : String} {cause : Failure}
      (hjob : scope.withdraws job) (hname : job.name? = .ok name) (hmem : name ∈ ledger.scheduled)
      (hfault : ⟨.remove job, some cause⟩ ∈ record)
      (hreason : failure = cause ∨ scope.tries) :
      Halved scope now record failure ledger (ledger.unschedule name)

/-- An operation did strokes, and if it ended with a failure, perhaps half of one more. There is at
most one half, since nothing is done after a failure. -/
def Worked (scope : Scope) (now : String) (record : List Attempt) (ending : Option Failure)
    (ledger after : Ledger) : Prop :=
  ∃ middle, Strokes scope now ledger middle ∧ (after = middle ∨
    ∃ failure, ending = some failure ∧ Halved scope now record failure middle after)

/-! ### One thing after another -/

/-- What was on record before makes no difference. -/
theorem Halved.append {failure : Failure} (h : Halved scope now second failure ledger after)
    (first : List Attempt) : Halved scope now (first ++ second) failure ledger after := by
  cases h with
  | unadded hjob hdefinition hlast hreason =>
    -- The calls in question are the last ones, so it does not matter what came before.
    exact .unadded hjob hdefinition (hlast.trans (List.suffix_append first second)) hreason
  | unremoved hjob hname hmem hfault hreason =>
    exact .unremoved hjob hname hmem (List.mem_append_right _ hfault) hreason

/-- Where nothing is placed, what goes on record later makes no difference either. -/
theorem Halved.append_right {failure : Failure} (hplaces : ∀ job, ¬scope.places job)
    (h : Halved scope now first failure ledger after) (second : List Attempt) :
    Halved scope now (first ++ second) failure ledger after := by
  cases h with
  | unadded hjob => exact absurd hjob (hplaces _)
  | unremoved hjob hname hmem hfault hreason =>
    exact .unremoved hjob hname hmem (List.mem_append_left _ hfault) hreason

namespace Worked

theorem refl (ledger : Ledger) : Worked scope now record ending ledger ledger :=
  ⟨ledger, .refl, .inl rfl⟩

theorem strokes (h : Worked scope now record none ledger after) :
    Strokes scope now ledger after := by
  obtain ⟨middle, hstrokes, rfl | ⟨failure, hending, -⟩⟩ := h
  · exact hstrokes
  -- Half of a stroke would have ended with a failure.
  · cases hending

theorem of_eq (h : after = ledger) : Worked scope now record ending ledger after := by
  rw [h]
  exact refl ledger

theorem of_stroke (h : Stroke scope now ledger after) :
    Worked scope now record ending ledger after := ⟨after, .single h, .inl rfl⟩

theorem of_halved {failure : Failure} (h : Halved scope now record failure ledger after) :
    Worked scope now record (some failure) ledger after :=
  ⟨ledger, .refl, .inr ⟨failure, rfl, h⟩⟩

/-- Strokes and then the rest of an operation. -/
theorem trans (h : Strokes scope now ledger middle)
    (h' : Worked scope now second ending middle after) (first : List Attempt) :
    Worked scope now (first ++ second) ending ledger after := by
  obtain ⟨last, hstrokes, hend⟩ := h'
  refine ⟨last, h.trans hstrokes, hend.imp_right ?_⟩
  rintro ⟨failure, hending, hhalved⟩
  exact ⟨failure, hending, hhalved.append first⟩

/-- **Work in two steps** does what the first step does and then what the second one does. If the
first one fails, half a stroke may be left of it, and the second one is not begun. -/
theorem bind {work : Action α} {next : α → Action β} {result : Except Failure β}
    (hran : Ran stores moment (work >>= next).attempt ledger record result after)
    (hwork : ∀ {first value middle}, Ran stores moment work.attempt ledger first value middle →
      Worked scope moment.now first (failureOf? value) ledger middle)
    (hnext : ∀ {value first middle second},
      Ran stores moment work.attempt ledger first (.ok value) middle →
      Ran stores moment (next value).attempt middle second result after →
        Worked scope moment.now second (failureOf? result) middle after) :
    Worked scope moment.now record (failureOf? result) ledger after := by
  rcases hran.work_bind_cases with ⟨value, middle, first, second, hfirst, hsecond, rfl⟩ |
      ⟨failure, hfirst, rfl⟩
  -- The first step ended without a failure, so it has done whole strokes only.
  · exact trans (hwork hfirst).strokes (hnext hfirst hsecond) first
  · exact hwork hfirst

/-- Work that is known beforehand does nothing. -/
theorem bind_ofExcept {known : Except Failure α} {next : α → Action β} {result : Except Failure β}
    (hran : Ran stores moment (Work.ofExcept known >>= next).attempt ledger record result after)
    (hnext : ∀ value, known = .ok value →
      Ran stores moment (next value).attempt ledger record result after →
        Worked scope moment.now record (failureOf? result) ledger after) :
    Worked scope moment.now record (failureOf? result) ledger after := by
  rcases hran.ofExcept_bind_cases with ⟨value, hknown, hrest⟩ | ⟨failure, -, rfl, rfl, rfl⟩
  · exact hnext value hknown hrest
  · exact refl _

end Worked

/-! ### Single calls -/

namespace Ran

/-- What becomes of scheduling. -/
theorem schedule_cases {definition : Definition} {result : Except Failure Unit}
    (h : Ran stores moment (Action.schedule definition).attempt ledger record result after) :
    (result = .ok () ∧ after = ledger.schedule definition ∧
      record = [⟨.schedule definition, none⟩]) ∨
    ∃ failure, result = .error failure ∧ after = ledger := by
  rcases ask_cases h with ⟨failure, rfl, rfl, -⟩ | ⟨cancelled, hanswer, rfl⟩
  · exact .inr ⟨failure, rfl, rfl⟩
  · rw [answer] at hanswer
    -- A definition is refused only if its image has no reference.
    split at hanswer
    · next reference href =>
      obtain ⟨rfl, rfl⟩ := Prod.mk.inj hanswer
      rw [Stores.noted, Stores.records, href]
      exact .inl ⟨rfl, rfl, rfl⟩
    · obtain ⟨rfl, rfl⟩ := Prod.mk.inj hanswer
      exact .inr ⟨_, rfl, rfl⟩

/-- What becomes of unscheduling. -/
theorem unschedule_cases {name : String} {result : Except Failure Unit}
    (h : Ran stores moment (Action.unschedule name).attempt ledger record result after) :
    (result = .ok () ∧ name ∈ ledger.scheduled ∧ after = ledger.unschedule name) ∨
    ∃ failure, result = .error failure ∧ after = ledger := by
  rcases ask_cases h with ⟨failure, rfl, rfl, -⟩ | ⟨cancelled, hanswer, rfl⟩
  · exact .inr ⟨failure, rfl, rfl⟩
  · by_cases hmem : name ∈ ledger.scheduled
    · rw [answer_unschedule_of_mem hmem] at hanswer
      obtain ⟨rfl, rfl⟩ := Prod.mk.inj hanswer
      exact .inl ⟨rfl, hmem, rfl⟩
    · rw [answer_unschedule_of_not_mem hmem] at hanswer
      obtain ⟨rfl, rfl⟩ := Prod.mk.inj hanswer
      exact .inr ⟨_, rfl, rfl⟩

/-- What becomes of listing. -/
theorem list_cases {app : Value} {result : Except Failure (List Job)}
    (h : Ran stores moment (Action.list app).attempt ledger record result after) :
    after = ledger ∧ ∀ jobs, result = .ok jobs → ledger.listed? app = .ok jobs := by
  rcases ask_cases h with ⟨failure, rfl, rfl, -⟩ | ⟨cancelled, hanswer, rfl⟩
  · exact ⟨rfl, fun jobs hjobs => nomatch hjobs⟩
  · rw [answer] at hanswer
    obtain ⟨rfl, rfl⟩ := Prod.mk.inj hanswer
    exact ⟨rfl, fun jobs hjobs => hjobs⟩

/-- What becomes of tracking a job. -/
theorem add_cases {job : Job} {result : Except Failure Unit} (hjobs : stores.jobs.isSome = true)
    (h : Ran stores moment (Action.add job).attempt ledger record result after) :
    (∃ row, JobRow.admit? moment.now ledger.jobs job = .ok row ∧ result = .ok () ∧
      after = ledger.add row) ∨
    ∃ failure fault, result = .error failure ∧ after = ledger ∧ record = [⟨.add job, fault⟩] ∧
      (fault = some failure ∨
        fault = none ∧ ∃ cause, JobRow.admit? moment.now ledger.jobs job = .error cause) := by
  rcases ask_cases h with ⟨failure, rfl, rfl, rfl⟩ | ⟨cancelled, hanswer, rfl⟩
  · exact .inr ⟨failure, _, rfl, rfl, rfl, .inl rfl⟩
  -- Calls to a store that was opened are put on record.
  · have hnoted : stores.noted (.add job) = [⟨.add job, none⟩] := if_pos hjobs
    rw [answer] at hanswer
    split at hanswer
    · next row hrow =>
      obtain ⟨rfl, rfl⟩ := Prod.mk.inj hanswer
      exact .inl ⟨row, hrow, rfl, rfl⟩
    · next cause hrow =>
      obtain ⟨rfl, rfl⟩ := Prod.mk.inj hanswer
      exact .inr ⟨_, none, rfl, rfl, hnoted, .inr ⟨rfl, cause, hrow⟩⟩

/-- What becomes of no longer tracking a job that has a name. -/
theorem remove_cases {job : Job} {name : String} {result : Except Failure Unit}
    (hname : job.name? = .ok name)
    (h : Ran stores moment (Action.remove job).attempt ledger record result after) :
    (result = .ok () ∧ after = ledger.remove name) ∨
    ∃ failure, result = .error failure ∧ after = ledger ∧
      ⟨.remove job, some failure⟩ ∈ record := by
  rcases ask_cases h with ⟨failure, rfl, rfl, rfl⟩ | ⟨cancelled, hanswer, rfl⟩
  · exact .inr ⟨failure, rfl, rfl, List.mem_singleton_self _⟩
  · rw [answer, hname] at hanswer
    obtain ⟨rfl, rfl⟩ := Prod.mk.inj hanswer
    exact .inl ⟨rfl, rfl⟩

/-- What becomes of writing a process down. -/
theorem update_cases {process : ProcessType} {result : Except Failure ProcessType}
    (h : Ran stores moment (Action.update process).attempt ledger record result after) :
    after = ledger ∨
    ∃ row, ProcessRow.ofProcess moment.now process = .ok row ∧ after = ledger.want row := by
  rcases ask_cases h with ⟨failure, rfl, rfl, -⟩ | ⟨cancelled, hanswer, rfl⟩
  · exact .inl rfl
  · rw [answer] at hanswer
    split at hanswer
    -- A process is written down only where a process store was opened, and only if it has a row.
    · split at hanswer
      · next row hrow =>
        obtain ⟨rfl, rfl⟩ := Prod.mk.inj hanswer
        exact .inr ⟨row, hrow, rfl⟩
      · obtain ⟨rfl, rfl⟩ := Prod.mk.inj hanswer
        exact .inl rfl
    · obtain ⟨rfl, rfl⟩ := Prod.mk.inj hanswer
      exact .inl rfl

theorem wait_cases {seconds : Binary64} {result : Except Failure Bool}
    (h : Ran stores moment (Call.ask (.wait seconds)) ledger record result after) :
    after = ledger := by
  rcases ask_cases h with ⟨failure, -, rfl, -⟩ | ⟨cancelled, hanswer, -⟩
  · rfl
  · exact (Prod.mk.inj hanswer).2

theorem cancelled_cases {result : Bool}
    (h : Ran stores moment (Call.ask .cancelled) ledger record result after) : after = ledger := by
  rcases ask_cases h with ⟨failure, -, rfl, -⟩ | ⟨cancelled, hanswer, -⟩
  · rfl
  · exact (Prod.mk.inj hanswer).2

/-- Logging does nothing that shows. -/
theorem log_cases {event : Event} {result : Except Failure Unit}
    (h : Ran stores moment (Action.log event).attempt ledger record result after) :
    after = ledger := by
  obtain ⟨answered, middle, first, second, hlog, hrest, -⟩ := bind_cases (Call.ask (.log event)) h
  -- Events are no part of the ledger, so even an event that was logged leaves it as it was.
  have hmiddle : middle = ledger := by
    rcases ask_cases hlog with ⟨failure, -, rfl, -⟩ | ⟨cancelled, hanswer, -⟩
    · rfl
    · exact (Prod.mk.inj hanswer).2
  rw [← hmiddle]
  rcases answered with failure | done
  · exact hrest.done_cases.2.2
  · exact hrest.done_cases.2.2

end Ran

/-! ### Placing and withdrawing -/

namespace Worked

/-- **Placing a job** is a stroke, or half of one, or nothing, according to which of its two calls
failed. -/
theorem of_place {job : Job} {result : Except Failure Unit} (hjobs : stores.jobs.isSome = true)
    (hjob : scope.places job)
    (h : Ran stores moment (Placement.place job).attempt ledger record result after) :
    Worked scope moment.now record (failureOf? result) ledger after := by
  -- A job without a definition is placed nowhere.
  refine bind_ofExcept h fun definition hdefinition h => ?_
  rcases h.work_bind_cases with ⟨_, middle, first, second, hschedule, hadd, rfl⟩ |
      ⟨failure, hschedule, rfl⟩
  · obtain ⟨-, rfl, rfl⟩ | ⟨_, ⟨⟩, -⟩ := hschedule.schedule_cases
    rcases hadd.add_cases hjobs with ⟨row, hrow, rfl, rfl⟩ |
        ⟨failure, fault, rfl, rfl, rfl, hreason⟩
    · exact of_stroke (.placed hjob hdefinition hrow)
    · -- the job stays scheduled although it is not tracked
      exact of_halved (.unadded hjob hdefinition List.suffix_rfl hreason)
  · obtain ⟨⟨⟩, -⟩ | ⟨_, -, rfl⟩ := hschedule.schedule_cases
    exact refl _

/-- **Placing jobs** goes from one to the next. By induction on the jobs, each of which makes one
stroke. -/
theorem of_placeAll {jobs : List Job} {result : Except Failure Unit}
    (hstore : stores.jobs.isSome = true) (hjobs : ∀ job ∈ jobs, scope.places job)
    (h : Ran stores moment (Placement.placeAll jobs).attempt ledger record result after) :
    Worked scope moment.now record (failureOf? result) ledger after := by
  -- The ledger changes with every job, and so does what is on record.
  induction jobs generalizing ledger record with
  | nil =>
    obtain ⟨rfl, rfl, rfl⟩ := h.done_cases
    exact refl _
  | cons job rest ih =>
    exact bind h (of_place hstore (hjobs job List.mem_cons_self)) fun _ hrest =>
      ih (fun other hmem => hjobs other (List.mem_cons_of_mem _ hmem)) hrest

/-- **Withdrawing a job** is a stroke, or half of one, or nothing. In contrast to placing, the
second call of a withdrawal fails only by a fault: to stop tracking what is not tracked is no
failure. -/
theorem of_withdraw {job : Job} {result : Except Failure Unit} (hjob : scope.withdraws job)
    (h : Ran stores moment (Placement.withdraw job).attempt ledger record result after) :
    Worked scope moment.now record (failureOf? result) ledger after := by
  -- A job without a name is withdrawn from nowhere.
  refine bind_ofExcept h fun name hname h => ?_
  rcases h.work_bind_cases with ⟨_, middle, first, second, hunschedule, hremove, rfl⟩ |
      ⟨failure, hunschedule, rfl⟩
  · obtain ⟨-, hmem, rfl⟩ | ⟨_, ⟨⟩, -⟩ := hunschedule.unschedule_cases
    rcases hremove.remove_cases hname with ⟨rfl, rfl⟩ | ⟨failure, rfl, rfl, hfault⟩
    · exact of_stroke (.withdrawn hjob hname hmem)
    · -- the job stays tracked although it is not scheduled
      exact of_halved (.unremoved hjob hname hmem (List.mem_append_right _ hfault) (.inl rfl))
  · obtain ⟨⟨⟩, -⟩ | ⟨_, -, rfl⟩ := hunschedule.unschedule_cases
    exact refl _

end Worked

end Ledger

end Rollout
