import Rollout.World.Fault

/-!
# Faults of the event log

A list of faults is a script: at each request it says whether a fault fires, and the next list says
how it goes on. Two scripts *vary in the log* (`Fault.VaryInLog`) if they say the same about every
request after any requests, but for the event log, where the failures that they bring about are such
that the log lets them pass (`Failure.isForgiven`).

* `Fault.VaryInLog.fire`: such scripts go on as such scripts.
* `Fault.varyInLog_of_same`: two lists that are the same without the faults of the log vary in the
  log if these only fail, and only in ways that the log lets pass.
-/

namespace Rollout.Fault

variable {request : Request} {faults others : List Fault}

/-- What becomes of a request: the failure in its place, if there is one, and whether the cleanup
that makes it is cancelled. -/
def outcome (request : Request) (faults : List Fault) : Option Failure × Bool :=
  let fired := (fire request faults).1
  (fired.bind (·.failure), fired.any (·.cancels))

/-- The faults that are left after some requests. -/
def left (faults : List Fault) (requests : List Request) : List Fault :=
  requests.foldl (fun faults request => (fire request faults).2) faults

@[simp] theorem left_nil (faults : List Fault) : left faults [] = faults := rfl

@[simp] theorem left_cons (faults : List Fault) (request : Request) (requests : List Request) :
    left faults (request :: requests) = left (fire request faults).2 requests := rfl

/-- The log lets the failure pass, if there is one. These are the failures of a database and of
files, and no others. -/
def LetsPass (failure : Option Failure) : Prop := ∀ cause ∈ failure, cause.isForgiven = true

/-- Two outcomes of a request are the same, or differ in failures that the log lets pass. Whether a
cancellation comes in must be the same, since tasks notice it. -/
structure Varies (request : Request) (outcome other : Option Failure × Bool) : Prop where
  cancels : outcome.2 = other.2
  failure : outcome.1 = other.1 ∨
    request.point = .log ∧ LetsPass outcome.1 ∧ LetsPass other.1

/-- **The two scripts vary in the log**: whatever was requested before, the next request has the
same outcome, or it logs an event, and the failures are such that the log lets them pass. -/
def VaryInLog (faults others : List Fault) : Prop :=
  ∀ earlier request,
    Varies request (outcome request (left faults earlier)) (outcome request (left others earlier))

namespace VaryInLog

theorem refl (faults : List Fault) : VaryInLog faults faults := fun _ _ => ⟨rfl, .inl rfl⟩

theorem symm (h : VaryInLog faults others) : VaryInLog others faults := by
  intro earlier request
  obtain ⟨hcancels, hfailure⟩ := h earlier request
  exact ⟨hcancels.symm, hfailure.imp Eq.symm fun ⟨hlog, hpass, hpass'⟩ => ⟨hlog, hpass', hpass⟩⟩

theorem varies (h : VaryInLog faults others) (request : Request) :
    Varies request (outcome request faults) (outcome request others) := h [] request

/-- **What is left of the scripts varies in the log.** -/
theorem fire (h : VaryInLog faults others) (request : Request) :
    VaryInLog (fire request faults).2 (fire request others).2 :=
  fun earlier next => h (request :: earlier) next

end VaryInLog

/-! ### A criterion -/

/-- The fault is no fault of the log. -/
def isElsewhere (fault : Fault) : Bool := fault.point ≠ .log

/-- All faults of the log do no more than fail in ways that it lets pass. A fault that cancels would
be noticed, whatever the log does. -/
def LogOnlyFails (faults : List Fault) : Prop :=
  ∀ fault ∈ faults, fault.point = .log → LetsPass fault.failure ∧ fault.cancels = false

theorem not_isElsewhere_iff {fault : Fault} : ¬fault.isElsewhere = true ↔ fault.point = .log := by
  rw [isElsewhere, decide_eq_true_eq, Decidable.not_not]

theorem point_used (fault : Fault) : fault.used.point = fault.point := by
  rw [used]
  split <;> rfl

theorem isElsewhere_used (fault : Fault) : fault.used.isElsewhere = fault.isElsewhere := by
  rw [isElsewhere, isElsewhere, point_used]

/-- The faults elsewhere fire as if there were no others. -/
theorem fire_elsewhere (hother : request.point ≠ .log) (faults : List Fault) :
    (fire request (faults.filter isElsewhere)).1 = (fire request faults).1 ∧
      (fire request (faults.filter isElsewhere)).2 =
        (fire request faults).2.filter isElsewhere := by
  induction faults with
  | nil => exact ⟨rfl, rfl⟩
  | cons fault rest ih =>
    by_cases helsewhere : fault.isElsewhere = true
    · rw [List.filter_cons_of_pos helsewhere, fire, fire]
      split
      · exact ⟨rfl, by rw [List.filter_cons_of_pos ((isElsewhere_used fault).trans helsewhere)]⟩
      · rw [List.filter_cons_of_pos helsewhere]
        exact ⟨ih.1, congrArg (fault :: ·) ih.2⟩
    · -- a fault of the log does not fire elsewhere
      have hquiet : ¬fault.firesAt request = true := fun hfires =>
        hother ((point_of_firesAt hfires).symm.trans (not_isElsewhere_iff.mp helsewhere))
      rw [List.filter_cons_of_neg helsewhere, fire, if_neg hquiet,
        List.filter_cons_of_neg helsewhere]
      exact ih

/-- Logging uses up faults of the log only. -/
theorem filter_fire_log (hlog : request.point = .log) (faults : List Fault) :
    (fire request faults).2.filter isElsewhere = faults.filter isElsewhere := by
  induction faults with
  | nil => rfl
  | cons fault rest ih =>
    rw [fire]
    split
    · next hfires =>
      have hhere : ¬fault.isElsewhere = true :=
        not_isElsewhere_iff.mpr ((point_of_firesAt hfires).trans hlog)
      have hused : ¬fault.used.isElsewhere = true := by rwa [isElsewhere_used]
      rw [List.filter_cons_of_neg hhere, List.filter_cons_of_neg hused]
    · rw [List.filter_cons, List.filter_cons, ih]

theorem LogOnlyFails.fire (h : LogOnlyFails faults) (request : Request) :
    LogOnlyFails (Fault.fire request faults).2 := by
  induction faults with
  | nil => exact fun _ hmem => nomatch hmem
  | cons fault rest ih =>
    have hrest := ih fun other hmem => h other (List.mem_cons_of_mem _ hmem)
    rw [Fault.fire]
    split
    · intro other hmem hlog
      rcases List.mem_cons.mp hmem with rfl | hlater
      · -- a fault that was used fails and cancels as before
        have hfault := h fault List.mem_cons_self ((point_used fault).symm.trans hlog)
        rw [used]
        split <;> exact hfault
      · exact h other (List.mem_cons_of_mem _ hlater) hlog
    · intro other hmem hlog
      rcases List.mem_cons.mp hmem with rfl | hlater
      · exact h other List.mem_cons_self hlog
      · exact hrest other hlater hlog

/-- What becomes of an event that is logged. -/
theorem LogOnlyFails.outcome (h : LogOnlyFails faults) (hlog : request.point = .log) :
    LetsPass (outcome request faults).1 ∧ (outcome request faults).2 = false := by
  rw [Fault.outcome]
  cases hfired : (Fault.fire request faults).1 with
  | none => exact ⟨fun _ hmem => (nomatch hmem), rfl⟩
  | some fault =>
    obtain ⟨hmem, hfires⟩ := mem_of_fire hfired
    exact h fault hmem ((point_of_firesAt hfires).trans hlog)

/-- **Two scripts vary in the log** if they are the same without the faults of the log, and these do
no more than fail in ways that it lets pass. -/
theorem varyInLog_of_same (hsame : faults.filter isElsewhere = others.filter isElsewhere)
    (hfaults : LogOnlyFails faults) (hothers : LogOnlyFails others) :
    VaryInLog faults others := by
  intro earlier
  induction earlier generalizing faults others with
  | nil =>
    -- the next request: in the log both pass, and elsewhere the same faults lie in wait
    intro request
    rw [left_nil, left_nil]
    by_cases hlog : request.point = .log
    · obtain ⟨hpass, hcancels⟩ := hfaults.outcome hlog
      obtain ⟨hpass', hcancels'⟩ := hothers.outcome hlog
      exact ⟨hcancels.trans hcancels'.symm, .inr ⟨hlog, hpass, hpass'⟩⟩
    · have heq : outcome request faults = outcome request others := by
        rw [outcome, outcome, ← (fire_elsewhere hlog faults).1, ← (fire_elsewhere hlog others).1,
          hsame]
      exact ⟨congrArg Prod.snd heq, .inl (congrArg Prod.fst heq)⟩
  | cons first rest ih =>
    -- a request uses up a fault of the log, or the same fault in both scripts
    refine ih ?_ (hfaults.fire first) (hothers.fire first)
    by_cases hlog : first.point = .log
    · rw [filter_fire_log hlog, filter_fire_log hlog, hsame]
    · rw [← (fire_elsewhere hlog faults).2, ← (fire_elsewhere hlog others).2, hsame]

end Rollout.Fault
