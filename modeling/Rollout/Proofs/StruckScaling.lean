import Rollout.Proofs.Running
import Rollout.Proofs.Spans
import Rollout.Proofs.StruckCalls

/-!
# Where a fault strikes a process type

Bringing a process type to a target takes calls of five kinds: instances are scheduled and tracked
on the way up, unscheduled and tracked no longer on the way down, and at last the new quantity is
written down. `Ledger.StruckAt` says, for each of these calls, how many instances are tracked and
how many are scheduled when a fault strikes it, and which quantity the process then has.

The loops carry `Ledger.Brought`, which says how far the process type has come:

* `ends_placeFrom` goes up from one instance to the next one;
* `ends_withdrawAbove` goes down, by jobs that are found under the names of instances;
* `Ran.scaleType_struck` puts one process type together: the process keeps its quantity if the loop
  was broken off, and has the new one as soon as the loop came to its end.
-/

namespace Rollout

open Scale World

namespace Ledger

variable {stores : Stores} {moment : Moment} {ledger after start : Ledger} {record : List Attempt}
  {app type : String} {release : Release} {blueprint : Blueprint} {process : ProcessType}
  {current target n count : Nat}

/-! ### The call that is struck -/

/-- A fault struck a call while a process type was brought from its current quantity to a target.
The last three arguments are the number of instances that are then tracked, the number of those that
are scheduled, and the quantity of the process. The five calls leave five different residues, and
this is all of them. -/
inductive StruckAt (release : Release) (type : String) (current target : Nat) :
    Call → Nat → Nat → Nat → Prop where
  /-- The next instance was to be scheduled. -/
  | schedule {n : Nat} {definition : Definition} (hle : current ≤ n) (hlt : n < target)
      (hname : instanceName? release type (n + 1) = .ok definition.name) :
      StruckAt release type current target (.schedule definition) n n current
  /-- The next instance was to be tracked. -/
  | add {n : Nat} {job : Job} {name : String} (hle : current ≤ n) (hlt : n < target)
      (hname : instanceName? release type (n + 1) = .ok name) (hjob : job.name? = .ok name) :
      StruckAt release type current target (.add job) n (n + 1) current
  /-- The last instance was to be scheduled no longer. -/
  | unschedule {n : Nat} {name : String} (hle : target ≤ n) (hlt : n < current)
      (hname : instanceName? release type (n + 1) = .ok name) :
      StruckAt release type current target (.unschedule (.text name)) (n + 1) (n + 1) current
  /-- The last instance was to be tracked no longer. -/
  | remove {n : Nat} {job : Job} {name : String} (hle : target ≤ n) (hlt : n < current)
      (hname : instanceName? release type (n + 1) = .ok name) (hjob : job.name? = .ok name) :
      StruckAt release type current target (.remove job) (n + 1) n current
  /-- The new quantity was to be written down. -/
  | update {process : ProcessType} (htype : process.type = .text type)
      (hquantity : process.quantity = .whole target) :
      StruckAt release type current target (.update process) target target target

/-- A fault struck while instances were placed or withdrawn. The process has its old quantity then,
since it takes the new one only after all of that. -/
def Left (release : Release) (type : String) (start : Ledger) (current target : Nat) (call : Call)
    (after : Ledger) : Prop :=
  ∃ tracked scheduled, StruckAt release type current target call tracked scheduled current ∧
    Brought release type start tracked scheduled after

/-! ### Upward -/

/-- The next instance is placed. -/
theorem ends_place {job : Job} (hjob : job.name? = instanceName? release type (n + 1))
    (h : Brought release type start n n ledger) (hle : current ≤ n) (hlt : n < target) :
    Ends stores moment (Placement.place job) ledger
      (fun _ after => Brought release type start (n + 1) (n + 1) after)
      (Left release type start current target) := by
  refine .ofExcept_bind fun definition hdefinition => ?_
  have hname := Placement.name_of_definition? hdefinition
  -- What is placed goes by the name of the next instance.
  rw [hjob] at hname
  have hscheduled := h.schedule hname
  refine .bind (.imp (.schedule definition ledger) (fun _ _ hafter => hafter) ?_) ?_
  · -- struck before anything was done
    rintro call after ⟨rfl, rfl⟩
    exact ⟨n, n, .schedule hle hlt hname, h⟩
  · -- scheduled: a fault that strikes now leaves the instance without a row
    rintro _ _ rfl
    refine .imp (.add (hjob.trans hname) _) ?_ ?_
    · rintro _ after ⟨row, hrow, rfl⟩
      exact hscheduled.add (hname.trans (congrArg Except.ok hrow.symm))
    · rintro call after ⟨rfl, rfl⟩
      exact ⟨n, n + 1, .add hle hlt hname (hjob.trans hname), hscheduled⟩

/-- **Instances are placed one after the other**, up to the one where a fault strikes. By induction
on how many are left; each is scheduled before it is tracked. -/
theorem ends_placeFrom {template : Job.Template} {command : Value}
    (happ : template.app = release.app) (hversion : template.version = release.version)
    (h : Brought release type start n n ledger) (hle : current ≤ n) (hcount : n + count = target) :
    Ends stores moment (placeFrom template type command (n + 1) count) ledger
      (fun _ after => Brought release type start target target after)
      (Left release type start current target) := by
  -- On the instances that are left. The ordinal goes up as their number goes down, so the target
  -- stays where it is.
  induction count generalizing n ledger with
  | zero =>
    obtain rfl : n = target := hcount
    exact .pure h
  | succ count ih =>
    have hname : (template.job (.text type) command (n + 1)).name? =
        instanceName? release type (n + 1) := by
      rw [instanceName?, ← happ, ← hversion]
      rfl
    exact .bind (ends_place hname h hle (by omega)) fun _ between hbetween =>
      ih hbetween (by omega) (by omega)

/-- What separates the current quantity from a greater target is placed. -/
theorem ends_growTo (hquantity : process.quantity = .whole current)
    (h : Brought blueprint.release type start current current ledger) (hle : current ≤ target) :
    Ends stores moment (growTo blueprint type process target) ledger
      (fun _ after => Brought blueprint.release type start target target after)
      (Left blueprint.release type start current target) := by
  refine .ofExcept_bind fun environment _ => .ofExcept_bind fun counted hcounted => ?_
  rw [hquantity] at hcounted
  obtain rfl : current = counted := Except.ok.inj hcounted
  exact ends_placeFrom rfl rfl h (Nat.le_refl current) (by omega)

/-! ### Downward -/

/-- The last instance is withdrawn. -/
theorem ends_withdraw {job : Job} {name : String} (hjob : job.name? = .ok name)
    (hname : instanceName? release type (n + 1) = .ok name)
    (h : Brought release type start (n + 1) (n + 1) ledger) (hle : target ≤ n) (hlt : n < current) :
    Ends stores moment (Placement.withdraw job) ledger
      (fun _ after => Brought release type start n n after)
      (Left release type start current target) := by
  refine .ofExcept_bind fun known hknown => ?_
  obtain rfl := Except.ok.inj (hknown.symm.trans hjob)
  have hunscheduled := h.unschedule hname
  -- The mirror image of placing: first the scheduler lets go of the name, and then the store.
  refine .bind (.imp (.unschedule known ledger) (fun _ _ hafter => hafter) ?_) ?_
  · rintro call after ⟨rfl, rfl⟩
    exact ⟨n + 1, n + 1, .unschedule hle hlt hname, h⟩
  · rintro _ _ rfl
    refine .imp (.remove hjob _) ?_ ?_
    · rintro _ after rfl
      exact hunscheduled.remove hname
    · rintro call after ⟨rfl, rfl⟩
      exact ⟨n + 1, n, .remove hle hlt hname hjob, hunscheduled⟩

/-- The last instance is looked up under its name and withdrawn. -/
theorem ends_withdrawOrdinal {tracked : List (String × Job)} {names : List String}
    (htracked : ByName tracked names) (h : Brought release type start (n + 1) (n + 1) ledger)
    (hle : target ≤ n) (hlt : n < current) :
    Ends stores moment (withdrawOrdinal release tracked type (n + 1)) ledger
      (fun _ after => Brought release type start n n after)
      (Left release type start current target) := by
  refine .ofExcept_bind fun name hname => ?_
  cases hfind : find? tracked name with
  | none => exact .throw
  | some job => exact ends_withdraw (htracked.find?_some hfind).1 hname h hle hlt

/-- **Instances are withdrawn one after the other**, from the last one to the one where a fault
strikes. -/
theorem ends_withdrawAbove {tracked : List (String × Job)} {names : List String}
    (htracked : ByName tracked names)
    (h : Brought release type start (target + count) (target + count) ledger)
    (hle : target + count ≤ current) :
    Ends stores moment (withdrawAbove release tracked type target count) ledger
      (fun _ after => Brought release type start target target after)
      (Left release type start current target) := by
  -- From the last instance downwards, so the range that is left stays an initial one.
  induction count generalizing ledger with
  | zero => exact .pure h
  | succ count ih =>
    exact .bind (ends_withdrawOrdinal htracked h (by omega) (by omega)) fun _ between hbetween =>
      ih hbetween (by omega)

/-- What separates the current quantity from a smaller target is withdrawn. -/
theorem ends_shrinkTo (hquantity : process.quantity = .whole current)
    (h : Brought release type start current current ledger) (hle : target ≤ current) :
    Ends stores moment (shrinkTo release type process target) ledger
      (fun _ after => Brought release type start target target after)
      (Left release type start current target) := by
  refine .bind (.list release.app ledger) ?_
  rintro jobs _ rfl
  refine .ofExcept_bind fun tracked hby => .ofExcept_bind fun counted hcounted => ?_
  rw [hquantity] at hcounted
  obtain rfl : current = counted := Except.ok.inj hcounted
  -- The range is written as what is kept and what is withdrawn.
  have htotal : target + (current - target) = current := by omega
  exact ends_withdrawAbove (byName_own hby) (htotal.symm ▸ h) (by omega)

/-! ### One process type -/

/-- The instances of a process type are brought to the target. -/
theorem ends_adjust (hquantity : process.quantity = .whole current)
    (h : Brought blueprint.release type start current current ledger) :
    Ends stores moment (adjust blueprint type process target) ledger
      (fun _ after => Brought blueprint.release type start target target after)
      (Left blueprint.release type start current target) := by
  rw [adjust_eq hquantity]
  rcases Nat.lt_trichotomy current target with hlt | rfl | hgt
  · rw [if_pos hlt]
    exact ends_growTo hquantity h (Nat.le_of_lt hlt)
  · rw [if_neg (Nat.lt_irrefl _), if_neg (Nat.lt_irrefl _)]
    exact .pure h
  · rw [if_neg (Nat.lt_asymm hgt), if_pos hgt]
    exact ends_shrinkTo hquantity h (Nat.le_of_lt hgt)

/-- Logging the change of a quantity changes nothing. -/
theorem ends_logChange {residue : Call → Ledger → Prop} :
    Ends stores moment (logChange release type process target) ledger
      (fun _ after => after = ledger) residue := by
  rw [logChange]
  split
  · exact .ofExcept_bind fun _ _ => .ofExcept_bind fun _ _ => .log _ _
  · exact .pure rfl

/-- **What becomes of a process type.** If it was scaled it takes its new quantity, which is written
down; if a fault struck, it takes it only if all of its instances were placed or withdrawn. -/
theorem Ran.scaleType_struck {scaled : ProcessType} {ending : Except Failure Unit}
    (happ : release.app = .text app) (htype : process.type = .text type)
    (howner : process.app = .text "" ∨ process.app = .text app)
    (hquantity : process.quantity = .whole current) (hrelease : blueprint.release = release)
    (h : Brought release type ledger current current ledger)
    (hran : Ran stores moment (scaleType blueprint type process target) ledger record
      (scaled, ending) after) :
    (ending = .ok () → scaled = process.scaled target (.text app) ∧ ∃ moved row,
        Brought release type ledger target target moved ∧ after = moved.want row ∧ row.app = app ∧
        row.type = type ∧ row.quantity.toValue = .int target) ∧
      ∀ attempt ∈ record, attempt.call.IsChange → ∀ failure, attempt.fault = some failure →
        ending = .error failure ∧ ∃ tracked scheduled quantity,
          StruckAt release type current target attempt.call tracked scheduled quantity ∧
          Brought release type ledger tracked scheduled after ∧
          (scaled = process ∧ quantity = current ∨
            scaled = process.scaled target (.text app) ∧ quantity = target) := by
  subst hrelease
  obtain ⟨changed, between, first, second, hchanged, hrest, rfl⟩ := Ran.bind_cases
    (Work.attempt do
      adjust blueprint type process target
      logChange blueprint.release type process target) hran
  have hends : Ends stores moment (do
      adjust blueprint type process target
      logChange blueprint.release type process target) ledger
      (fun _ after => Brought blueprint.release type ledger target target after)
      (Left blueprint.release type ledger current target) :=
    .bind (ends_adjust hquantity h) fun _ middle hmiddle =>
      .imp ends_logChange (fun _ _ hafter => hafter ▸ hmiddle) fun _ _ hleft => hleft
  -- The change of the instances and the event behind it are one piece of work, which succeeds or
  -- was struck.
  obtain ⟨hdone, hstruck⟩ := hends _ _ _ hchanged
  cases changed with
  | error failure =>
    -- the work was broken off, and the process stays as it is
    obtain ⟨hresult, rfl, rfl⟩ := hrest.done_cases
    obtain ⟨rfl, rfl⟩ := Prod.mk.inj hresult
    refine ⟨fun hok => (nomatch hok), fun attempt hmem hchange cause hfault => ?_⟩
    rw [List.append_nil] at hmem
    obtain ⟨hcause, tracked, scheduled, hat, hbrought⟩ := hstruck attempt hmem hchange cause hfault
    exact ⟨congrArg Except.error (Except.error.inj hcause), tracked, scheduled, current, hat,
      hbrought, .inl ⟨rfl, rfl⟩⟩
  | ok =>
    have hmoved := hdone () rfl
    -- from here on the process has its new quantity, whatever the store says
    obtain ⟨kept, last, third, fourth, hkept, hreturn, rfl⟩ := Ran.bind_cases
      (Action.update (process.scaled target blueprint.release.app)).attempt hrest
    obtain ⟨hresult, rfl, rfl⟩ := hreturn.done_cases
    obtain ⟨rfl, rfl⟩ := Prod.mk.inj hresult
    rw [happ] at hkept ⊢
    have hscaledType : (process.scaled target (.text app)).type = .text type := htype
    obtain ⟨hwritten, hstruck'⟩ := Ends.update (process.scaled target (.text app)) between _ _ _
      hkept
    constructor
    · intro hok
      cases kept with
      | error => cases hok
      | ok written =>
        obtain ⟨row, hrow, hafter⟩ := hwritten written rfl
        obtain ⟨hrowApp, hrowType, hrowQuantity⟩ := ProcessRow.fields_of_ofProcess hscaledType
          (Formation.app_scaled howner) rfl hrow
        exact ⟨rfl, between, row, hmoved, hafter, hrowApp, hrowType, hrowQuantity⟩
    · intro attempt hmem hchange failure hfault
      rw [List.append_nil] at hmem
      rcases List.mem_append.mp hmem with hearly | hlate
      -- The first part succeeded, so it was not struck.
      · cases (hstruck attempt hearly hchange failure hfault).1
      · obtain ⟨hfailed, hcall, hafter⟩ := hstruck' attempt hlate hchange failure hfault
        rw [hfailed, hcall, hafter]
        exact ⟨rfl, target, target, target, .update hscaledType rfl, hmoved, .inr ⟨rfl, rfl⟩⟩

end Ledger

end Rollout
