import Rollout.Proofs.Holdings
import Rollout.Proofs.Targets

/-!
# Ledgers that run a formation

A ledger *runs* a formation for a release if the tracked instances of each process type are those
from one up to its quantity, and all of them are held (`Ledger.Runs`). This is what a rollout
establishes, and scaling keeps it: bringing a process type to a target leads from a ledger that runs
the formation to one that runs the formation with that target (`Ledger.Runs.adjusted`).

That the instances are the right ones (`Ledger.Counts`) is enough for nothing but a fault to break
scaling off (`Ledger.Counts.not_brokenOff`): on the way up the next name is never tracked, since the
instances end at the quantity, and on the way down it always is, since they are all there. It takes
names that can be made, so the application and the process types must be field names.
-/

namespace Rollout

/-! ### Formations of an application -/

/-- A keyed formation of an application: its process types are field names, and its processes belong
to the application or to nobody yet. -/
structure Formation.Suits (app : String) (formation : Formation) : Prop extends IsKeyed
    formation where
  valid : ∀ entry ∈ formation, ∃ type, entry.1 = .text type ∧ isFieldName type = true
  owned : ∀ entry ∈ formation, entry.2.app = .text "" ∨ entry.2.app = .text app

namespace Formation

variable {app type : String} {formation : Formation} {process : ProcessType} {target : Nat}

/-- The command of a process type, if the formation knows it. -/
def command? (formation : Formation) (type : String) : Option Value :=
  (formation.process? type).map (·.command)

/-- Two formations want as many instances of the same commands, whoever owns their processes.
Scaling fills in an owner, which makes no difference to jobs. -/
def WantsSame (formation other : Formation) : Prop :=
  ∀ type, formation.count? type = other.count? type ∧ formation.command? type = other.command? type

/-- Once a process was scaled it belongs to the application. -/
theorem app_scaled (h : process.app = .text "" ∨ process.app = .text app) :
    (process.scaled target (.text app)).app = .text app := by
  rw [ProcessType.scaled]
  -- A process of nobody becomes one of the application, and any other keeps its owner.
  rcases h with h | h
  · rw [h]
    rfl
  · rw [h]
    exact ite_self _

/-- A formation still suits the application after one of its processes was scaled. -/
theorem Suits.scaled (h : formation.Suits app) (htyped : formation.IsTyped)
    (hknown : formation.process? type = some process) :
    Suits app (formation.replace type (process.scaled target (.text app))) := by
  have hmem := htyped.mem_of_process? hknown
  -- each entry is one from before, or the scaled one, which keeps type and owner
  refine ⟨⟨?_, ?_⟩, ?_, ?_⟩
  · intro entry hentry
    rcases htyped.mem_replace hentry with hold | rfl
    · exact h.own entry hold
    · exact h.own (.text type, process) hmem
  · rw [keys_replace]
    exact h.distinct
  · intro entry hentry
    rcases htyped.mem_replace hentry with hold | rfl
    · exact h.valid entry hold
    · exact h.valid (.text type, process) hmem
  · intro entry hentry
    rcases htyped.mem_replace hentry with hold | rfl
    · exact h.owned entry hold
    · exact .inr (app_scaled (h.owned _ hmem))

theorem Suits.isFieldName (h : formation.Suits app) (htyped : formation.IsTyped)
    (hknown : formation.process? type = some process) : isFieldName type = true := by
  obtain ⟨other, heq, hvalid⟩ := h.valid _ (htyped.mem_of_process? hknown)
  rw [Value.text.inj heq]
  exact hvalid

end Formation

/-- Instances of field names and of integers of 64 bits have names. -/
theorem Blueprint.exists_instanceName {app type : String} {blueprint : Blueprint}
    (hblueprint : blueprint.IsTyped app) (happ : isFieldName app = true)
    (htype : isFieldName type = true) {n : Nat} (hn : CellNumber.fits n = true) :
    ∃ name, World.instanceName? blueprint.release type n = .ok name := by
  obtain ⟨version, hversion, hfits⟩ := hblueprint.version
  refine ⟨JobName.text ⟨app, version, type, n⟩, ?_⟩
  rw [World.instanceName?, hblueprint.app, hversion]
  -- a name is refused for its fields or for numbers that are too long to be written
  refine @JobName.text?_of_isValid ⟨app, version, type, n⟩ ⟨happ, htype⟩ ?_
  rw [JobName.writable, CellNumber.writable_of_fits hfits, CellNumber.writable_of_fits hn]
  rfl

namespace Ledger

open World

variable {app type command : String} {blueprint : Blueprint} {environment : Environment}
  {formation scaled : Formation} {process : ProcessType} {request : ScaleRequest}
  {ledger moved after : Ledger} {current target : Nat}

/-! ### One process type -/

theorem Placed.processes_eq {jobs : List Job} (h : Placed jobs ledger after) :
    after.processes = ledger.processes := by
  induction h with
  | nil => rfl
  | cons _ _ _ _ _ _ ih => exact ih

/-- Bringing a process type to a target leaves alone what is wanted. -/
theorem Adjusted.processes_eq
    (h : Adjusted app blueprint type command current target ledger moved) :
    moved.processes = ledger.processes := by
  cases h with
  | grown _ _ hplaced => exact hplaced.processes_eq
  | shrunk => exact processes_retireAll _ _
  | kept => rfl

/-- Jobs stay held unless their instances are given up. -/
theorem Adjusted.holds_of_holds
    (h : Adjusted app blueprint type command current target ledger moved)
    {other : String} {order : Value} {n : Nat}
    (hholds : ledger.Holds ((blueprint.template environment).job (.text other) order n))
    (hstays : other = type → n ≤ target) :
    moved.Holds ((blueprint.template environment).job (.text other) order n) := by
  cases h with
  | grown _ _ hplaced => exact hplaced.holds_of_holds hholds
  | shrunk _ hordinals hgiven _ =>
    obtain ⟨definition, _, hdefinition, -⟩ := id hholds
    have hname := Placement.name_of_definition? hdefinition
    refine hholds.retireAll hname fun hmem => ?_
    -- only ordinals above the target are given up
    obtain ⟨hother, m, hm, heq⟩ := (mem_instanceNames_iff hgiven hname).mp hmem
    have hlies := (hordinals m).mp hm
    have hle := hstays hother
    omega
  | kept => exact hholds

/-- All instances up to the target are held, if those up to the quantity were. -/
theorem Adjusted.holds
    (h : Adjusted app blueprint type command current target ledger moved)
    (henvironment : Environment.ofVars blueprint.vars = .ok environment)
    (hheld : ∀ n, n < current →
      ledger.Holds ((blueprint.template environment).job (.text type) (.text command) (n + 1)))
    {n : Nat} (hn : n < target) :
    moved.Holds ((blueprint.template environment).job (.text type) (.text command) (n + 1)) := by
  -- Instances from before are kept, and all others up to the target were placed.
  by_cases hbefore : n < current
  · exact h.holds_of_holds (hheld n hbefore) fun _ => hn
  · cases h with
    | grown hlt henvironment' hplaced =>
      rw [henvironment] at henvironment'
      obtain rfl := Except.ok.inj henvironment'
      exact hplaced.holds _ (List.mem_map_of_mem (List.mem_range'_1.mpr ⟨by omega, by omega⟩))
    | shrunk hgt => omega
    | kept => exact absurd hn hbefore

/-! ### Counting a formation -/

/-- The tracked instances of a release are those that a formation wants. Of other releases nothing
is said, nor of what the jobs hold. -/
def Counts (release : Release) (formation : Formation) (ledger : Ledger) : Prop :=
  ∀ type ordinal, HasInstance release type ledger.tracked ordinal ↔
    ∃ count, formation.count? type = some count ∧ 1 ≤ ordinal ∧ ordinal ≤ count

/-- All that is tracked of a release is scheduled. It is the half of agreement that scaling needs:
an instance that is withdrawn has to be known to the scheduler. -/
def SchedulesTracked (release : Release) (ledger : Ledger) : Prop :=
  ∀ kind order given, JobName.text? release.app release.version kind order = .ok given →
    given ∈ ledger.tracked → given ∈ ledger.scheduled

theorem Counts.isRange {release : Release} (h : Counts release formation ledger)
    (hcount : formation.count? type = some current) :
    IsRange current (HasInstance release type ledger.tracked) := by
  intro ordinal
  rw [h, hcount]
  exact ⟨fun ⟨_, heq, hlies⟩ => Option.some.inj heq ▸ hlies, fun hlies => ⟨current, rfl, hlies⟩⟩

/-- **Bringing a process type to a target** leaves the instances that the formation wants with that
target. All other types have the instances that they had. -/
theorem Counts.adjusted (h : Counts blueprint.release formation ledger) (hsound : ledger.IsSound)
    (happ : blueprint.release.app = .text app) (hknown : formation.process? type = some process)
    (hquantity : process.quantity = .whole current)
    (hadjusted : Adjusted app blueprint type command current target ledger moved) (owner : Value) :
    Counts blueprint.release (formation.replace type (process.scaled target owner)) moved := by
  obtain ⟨hown, hothers⟩ := hadjusted.reached hsound happ
  have hcurrent := Formation.count?_eq_some.mpr ⟨process, hknown, hquantity⟩
  intro other ordinal
  -- The type in question has the range up to the target, and every other one what it had.
  rw [Formation.count?_replace owner hknown]
  split
  · next heq =>
    rw [heq, hown.isRange trivial (h.isRange hcurrent) ordinal]
    exact ⟨fun hlies => ⟨target, rfl, hlies⟩, fun ⟨_, heq, hlies⟩ => Option.some.inj heq ▸ hlies⟩
  · next hne => rw [hothers other hne, h]

/-- Where scheduler and job store agree, what is tracked is scheduled. -/
theorem Agrees.schedulesTracked {release : Release} (h : ledger.Agrees app)
    (happ : release.app = .text app) : ledger.SchedulesTracked release := by
  intro kind order given hgiven hmem
  rw [happ] at hgiven
  exact (h given ⟨_, _, _, hgiven⟩).mpr hmem

/-- A move leaves nothing tracked that is not scheduled. -/
theorem SchedulesTracked.of_moves {release : Release} (h : ledger.SchedulesTracked release)
    (hmoves : Moves app ledger moved) : moved.SchedulesTracked release := by
  -- Move by move; what becomes tracked is scheduled in the same move.
  induction hmoves with
  | refl => exact h
  | tail _ hmove ih =>
    intro kind order given hgiven hmem
    have hbefore := ih kind order given hgiven
    cases hmove with
    | place _ _ hrow _ =>
      rw [scheduled_add, mem_scheduled_schedule]
      rw [tracked_add, tracked_schedule, List.mem_append, List.mem_singleton, hrow] at hmem
      exact hmem.symm.imp_right hbefore
    | redefine => exact (mem_scheduled_schedule _).mpr (.inr (hbefore hmem))
    | retire =>
      -- a job is retired from the scheduler and from the store at once
      rw [mem_tracked_retire] at hmem
      exact (mem_scheduled_retire _).mpr ⟨hmem.1, hbefore hmem.2⟩
    | want => exact hbefore hmem

/-- **While the instances are those that the formation wants, only a fault breaks scaling off.** -/
theorem Counts.not_brokenOff {calm : Prop} (h : Counts blueprint.release formation ledger)
    (hscheduled : ledger.SchedulesTracked blueprint.release) (hsound : ledger.IsSound)
    (hblueprint : blueprint.IsTyped app) (happ : isFieldName app = true)
    (htype : isFieldName type = true)
    (henvironment : Environment.ofVars blueprint.vars = .ok environment)
    (hcount : formation.count? type = some current) (hcurrent : CellNumber.fits current = true)
    (htarget : CellNumber.fits target = true) (hcalm : calm)
    (hbroken : BrokenOff app blueprint type command calm current target ledger moved) : False := by
  have hrange := h.isRange hcount
  -- The variables could not be set, or an instance could not be placed, or one could not be
  -- withdrawn.
  cases hbroken with
  | refused hfailure =>
    rw [henvironment] at hfailure
    cases hfailure
  | @growing count _ middle _ environment' hlt _ hplaced _ hreason =>
    -- the next instance has a name, which nothing tracks
    obtain ⟨name, hname⟩ := blueprint.exists_instanceName hblueprint happ htype
      (n := current + count + 1) (CellNumber.fits_of_le (by omega) htarget)
    have hmiddle := isSound_of_moves
      (hplaced.moves fun job hmem => app_of_mem_instances hblueprint.app hmem) hsound
    have hhas : HasInstance blueprint.release type middle.tracked (current + count + 1 : Nat) :=
      ⟨name, hname, hreason hcalm name hname⟩
    rw [(hplaced.hasInstance_iff hmiddle type _).1, hrange] at hhas
    omega
  | @shrinking rest _ ordinals given hrest hle hordinals hgiven _ hreason =>
    -- the next instance is tracked, and so it is scheduled
    obtain ⟨name, hname⟩ := blueprint.exists_instanceName hblueprint happ htype (n := target + rest)
      (CellNumber.fits_of_le hle hcurrent)
    obtain ⟨name', hname', hmem⟩ := (hrange (target + rest : Nat)).mpr (by omega)
    rw [instanceName?, hname'] at hname
    obtain rfl := Except.ok.inj hname
    have hof : IsNameOf app name' := by
      rw [hblueprint.app] at hname'
      exact ⟨_, _, _, hname'⟩
    rcases hreason hcalm name' hname' with huntracked | hunscheduled
    · exact huntracked (hsound.mem_trackedOf.mpr ⟨hof, hmem⟩)
    · refine hunscheduled
        (mem_scheduled_retireAll.mpr ⟨fun hgone => ?_, hscheduled _ _ name' hname' hmem⟩)
      obtain ⟨-, n, hn, heq⟩ := (mem_instanceNames_iff hgiven hname').mp hgone
      have hlies := (hordinals n).mp hn
      omega

/-- **While the instances are those that the formation wants, only a fault stops a request**, if all
process types are field names. With calm at the scheduler and a process store that keeps what it is
given there is no such fault. -/
theorem Counts.not_stopped {calm keep : Prop} (h : Counts blueprint.release formation ledger)
    (hscheduled : ledger.SchedulesTracked blueprint.release) (hsound : ledger.IsSound)
    (hblueprint : blueprint.IsTyped app) (happ : isFieldName app = true)
    (htyped : formation.IsTyped)
    (hvalid : ∀ process, formation.process? type = some process → isFieldName type = true)
    (henvironment : Environment.ofVars blueprint.vars = .ok environment)
    (htarget : CellNumber.fits target = true) (hcalm : calm) (hkeep : keep)
    (hstopped : Stopped app blueprint calm keep type target ledger formation after scaled) :
    False := by
  cases hstopped with
  | broken hknown _ hquantity hbroken =>
    obtain ⟨count, hcount, hquantity', hcurrent⟩ := htyped.exists_count? hknown
    rw [hquantity] at hquantity'
    obtain rfl := Quantity.whole.inj hquantity'
    exact h.not_brokenOff hscheduled hsound hblueprint happ (hvalid _ hknown) henvironment hcount
      hcurrent htarget hcalm hbroken
  | unkept _ _ _ _ hreason => exact hreason hkeep

/-- **Working a request off** leaves the instances that the formation wants with its targets. Each
entry finds the counts that the ones before it have left. -/
theorem Counts.of_scaled (hscaled : Scaled app blueprint request ledger formation after scaled)
    (h : Counts blueprint.release formation ledger) (hsound : ledger.IsSound)
    (happ : blueprint.release.app = .text app) (htyped : formation.IsTyped)
    (hfits : ∀ entry ∈ request, CellNumber.fits entry.2 = true) :
    Counts blueprint.release scaled after := by
  -- Entry by entry; each leaves a formation and a ledger that fit each other again.
  induction hscaled with
  | nil => exact h
  | skip _ _ ih =>
    exact ih h hsound htyped fun entry hmem => hfits entry (List.mem_cons_of_mem _ hmem)
  | @cons first command target current rest _ _ _ _ _ process row hknown _ hquantity hadjusted _ _
    ih =>
    exact ih (h.adjusted hsound happ hknown hquantity hadjusted (.text app))
      (hadjusted.isSound_want happ hsound row)
      (htyped.scaled hknown (hfits (first, target) List.mem_cons_self) app)
      fun entry hmem => hfits entry (List.mem_cons_of_mem _ hmem)

/-! ### Running a formation -/

/-- The ledger runs the formation for the release: the tracked instances are those that the
formation wants, and all of them are held. To be held is more than to be tracked: the scheduler runs
the instance as it defines itself, and its row reads back as it. -/
structure Runs (blueprint : Blueprint) (environment : Environment) (formation : Formation)
    (ledger : Ledger) : Prop where
  instances : ∀ type ordinal, HasInstance blueprint.release type ledger.tracked ordinal ↔
    ∃ count, formation.count? type = some count ∧ 1 ≤ ordinal ∧ ordinal ≤ count
  held : ∀ type process count n, formation.process? type = some process →
    process.quantity = .whole count → n < count →
    ledger.Holds ((blueprint.template environment).job (.text type) process.command (n + 1))

theorem Runs.counts (h : Runs blueprint environment formation ledger) :
    Counts blueprint.release formation ledger := h.instances

theorem Runs.want (h : Runs blueprint environment formation ledger) (row : ProcessRow) :
    Runs blueprint environment formation (ledger.want row) := ⟨h.instances, h.held⟩

/-- Giving up names of other versions is nothing to what runs. -/
theorem Runs.retireAll_foreign {version : Int} (h : Runs blueprint environment formation ledger)
    (happ : blueprint.release.app = .text app) (hversion : blueprint.release.version = .int version)
    {gone : List String} (hgone : ∀ given ∈ gone, ¬IsVersionOf app version given) :
    Runs blueprint environment formation (ledger.retireAll gone) where
  instances type ordinal :=
    (hasInstance_retireAll_foreign happ hversion hgone ordinal).trans (h.instances type ordinal)
  held := by
    intro type process count n hknown hquantity hn
    have hholds := h.held type process count n hknown hquantity hn
    obtain ⟨definition, _, hdefinition, -⟩ := id hholds
    have hname := Placement.name_of_definition? hdefinition
    exact hholds.retireAll hname fun hmem =>
      hgone _ hmem (isVersionOf_of_text? happ hversion hname)

/-- **Bringing a process type to a target runs the formation with that target.** The instances that
stay are not placed anew, so they keep the image and command that they had. -/
theorem Runs.adjusted (h : Runs blueprint environment formation ledger) (hsound : ledger.IsSound)
    (happ : blueprint.release.app = .text app)
    (henvironment : Environment.ofVars blueprint.vars = .ok environment)
    (hknown : formation.process? type = some process)
    (hcommand : process.command = .text command) (hquantity : process.quantity = .whole current)
    (hadjusted : Adjusted app blueprint type command current target ledger moved) (owner : Value) :
    Runs blueprint environment (formation.replace type (process.scaled target owner)) moved := by
  refine ⟨h.counts.adjusted hsound happ hknown hquantity hadjusted owner, ?_⟩
  intro other found count n hfound hcount hn
  -- the scaled process keeps its command, and all others are as they were
  rw [Formation.process?_replace] at hfound
  split at hfound
  · next heq =>
    subst heq
    rw [hknown] at hfound
    obtain rfl := Option.some.inj hfound
    obtain rfl := Quantity.whole.inj hcount
    rw [ProcessType.command_scaled, hcommand]
    refine hadjusted.holds henvironment (fun m hm => ?_) hn
    rw [← hcommand]
    exact h.held other process current m hknown hquantity hm
  · next hne =>
    exact hadjusted.holds_of_holds (h.held other found count n hfound hcount hn)
      fun heq => absurd heq hne

/-! ### A whole request -/

/-- **Working a request off runs the formation with its targets.** This adds to the counts which
jobs the instances are. -/
theorem Runs.of_scaled (hscaled : Scaled app blueprint request ledger formation after scaled)
    (h : Runs blueprint environment formation ledger) (hsound : ledger.IsSound)
    (happ : blueprint.release.app = .text app)
    (henvironment : Environment.ofVars blueprint.vars = .ok environment)
    (htyped : formation.IsTyped) (hsuits : formation.Suits app)
    (hfits : ∀ entry ∈ request, CellNumber.fits entry.2 = true) :
    Runs blueprint environment scaled after ∧ scaled.Suits app := by
  -- Entry by entry, along with the formation, which has to suit the application at each of them.
  induction hscaled with
  | nil => exact ⟨h, hsuits⟩
  | skip _ _ ih =>
    exact ih h hsound htyped hsuits fun entry hmem => hfits entry (List.mem_cons_of_mem _ hmem)
  | @cons first command target current rest _ _ _ _ _ process row hknown hcommand hquantity
    hadjusted _ _ ih =>
    refine ih ?_ (hadjusted.isSound_want happ hsound row)
      (htyped.scaled hknown (hfits (first, target) List.mem_cons_self) app)
      (hsuits.scaled htyped hknown) fun entry hmem => hfits entry (List.mem_cons_of_mem _ hmem)
    have hruns := h.adjusted hsound happ henvironment hknown hcommand hquantity hadjusted
    exact (hruns _).want row

/-- Working a request off leaves all commands alone. -/
theorem Scaled.command?_eq (hscaled : Scaled app blueprint request ledger formation after scaled)
    (htyped : formation.IsTyped) (hfits : ∀ entry ∈ request, CellNumber.fits entry.2 = true)
    (type : String) : scaled.command? type = formation.command? type := by
  -- Entry by entry: only quantities and owners change.
  induction hscaled with
  | nil => rfl
  | skip _ _ ih => exact ih htyped fun entry hmem => hfits entry (List.mem_cons_of_mem _ hmem)
  | @cons first command target current rest _ _ _ formation _ process row hknown _ _ _ _ _ ih =>
    rw [ih (htyped.scaled hknown (hfits (first, target) List.mem_cons_self) app)
      fun entry hmem => hfits entry (List.mem_cons_of_mem _ hmem), Formation.command?,
      Formation.process?_replace, Formation.command?]
    split
    · next heq =>
      rw [heq, hknown]
      rfl
    · rfl

/-- The row that is written down for a process is one of the application and of the process type. -/
theorem Wants.row_of_suits {row : ProcessRow}
    (h : Wants row (process.scaled target (.text app)) target)
    (hknown : formation.process? type = some process) (htyped : formation.IsTyped)
    (hsuits : formation.Suits app) : row.app = app ∧ row.type = type := by
  have hmem := htyped.mem_of_process? hknown
  have howner := h.app
  rw [Formation.app_scaled (hsuits.owned _ hmem)] at howner
  have hkind := h.type
  rw [ProcessType.type_scaled, hsuits.own _ hmem] at hkind
  exact ⟨(Value.text.inj howner).symm, (Value.text.inj hkind).symm⟩

/-- What is wanted of a process type that a request does not name stays. -/
theorem Scaled.isWanted_of_not_mem
    (hscaled : Scaled app blueprint request ledger formation after scaled)
    (htyped : formation.IsTyped) (hsuits : formation.Suits app)
    (hfits : ∀ entry ∈ request, CellNumber.fits entry.2 = true) (hnot : type ∉ request.map (·.1))
    {wanted : Nat} (hwanted : ledger.IsWanted app type wanted) :
    after.IsWanted app type wanted := by
  -- Entry by entry: each writes down a row of its own type.
  induction hscaled with
  | nil => exact hwanted
  | skip _ _ ih =>
    exact ih htyped hsuits (fun entry hmem => hfits entry (List.mem_cons_of_mem _ hmem))
      (fun hmem => hnot (List.mem_cons_of_mem _ hmem)) hwanted
  | @cons first command target current rest ledger moved _ formation _ process row hknown _ _
      hadjusted hrow _ ih =>
    have hne : type ≠ first := fun heq => hnot (heq ▸ List.mem_cons_self)
    refine ih (htyped.scaled hknown (hfits (first, target) List.mem_cons_self) app)
      (hsuits.scaled htyped hknown) (fun entry hmem => hfits entry (List.mem_cons_of_mem _ hmem))
      (fun hmem => hnot (List.mem_cons_of_mem _ hmem)) ?_
    -- the row that is written is that of the first type
    refine IsWanted.want ?_ ((hrow.row_of_suits hknown htyped hsuits).2 ▸ hne)
    rw [IsWanted, hadjusted.processes_eq]
    exact hwanted

/-- **Working a request off writes its targets down**, those of known process types. A later entry
does not write over them, as every type occurs once. -/
theorem Scaled.isWanted (hscaled : Scaled app blueprint request ledger formation after scaled)
    (htyped : formation.IsTyped) (hsuits : formation.Suits app)
    (hfits : ∀ entry ∈ request, CellNumber.fits entry.2 = true)
    (hdistinct : (request.map (·.1)).Nodup) (hmem : (type, target) ∈ request)
    {count : Nat} (hcount : formation.count? type = some count) :
    after.IsWanted app type target := by
  -- Up to the entry of the type, and behind it by the lemma for types that are not named.
  induction hscaled with
  | nil => cases hmem
  | @skip first _ rest _ _ _ _ hunknown _ ih =>
    rcases List.mem_cons.mp hmem with heq | hlater
    · obtain ⟨rfl, -⟩ := Prod.mk.inj heq
      obtain ⟨process, hknown, -⟩ := Formation.count?_eq_some.mp hcount
      rw [hunknown] at hknown
      cases hknown
    · exact ih htyped hsuits (fun entry hmem => hfits entry (List.mem_cons_of_mem _ hmem))
        (List.nodup_cons.mp hdistinct).2 hlater hcount
  | @cons first command aim current rest ledger moved _ formation _ process row hknown _ _ hadjusted
      hrow hrest ih =>
    obtain ⟨hfirst, hdistinct'⟩ := List.nodup_cons.mp hdistinct
    have htyped' := htyped.scaled hknown (hfits (first, aim) List.mem_cons_self) app
    have hsuits' : Formation.Suits app (formation.replace first (process.scaled aim (.text app))) :=
      hsuits.scaled htyped hknown
    have hfits' : ∀ entry ∈ rest, CellNumber.fits entry.2 = true :=
      fun entry hmem => hfits entry (List.mem_cons_of_mem _ hmem)
    rcases List.mem_cons.mp hmem with heq | hlater
    · -- the entry writes its own target down, and no later one is of its type
      obtain ⟨rfl, rfl⟩ := Prod.mk.inj heq
      obtain ⟨happ, htype⟩ := hrow.row_of_suits hknown htyped hsuits
      have hwritten := isWanted_want row hrow.quantity moved
      rw [happ, htype] at hwritten
      exact hrest.isWanted_of_not_mem htyped' hsuits' hfits' hfirst hwritten
    · have hne : type ≠ first := fun heq => hfirst (heq ▸ List.mem_map.mpr ⟨_, hlater, rfl⟩)
      refine ih htyped' hsuits' hfits' hdistinct' hlater ?_
      rw [Formation.count?_replace _ hknown, if_neg hne]
      exact hcount

end Ledger

end Rollout
