import Rollout.Proofs.Doings

/-!
# What scheduler and job store say of a job

The scheduler keeps a definition of each job that it runs, and the job store keeps the job. Do the
two say the same of a name that both of them have? They differ in what they do with a name that they
have already: the scheduler takes the new definition, and the store refuses the new job. So they
need not agree. If a version is released again with another image, its first job is scheduled anew
and then refused, and from then on the scheduler runs the new image and the store tells the old one
(`Session.not_always_agrees`).

This is the only way in which it happens. A deed *conflicts* at a name if the last that it does is
to have a definition of the name scheduled and its job tracked, while the job that is listed under
the name is another one (`Session.Conflicts`). As long as nothing but that is known, no more can be
said: a deed that conflicts leaves the two sides in disagreement, and a deed that does not keeps
them in agreement (`Session.agrees_iff_no_conflict`).

The argument goes by strokes. A stroke that places a job does so only if the store admits it, so
the name is new there and both sides say the same. Without faults the only half stroke is a job that
is scheduled and refused. Which definition the scheduler has then can be read off the record, since
that was the last but one call.
-/

namespace Rollout

/-- The definition says the same of a job as the job itself: its command, its image, and its
environment as a mapping. What else a definition has is its name, by which the two are compared. -/
structure Definition.Describes (definition : Definition) (job : Job) : Prop where
  command : definition.command = job.command
  image : definition.image = job.image
  environment : job.environment.same definition.environment = true

/-- Command, image and environment of the job are texts. Nothing is said of what its name is made
of. -/
structure Job.IsTextual (job : Job) : Prop where
  environment : ∃ environment : Environment,
    job.environment = .ofFields environment ∧ environment.names.Nodup
  repo : ∃ s, job.image.repo = .text s
  id : ∃ s, job.image.id = .text s
  command : ∃ s, job.command = .text s

/-- **A textual job that is admitted can be stored**: it has a name, which is made of texts and
integers, and its integers were taken. -/
theorem Job.IsTextual.isStorable {job : Job} (h : job.IsTextual) {now : String}
    {rows : List JobRow} {row : JobRow} (hrow : JobRow.admit? now rows job = .ok row) :
    job.IsStorable := by
  -- That it was admitted says what its name is made of.
  obtain ⟨name, -, -, -, happ, hversion, htype, hordinal⟩ :=
    JobName.text?_eq_ok (JobRow.name_of_admit? hrow).1
  obtain ⟨-, hfitsVersion, hfitsOrdinal⟩ := JobRow.fields_of_admit? hrow
  exact ⟨⟨_, happ⟩, ⟨_, hversion, hfitsVersion _ hversion⟩, ⟨_, htype⟩,
    ⟨_, hordinal, hfitsOrdinal _ hordinal⟩, h.environment, h.repo, h.id, h.command⟩

/-- The row of a textual job that is admitted reads back as the job. -/
theorem Job.IsTextual.tracks {job : Job} (h : job.IsTextual) {now : String} {rows : List JobRow}
    {row : JobRow} (hrow : JobRow.admit? now rows job = .ok row) : row.Tracks job := by
  obtain ⟨row', -, htracks, hunique⟩ :=
    JobRow.admit?_of_isStorable (h.isStorable hrow) (JobRow.name_of_admit? hrow).1 now rows
  rw [hunique, JobRow.unique?] at hrow
  split at hrow
  · cases hrow
  · obtain rfl := Except.ok.inj hrow
    exact htracks

/-! ### On a ledger -/

namespace Ledger

variable {scope : Scope} {now : String} {ledger after : Ledger} {record : List Attempt}
  {name : String}

/-- Scheduler and job store say the same of the name, if both of them have it. Where only one of
them has it there is nothing to compare. -/
def AgreesOn (name : String) (ledger : Ledger) : Prop :=
  ∀ definition, ledger.definitions.lookup name = some definition →
    ∀ row ∈ ledger.jobs, row.name = name → ∀ kept, row.job? = .ok kept → definition.Describes kept

theorem AgreesOn.schedule (h : ledger.AgreesOn name) {definition : Definition}
    (hne : name ≠ definition.name) : (ledger.schedule definition).AgreesOn name := by
  intro other hlookup
  refine h other ?_
  rw [← hlookup]
  exact ((Named.lookup_set _ _ _ _).trans (if_neg hne)).symm

/-- **A stroke keeps a ledger sound**, if the jobs that it may place are textual. Their rows then
have the names that they say, and can be read back. -/
theorem Stroke.isSound (hplaces : ∀ job, scope.places job → job.IsTextual)
    (h : Stroke scope now ledger after) (hsound : ledger.IsSound) : after.IsSound := by
  have happ {job : Job} {name : String} (hname : job.name? = .ok name) :
      ∃ app, IsNameOf app name := by
    obtain ⟨_, -, -, -, happ, -⟩ := JobName.text?_eq_ok hname
    exact ⟨_, Job.isNameOf_of_name? happ hname⟩
  -- whatever the application of the job is, the stroke is a move for it
  cases h with
  | placed hjob hdefinition hrow =>
    obtain ⟨hname, hnew⟩ := JobRow.name_of_admit? hrow
    have hsame := hname.symm.trans (Placement.name_of_definition? hdefinition)
    obtain ⟨app, hof⟩ := happ (Placement.name_of_definition? hdefinition)
    refine Move.isSound (.place hof ?_ (Except.ok.inj hsame)
      (isReadable_of_tracks ((hplaces _ hjob).tracks hrow) hname)) hsound
    rw [← Except.ok.inj hsame]
    exact hnew
  | withdrawn hjob hname hmem =>
    obtain ⟨app, hof⟩ := happ hname
    exact Move.isSound (.retire hof) hsound
  | wanted => exact ⟨hsound.readable, hsound.distinct⟩

/-- **A stroke keeps both sides in agreement** on every name. It adds a name on both sides, takes it
from both, or touches neither. -/
theorem Stroke.agreesOn (hplaces : ∀ job, scope.places job → job.IsTextual)
    (h : Stroke scope now ledger after) (hagrees : ledger.AgreesOn name) :
    after.AgreesOn name := by
  -- Placing adds the name to both sides at once, withdrawing takes it from both, and what is wanted
  -- is on neither.
  cases h with
  | @placed job definition placed hjob hdefinition hrow =>
    obtain ⟨hname, hnew⟩ := JobRow.name_of_admit? hrow
    have htextual := hplaces job hjob
    have hsame : placed.name = definition.name :=
      Except.ok.inj (hname.symm.trans (Placement.name_of_definition? hdefinition))
    intro other hlookup row hmem hrowName kept hkept
    rcases List.mem_append.mp hmem with hold | hlast
    · -- the name of the new row is new, so an old row is about another name
      have hne : name ≠ definition.name := by
        rintro rfl
        exact hnew (hsame ▸ hrowName ▸ List.mem_map_of_mem hold)
      exact (hagrees.schedule hne) other hlookup row hold hrowName kept hkept
    · -- the new row reads back as the job whose definition was scheduled
      obtain rfl := List.mem_singleton.mp hlast
      obtain ⟨read, hread, halike⟩ := htextual.tracks hrow
      rw [hkept] at hread
      obtain rfl := Except.ok.inj hread
      have hother : other = definition := by
        have hset := Named.lookup_set definition.name name definition ledger.definitions
        rw [if_pos (hrowName.symm.trans hsame)] at hset
        exact Option.some.inj (hlookup.symm.trans hset)
      have hdefined := Placement.definition?_of_isStorable (htextual.isStorable hrow) hname
      rw [hdefinition] at hdefined
      rw [hother, Except.ok.inj hdefined]
      exact ⟨halike.command.symm, halike.image.symm, halike.environment⟩
  | @withdrawn job given hjob hname hmem =>
    intro other hlookup row hmem hrowName
    obtain ⟨hold, hne⟩ := List.mem_filter.mp hmem
    rw [decide_eq_true_eq, hrowName] at hne
    -- a row that is left is about another name
    refine hagrees other ?_ row hold hrowName
    rw [← hlookup]
    exact (Named.lookup_erase hne ledger.definitions).symm
  | wanted => exact hagrees

/-- Strokes keep a ledger sound and both sides in agreement. -/
theorem isSound_of_strokes (hplaces : ∀ job, scope.places job → job.IsTextual)
    (h : Strokes scope now ledger after) (hsound : ledger.IsSound) :
    after.IsSound ∧ (ledger.AgreesOn name → after.AgreesOn name) := by
  -- Stroke by stroke, both at once, since agreement needs the rows to be readable.
  induction h with
  | refl => exact ⟨hsound, id⟩
  | tail _ hstroke ih =>
    exact ⟨hstroke.isSound hplaces ih.1, fun hagrees => hstroke.agreesOn hplaces (ih.2 hagrees)⟩

/-- **Half a stroke without faults** keeps both sides in agreement on a name, unless a job of the
name was scheduled and refused. Jobs that are tracked stay the same. -/
theorem Halved.agreesOn {failure : Failure} (hfaults : ∀ attempt ∈ record, attempt.fault = none)
    (h : Halved scope now record failure ledger after) :
    after.jobs = ledger.jobs ∧ (ledger.AgreesOn name → after.AgreesOn name ∨
      ∃ definition job, definition.name = name ∧
        [⟨.schedule definition, none⟩, ⟨.add job, none⟩] <:+ record) := by
  -- Without faults a removal cannot fail behind the scheduler, so a job was scheduled and refused.
  cases h with
  | @unadded job definition fault hjob hdefinition hlast =>
    refine ⟨rfl, fun hagrees => ?_⟩
    by_cases heq : name = definition.name
    · obtain rfl : fault = none := hfaults ⟨.add job, fault⟩
        (hlast.subset (List.mem_cons_of_mem _ List.mem_cons_self))
      exact .inr ⟨definition, job, heq.symm, hlast⟩
    · exact .inl (hagrees.schedule heq)
  | unremoved _ _ _ hfault => cases hfaults _ hfault

/-- **Work without faults** keeps a ledger sound, and both sides in agreement on a name unless it
ends with a job of the name that is scheduled and refused. -/
theorem Worked.agreesOn {ending : Option Failure} (name : String)
    (hplaces : ∀ job, scope.places job → job.IsTextual)
    (hfaults : ∀ attempt ∈ record, attempt.fault = none)
    (h : Worked scope now record ending ledger after) (hsound : ledger.IsSound) :
    after.IsSound ∧ (ledger.AgreesOn name → after.AgreesOn name ∨
      ∃ definition job, definition.name = name ∧
        [⟨.schedule definition, none⟩, ⟨.add job, none⟩] <:+ record) := by
  obtain ⟨middle, hstrokes, rfl | ⟨failure, -, hhalved⟩⟩ := h
  · obtain ⟨hafter, hagrees⟩ := isSound_of_strokes hplaces hstrokes hsound
    exact ⟨hafter, fun h => .inl (hagrees h)⟩
  · obtain ⟨⟨hreadable, hdistinct⟩, hagrees⟩ := isSound_of_strokes hplaces hstrokes hsound
    obtain ⟨hjobs, hkept⟩ := hhalved.agreesOn hfaults
    refine ⟨⟨hjobs ▸ hreadable, ?_⟩, fun h => hkept (hagrees h)⟩
    rw [tracked, hjobs]
    exact hdistinct

/-- Without faults a record ends with what its calls end with. -/
theorem isSuffix_of_calls (hfaults : ∀ attempt ∈ record, attempt.fault = none)
    {first last : Call}
    (h : [.call first, .call last] <:+ record.map fun attempt => Request.call attempt.call) :
    [⟨first, none⟩, ⟨last, none⟩] <:+ record := by
  -- The end of the record has these two calls, and none of them met a fault.
  obtain ⟨attempts, hattempts, hcalls⟩ := List.suffix_map_iff.mp h
  obtain ⟨attempt, rest, rfl, hfirst, hrest⟩ := List.map_eq_cons_iff.mp hcalls.symm
  obtain ⟨other, rfl, hlast⟩ := List.map_eq_singleton_iff.mp hrest
  have hspared : attempt.fault = none ∧ other.fault = none :=
    ⟨hfaults _ (hattempts.subset List.mem_cons_self),
      hfaults _ (hattempts.subset (List.mem_cons_of_mem _ List.mem_cons_self))⟩
  obtain ⟨call, fault⟩ := attempt
  obtain ⟨other, otherFault⟩ := other
  obtain ⟨rfl, rfl⟩ : fault = none ∧ otherFault = none := hspared
  rw [← Request.call.inj hfirst, ← Request.call.inj hlast]
  exact hattempts

end Ledger

/-! ### Plain deeds -/

/-- The commands of the formation are texts. A command of another kind is handed on to the scheduler
as it is, and the job store might refuse it. -/
def Formation.IsTextual (formation : Formation) : Prop :=
  ∀ named ∈ formation, ∃ s, named.2.command = .text s

/-- The image of the blueprint is made of texts. This is what scheduling and tracking both need of
it. -/
def Blueprint.IsTextual (blueprint : Blueprint) : Prop :=
  (∃ s, blueprint.image.repo = .text s) ∧ ∃ s, blueprint.image.id = .text s

/-- What is handed in for a textual release is textual. -/
theorem Blueprint.Submits.isTextual {blueprint : Blueprint} {formation : Formation}
    {limits : Nat → Prop} {job : Job} (h : blueprint.Submits formation limits job)
    (hblueprint : blueprint.IsTextual) (hformation : formation.IsTextual) : job.IsTextual where
  environment := by
    obtain ⟨environment, henvironment, hjob⟩ := h.environment
    exact ⟨environment, hjob, Environment.nodup_of_ofVars henvironment⟩
  repo := by
    rw [h.image]
    exact hblueprint.1
  id := by
    rw [h.image]
    exact hblueprint.2
  command := by
    obtain ⟨entry, hmem, hcommand⟩ := h.command
    rw [hcommand]
    exact hformation entry hmem

/-- The deed lays no fault in wait that fails, and commands and images are texts. Applications,
versions, variables, process types and quantities may be anything. -/
def Deed.IsPlain : Deed → Prop
  | define _ formation => formation.IsTextual
  | release blueprint _ | scale blueprint _ _ => blueprint.IsTextual
  | start _ | elapse _ | cancel _ => True
  | arm faults => ∀ fault ∈ faults, fault.failure = none

namespace Session

variable {opened : Opened} {session : Session} {ledger : Ledger} {deed : Deed} {name : String}

/-- Scheduler and job store agree on what the job of the name is: a name that is tracked is listed,
and if it is scheduled as well, its definition says the same as the job that is listed. -/
structure AgreesOn (session : Session) (name : String) : Prop where
  listed : name ∈ session.tracked → ∃ app, ∃ job ∈ session.listed app, job.name? = .ok name
  same : ∀ definition, session.world.definitions.lookup name = some definition →
    ∀ app, ∀ job ∈ session.listed app, job.name? = .ok name → definition.Describes job

/-- What the deed leaves on record: the history of the world is only ever added to, so it is what is
behind the history from before. -/
def recordOf (session : Session) (deed : Deed) : List Request :=
  (session.afterDeed deed).world.history.drop session.world.history.length

/-- The deed conflicts at the name: the last that it does is to have a definition of the name
scheduled and its job tracked, and the job that is listed under the name is another one. All of this
can be told from outside, by the record and by a listing. -/
def Conflicts (session : Session) (deed : Deed) (name : String) : Prop :=
  ∃ definition job, definition.name = name ∧
    [.call (.schedule definition), .call (.add job)] <:+ session.recordOf deed ∧
    ∃ app, ∃ kept ∈ (session.afterDeed deed).listed app, kept.name? = .ok name ∧
      ¬definition.Describes kept

/-- The session stands, its rows can be read, its formations are textual, and no fault that fails
lies in wait. -/
structure Untroubled (opened : Opened) (session : Session) (ledger : Ledger) : Prop
    extends session.Stands opened ledger where
  sound : ledger.IsSound
  faults : ∀ fault ∈ session.world.faults, fault.failure = none
  formations : ∀ entry ∈ session.formations, entry.2.IsTextual

namespace Untroubled

/-- The jobs that are listed are those of the rows. -/
theorem exists_listed_iff (h : session.Untroubled opened ledger) {job : Job} :
    (∃ app, job ∈ session.listed app) ↔ ∃ row ∈ ledger.jobs, row.job? = .ok job := by
  have hlisted := listed_of_shows h.isOpen h.shows h.sound fun fault hmem _ => h.faults fault hmem
  constructor
  · rintro ⟨app, hmem⟩
    obtain ⟨row, hrow, hjob⟩ := (Ledger.mem_listed (hlisted app)).mp hmem
    exact ⟨row, List.mem_of_mem_filter hrow, hjob⟩
  · rintro ⟨row, hrow, hjob⟩
    exact ⟨row.app, (Ledger.mem_listed (hlisted row.app)).mpr
      ⟨row, List.mem_filter.mpr ⟨hrow, decide_eq_true rfl⟩, hjob⟩⟩

/-- **What a session says is what its ledger says.** No call fails in it by a fault, so the two
sides of the session are those of the ledger. -/
theorem agreesOn_iff (h : session.Untroubled opened ledger) :
    session.AgreesOn name ↔ ledger.AgreesOn name := by
  -- Every row is listed, for its own application, and nothing else is.
  constructor
  · intro hagrees definition hlookup row hrow hrowName kept hkept
    rw [← definitions_of_shows h.shows] at hlookup
    obtain ⟨app, hmem⟩ := h.exists_listed_iff.mpr ⟨row, hrow, hkept⟩
    exact hagrees.same definition hlookup app kept hmem (hrowName ▸ h.sound.name_of_job? hrow hkept)
  · refine fun hagrees => ⟨fun htracked => ?_, fun definition hlookup app job hmem hjob => ?_⟩
    · -- every row can be read, and so the job of the name is listed
      rw [tracked_of_shows h.isOpen h.shows] at htracked
      obtain ⟨row, hrow, rfl⟩ := List.mem_map.mp htracked
      obtain ⟨job, hjob, hjobName⟩ := h.sound.readable row hrow
      obtain ⟨app, hmem⟩ := h.exists_listed_iff.mpr ⟨row, hrow, hjob⟩
      exact ⟨app, job, hmem, hjobName⟩
    · rw [definitions_of_shows h.shows] at hlookup
      obtain ⟨row, hrow, hkept⟩ := h.exists_listed_iff.mp ⟨app, hmem⟩
      rw [h.sound.name_of_job? hrow hkept] at hjob
      exact hagrees definition hlookup row hrow (Except.ok.inj hjob) job hkept

/-- What a plain deed may place is textual. -/
theorem isTextual_of_places (h : session.Untroubled opened ledger) (hplain : deed.IsPlain)
    {job : Job} (hjob : (session.scopeOf deed).places job) : job.IsTextual := by
  cases deed with
  | define | arm => exact hjob.elim
  | release blueprint called | scale blueprint quantities called =>
    rw [scopeOf] at hjob
    split at hjob
    · next formation hformation =>
      obtain ⟨entry, hmem, rfl⟩ := Value.exists_mem_of_find? hformation
      exact Blueprint.Submits.isTextual hjob hplain (h.formations entry hmem)
    · exact hjob.elim
  | start number | elapse number | cancel number =>
    -- a task places nothing
    rw [scopeOf] at hjob
    split at hjob <;> exact hjob.elim

/-- Plain deeds keep formations textual: a scaling leaves processes with the commands that they
had. -/
theorem formations_of_inherits {after : Session} (h : session.Untroubled opened ledger)
    (hplain : deed.IsPlain) (hinherits : session.Inherits deed after) :
    ∀ entry ∈ after.formations, entry.2.IsTextual := by
  intro entry hmem
  -- A formation is one from before, one that was defined now, or one that scaling left.
  rcases hinherits entry hmem with hold | ⟨called, rfl⟩ | ⟨found, hfound, blueprint, hstems⟩
  · exact h.formations entry hold
  · exact hplain
  · intro named hnamed
    obtain ⟨original, horiginal, hcommand⟩ := (hstems named hnamed).command
    rw [hcommand]
    exact h.formations found hfound original horiginal

/-- **A plain deed keeps a session untroubled.** On a name on which both sides agree they still do,
unless the deed conflicts at the name, and then they do not. -/
theorem afterDeed (h : session.Untroubled opened ledger) (hplain : deed.IsPlain) (name : String) :
    (∃ moved, (session.afterDeed deed).Untroubled opened moved) ∧
      (session.AgreesOn name →
        ((session.afterDeed deed).AgreesOn name ↔ ¬session.Conflicts deed name)) := by
  obtain ⟨record, moved, hstands, hinherits, ⟨faults, rfl, rfl⟩ | hworks⟩ :=
    h.toStands.afterDeed deed
  · -- laying faults in wait leaves nothing on record
    have hafter : (session.afterDeed (.arm faults)).Untroubled opened moved :=
      ⟨hstands, h.sound, hplain, h.formations⟩
    refine ⟨⟨moved, hafter⟩, fun hagrees => iff_of_true ?_ ?_⟩
    · rw [hafter.agreesOn_iff, ← h.agreesOn_iff]
      exact hagrees
    · rintro ⟨definition, job, -, hlast, -⟩
      have hnothing : session.recordOf (.arm faults) = [] := List.drop_length
      rw [hnothing] at hlast
      cases List.suffix_nil.mp hlast
  · have hrecord : session.recordOf deed = record.map fun attempt => .call attempt.call := by
      rw [recordOf, hworks.history, List.drop_left]
    have hfaults : ∀ attempt ∈ record, attempt.fault = none := fun attempt hmem =>
      hworks.spared _ (fun fault hfault _ => h.faults fault hfault) attempt hmem rfl
    obtain ⟨ending, hworked⟩ := hworks.worked
    obtain ⟨hsound, hagreesOn⟩ := hworked.agreesOn name
      (fun job hjob => h.isTextual_of_places hplain hjob) hfaults h.sound
    have hafter : (session.afterDeed deed).Untroubled opened moved := by
      refine ⟨hstands, hsound, fun fault hfault => ?_, h.formations_of_inherits hplain hinherits⟩
      obtain ⟨earlier, hearlier, hstems⟩ := hworks.follows.faults fault hfault
      exact hstems.failure.trans (h.faults earlier hearlier)
    have hechoes := hworks.echoes [] .nil
    refine ⟨⟨moved, hafter⟩, fun hagrees => ⟨?_, fun hno => ?_⟩⟩
    · -- what was scheduled last is still scheduled
      rintro hagreesAfter ⟨definition, job, rfl, hlast, app, kept, hkept, hkeptName, hdiffers⟩
      rw [hrecord] at hlast
      refine hdiffers (hagreesAfter.same definition ?_ app kept hkept hkeptName)
      rw [definitions_of_shows hworks.shows]
      exact hechoes.added definition job none (Ledger.isSuffix_of_calls hfaults hlast)
    · rw [hafter.agreesOn_iff]
      rcases hagreesOn (h.agreesOn_iff.mp hagrees) with hgood | ⟨definition, job, rfl, hlast⟩
      · exact hgood
      · -- a row that the definition does not describe would be a conflict
        intro other hlookup row hrow hrowName kept hkept
        obtain rfl := Option.some.inj
          (hlookup.symm.trans (hechoes.added definition job none hlast))
        by_contra hdiffers
        obtain ⟨app, hmem⟩ := hafter.exists_listed_iff.mpr ⟨row, hrow, hkept⟩
        refine hno ⟨other, job, rfl, ?_, app, kept, hmem,
          hrowName ▸ hsound.name_of_job? hrow hkept, hdiffers⟩
        rw [hrecord]
        exact hlast.map fun attempt => Request.call attempt.call

/-- A session stays untroubled along plain deeds. -/
theorem follow (h : session.Untroubled opened ledger) (history : List Deed)
    (hplain : ∀ deed ∈ history, deed.IsPlain) :
    ∃ moved, (session.follow history).Untroubled opened moved := by
  -- On the history; what name is looked at does not matter here.
  induction history generalizing session ledger with
  | nil => exact ⟨ledger, h⟩
  | cons deed rest ih =>
    obtain ⟨⟨moved, hafter⟩, -⟩ := h.afterDeed (hplain deed List.mem_cons_self) ""
    exact ih hafter fun other hmem => hplain other (List.mem_cons_of_mem _ hmem)

/-- Both sides agree after plain deeds none of which conflicts. -/
theorem agreesOn_follow (h : session.Untroubled opened ledger) {history : List Deed}
    (hplain : ∀ deed ∈ history, deed.IsPlain) (hagrees : session.AgreesOn name)
    (hno : ∀ before deed later, history = before ++ deed :: later →
      ¬(session.follow before).Conflicts deed name) : (session.follow history).AgreesOn name := by
  -- On the history, where each deed is told by what happened before it.
  induction history generalizing session ledger with
  | nil => exact hagrees
  | cons deed rest ih =>
    obtain ⟨⟨moved, hafter⟩, hiff⟩ := h.afterDeed (hplain deed List.mem_cons_self) name
    refine ih hafter (fun other hmem => hplain other (List.mem_cons_of_mem _ hmem))
      ((hiff hagrees).mpr (hno [] deed rest rfl)) fun before other later heq => ?_
    exact hno (deed :: before) other later (congrArg (deed :: ·) heq)

end Untroubled

/-- **Scheduler and job store agree on a job as long as no deed conflicts at its name**, whatever
plain deeds come one after the other, succeed or fail: both sides say the same of the name at every
moment of a history exactly if no deed of the history conflicts at it. -/
theorem agrees_iff_no_conflict (h : session.Untroubled opened ledger) {history : List Deed}
    (hplain : ∀ deed ∈ history, deed.IsPlain) (name : String) (hagrees : session.AgreesOn name) :
    (∀ before later, history = before ++ later → (session.follow before).AgreesOn name) ↔
      ∀ before deed later, history = before ++ deed :: later →
        ¬(session.follow before).Conflicts deed name := by
  constructor
  · -- the two moments around a deed tell whether it conflicts
    rintro hall before deed later rfl
    obtain ⟨moved, hbefore⟩ := h.follow before fun other hmem =>
      hplain other (List.mem_append_left _ hmem)
    obtain ⟨-, hiff⟩ := hbefore.afterDeed
      (hplain deed (List.mem_append_right _ List.mem_cons_self)) name
    refine (hiff (hall before (deed :: later) rfl)).mp ?_
    have hafter := hall (before ++ [deed]) later (List.append_cons _ _ _)
    rwa [follow, List.foldl_append] at hafter
  · rintro hno before later rfl
    refine h.agreesOn_follow (fun other hmem => hplain other (List.mem_append_left _ hmem)) hagrees
      fun front deed rest heq => hno front deed (rest ++ later) ?_
    rw [heq, List.append_assoc, List.cons_append]

/-- A version that is released once more, with another image. -/
def rereleased : List Deed :=
  [.define (.text "formation") (.web 1), .release (.web 1) (.text "formation"),
    .release { Blueprint.web 1 with image := ⟨.text "repo", .text "v2"⟩ } (.text "formation")]

theorem rereleased_isPlain : ∀ deed ∈ rereleased, deed.IsPlain := by
  simp only [rereleased, List.forall_mem_cons]
  refine ⟨fun named hmem => ?_, ⟨⟨_, rfl⟩, _, rfl⟩, ⟨⟨_, rfl⟩, _, rfl⟩, fun _ hmem => nomatch hmem⟩
  rw [List.mem_singleton.mp hmem]
  exact ⟨_, rfl⟩

/-- The scheduler runs the new image then, and the store tells the old one. -/
theorem not_agreesOn_rereleased : ¬(fresh.follow rereleased).AgreesOn "web.1.web.1" := by
  intro hagrees
  have hscheduled : ((fresh.follow rereleased).world.definitions.lookup "web.1.web.1").map
      (fun definition => definition.image.reference?.toOption) = some (some "repo:v2") := by
    decide +kernel
  have hlisted : ((fresh.follow rereleased).listed "web").map
      (fun job => (job.name?.toOption, job.image.reference?.toOption)) =
        [(some "web.1.web.1", some "repo:v1")] := by decide +kernel
  -- Were the images the same, the two references would be as well.
  obtain ⟨definition, hlookup, hnew⟩ := Option.map_eq_some_iff.mp hscheduled
  obtain ⟨job, rest, hjobs, hjob, -⟩ := List.map_eq_cons_iff.mp hlisted
  obtain ⟨hname, hold⟩ := Prod.mk.inj hjob
  have hsame := (hagrees.same definition hlookup "web" job (hjobs ▸ List.mem_cons_self)
    (eq_ok_of_toOption hname)).image
  rw [hsame, hold] at hnew
  exact absurd hnew (by decide)

theorem fresh_untroubled : fresh.Untroubled freshlyOpened ⟨[], [], []⟩ :=
  { fresh_stands with
    sound := (fresh_inOrder "web").sound
    faults := fun _ hmem => nomatch hmem
    formations := fun _ hmem => nomatch hmem }

/-- Such a release ends with a conflict. -/
theorem exists_conflicts_rereleased : ∃ before deed later, rereleased = before ++ deed :: later ∧
    (fresh.follow before).Conflicts deed "web.1.web.1" := by
  have hno := (agrees_iff_no_conflict fresh_untroubled rereleased_isPlain "web.1.web.1"
    ⟨(fun hmem => nomatch hmem), fun _ hlookup => nomatch hlookup⟩).mpr
  by_contra hnone
  exact not_agreesOn_rereleased (hno (fun before deed later heq hconflicts =>
    hnone ⟨before, deed, later, heq, hconflicts⟩) rereleased [] (List.append_nil _).symm)

/-- **Scheduler and job store do not always agree**, although no call fails by a fault. -/
theorem not_always_agrees : ¬∀ history : List Deed, (∀ deed ∈ history, deed.IsPlain) →
    ∀ name, (fresh.follow history).AgreesOn name :=
  fun hall => not_agreesOn_rereleased (hall rereleased rereleased_isPlain _)

end Session

end Rollout
