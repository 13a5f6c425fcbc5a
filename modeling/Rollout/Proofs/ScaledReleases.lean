import Rollout.Proofs.Running

/-!
# Scaling a release is rolling it out at its final quantities

A release gets its jobs in two ways: all at once when it is rolled out, and one by one when it is
scaled. They come to the same. After a rollout of a fresh version and any requests that no fault
meets, the tracked jobs of the version are those that a rollout with the formation as it now is
would have, and the scheduler runs the same definitions under their names
(`Session.scaled_as_rolled_out`).

The invariant is `Session.Matches`: the session has a formation that suits the application, its
ledger runs it, and the cleanup spares the version. A launch establishes it
(`Session.Launched.matches`), every deed keeps it (`Session.Matches.afterDeed`), and it says of each
deed what the deed answers: a request fails only if it is not valid, and then it changes nothing.

`lastRequested? type history` is the quantity that a history last requests of a process type. What
the formation and the process store say in the end follows from it step by step (`Ledger.Heeds`).
-/

namespace Rollout

/-! ### What is requested -/

/-- How many instances of a process type a valid request wants. -/
def requested? (type : String) (quantities : List (Value × Value)) : Option Nat :=
  match ScaleRequest.ofEntries quantities with
  | .ok request => request.lookup type
  | .error _ => none

/-- How many instances of a process type a deed requests. -/
def Deed.requested? (type : String) : Deed → Option Nat
  | .scale _ quantities _ => Rollout.requested? type quantities
  | _ => none

/-- How many instances of a process type a history requests last. A request that is not valid
requests nothing, and a later request prevails over an earlier one. -/
def lastRequested? (type : String) : List Deed → Option Nat
  | [] => none
  | deed :: rest => (lastRequested? type rest).or (deed.requested? type)

/-- What a deed is to answer: a request that is not valid is refused, and all else succeeds. -/
def Deed.due : Deed → Except Failure Unit
  | .scale _ quantities _ =>
    match ScaleRequest.ofEntries quantities with
    | .ok _ => .ok ()
    | .error issues => .error (.invalidQuantities issues)
  | _ => .ok ()

/-- The deed makes a request. -/
def Deed.isRequest : Deed → Bool
  | .scale _ _ _ => true
  | _ => false

namespace Session

/-- Every deed of the history answers what it is to answer, and one that is refused does nothing. It
is a recursion along the history, since what a deed does depends on the session that it finds. -/
def AnswersAsDue : List Deed → Session → Prop
  | [], _ => True
  | deed :: rest, session =>
    (session.perform deed.step).1 = deed.due ∧
      (deed.due.isOk = false → session.afterDeed deed = session) ∧
      AnswersAsDue rest (session.afterDeed deed)

/-- Whenever a request is made, no fault lies in wait for the scheduler or the process store. -/
def RequestsCalmly : List Deed → Session → Prop
  | [], _ => True
  | deed :: rest, session =>
    (deed.isRequest = true → session.world.SparesScheduler ∧ session.world.Spares .update) ∧
      RequestsCalmly rest (session.afterDeed deed)

end Session

/-! ### What becomes of process types -/

namespace Ledger

variable {app type : String} {blueprint : Blueprint} {environment : Environment}
  {formation scaled final : Formation} {ledger moved last : Ledger} {first second : Option Nat}

/-- What became of a process type: if instances were requested of it, the formation and the process
store say so, and if not, both say what they said before. A store that said nothing of the type says
nothing still, since a rollout does not write down what is wanted. -/
def Heeds (app type : String) (requested : Option Nat) (formation : Formation) (ledger : Ledger)
    (scaled : Formation) (moved : Ledger) : Prop :=
  match requested with
  | some target => scaled.count? type = some target ∧ moved.IsWanted app type target
  | none => scaled.count? type = formation.count? type ∧
      ∀ target, ledger.IsWanted app type target → moved.IsWanted app type target

theorem Heeds.refl : Heeds app type none formation ledger formation ledger :=
  ⟨rfl, fun _ hwanted => hwanted⟩

/-- The later request prevails. -/
theorem Heeds.trans (h : Heeds app type first formation ledger scaled moved)
    (h' : Heeds app type second scaled moved final last) :
    Heeds app type (second.or first) formation ledger final last := by
  -- Only the later request matters if there is one; if not, what the first one left is kept.
  cases second with
  | some target => exact h'
  | none =>
    obtain ⟨hsame, hkept⟩ := h'
    cases first with
    | some target => exact ⟨hsame.trans h.1, hkept target h.2⟩
    | none => exact ⟨hsame.trans h.1, fun target hwanted => hkept target (h.2 target hwanted)⟩

theorem Heeds.exists_count? (h : Heeds app type first formation ledger scaled moved) {count : Nat}
    (hcount : formation.count? type = some count) : ∃ count, scaled.count? type = some count := by
  cases first with
  | some target => exact ⟨target, h.1⟩
  | none => exact ⟨count, h.1.trans hcount⟩

/-- **Working a request off heeds it.** -/
theorem Scaled.heeds {request : ScaleRequest} {quantities : List (Value × Value)}
    (hscaled : Scaled app blueprint request ledger formation moved scaled)
    (hrequest : ScaleRequest.ofEntries quantities = .ok request) (hsound : ledger.IsSound)
    (happ : blueprint.release.app = .text app) (htyped : formation.IsTyped)
    (hsuits : formation.Suits app) (hfits : ∀ entry ∈ request, CellNumber.fits entry.2 = true)
    (hdistinct : (request.map (·.1)).Nodup) {count : Nat}
    (hcount : formation.count? type = some count) :
    Heeds app type (requested? type quantities) formation ledger scaled moved := by
  rw [requested?, hrequest]
  dsimp only
  -- Types are named once in a request, so looking a type up finds its one entry.
  cases hlookup : request.lookup type with
  | some target =>
    -- the request names the type: it is at the target, and the target is written down
    have hmem : (type, target) ∈ request := by
      obtain ⟨before, later, rfl, -⟩ := List.lookup_eq_some_iff.mp hlookup
      exact List.mem_append_right _ List.mem_cons_self
    exact ⟨(hscaled.shifted hsound happ htyped hfits hdistinct hmem hcount).1,
      hscaled.isWanted htyped hsuits hfits hdistinct hmem hcount⟩
  | none =>
    -- the request does not name it: nothing of it is touched
    have hnot : type ∉ request.map (·.1) := by
      intro hmem
      obtain ⟨entry, hentry, rfl⟩ := List.mem_map.mp hmem
      exact absurd (List.lookup_eq_none_iff.mp hlookup entry hentry) (by simp)
    exact ⟨(hscaled.untouched hsound happ htyped hfits hnot).count,
      fun _ => hscaled.isWanted_of_not_mem htyped hsuits hfits hnot⟩

end Ledger

/-! ### The jobs of a release -/

/-- A typed release has jobs for every typed formation: its variables make an environment, and every
quantity is a number. -/
theorem Blueprint.exists_jobs {blueprint : Blueprint} {environment : Environment}
    (henvironment : Environment.ofVars blueprint.vars = .ok environment) {formation : Formation}
    (htyped : formation.IsTyped) : ∃ jobs, blueprint.jobs formation = .ok jobs := by
  have hquantities : ∀ entry ∈ formation, ∃ count, entry.2.quantity = .whole count := by
    intro entry hmem
    obtain ⟨count, hquantity, -⟩ := (htyped entry hmem).2.quantity
    exact ⟨count, hquantity⟩
  exact exists_jobs_of_texts henvironment (fun entry hmem => (htyped entry hmem).1) hquantities

/-- **A release has the same jobs with formations that want the same.** The formations may list
their types in different orders and may have been reached in different ways; a job depends on the
count and the command of its type alone. -/
theorem Blueprint.mem_jobs_of_wantsSame {blueprint : Blueprint} {formation other : Formation}
    {jobs jobs' : List Job} (htyped : formation.IsTyped) (hkeyed : formation.IsKeyed)
    (htyped' : other.IsTyped) (hkeyed' : other.IsKeyed) (hsame : formation.WantsSame other)
    (hjobs : blueprint.jobs formation = .ok jobs) (hjobs' : blueprint.jobs other = .ok jobs')
    {job : Job} (hjob : job ∈ jobs) : job ∈ jobs' := by
  obtain ⟨environment, henvironment, hmem⟩ := mem_jobs_of_isKeyed htyped hkeyed hjobs
  obtain ⟨environment', henvironment', hmem'⟩ := mem_jobs_of_isKeyed htyped' hkeyed' hjobs'
  rw [henvironment] at henvironment'
  obtain rfl := Except.ok.inj henvironment'
  -- The job is the n-th of a type; the other formation knows that type, with the same count and the
  -- same command.
  obtain ⟨type, process, count, n, hknown, hquantity, hn, rfl⟩ := (hmem job).mp hjob
  obtain ⟨hcount, hcommand⟩ := hsame type
  rw [Formation.count?_eq_some.mpr ⟨process, hknown, hquantity⟩] at hcount
  obtain ⟨process', hknown', hquantity'⟩ := Formation.count?_eq_some.mp hcount.symm
  rw [Formation.command?, Formation.command?, hknown, hknown'] at hcommand
  have hcommand' : process.command = process'.command := Option.some.inj hcommand
  refine (hmem' _).mpr ⟨type, process', count, n, hknown', hquantity', hn, ?_⟩
  rw [hcommand']

/-- Of the listed jobs, those of the version are the given ones, field by field. Jobs of other
versions are listed as well, until their cleanup is done, and of those nothing is said. -/
structure ListsExactly (version : Int) (jobs listed : List Job) : Prop where
  sound : ∀ kept ∈ listed, kept.version = .int version → ∃ job ∈ jobs, kept.Alike job
  complete : ∀ job ∈ jobs, ∃ kept ∈ listed, kept.version = .int version ∧ kept.Alike job

namespace Ledger

variable {app : String} {version : Int} {blueprint : Blueprint} {environment : Environment}
  {formation : Formation} {ledger : Ledger} {jobs : List Job}

/-- All jobs of a release are held by a ledger that runs its formation. -/
theorem Runs.holds (h : Runs blueprint environment formation ledger) (htyped : formation.IsTyped)
    (hkeyed : formation.IsKeyed)
    (henvironment : Environment.ofVars blueprint.vars = .ok environment)
    (hjobs : blueprint.jobs formation = .ok jobs) : ∀ job ∈ jobs, ledger.Holds job := by
  intro job hjob
  obtain ⟨environment', henvironment', hmem⟩ := Blueprint.mem_jobs_of_isKeyed htyped hkeyed hjobs
  rw [henvironment] at henvironment'
  obtain rfl := Except.ok.inj henvironment'
  obtain ⟨type, process, count, n, hknown, hquantity, hn, rfl⟩ := (hmem job).mp hjob
  exact h.held type process count n hknown hquantity hn

/-- **A ledger that runs a formation lists exactly the jobs of the release.** -/
theorem Runs.listsExactly (h : Runs blueprint environment formation ledger)
    (hsound : ledger.IsSound)
    (hblueprint : blueprint.IsTyped app) (hversion : blueprint.release.version = .int version)
    (htyped : formation.IsTyped) (hkeyed : formation.IsKeyed)
    (henvironment : Environment.ofVars blueprint.vars = .ok environment)
    (hjobs : blueprint.jobs formation = .ok jobs) {listed : List Job}
    (hlisted : (ledger.rowsOf app).mapM JobRow.job? = .ok listed) :
    ListsExactly version jobs listed := by
  -- What is listed under the version comes of an instance that the formation counts, and every job
  -- of the release is held.
  constructor
  · intro kept hkept hkeptVersion
    obtain ⟨row, hrow, hread⟩ := (mem_listed hlisted).mp hkept
    obtain ⟨hrow, hrowApp⟩ := List.mem_filter.mp hrow
    obtain ⟨read, hread', hname⟩ := hsound.readable row hrow
    rw [hread] at hread'
    obtain rfl := Except.ok.inj hread'
    have hkeptApp := app_of_job? hread
    rw [of_decide_eq_true hrowApp] at hkeptApp
    -- the name of the row is the name of an instance, and so of a job of the release
    obtain ⟨fields, -, -, -, -, -, htype, hordinal⟩ := JobName.text?_eq_ok hname
    rw [Job.name?, hkeptApp, hkeptVersion, htype, hordinal, ← hblueprint.app, ← hversion] at hname
    obtain ⟨count, hcount, hfirst, hlast⟩ := (h.instances fields.type fields.ordinal).mp
      ⟨row.name, hname, List.mem_map_of_mem hrow⟩
    obtain ⟨process, hknown, hquantity⟩ := Formation.count?_eq_some.mp hcount
    obtain ⟨n, hn⟩ := Int.eq_ofNat_of_zero_le (show 0 ≤ fields.ordinal - 1 by omega)
    have hordinal' : fields.ordinal = (n + 1 : Nat) := by omega
    rw [hordinal'] at hname
    obtain ⟨environment', henvironment', hmem⟩ := Blueprint.mem_jobs_of_isKeyed htyped hkeyed hjobs
    rw [henvironment] at henvironment'
    obtain rfl := Except.ok.inj henvironment'
    have hjob := (hmem _).mpr ⟨fields.type, process, count, n, hknown, hquantity, by omega, rfl⟩
    exact ⟨_, hjob, (h.held _ _ _ _ hknown hquantity (by omega)).alike hsound hrow hread hname⟩
  · intro job hjob
    have happ := (Blueprint.isStorable_of_mem_jobs hblueprint htyped hjobs hjob).2
    obtain ⟨kept, hkept, halike⟩ :=
      (h.holds htyped hkeyed henvironment hjobs job hjob).exists_listed happ hlisted
    refine ⟨kept, hkept, ?_, halike⟩
    rw [halike.version, Blueprint.version_of_mem_jobs hjobs hjob, hversion]

end Ledger

namespace Session

open Ledger

variable {app : String} {opened : Opened} {session after rolled : Session} {ledger moved : Ledger}
  {blueprint : Blueprint} {environment : Environment} {version : Int} {number : Nat} {name : Value}
  {formation scaled : Formation} {deed : Deed}

theorem InOrder.exists_listed (h : session.InOrder app opened ledger) :
    (ledger.rowsOf app).mapM JobRow.job? = .ok (session.listed app) :=
  listed_of_shows h.isOpen h.shows h.sound h.spares.list app

/-- A session whose ledger runs a formation that suits the application, and in which the task spares
the version. This is what a launch leaves, what every further deed keeps, and what says that a valid
request succeeds. -/
structure Matches (app : String) (opened : Opened) (blueprint : Blueprint)
    (environment : Environment)
    (version : Int) (number : Nat) (name : Value) (session : Session) (ledger : Ledger)
    (formation : Formation) : Prop extends Spares app opened version number session ledger where
  found : session.formation? name = some formation
  suits : formation.Suits app
  runs : ledger.Runs blueprint environment formation

/-- After a rollout, all of its jobs are held. -/
theorem RolledOut.holds {calm : Prop} {placed : Ledger} {task : Task} {jobs : List Job}
    (h : RolledOut app blueprint formation calm ledger placed moved task) (hsound : ledger.IsSound)
    (hblueprint : blueprint.IsTyped app) (htyped : formation.IsTyped)
    (hjobs : blueprint.jobs formation = .ok jobs) : ∀ job ∈ jobs, moved.Holds job := by
  intro job hjob
  -- The jobs were placed, and what is gone since then went by names from before.
  obtain ⟨jobs', gone, hjobs', hplaced, rfl, hgone⟩ := h.exists_gone
  rw [hjobs] at hjobs'
  obtain rfl := Except.ok.inj hjobs'
  obtain ⟨names, hnames, -, -⟩ := hplaced.exists_names
  obtain ⟨given, -, hgiven⟩ := Job.exists_name_of_mem hnames hjob
  have hplacedSound := isSound_of_moves (hplaced.moves fun other hmem =>
    (Blueprint.isStorable_of_mem_jobs hblueprint htyped hjobs hmem).2) hsound
  -- what is gone was tracked before, and no job has such a name
  refine (hplaced.holds job hjob).retireAll hgiven fun hmem => ?_
  exact (hplaced.mem_tracked hplacedSound).2 ⟨job, hjob, hgiven⟩
    (hsound.mem_trackedOf.mp (hgone given hmem)).2

/-- **A launch leaves a session that matches its formation.** -/
theorem Launched.matches
    (h : Launched app opened blueprint version number formation ledger rolled moved)
    (hsound : ledger.IsSound) (hblueprint : blueprint.IsTyped app)
    (hversion : blueprint.release.version = .int version) (htyped : formation.IsTyped)
    (hsuits : formation.Suits app) (hfound : rolled.formation? name = some formation) :
    ∃ environment, Environment.ofVars blueprint.vars = .ok environment ∧
      rolled.Matches app opened blueprint environment version number name moved formation := by
  obtain ⟨_, _, _, hout⟩ := h.rolledOut
  obtain ⟨jobs, hjobs, -⟩ := hout.jobs
  obtain ⟨environment, henvironment, hmem⟩ :=
    Blueprint.mem_jobs_of_isKeyed htyped hsuits.toIsKeyed hjobs
  -- That the instances are those of the formation is known already; what is new is that each is
  -- held with its fields.
  refine ⟨environment, henvironment, h.spares, hfound, hsuits, ?_, ?_⟩
  · exact h.hasInstance_iff hsound hblueprint hversion htyped hsuits.toIsKeyed
  · intro type process count n hknown hquantity hn
    exact hout.holds hsound hblueprint htyped hjobs _
      ((hmem _).mpr ⟨type, process, count, n, hknown, hquantity, hn, rfl⟩)

/-- **A request that no fault meets** fails only if it is not valid, and then it changes nothing;
and it leaves a session that matches its formation. -/
theorem Matches.afterScale
    (h : session.Matches app opened blueprint environment version number name ledger formation)
    (hblueprint : blueprint.IsTyped app) (happ : isFieldName app = true)
    (henvironment : Environment.ofVars blueprint.vars = .ok environment)
    {quantities : List (Value × Value)} (hfits : World.FitQuantities quantities)
    (hdistinct : DistinctTypes quantities) (hcalm : session.world.SparesScheduler)
    (hkeep : session.world.Spares .update) {result : Except Failure Unit}
    (hrun : session.perform (Step.scale blueprint quantities name) = (result, after)) :
    ∃ moved scaled,
      after.Matches app opened blueprint environment version number name moved scaled ∧
      result = (Deed.scale blueprint quantities name).due ∧
      (result.isOk = false → after = session) ∧
      (∀ type, scaled.command? type = formation.command? type) ∧
      ∀ type count, formation.count? type = some count →
        Heeds app type (requested? type quantities) formation ledger scaled moved := by
  obtain ⟨hspares, hfound, hsuits, hruns⟩ := h
  have htyped := hspares.toInOrder.isTyped_formation hfound
  obtain ⟨moved, horder, -, -, htasks, hcase⟩ :=
    perform_scale_cases hspares.toInOrder hblueprint hfits hrun
  have hspares' : after.Spares app opened version number moved :=
    ⟨horder, by rw [htasks]; exact hspares.foreign⟩
  -- The formation is known, so one of three things happened: the request was refused, or worked
  -- off, or stopped.
  rcases hcase with ⟨hnone, -, -⟩ | ⟨_, scaled, hformation, hscaled, hcase⟩
  · rw [hfound] at hnone
    cases hnone
  rw [hfound] at hformation
  obtain rfl := Option.some.inj hformation
  rcases hcase with ⟨issues, hissues, rfl, rfl, rfl⟩ | ⟨request, done, rest, middle, between,
      hrequest, rfl, hdone, hend⟩
  · -- the request is not valid, and nothing was done
    have hrefused : session.perform (Step.scale blueprint quantities name) =
        (.error (.invalidQuantities issues), session) :=
      perform_scale_of_invalid hspares.isOpen hfound hissues
    rw [hrun] at hrefused
    refine ⟨moved, scaled, ⟨hspares', hscaled, hsuits, hruns⟩, ?_,
      fun _ => (Prod.mk.inj hrefused).2, fun _ => rfl, fun type count _ => ?_⟩
    · rw [Deed.due, hissues]
    · rw [requested?, hissues]
      exact .refl
  have hdoneFits : ∀ entry ∈ done, CellNumber.fits entry.2 = true :=
    fun entry hmem => hfits _ hrequest entry (List.mem_append_left _ hmem)
  obtain ⟨hruns', hsuits'⟩ := hruns.of_scaled hdone hspares.sound hblueprint.app henvironment htyped
    hsuits hdoneFits
  rcases hend with ⟨rfl, rfl, rfl, rfl⟩ | ⟨stop, target, tail, failure, rfl, -, hstopped⟩
  · rw [List.append_nil] at hrequest
    refine ⟨moved, scaled, ⟨hspares', hscaled, hsuits', hruns'⟩, ?_,
      (fun hrefused => nomatch hrefused), hdone.command?_eq htyped hdoneFits,
      fun type count hcount => ?_⟩
    · rw [Deed.due, hrequest]
    · exact hdone.heeds hrequest hspares.sound hblueprint.app htyped hsuits hdoneFits
        (hdistinct _ hrequest) hcount
  · -- a ledger that runs its formation stops a request for a fault only, and there is none
    have hmoves := hdone.moves hblueprint.app
    have htarget := hfits _ hrequest (stop, target) (List.mem_append_right _ List.mem_cons_self)
    have htyped' := hdone.isTyped hdoneFits htyped
    exact (hruns'.counts.not_stopped
      ((agrees_of_moves hmoves hspares.agrees).schedulesTracked hblueprint.app)
      (isSound_of_moves hmoves hspares.sound) hblueprint happ htyped'
      (fun _ hknown => hsuits'.isFieldName htyped' hknown) henvironment htarget hcalm hkeep
      hstopped).elim

/-- **Every deed answers what it is to answer**, does nothing if it is refused, and leaves a session
that matches its formation. -/
theorem Matches.afterDeed
    (h : session.Matches app opened blueprint environment version number name ledger formation)
    (hblueprint : blueprint.IsTyped app) (happ : isFieldName app = true)
    (hversion : blueprint.release.version = .int version)
    (henvironment : Environment.ofVars blueprint.vars = .ok environment)
    (hdeed : deed.IsScaling app blueprint number name)
    (hcalm : deed.isRequest = true → session.world.SparesScheduler ∧ session.world.Spares .update) :
    ∃ moved scaled, (session.afterDeed deed).Matches app opened blueprint environment version number
        name moved scaled ∧
      (session.perform deed.step).1 = deed.due ∧
      (deed.due.isOk = false → session.afterDeed deed = session) ∧
      (∀ type, scaled.command? type = formation.command? type) ∧
      ∀ type count, formation.count? type = some count →
        Heeds app type (deed.requested? type) formation ledger scaled moved := by
  -- what a task does is done to other versions, so it moves nothing of this one
  have htask (hdeed : deed.task? = some number) : ∃ moved,
      (session.afterDeed deed).Matches app opened blueprint environment version number name moved
        formation ∧
      ∀ type, Heeds app type none formation ledger formation moved := by
    obtain ⟨gone, hgone, hspares, -, hformations⟩ := h.toSpares.afterTaskDeed hdeed
    refine ⟨_, ⟨hspares, ?_, h.suits, h.runs.retireAll_foreign hblueprint.app hversion hgone⟩,
      fun type => ⟨rfl, fun target hwanted => ?_⟩⟩
    · rw [formation?, hformations]
      exact h.found
    · rw [IsWanted, processes_retireAll]
      exact hwanted
  cases deed with
  | define | release => exact hdeed.elim
  | start | elapse | cancel =>
    obtain ⟨moved, hmatches, hheeds⟩ := htask (congrArg some hdeed)
    exact ⟨moved, formation, hmatches, rfl,
      (fun hrefused => absurd hrefused.symm Bool.false_ne_true), fun _ => rfl,
      fun type _ _ => hheeds type⟩
  | arm faults =>
    exact ⟨ledger, formation, ⟨⟨h.toInOrder.arm hdeed, h.foreign⟩, h.found, h.suits, h.runs⟩, rfl,
      (fun hrefused => absurd hrefused.symm Bool.false_ne_true), fun _ => rfl,
      fun _ _ _ => .refl⟩
  | scale other quantities called =>
    obtain ⟨rfl, rfl, hfits, hdistinct⟩ := hdeed
    -- a request is where calm is needed
    obtain ⟨hscheduler, hupdate⟩ := hcalm rfl
    have hrun : session.perform (Step.scale other quantities called) =
        ((session.perform (Step.scale other quantities called)).1,
          session.afterDeed (.scale other quantities called)) := rfl
    obtain ⟨moved, scaled, hmatches, hanswer, hrefused, hcommands, hheeds⟩ :=
      h.afterScale hblueprint happ henvironment hfits hdistinct hscheduler hupdate hrun
    refine ⟨moved, scaled, hmatches, hanswer, fun hdue => hrefused ?_, hcommands, hheeds⟩
    rw [hanswer]
    exact hdue

/-- **Along a history**: all deeds answer what they are to answer, the session matches its formation
at the end, and the last request for each process type is heeded. -/
theorem Matches.follow
    (h : session.Matches app opened blueprint environment version number name ledger formation)
    (hblueprint : blueprint.IsTyped app) (happ : isFieldName app = true)
    (hversion : blueprint.release.version = .int version)
    (henvironment : Environment.ofVars blueprint.vars = .ok environment) {history : List Deed}
    (hscaling : ∀ deed ∈ history, deed.IsScaling app blueprint number name)
    (hcalm : session.RequestsCalmly history) :
    session.AnswersAsDue history ∧ ∃ last scaled,
      (session.follow history).Matches app opened blueprint environment version number name last
        scaled ∧
      (∀ type, scaled.command? type = formation.command? type) ∧
      ∀ type count, formation.count? type = some count →
        Heeds app type (lastRequested? type history) formation ledger scaled last := by
  -- On the history: each deed leaves a session that matches the formation it left, and the rest
  -- starts there.
  induction history generalizing session ledger formation with
  | nil => exact ⟨trivial, ledger, formation, h, fun _ => rfl, fun _ _ _ => .refl⟩
  | cons deed rest ih =>
    rw [follow_cons]
    obtain ⟨hcalmDeed, hcalmRest⟩ := hcalm
    obtain ⟨moved, scaled, hmatches, hanswer, hrefused, hcommands, hheeds⟩ := h.afterDeed hblueprint
      happ hversion henvironment (hscaling deed List.mem_cons_self) hcalmDeed
    obtain ⟨hanswers, last, final, hlast, hcommands', hheeds'⟩ := ih hmatches
      (fun other hmem => hscaling other (List.mem_cons_of_mem _ hmem)) hcalmRest
    refine ⟨⟨hanswer, hrefused, hanswers⟩, last, final, hlast,
      fun type => (hcommands' type).trans (hcommands type), fun type count hcount => ?_⟩
    -- the rest of the history is about the counts that this deed left
    obtain ⟨count', hcount'⟩ := (hheeds type count hcount).exists_count? hcount
    exact (hheeds type count hcount).trans (hheeds' type count' hcount')

/-- The scheduler runs a job under its name, as the job defines itself. Command, environment and
image are part of the definition. -/
def RunsAsDefined (definitions : Named Definition) (job : Job) : Prop :=
  ∃ definition, Placement.definition? job = .ok definition ∧
    definitions.lookup definition.name = some definition

/-- **Scaling a release is rolling it out at its final quantities.** Let a version be fresh, and its
release be rolled out with a formation that suits the application. Let requests follow, none of
which meets a fault, while the cleanup is left alone or not. Then

* each request succeeds if it is valid, and is refused and does nothing if it is not;
* the tracked jobs of the version are those of the release with the formation as it now is, field by
  field;
* the scheduler runs each of them as it defines itself, and so as after any rollout that is made
  directly at these quantities;
* each known process type of which a quantity was requested has the last of them, in the formation
  and in the process store; one of which none was requested has its first quantity in the formation,
  and nothing is said of the process store, which may know nothing of it; the commands are as they
  were. -/
theorem scaled_as_rolled_out (hstart : session.InOrder app opened ledger)
    (hblueprint : blueprint.IsTyped app) (happ : isFieldName app = true)
    (hversion : blueprint.release.version = .int version) (hfresh : session.IsFresh app version)
    (hformation : session.formation? name = some formation) (hsuits : formation.Suits app)
    (hrolled : session.perform (Step.rollOut blueprint name) = (.ok number, rolled))
    {history : List Deed} (hscaling : ∀ deed ∈ history, deed.IsScaling app blueprint number name)
    (hcalm : rolled.RequestsCalmly history) :
    rolled.AnswersAsDue history ∧
      ∃ scaled jobs, (rolled.follow history).formation? name = some scaled ∧
        blueprint.jobs scaled = .ok jobs ∧
        ListsExactly version jobs ((rolled.follow history).listed app) ∧
        (∀ job ∈ jobs, RunsAsDefined (rolled.follow history).world.definitions job) ∧
        (∀ opened' other ledger' called formation' number' direct,
          InOrder app opened' other ledger' → other.formation? called = some formation' →
          formation'.IsKeyed → scaled.WantsSame formation' →
          other.perform (Step.rollOut blueprint called) = (.ok number', direct) →
          ∀ job ∈ jobs, ∀ given, job.name? = .ok given →
            (rolled.follow history).world.definitions.lookup given =
              direct.world.definitions.lookup given) ∧
        (∀ type, scaled.command? type = formation.command? type) ∧
        ∀ type process, formation.process? type = some process →
          match lastRequested? type history with
          | some target => scaled.count? type = some target ∧
            ∀ cell, (app, type, cell) ∈ (rolled.follow history).wanted ↔ cell = .int target
          | none => scaled.count? type = formation.count? type := by
  obtain ⟨_, launched, hformation', hformations, -, hlaunched⟩ :=
    hfresh.launched hstart hblueprint hrolled
  rw [hformation] at hformation'
  obtain rfl := Option.some.inj hformation'
  have htyped := hstart.isTyped_formation hformation
  have hfound : rolled.formation? name = some formation := by
    rw [formation?, hformations]
    exact hformation
  obtain ⟨environment, henvironment, hmatches⟩ :=
    hlaunched.matches hstart.sound hblueprint hversion htyped hsuits hfound
  obtain ⟨hanswers, last, scaled, hlast, hcommands, hheeds⟩ :=
    hmatches.follow hblueprint happ hversion henvironment hscaling hcalm
  have hscaledTyped := hlast.toInOrder.isTyped_formation hlast.found
  have hkeyed := hlast.suits.toIsKeyed
  -- what a rollout with the formation as it now is would place is held already
  obtain ⟨jobs, hjobs⟩ := Blueprint.exists_jobs henvironment hscaledTyped
  have hholds := hlast.runs.holds hscaledTyped hkeyed henvironment hjobs
  refine ⟨hanswers, scaled, jobs, hlast.found, hjobs, ?_, ?_, ?_, hcommands, ?_⟩
  · exact hlast.runs.listsExactly hlast.sound hblueprint hversion hscaledTyped hkeyed henvironment
      hjobs hlast.toInOrder.exists_listed
  · intro job hjob
    obtain ⟨definition, _, hdefinition, hlookup, -⟩ := hholds job hjob
    rw [hlast.toInOrder.definitions_eq]
    exact ⟨definition, hdefinition, hlookup⟩
  · intro opened' other ledger' called formation' number' direct horder hcalled hkeyed' hsame
      hdirect job hjob given hgiven
    obtain ⟨moved, horder', -, -, -, hcase⟩ := perform_rollOut_cases horder hblueprint hdirect
    rcases hcase with ⟨_, hfailure, -⟩ | ⟨_, _, _, -, hcalled', -, hout⟩
    · cases hfailure
    rw [hcalled] at hcalled'
    obtain rfl := Option.some.inj hcalled'
    have htyped' := horder.isTyped_formation hcalled
    obtain ⟨jobs', hjobs', -⟩ := hout.jobs
    have hjob' := Blueprint.mem_jobs_of_wantsSame hscaledTyped hkeyed htyped' hkeyed' hsame hjobs
      hjobs' hjob
    -- both schedulers run the job as it defines itself
    obtain ⟨definition, _, hdefinition, hlookup, -⟩ := hholds job hjob
    obtain ⟨definition', _, hdefinition', hlookup', -⟩ :=
      hout.holds horder.sound hblueprint htyped' hjobs' job hjob'
    rw [hdefinition] at hdefinition'
    obtain rfl := Except.ok.inj hdefinition'
    rw [Placement.name_of_definition? hdefinition] at hgiven
    obtain rfl := Except.ok.inj hgiven
    rw [hlast.toInOrder.definitions_eq, horder'.definitions_eq, hlookup, hlookup']
  · intro type process hknown
    obtain ⟨count, hcount, -⟩ := htyped.exists_count? hknown
    have hheeded := hheeds type count hcount
    rw [hlast.toInOrder.wanted_eq]
    cases hrequested : lastRequested? type history with
    | some target =>
      rw [hrequested] at hheeded
      exact hheeded
    | none =>
      rw [hrequested] at hheeded
      exact hheeded.1

theorem suits_web (app : String) (count : Nat) : (Formation.web count).Suits app := by
  refine ⟨Formation.isKeyed_web count, fun entry hmem => ?_, fun entry hmem => ?_⟩
  · rw [List.mem_singleton.mp hmem]
    exact ⟨"web", rfl, rfl⟩
  · rw [List.mem_singleton.mp hmem]
    exact .inl rfl

/-- What was scaled from one instance to some number wants the same as what starts with that number.
Only one type has to be looked at, as the commands show that no other type is known. -/
theorem wantsSame_web {count : Nat} (hcount : scaled.count? "web" = some count)
    (hcommands : ∀ type, scaled.command? type = (Formation.web 1).command? type) :
    scaled.WantsSame (Formation.web count) := by
  intro type
  by_cases htype : type = "web"
  · subst htype
    exact ⟨hcount.trans rfl, (hcommands "web").trans rfl⟩
  · have hunknown (n : Nat) : (Formation.web n).process? type = none := by
      rw [Formation.web, Formation.process?_cons_text, if_neg (Ne.symm htype)]
      rfl
    have hcommand := hcommands type
    rw [Formation.command?, Formation.command?, hunknown] at hcommand
    have hscaled : scaled.process? type = none := Option.map_eq_none_iff.mp hcommand
    rw [Formation.count?, Formation.count?, Formation.command?, Formation.command?, hscaled,
      hunknown]
    exact ⟨rfl, rfl⟩

/-- A session with a formation of two instances. -/
def readyForTwo : Session := fresh.afterDeed (.define (.text "formation") (.web 2))

/-- The session in which a release was rolled out there, directly at two instances. -/
def launchedAtTwo : Session := (readyForTwo.perform (Step.rollOut (.web 3) (.text "formation"))).2

/-- Requests up and down, with the end of the grace period between them. -/
def rescaled : List Deed :=
  [.scale (.web 3) (requesting 3) (.text "formation"), .elapse 0,
    .scale (.web 3) (requesting 2) (.text "formation")]

/-- A release that was scaled up and down has the jobs and the definitions of the same release that
was rolled out where it ended. -/
theorem scaled_as_rolled_out_up_and_down :
    launched.AnswersAsDue rescaled ∧
      ∃ scaled jobs, (launched.follow rescaled).formation? (.text "formation") = some scaled ∧
        (Blueprint.web 3).jobs scaled = .ok jobs ∧
        ListsExactly 3 jobs ((launched.follow rescaled).listed "web") ∧
        (∀ job ∈ jobs, ∀ given, job.name? = .ok given →
          (launched.follow rescaled).world.definitions.lookup given =
            launchedAtTwo.world.definitions.lookup given) ∧
        scaled.count? "web" = some 2 ∧
        ∀ cell, ("web", "web", cell) ∈ (launched.follow rescaled).wanted ↔ cell = .int 2 := by
  have hscale (target : Nat) (h : CellNumber.fits target = true) :
      (Deed.scale (.web 3) (requesting target) (.text "formation")).IsScaling "web" (.web 3) 0
        (.text "formation") :=
    ⟨rfl, rfl, fitQuantities_requesting h, distinctTypes_requesting target⟩
  have hscaling : ∀ deed ∈ rescaled, deed.IsScaling "web" (.web 3) 0 (.text "formation") := by
    rw [rescaled]
    simp only [List.forall_mem_cons]
    exact ⟨hscale 3 (by decide +kernel), rfl, hscale 2 (by decide +kernel),
      fun _ hmem => nomatch hmem⟩
  have hcalm {session : Session} (h : session.world.faults = []) :
      session.world.SparesScheduler ∧ session.world.Spares .update :=
    ⟨⟨World.spares_of_no_faults h _, World.spares_of_no_faults h _⟩, World.spares_of_no_faults h _⟩
  have hcalms : launched.RequestsCalmly rescaled :=
    ⟨fun _ => hcalm (by decide +kernel), (fun h => nomatch h), fun _ => hcalm (by decide +kernel),
      trivial⟩
  obtain ⟨hanswers, scaled, jobs, hfound, hjobs, hlisted, -, hdirect, hcommands, htypes⟩ :=
    scaled_as_rolled_out ready_inOrder (Blueprint.isTyped_web (by decide +kernel)) rfl rfl
      (ready_isFresh 3) rfl (suits_web "web" 1) (perform_eq_of_toOption (by decide +kernel))
      hscaling hcalms
  obtain ⟨hcount, hwanted⟩ := htypes "web" _ rfl
  have hready : readyForTwo.InOrder "web" freshlyOpened ⟨[], [], []⟩ :=
    (fresh_inOrder "web").keepFormation _ (Formation.isTyped_web (by decide +kernel))
  exact ⟨hanswers, scaled, jobs, hfound, hjobs, hlisted,
    hdirect _ _ _ _ _ 0 launchedAtTwo hready rfl (Formation.isKeyed_web 2)
      (wantsSame_web hcount hcommands) (perform_eq_of_toOption (by decide +kernel)), hcount,
        hwanted⟩

/-- A release of an application whose name is no field name. -/
def dotted : Blueprint := ⟨⟨.text "a.b", .int 1⟩, ⟨.text "repo", .text "v1"⟩, []⟩

/-- A session with a formation of no instance. -/
def readyForNone : Session := fresh.afterDeed (.define (.text "formation") (.web 0))

/-- The session in which the release of such an application was rolled out there. -/
def launchedDotted : Session := (readyForNone.perform (Step.rollOut dotted (.text "formation"))).2

/-- **Requests do not always succeed, even without faults.** An application whose name is no field
name can have a release as long as the release has no jobs, and cannot be scaled up then; and a
quantity that is negative is refused. -/
theorem not_always_scaled :
    (dotted.IsTyped "a.b" ∧ (∃ ledger, readyForNone.InOrder "a.b" freshlyOpened ledger) ∧
      readyForNone.IsFresh "a.b" 1 ∧ (Formation.web 0).Suits "a.b" ∧
      readyForNone.perform (Step.rollOut dotted (.text "formation")) = (.ok 0, launchedDotted) ∧
      launchedDotted.world.faults = [] ∧
      (launchedDotted.perform
        (Step.scale dotted (requesting 1) (.text "formation"))).1.isOk = false) ∧
    (launched.world.faults = [] ∧
      (launched.perform (Step.scale (.web 3) [(.text "web", .int (-1))]
        (.text "formation"))).1.isOk = false) := by
  refine ⟨⟨⟨rfl, ⟨1, rfl, by decide +kernel⟩, ⟨_, rfl⟩, ⟨_, rfl⟩⟩, ⟨⟨[], [], []⟩, ?_⟩, ?_,
    suits_web "a.b" 0, perform_eq_of_toOption (by decide +kernel), by decide +kernel,
    by decide +kernel⟩, by decide +kernel, by decide +kernel⟩
  · exact (fresh_inOrder "a.b").keepFormation _ (Formation.isTyped_web (by decide +kernel))
  · have hnone : readyForNone.tracked = [] := by decide +kernel
    intro given hmem
    rw [hnone] at hmem
    cases hmem

end Session

end Rollout
