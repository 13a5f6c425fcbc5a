import Rollout.Proofs.Interleaving
import Rollout.Proofs.RepeatedScaling
import Rollout.Proofs.ScaledReleases

/-!
# A cleanup beside the scaling of its release

When a release was rolled out, its cleanup runs on a thread of its own, and no lock keeps it from
running while the release is scaled. `Duo` is such a world: requests to scale the release and the
cleanup, each a strand, that take turns in any order. A turn is one call.

The two do not notice each other (`Duo.not_noticed`), for the requests keep to the part of the new
version, and the cleanup to the names of its jobs, which are of other versions. Each of the two is
compared with itself in a duo that leaves out the turns of the other (`Duo.play_filter`): one's own
turns are taken in both duos (`Duo.ScalesLike.turn_scale`, `Duo.CleansLike.turn_own`), those of the
other in one of them only (`Duo.ScalesLike.turn_other`, `Duo.CleansLike.turn_scale`).

So it is enough that requests that are left alone end as they are to end (`Duo.exists_bound`,
`World.run_scaleAll`): then they do so whatever happens between their calls.
-/

namespace Rollout

open Ledger

/-! ### A version and older names -/

/-- What is held under the names of a version of an application, and all that is wanted of
processes. Names are told by how they begin, and that is enough among names that jobs make. -/
def Part.ofVersion (app : String) (version : Int) : Part where
  names given := decide (IsUnder (app ++ "." ++ toString version) given)
  wanted := true

/-- What is held under some names. -/
def Part.ofNames (names : List String) : Part where
  names given := decide (given ∈ names)
  wanted := false

/-- The names of the jobs that a cleanup is to retire. -/
def Cleanup.names (cleanup : Cleanup) : List String :=
  cleanup.stale.filterMap fun job => job.name?.toOption

section Names

variable {app given : String} {version : Int}

/-- The names of a version begin with it. -/
theorem isUnder_of_text? {kind order : Value}
    (h : JobName.text? (.text app) (.int version) kind order = .ok given) :
    IsUnder (app ++ "." ++ toString version) given := by
  obtain ⟨name, -, -, rfl, happ, hversion, -⟩ := JobName.text?_eq_ok h
  rw [IsUnder, Value.text.inj happ, Value.int.inj hversion, JobName.text]
  simp only [String.toList_append, List.append_assoc, List.prefix_append_right_inj]
  exact ⟨_, rfl⟩

/-- **A name of the application that begins with a version is one of the version.** -/
theorem IsNameOf.isVersionOf (h : IsNameOf app given)
    (hunder : IsUnder (app ++ "." ++ toString version) given) : IsVersionOf app version given := by
  obtain ⟨other, kind, order, htext⟩ := h
  obtain ⟨name, hvalid, -, hgiven, happ, hother, -⟩ := JobName.text?_eq_ok htext
  obtain rfl := Value.text.inj happ
  obtain ⟨rest, hrest⟩ := hunder
  -- the version is the second piece of the name
  have hsplit : (name.app ++ "." ++ toString version).toList ++ ['.'] ++ rest =
      name.app.toList ++ '.' :: ((toString version).toList ++ '.' :: rest) := by
    simp [String.toList_append]
  have hpieces := JobName.pieces_text hvalid
  rw [← hgiven, ← hrest, hsplit, Text.pieces_append (dot_not_mem_of_isFieldName hvalid.1),
    Text.pieces_append (dot_not_mem_toString _)] at hpieces
  have hversion := (List.cons.inj (List.cons.inj hpieces).2).1
  rw [hother, ← toString_int_injective (String.toList_inj.mp hversion)] at htext
  exact ⟨kind, order, htext⟩

theorem Part.covers_ofVersion {release : Release} (happ : release.app = .text app)
    (hversion : release.version = .int version) : (Part.ofVersion app version).Covers release where
  names kind order given h := by
    rw [happ, hversion] at h
    exact decide_eq_true (isUnder_of_text? h)
  wanted := rfl

/-- **A version has nothing in common with names of the application that are not of it.** This sets
a release that is scaled apart from the old generation that is retired. -/
theorem Part.apart_ofNames {names : List String}
    (h : ∀ given ∈ names, IsNameOf app given ∧ ¬IsVersionOf app version given) :
    (Part.ofVersion app version).Apart (Part.ofNames names) where
  names given hgiven := by
    -- A name of the application that begins with the version would be of the version, and none of
    -- these is.
    refine decide_eq_false fun hmem => ?_
    obtain ⟨hof, hnot⟩ := h given hmem
    exact hnot (hof.isVersionOf (of_decide_eq_true hgiven))
  wanted _ := rfl

/-- The names of jobs that have some. -/
theorem Job.NamesOf.filterMap_eq {jobs : List Job} {names : List String}
    (h : Job.NamesOf jobs names) : (jobs.filterMap fun job => job.name?.toOption) = names := by
  induction h with
  | nil => rfl
  | cons hname _ ih =>
    rw [List.filterMap_cons, hname, ih]
    rfl

end Names

/-- **Scaling a release again and again keeps to every part that covers it.** -/
theorem Scale.keepsTo_scaleAll {part : Part} {app : String} {release : Release}
    {calls : List ScaleCall} {formation : Formation} (hcovers : part.Covers release)
    (happ : release.app = .text app)
    (hcalls : ∀ call ∈ calls, call.blueprint.release = release ∧ call.blueprint.IsTextual)
    (hformation : formation.IsTextual) :
    (scaleAll calls formation).KeepsTo part fun _ => True := by
  -- On the requests, each with the formation that the one before it came to.
  induction calls generalizing formation with
  | nil => exact .done trivial
  | cons call rest ih =>
    obtain ⟨rfl, htextual⟩ := hcalls call List.mem_cons_self
    refine .bind (keepsTo_scale hcovers happ htextual call.quantities hformation)
      fun result hresult => ?_
    exact .bind (ih (fun other hmem => hcalls other (List.mem_cons_of_mem _ hmem)) hresult)
      fun _ _ => .done trivial

/-! ### Duos -/

/-- Requests to scale a release and a cleanup, call by call in one world. Each of the two has its
own plan, its own stores and its own faults; what they share is the world. -/
structure Duo where
  world : World
  scaling : Strand (List (Except Failure Unit))
  cleaning : Strand Outcome

/-- What happens next: one of the two makes its next call, or the cleanup is cancelled. A list of
turns is a schedule, and nothing is assumed of which schedules may come. -/
inductive Turn where
  | scale
  | clean
  | cancel
deriving DecidableEq

/-- It is the turn of the requests. -/
def Turn.isScaling (turn : Turn) : Bool := turn == .scale

namespace Duo

/-- One turn. -/
def turn (duo : Duo) : Turn → Duo
  | .scale =>
    let (scaling, world) := duo.scaling.advance duo.world
    { duo with scaling, world }
  | .clean =>
    let (cleaning, world) := duo.cleaning.advance duo.world
    { duo with cleaning, world }
  | .cancel => { duo with cleaning := { duo.cleaning with cancelled := some true } }

/-- Turns, one after the other. -/
def play (duo : Duo) (turns : List Turn) : Duo := turns.foldl turn duo

/-- A release that was rolled out is to be scaled, and the cleanup that came with it is started. No
fault lies in wait for the requests. -/
def start (opened : Opened) (world : World) (cleanup : Cleanup) (faults : List Fault)
    (calls : List ScaleCall) (formation : Formation) : Duo where
  world := world.bare
  scaling := ⟨Scale.scaleAll calls formation, opened.stores, [], none⟩
  cleaning := ⟨cleanup.run .initial, (Task.ofCleanup (some opened.jobs) cleanup).stores, faults,
    some false⟩

/-- Turns that keep a relation between two duos, where the second one takes only some of them. -/
theorem play_filter {related : Duo → Duo → Prop} {own : Turn → Bool}
    (hown : ∀ next duo alone, own next = true → related duo alone →
      related (duo.turn next) (alone.turn next))
    (hother : ∀ next duo alone, own next = false → related duo alone →
      related (duo.turn next) alone)
    {duo alone : Duo} (h : related duo alone) (turns : List Turn) :
    related (duo.play turns) (alone.play (turns.filter own)) := by
  -- On the turns: one that the second duo does not take leaves it where it is.
  induction turns generalizing duo alone with
  | nil => exact h
  | cons next rest ih =>
    cases hnext : own next with
    | true =>
      rw [List.filter_cons_of_pos hnext]
      exact ih (hown next duo alone hnext h)
    | false =>
      rw [List.filter_cons_of_neg (by rw [hnext]; exact Bool.false_ne_true)]
      exact ih (hother next duo alone hnext h)

/-! ### Each strand keeps to its part -/

variable {opened : Opened} {part other : Part} {duo alone : Duo} {ledger mirror : Ledger}

/-- Both strands use the stores that are open, and each keeps to its own part. Every turn keeps
this, whoever takes it, so it is shown once at the start. -/
structure KeepsApart (opened : Opened) (part other : Part) (duo : Duo) : Prop where
  scalingServes : duo.scaling.stores.Serve opened
  cleaningServes : duo.cleaning.stores.Serve opened
  scaling : duo.scaling.plan.KeepsTo part fun _ => True
  cleaning : duo.cleaning.plan.KeepsTo other fun _ => True

theorem KeepsApart.turn (h : duo.KeepsApart opened part other) (next : Turn) :
    (duo.turn next).KeepsApart opened part other := by
  -- The strand whose turn it is goes on with what is left of its plan, and the other one is as it
  -- was.
  cases next with
  | scale =>
    obtain ⟨hkeeps, hstores⟩ := Strand.keepsTo_advance h.scaling duo.world
    exact ⟨hstores ▸ h.scalingServes, h.cleaningServes, hkeeps, h.cleaning⟩
  | clean =>
    obtain ⟨hkeeps, hstores⟩ := Strand.keepsTo_advance h.cleaning duo.world
    exact ⟨h.scalingServes, hstores ▸ h.cleaningServes, h.scaling, hkeeps⟩
  | cancel => exact ⟨h.scalingServes, h.cleaningServes, h.scaling, h.cleaning⟩

/-- Two duos whose requests have come equally far, in worlds that are the same on their part. In the
second one the cleanup may have stayed where it was. -/
structure ScalesLike (opened : Opened) (part other : Part) (duo alone : Duo) : Prop where
  keeps : duo.KeepsApart opened part other
  strand : duo.scaling = alone.scaling
  twins : ∃ ledger mirror, World.Twins opened part duo.world alone.world ledger mirror

/-- Two duos whose cleanups have come equally far, in worlds that are the same on their part. In the
second one no request may have been made. -/
structure CleansLike (opened : Opened) (part other : Part) (duo alone : Duo) : Prop where
  keeps : duo.KeepsApart opened part other
  strand : duo.cleaning = alone.cleaning
  twins : ∃ ledger mirror, World.Twins opened other duo.world alone.world ledger mirror

/-- The next call of the requests, in both duos. -/
theorem ScalesLike.turn_scale (h : duo.ScalesLike opened part other alone) :
    (duo.turn .scale).ScalesLike opened part other (alone.turn .scale) := by
  obtain ⟨ledger, mirror, htwins⟩ := h.twins
  obtain ⟨hstrand, hafter⟩ := duo.scaling.advance_twins h.keeps.scalingServes h.keeps.scaling htwins
  rw [h.strand] at hstrand hafter
  refine ⟨h.keeps.turn .scale, ?_, ?_⟩
  · show (duo.scaling.advance duo.world).1 = (alone.scaling.advance alone.world).1
    rw [h.strand, hstrand]
  · show ∃ ledger mirror, World.Twins opened part (duo.scaling.advance duo.world).2
      (alone.scaling.advance alone.world).2 ledger mirror
    rw [h.strand]
    exact hafter

/-- What the cleanup does is not noticed by the requests. -/
theorem ScalesLike.turn_other (h : duo.ScalesLike opened part other alone)
    (hapart : part.Apart other) {next : Turn} (hnext : next.isScaling = false) :
    (duo.turn next).ScalesLike opened part other alone := by
  refine ⟨h.keeps.turn next, ?_, ?_⟩
  · cases next with
    | scale => cases hnext
    | clean | cancel => exact h.strand
  -- A call of the cleanup happens in one world only, and outside of the part that is compared.
  · cases next with
    | scale => cases hnext
    | clean =>
      obtain ⟨ledger, mirror, htwins⟩ := h.twins
      obtain ⟨moved, hmoved⟩ := duo.cleaning.advance_apart h.keeps.cleaningServes h.keeps.cleaning
        hapart.symm htwins
      exact ⟨moved, mirror, hmoved⟩
    | cancel => exact h.twins

/-- **The requests go on as if nothing else was done**, whatever the cleanup does in between. By
induction on the turns, of which those of the cleanup are not noticed. -/
theorem ScalesLike.play (h : duo.ScalesLike opened part other alone) (hapart : part.Apart other)
    (turns : List Turn) :
    (duo.play turns).ScalesLike opened part other (alone.play (turns.filter Turn.isScaling)) := by
  refine play_filter (fun next duo alone hnext h => ?_)
    (fun next duo alone hnext h => h.turn_other hapart hnext) h turns
  obtain rfl : next = .scale := eq_of_beq hnext
  exact h.turn_scale

/-- The next call of the cleanup, or its cancellation, in both duos. -/
theorem CleansLike.turn_own (h : duo.CleansLike opened part other alone) {next : Turn}
    (hnext : next.isScaling = false) :
    (duo.turn next).CleansLike opened part other (alone.turn next) := by
  cases next with
  | scale => cases hnext
  | clean =>
    obtain ⟨ledger, mirror, htwins⟩ := h.twins
    -- the strand is the same on both sides, and what it meets looks the same to it
    obtain ⟨hstrand, hafter⟩ := duo.cleaning.advance_twins h.keeps.cleaningServes h.keeps.cleaning
      htwins
    rw [h.strand] at hstrand hafter
    refine ⟨h.keeps.turn .clean, ?_, ?_⟩
    · show (duo.cleaning.advance duo.world).1 = (alone.cleaning.advance alone.world).1
      rw [h.strand, hstrand]
    · show ∃ ledger mirror, World.Twins opened other (duo.cleaning.advance duo.world).2
        (alone.cleaning.advance alone.world).2 ledger mirror
      rw [h.strand]
      exact hafter
  | cancel =>
    -- a cancellation changes the strand, which both duos share
    refine ⟨h.keeps.turn .cancel, ?_, h.twins⟩
    show { duo.cleaning with cancelled := some true } =
      { alone.cleaning with cancelled := some true }
    rw [h.strand]

/-- What the requests do is not noticed by the cleanup. -/
theorem CleansLike.turn_scale (h : duo.CleansLike opened part other alone)
    (hapart : part.Apart other) : (duo.turn .scale).CleansLike opened part other alone := by
  obtain ⟨ledger, mirror, htwins⟩ := h.twins
  obtain ⟨moved, hmoved⟩ := duo.scaling.advance_apart h.keeps.scalingServes h.keeps.scaling hapart
    htwins
  exact ⟨h.keeps.turn .scale, h.strand, moved, mirror, hmoved⟩

/-- **The cleanup goes on as if nothing else was done**, whatever is requested in between. By
induction on the turns, with the two sides the other way round. -/
theorem CleansLike.play (h : duo.CleansLike opened part other alone) (hapart : part.Apart other)
    (turns : List Turn) :
    (duo.play turns).CleansLike opened part other
      (alone.play (turns.filter fun next => !next.isScaling)) := by
  refine play_filter (fun next duo alone hnext h => h.turn_own (Bool.not_eq_true' _ ▸ hnext))
    (fun next duo alone hnext h => ?_) h turns
  obtain rfl : next = .scale := eq_of_beq (Bool.not_eq_false' _ ▸ hnext)
  exact h.turn_scale hapart

/-! ### Requests that are left alone -/

/-- When the requests are done, more turns change nothing. -/
theorem play_scale_of_done {endings : List (Except Failure Unit)}
    (h : duo.scaling.plan = .done endings) (count : Nat) :
    duo.play (List.replicate count .scale) = duo := by
  -- On the number of turns, none of which does anything.
  induction count with
  | zero => rfl
  | succ count ih =>
    have hturn : duo.turn .scale = duo := by
      rw [turn, Strand.advance_of_done h]
    show (duo.turn .scale).play (List.replicate count .scale) = duo
    rw [hturn, ih]

/-- **Requests that are left alone and meet no fault come to their end**, and to what they come to
when they are made in one go. -/
theorem exists_bound (hserve : duo.scaling.stores.Serve opened)
    (hshows : duo.world.Shows opened ledger) (hworld : duo.world.bare = duo.world)
    (hfaults : duo.scaling.faults = []) (hcancelled : duo.scaling.cancelled = none) :
    ∃ bound, ∀ count, bound ≤ count →
      (duo.play (List.replicate count .scale)).scaling.result? =
        some (World.run duo.scaling.stores duo.scaling.plan duo.world).1 := by
  -- the induction is on what is left to do, and each turn makes the next call of it
  generalize hplan : duo.scaling.plan = plan
  induction plan generalizing duo ledger with
  | done endings =>
    refine ⟨0, fun count _ => ?_⟩
    rw [play_scale_of_done hplan, Strand.result?, hplan]
    rfl
  | call request next ih =>
    have henter : duo.scaling.enter duo.world = duo.world := by
      rw [Strand.enter, hfaults, hcancelled]
      exact hworld
    -- nobody else is at work, so the strand finds the world as it is, and no fault in it
    have hnone : duo.world.faults = [] := by
      rw [← hworld]
      rfl
    have hidle : duo.world.cancelled = none := by
      rw [← hworld]
      rfl
    obtain ⟨after, hanswer, hshown, hfaults', hcancelled', -⟩ :=
      World.answer_of_no_faults hserve hshows hnone request
    have hbare : after.bare = after := by
      rw [World.bare, ← hfaults', ← hidle, ← hcancelled']
    generalize (ledger.answer (duo.world.moment duo.scaling.stores) request).1 = answer at hanswer
    have hturn : duo.turn .scale =
        { duo with world := after, scaling := { duo.scaling with plan := next answer } } := by
      rw [turn, Strand.advance_of_call hplan ((congrArg _ henter).trans hanswer)]
      dsimp only
      rw [hbare, hfaults'.trans hfaults.symm, (hcancelled'.trans hidle).trans hcancelled.symm]
    obtain ⟨bound, hbound⟩ := @ih answer
      { duo with world := after, scaling := { duo.scaling with plan := next answer } } _ hserve
      hshown hbare hfaults hcancelled rfl
    refine ⟨bound + 1, fun count hle => ?_⟩
    obtain ⟨count, rfl⟩ : ∃ rest, count = rest + 1 := ⟨count - 1, by omega⟩
    show ((duo.turn .scale).play (List.replicate count .scale)).scaling.result? = _
    rw [hturn, hbound count (by omega), World.run, World.run, Plan.run, hanswer]

/-! ### From a rollout on -/

variable {app : String} {version : Int} {release : Release} {cleanup : Cleanup} {world : World}
  {calls : List ScaleCall} {formation : Formation}

/-- At the start each strand keeps to its part: the requests to the version, and the cleanup to the
names of its jobs. -/
theorem keepsApart_start {names : List String} (happ : release.app = .text app)
    (hversion : release.version = .int version) (hevents : cleanup.events = opened.policy.events)
    (hnames : Job.NamesOf cleanup.stale names)
    (hcalls : ∀ call ∈ calls, call.blueprint.release = release ∧ call.blueprint.IsTextual)
    (hformation : formation.IsTextual) (world : World) (faults : List Fault) :
    (start opened world cleanup faults calls formation).KeepsApart opened (.ofVersion app version)
      (.ofNames names) where
  scalingServes := opened.serve_stores
  cleaningServes := ⟨rfl, fun file hfile => absurd hfile.symm (Option.some_ne_none file), hevents⟩
  scaling := Scale.keepsTo_scaleAll (Part.covers_ofVersion happ hversion) happ hcalls hformation
  cleaning := Cleanup.keepsTo_run fun job hmem => by
    obtain ⟨given, hgiven, hname⟩ := Job.exists_name_of_mem hnames hmem
    exact ⟨given, hname, decide_eq_true hgiven⟩

/-- At the start each of the two worlds that are compared is the same one. -/
theorem twins_start (hshows : world.Shows opened ledger) (hsound : ledger.IsSound) (part : Part) :
    World.Twins opened part world.bare world.bare ledger ledger :=
  ⟨hshows.disregard [] none, hshows.disregard [] none, hsound, hsound, .refl part ledger, .refl _⟩

/-- **Cleaning up and scaling do not notice each other.** Let a release of a fresh version be rolled
out, and let requests to scale it be made, with any quantities, while the cleanup that came with the
rollout runs, whatever faults it meets and whenever it is cancelled. However the calls of the two
take turns,

* the requests come as far as they would have come without the cleanup, and what is held of the
  version and wanted of processes is the same as without it;
* the cleanup comes as far as it would have come without the requests, and what is held under the
  names of its jobs is the same as without them;
* after enough calls all requests have ended, each as it is to end: with success, if its quantities
  are valid. For this the application and its process types must make names, and all integers must
  be of 64 bits. -/
theorem not_noticed {blueprint : Blueprint} {launched : World} (hshows : world.Shows opened ledger)
    (hsound : ledger.IsSound) (happ : blueprint.release.app = .text app)
    (hversion : blueprint.release.version = .int version) (hblueprint : blueprint.IsTextual)
    (hformation : formation.IsTextual)
    (hfresh : ∀ given ∈ ledger.tracked, ¬IsVersionOf app version given)
    (hrun : World.run opened.stores (rollOut opened.policy blueprint formation).attempt world =
      (.ok cleanup, launched))
    (hcalls : ∀ call ∈ calls, call.blueprint.release = blueprint.release ∧
      call.blueprint.IsTextual) (faults : List Fault) :
    let first := start opened launched cleanup faults calls formation
    (∀ turns,
      let both := first.play turns
      let scaled := first.play (turns.filter Turn.isScaling)
      let cleaned := first.play (turns.filter fun next => !next.isScaling)
      (both.scaling = scaled.scaling ∧
        World.HoldSame opened (.ofVersion app version) both.world scaled.world) ∧
      both.cleaning = cleaned.cleaning ∧
        World.HoldSame opened (.ofNames cleanup.names) both.world cleaned.world) ∧
    (isFieldName app = true → formation.IsTyped → formation.IsKeyed → formation.IsNamed →
      (∀ call ∈ calls, call.IsRegular app blueprint.release) →
      ∃ bound, ∀ turns, bound ≤ turns.count .scale →
        (first.play turns).scaling.result? = some (calls.map ScaleCall.due)) := by
  intro first
  obtain ⟨placed, hran, hshown, -, -, -⟩ := World.run_ran opened.serve_stores hshows
    (World.isAt_moment opened.stores world) (rollOut opened.policy blueprint formation).attempt
  rw [hrun] at hran hshown
  obtain ⟨hplacedSound, hevents, hnames, jobs, hjobs, hplaced⟩ :=
    hran.placed_of_rollOut rfl hsound happ hblueprint hformation
  -- what is stale was tracked before, and so it is not of the version
  have hapart : (Part.ofVersion app version).Apart (Part.ofNames cleanup.names) := by
    rw [Cleanup.names, hnames.filterMap_eq]
    refine Part.apart_ofNames fun given hgiven => ?_
    obtain ⟨hof, hmem⟩ := hsound.mem_trackedOf.mp hgiven
    exact ⟨hof, hfresh given hmem⟩
  have hkeeps : first.KeepsApart opened (.ofVersion app version) (.ofNames cleanup.names) := by
    rw [Cleanup.names, hnames.filterMap_eq]
    exact keepsApart_start happ hversion hevents hnames hcalls hformation launched faults
  -- at the start each of the two is compared with itself
  have hscales : first.ScalesLike opened (.ofVersion app version) (.ofNames cleanup.names) first :=
    ⟨hkeeps, rfl, placed, placed, twins_start hshown hplacedSound _⟩
  have hcleans : first.CleansLike opened (.ofVersion app version) (.ofNames cleanup.names) first :=
    ⟨hkeeps, rfl, placed, placed, twins_start hshown hplacedSound _⟩
  refine ⟨fun turns => ?_, fun hfield htyped hkeyed hnamed hregular => ?_⟩
  · have hscaled := hscales.play hapart turns
    have hcleaned := hcleans.play hapart turns
    obtain ⟨_, _, htwins⟩ := hscaled.twins
    obtain ⟨_, _, htwins'⟩ := hcleaned.twins
    exact ⟨⟨hscaled.strand, htwins.holdSame⟩, hcleaned.strand, htwins'.holdSame⟩
  · have hbare := hshown.disregard [] none
    -- The bound is that of the requests when they are left alone; the cleanup takes none of their
    -- turns.
    obtain ⟨bound, hbound⟩ := @exists_bound opened first placed hkeeps.scalingServes hbare rfl rfl
      rfl
    refine ⟨bound, fun turns hle => ?_⟩
    -- the requests are as far as they are alone after as many turns
    rw [(hscales.play hapart turns).strand]
    show (first.play (turns.filter (· == .scale))).scaling.result? = _
    rw [List.filter_beq, hbound _ hle]
    exact congrArg some (World.run_scaleAll opened.serve_stores rfl hbare rfl hfield hregular
      (hplaced.inStep hplacedSound happ hversion hfresh htyped hkeyed hnamed hjobs))

theorem isNamed_web (count : Nat) : (Formation.web count).IsNamed := by
  intro key hmem
  rw [List.mem_singleton.mp hmem]
  exact ⟨"web", rfl, rfl⟩

/-- The rollout of a release after another one. -/
def rollingOutNext : Except Failure Cleanup × World :=
  World.run Session.freshlyOpened.stores
    (rollOut Session.freshlyOpened.policy (.web 4) (.web 1)).attempt Session.launched.world

/-- Requests up and down. -/
def upAndDown : List ScaleCall :=
  [⟨.web 4, Session.requesting 3⟩, ⟨.web 4, Session.requesting 2⟩]

/-- The next release can be scaled up and down while the one before it is retired, even if the
scheduler rejects that once. -/
theorem not_noticed_up_and_down :
    ∃ cleanup, rollingOutNext.1 = .ok cleanup ∧ cleanup.names = ["web.3.web.1"] ∧
      let first := start Session.freshlyOpened rollingOutNext.2 cleanup
        [.rejecting .unschedule "web.3.web.1"] upAndDown (.web 1)
      (∀ turns,
        World.HoldSame Session.freshlyOpened (.ofVersion "web" 4) (first.play turns).world
            (first.play (turns.filter Turn.isScaling)).world ∧
          World.HoldSame Session.freshlyOpened (.ofNames ["web.3.web.1"]) (first.play turns).world
            (first.play (turns.filter fun next => !next.isScaling)).world) ∧
      ∃ bound, ∀ turns, bound ≤ turns.count .scale →
        (first.play turns).scaling.result? = some [.ok (), .ok ()] := by
  have hrolled : Session.ready.perform (Step.rollOut (.web 3) (.text "formation")) =
      (.ok 0, Session.launched) := Session.perform_eq_of_toOption (by decide +kernel)
  obtain ⟨_, ledger, -, -, -, hlaunched⟩ := (Session.ready_isFresh 3).launched Session.ready_inOrder
    (Blueprint.isTyped_web (by decide +kernel)) hrolled
  have horder : Session.launched.InOrder "web" Session.freshlyOpened ledger :=
    hlaunched.spares.toInOrder
  -- what is tracked is of the version before
  have hfresh : ∀ given ∈ ledger.tracked, ¬IsVersionOf "web" 4 given := by
    intro given hmem hversion
    rw [← horder.tracked_eq, show Session.launched.tracked = ["web.3.web.1"] by decide +kernel,
      List.mem_singleton] at hmem
    have hthird : IsVersionOf "web" 3 given :=
      ⟨.text "web", .int 1, hmem ▸ eq_ok_of_toOption (by decide +kernel)⟩
    exact absurd (hthird.unique hversion) (by decide)
  obtain ⟨cleanup, hcleanup, hnames⟩ :
      ∃ cleanup, rollingOutNext.1.toOption = some cleanup ∧ cleanup.names = ["web.3.web.1"] :=
    Option.map_eq_some_iff.mp
      (by decide +kernel : rollingOutNext.1.toOption.map Cleanup.names = some ["web.3.web.1"])
  have hrun : rollingOutNext = (.ok cleanup, rollingOutNext.2) :=
    World.run_eq_of_toOption hcleanup
  have htextual : (Blueprint.web 4).IsTextual := ⟨⟨_, rfl⟩, ⟨_, rfl⟩⟩
  have hregular {target : Nat} (h : CellNumber.fits target = true) :
      ScaleCall.IsRegular "web" (Blueprint.web 4).release ⟨.web 4, Session.requesting target⟩ :=
    ⟨rfl, Blueprint.isTyped_web (by decide +kernel), ⟨[], rfl⟩,
      Session.fitQuantities_requesting h⟩
  have hcalls : ∀ call ∈ upAndDown, call.IsRegular "web" (Blueprint.web 4).release ∧
      call.blueprint.IsTextual := by
    rw [upAndDown]
    simp only [List.forall_mem_cons]
    exact ⟨⟨hregular (by decide +kernel), htextual⟩, ⟨hregular (by decide +kernel), htextual⟩,
      fun _ hmem => nomatch hmem⟩
  have hformation : (Formation.web 1).IsTextual := fun entry hmem =>
    ⟨"./run", by rw [List.mem_singleton.mp hmem]⟩
  obtain ⟨hparts, hends⟩ := not_noticed horder.shows horder.sound rfl rfl htextual hformation hfresh
    hrun (fun call hmem => ⟨(hcalls call hmem).1.release, (hcalls call hmem).2⟩)
    [.rejecting .unschedule "web.3.web.1"]
  rw [hnames] at hparts
  exact ⟨cleanup, eq_ok_of_toOption hcleanup, hnames,
    fun turns => ⟨(hparts turns).1.2, (hparts turns).2.2⟩,
    hends rfl (Formation.isTyped_web (by decide +kernel)) (Formation.isKeyed_web 1) (isNamed_web 1)
      fun call hmem => (hcalls call hmem).1⟩

/-- The rollout of a release whose application is no field name, in a world that holds nothing. -/
def rollingOutDotted : Except Failure Cleanup × World :=
  World.run Session.freshlyOpened.stores
    (rollOut Session.freshlyOpened.policy Session.dotted (.web 0)).attempt Session.fresh.world

/-- The rollout of a release there. -/
def rollingOutFirst : Except Failure Cleanup × World :=
  World.run Session.freshlyOpened.stores
    (rollOut Session.freshlyOpened.policy (.web 1) (.web 1)).attempt Session.fresh.world

/-- **Requests do not always end with success, even if nothing else is done.** An application whose
name is no field name can have a release as long as the release has no jobs, and cannot be scaled up
then; and a quantity that is negative is refused. -/
theorem not_always_successful :
    Session.fresh.tracked = [] ∧
    (∃ cleanup, rollingOutDotted.1 = .ok cleanup ∧ (Formation.web 0).IsKeyed ∧
      ((start Session.freshlyOpened rollingOutDotted.2 cleanup []
        [⟨Session.dotted, Session.requesting 1⟩] (.web 0)).play [.scale]).scaling.result?.map
          (·.map Except.isOk) = some [false]) ∧
    ∃ cleanup, rollingOutFirst.1 = .ok cleanup ∧ (Formation.web 1).IsKeyed ∧
      ((start Session.freshlyOpened rollingOutFirst.2 cleanup []
        [⟨.web 1, [(.text "web", .int (-1))]⟩] (.web 1)).play [.scale]).scaling.result?.map
          (·.map Except.isOk) = some [false] := by
  -- both rollouts succeed
  have hsome {result : Except Failure Cleanup} (h : result.isOk = true) :
      ∃ cleanup, result = .ok cleanup := by
    cases result with
    | error failure => cases h
    | ok cleanup => exact ⟨cleanup, rfl⟩
  obtain ⟨cleanup, hcleanup⟩ := hsome (show rollingOutDotted.1.isOk = true by decide +kernel)
  obtain ⟨cleanup', hcleanup'⟩ := hsome (show rollingOutFirst.1.isOk = true by decide +kernel)
  exact ⟨by decide +kernel, ⟨cleanup, hcleanup, Formation.isKeyed_web 0, by rfl⟩, cleanup',
    hcleanup', Formation.isKeyed_web 1, by rfl⟩

end Duo

end Rollout
