import Rollout.Proofs.CleanupStrokes
import Rollout.Proofs.Holdings
import Rollout.Proofs.ReleaseStrokes

/-!
# What deeds do, whatever they ask

Nothing is assumed here about the inputs of a deed, nor about the faults that lie in wait: a release
may be of any application, a scaling may ask for anything, a task may have any stale jobs. What can
be said all the same is that a deed works in strokes, within a scope that can be told beforehand
(`Session.scopeOf`), and that it leaves a record behind.

* `World.Works` says this of a part of a history, from one world to a later one.
* `Task.works` and `Session.Stands.afterDeed` are about the deeds of a session, one after the other.
* `Session.Stands` is what a session needs for it: its world shows a ledger, its tasks use the
  stores that are open, and each of them has stale jobs of the application that it is about.
-/

namespace Rollout

/-! ### Wider scopes -/

/-- All that the one scope allows the other one allows as well. Work can then be spoken of in the
wider scope, as different steps of an operation are. -/
structure Scope.Within (scope wider : Scope) : Prop where
  places : ∀ job, scope.places job → wider.places job
  withdraws : ∀ job, scope.withdraws job → wider.withdraws job
  writes : ∀ process, scope.writes process → wider.writes process
  tries : scope.tries → wider.tries

namespace Scope

theorem within_ofStale {stale : List Job} {wider : Scope}
    (hstale : ∀ job ∈ stale, wider.withdraws job) (htries : wider.tries) :
    (ofStale stale).Within wider :=
  ⟨fun _ hjob => hjob.elim, hstale, fun _ hprocess => hprocess.elim, fun _ => htries⟩

/-- What a release may do together with its cleanup. -/
def ofWholeRelease (blueprint : Blueprint) (formation : Formation) : Scope :=
  { ofRelease blueprint formation fun _ => True with tries := True }

theorem within_ofWholeRelease (blueprint : Blueprint) (formation : Formation) :
    (ofRelease blueprint formation fun _ => True).Within (ofWholeRelease blueprint formation) :=
  ⟨fun _ h => h, fun _ h => h, fun _ h => h, fun _ => trivial⟩

end Scope

namespace Ledger

variable {α : Type} {scope wider : Scope} {now : String} {ledger middle after : Ledger}
  {record : List Attempt} {ending : Option Failure}

theorem Stroke.mono (hwithin : scope.Within wider) (h : Stroke scope now ledger after) :
    Stroke wider now ledger after := by
  cases h with
  | placed hjob hdefinition hrow => exact .placed (hwithin.places _ hjob) hdefinition hrow
  | withdrawn hjob hname hmem => exact .withdrawn (hwithin.withdraws _ hjob) hname hmem
  | wanted hprocess hrow => exact .wanted (hwithin.writes _ hprocess) hrow

theorem Halved.mono {failure : Failure} (hwithin : scope.Within wider)
    (h : Halved scope now record failure ledger after) :
    Halved wider now record failure ledger after := by
  cases h with
  | unadded hjob hdefinition hlast hreason =>
    exact .unadded (hwithin.places _ hjob) hdefinition hlast hreason
  | unremoved hjob hname hmem hfault hreason =>
    exact .unremoved (hwithin.withdraws _ hjob) hname hmem hfault (hreason.imp_right hwithin.tries)

/-- What was done within a scope was done within any wider one. -/
theorem Worked.mono (hwithin : scope.Within wider)
    (h : Worked scope now record ending ledger after) :
    Worked wider now record ending ledger after := by
  obtain ⟨middle, hstrokes, hend⟩ := h
  refine ⟨middle, Relation.ReflTransGen.mono (fun _ _ => Stroke.mono hwithin) _ _ hstrokes, ?_⟩
  exact hend.imp_right fun ⟨failure, hending, hhalved⟩ =>
    ⟨failure, hending, hhalved.mono hwithin⟩

/-! ### What a record tells about the scheduler -/

/-- A definition that was scheduled last, or right before a job was to be tracked, is the one that
the scheduler has. -/
structure Echoes (record : List Attempt) (ledger : Ledger) : Prop where
  scheduled : ∀ definition, [⟨.schedule definition, none⟩] <:+ record →
    ledger.definitions.lookup definition.name = some definition
  added : ∀ definition job fault, [⟨.schedule definition, none⟩, ⟨.add job, fault⟩] <:+ record →
    ledger.definitions.lookup definition.name = some definition

theorem Echoes.nil : Echoes [] ledger where
  scheduled := fun _ hlast => nomatch List.suffix_nil.mp hlast
  added := fun _ _ _ hlast => nomatch List.suffix_nil.mp hlast

/-- One more attempt is echoed if the scheduler has what it scheduled, and if it does not change
what the scheduler has where a job is to be tracked. -/
theorem Echoes.concat {attempt : Attempt} (h : Echoes record ledger)
    (hschedule : ∀ definition, attempt = ⟨.schedule definition, none⟩ →
      after.definitions.lookup definition.name = some definition)
    (hadd : ∀ job, attempt.call = .add job → after.definitions = ledger.definitions) :
    Echoes (record ++ [attempt]) after where
  scheduled := by
    intro definition hlast
    rcases List.suffix_concat_iff.mp hlast with hnil | ⟨front, hfront, -⟩
    · cases hnil
    · have hends : [] ++ [⟨.schedule definition, none⟩] = front ++ [attempt] := hfront
      exact hschedule definition (List.singleton_inj.mp (List.append_inj' hends rfl).2).symm
  added := by
    intro definition job fault hlast
    rcases List.suffix_concat_iff.mp hlast with hnil | ⟨front, hfront, hsuffix⟩
    · cases hnil
    · -- the job was scheduled just before, and tracking it moved nothing in the scheduler
      have hends : [⟨.schedule definition, none⟩] ++ [⟨.add job, fault⟩] = front ++ [attempt] :=
        hfront
      obtain ⟨rfl, hattempt⟩ := List.append_inj' hends rfl
      obtain rfl := List.singleton_inj.mp hattempt
      rw [hadd job rfl]
      exact h.scheduled definition hsuffix

/-- A call that does not go on record leaves the scheduler alone. -/
theorem definitions_answer_of_unrecorded {stores : Stores} {request : Call}
    (h : stores.records request = false) (moment : Moment) (ledger : Ledger) :
    (ledger.answer moment request).2.definitions = ledger.definitions := by
  cases request with
  | schedule definition =>
    -- only a definition without an image reference stays off the record
    rw [answer]
    split
    · next reference href =>
      rw [Stores.records, href] at h
      cases h
    · rfl
  | unschedule | report | log | wait => cases h
  | list | cancelled => rfl
  | add job =>
    rw [answer]
    split <;> rfl
  | remove job =>
    rw [answer]
    split <;> rfl
  | update process =>
    rw [answer]
    split
    · split <;> rfl
    · rfl

/-- **What a run leaves on record tells what the scheduler has**, as soon as what was on record
before did. -/
theorem Ran.echoes {stores : Stores} {moment : Moment} {plan : Plan Collaborators α} {result : α}
    (h : Ran stores moment plan ledger record result after) {earlier : List Attempt}
    (hearlier : Echoes earlier ledger) : Echoes (earlier ++ record) after := by
  induction h generalizing earlier with
  | done =>
    rw [List.append_nil]
    exact hearlier
  | @failed request next ledger after failure record result hrecords hrest ih =>
    rw [List.append_cons]
    -- a fault that failed changed nothing
    exact ih (hearlier.concat (fun definition heq => nomatch heq) fun _ _ => rfl)
  | @made request next ledger after cancelled record result hrest ih =>
    rw [← List.append_assoc]
    refine ih ?_
    rw [Stores.noted]
    split
    · next hrecords =>
      -- the call was made: if it scheduled a definition, the scheduler has it now
      refine hearlier.concat (fun definition heq => ?_) fun job heq => ?_
      · obtain rfl : request = .schedule definition := congrArg Attempt.call heq
        rw [Stores.records] at hrecords
        rw [answer]
        split
        · show (Named.set _ _ _).lookup _ = _
          rw [Named.lookup_set, if_pos rfl]
        · next failure href =>
          rw [href] at hrecords
          cases hrecords
      · obtain rfl : request = .add job := heq
        rw [answer]
        split <;> rfl
    · next hrecords =>
      rw [List.append_nil]
      have hsame := definitions_answer_of_unrecorded (Bool.eq_false_iff.mpr hrecords)
        { moment with cancelled } ledger
      exact ⟨fun definition hlast => hsame ▸ hearlier.scheduled definition hlast,
        fun definition job fault hlast => hsame ▸ hearlier.added definition job fault hlast⟩

end Ledger

/-! ### Parts of a history -/

namespace World

variable {α : Type} {opened : Opened} {scope wider : Scope} {stores : Stores}
  {world middle after : World} {ledger between moved : Ledger} {record later : List Attempt}

/-- The time as it is written down. -/
def clock (world : World) : String := (Calendar.timestamp world.site.now).toOption.getD ""

/-- From the world to the later one there was work within the scope, which left the record. The two
worlds show the ledgers, and the record is what the history has grown by. -/
structure Works (opened : Opened) (scope : Scope) (ledger moved : Ledger) (record : List Attempt)
    (world after : World) : Prop where
  shows : after.Shows opened moved
  follows : world.Follows after
  machine : after.machine = world.machine
  worked : ∃ ending, Ledger.Worked scope world.clock record ending ledger moved
  history : after.history = world.history ++ record.map fun attempt => .call attempt.call
  echoes : ∀ earlier, Ledger.Echoes earlier ledger → Ledger.Echoes (earlier ++ record) moved
  /-- A call failed by a fault only where one lay in wait. -/
  spared : ∀ point, world.Spares point → ∀ attempt ∈ record,
    (Request.call attempt.call).point = point → attempt.fault = none

namespace Works

/-- Nothing was done. -/
theorem refl (scope : Scope) (hshows : world.Shows opened ledger) :
    world.Works opened scope ledger ledger [] world where
  shows := hshows
  follows := .refl world
  machine := rfl
  worked := ⟨none, .refl ledger⟩
  history := (List.append_nil _).symm
  echoes := fun earlier h => (List.append_nil earlier).symm ▸ h
  spared := fun _ _ _ hmem => nomatch hmem

theorem mono (hwithin : scope.Within wider)
    (h : world.Works opened scope ledger moved record after) :
    world.Works opened wider ledger moved record after :=
  { h with worked := h.worked.imp fun _ hworked => hworked.mono hwithin }

/-- One part of a history and then another one, where the first one came to its end. -/
theorem trans (h : world.Works opened scope ledger between record middle)
    (hstrokes : Ledger.Strokes scope world.clock ledger between)
    (h' : middle.Works opened scope between moved later after) :
    world.Works opened scope ledger moved (record ++ later) after where
  shows := h'.shows
  follows := h.follows.trans h'.follows
  machine := h'.machine.trans h.machine
  worked := by
    obtain ⟨ending, hworked⟩ := h'.worked
    -- both parts are clocked alike, as the world stays where it is
    rw [clock, h.follows.site, ← clock] at hworked
    exact ⟨ending, .trans hstrokes hworked record⟩
  history := by rw [h'.history, h.history, List.map_append, List.append_assoc]
  echoes := by
    intro earlier hearlier
    rw [← List.append_assoc]
    exact h'.echoes _ (h.echoes earlier hearlier)
  spared := by
    intro point hspares attempt hmem
    rcases List.mem_append.mp hmem with hfirst | hsecond
    · exact h.spared point hspares attempt hfirst
    · exact h'.spared point (h.follows.spares hspares) attempt hsecond

/-- Whether the world knows of a cleanup is of no interest afterwards. -/
theorem of_inWorld {cancelled : Bool} (hidle : world.cancelled = none)
    (h : ({ world with cancelled := some cancelled } : World).Works opened scope ledger moved record
      after) : world.Works opened scope ledger moved record { after with cancelled := none } where
  shows := Task.shows_cancelled h.shows
  follows := Task.follows_inWorld hidle h.follows
  machine := h.machine
  worked := h.worked
  history := h.history
  echoes := h.echoes
  spared := h.spared

end Works

/-- **A run in a world is a part of a history**, within any scope within which it works on a
ledger. -/
theorem works_of_run (scope : Scope) (plan : Plan Collaborators α) (hserve : stores.Serve opened)
    (hshows : world.Shows opened ledger)
    (hworked : ∀ {record result moved},
      Ledger.Ran stores (world.moment stores) plan ledger record result moved →
        ∃ ending, Ledger.Worked scope world.clock record ending ledger moved) :
    ∃ record moved,
      Ledger.Ran stores (world.moment stores) plan ledger record (run stores plan world).1 moved ∧
      world.Works opened scope ledger moved record (run stores plan world).2 := by
  obtain ⟨moved, hran, hshown, hfollows, hmoment, hhistory⟩ :=
    run_ran hserve hshows (isAt_moment stores world) plan
  have hmachine := congrArg Ledger.Moment.machine (hmoment true)
  exact ⟨_, moved, hran, hshown, hfollows, hmachine, hworked hran, hhistory,
    fun _ hearlier => hran.echoes hearlier, fun _ => faults_of_mem_attempts hserve hshows⟩

end World

/-! ### Tasks -/

namespace Task

variable {opened : Opened} {task before : Task} {world : World} {ledger : Ledger}

/-- What a task became worked at its stale jobs. -/
def Worked (opened : Opened) (task : Task) (ledger : Ledger) (world : World)
    (done : Task × World) : Prop :=
  done.2.cancelled = none ∧ done.1.SameAs task ∧ ∃ record moved,
    world.Works opened (.ofStale task.cleanup.stale) ledger moved record done.2

/-- A task that went on worked. -/
theorem worked_proceed (hsame : task.SameAs before) (hserve : before.stores.Serve opened)
    (hshows : world.Shows opened ledger) (hidle : world.cancelled = none)
    (grace : Except Failure Bool) :
    before.Worked opened ledger world (task.proceed grace world) := by
  have hknown : ({ world with cancelled := some task.cancelled } : World).Shows opened ledger :=
    shows_cancelled hshows
  have hserve' : task.stores.Serve opened := hsame.stores_eq ▸ hserve
  obtain ⟨record, moved, -, hworks⟩ := World.works_of_run (.ofStale before.cleanup.stale)
    (task.cleanup.afterGrace task.progress grace) hserve' hknown
    fun hran => ⟨_, hsame.cleanup ▸ Ledger.Worked.of_afterGrace hran⟩
  exact ⟨rfl, ⟨hsame.cleanup, hsame.jobs⟩, record, moved, hworks.of_inWorld hidle⟩

/-- A deed that is done to a task. Whichever it is, the work that comes of it is part of the same
run. -/
def IsDeed (work : Task → World → Task × World) : Prop :=
  work = start ∨ work = elapse ∨ work = cancel

/-- **What is done to a task** is work at its stale jobs, if anything. -/
theorem worked_of_isDeed {work : Task → World → Task × World} (hwork : IsDeed work)
    (hserve : task.stores.Serve opened) (hshows : world.Shows opened ledger)
    (hidle : world.cancelled = none) : task.Worked opened ledger world (work task world) := by
  have hnothing {other : Task} (hsame : other.SameAs task) :
      task.Worked opened ledger world (other, world) :=
    ⟨hidle, hsame, [], ledger, .refl _ hshows⟩
  rcases hwork with rfl | rfl | rfl
  · -- a task that waits already is not started again
    rw [start]
    split
    · exact hnothing ⟨rfl, rfl⟩
    dsimp only [inWorld]
    generalize hrun : World.run (Task.stores { task with crash := none })
      (Call.ask (.wait task.cleanup.grace)) { world with cancelled := some task.cancelled } = waited
    obtain ⟨grace, last⟩ := waited
    -- the wait comes first, and does nothing
    have hknown : ({ world with cancelled := some task.cancelled } : World).Shows opened ledger :=
      shows_cancelled hshows
    obtain ⟨record, moved, hran, hworks⟩ := World.works_of_run (.ofStale task.cleanup.stale)
      (Call.ask (.wait task.cleanup.grace)) hserve hknown
      fun hran => ⟨none, .of_eq hran.wait_cases⟩
    obtain rfl := hran.wait_cases
    have hlast : World.run task.stores (Call.ask (.wait task.cleanup.grace))
      { world with cancelled := some task.cancelled } = (grace, last) := hrun
    rw [hlast] at hworks
    have hbefore := hworks.of_inWorld hidle
    -- then the task waits for its grace period, or goes on at once
    have hgone {other : Task} (hsame : other.SameAs task) :
        task.Worked opened moved world (other.proceed grace { last with cancelled := none }) := by
      obtain ⟨hidle', hsame', later, after, hworks'⟩ :=
        worked_proceed hsame hserve hbefore.shows rfl grace
      exact ⟨hidle', hsame', _, after, hbefore.trans .refl hworks'⟩
    dsimp only
    split
    · split
      · exact ⟨rfl, ⟨rfl, rfl⟩, record, moved, hbefore⟩
      · exact hgone ⟨rfl, rfl⟩
    · exact hgone ⟨rfl, rfl⟩
  · rw [elapse]
    split
    · exact worked_proceed ⟨rfl, rfl⟩ hserve hshows hidle _
    · exact hnothing ⟨rfl, rfl⟩
  · have hsame : ({ task with cancelled := true } : Task).SameAs task := ⟨rfl, rfl⟩
    rw [cancel]
    dsimp only
    split
    · exact worked_proceed hsame hserve hshows hidle _
    · exact hnothing ⟨rfl, rfl⟩

end Task

/-! ### Sessions -/

namespace Session

variable {opened : Opened} {session : Session} {ledger : Ledger}

/-- The world of the session shows the ledger, and its tasks use the stores that are open and are to
retire jobs of the application that they are about. -/
structure Stands (opened : Opened) (session : Session) (ledger : Ledger) : Prop where
  isOpen : session.opened = some opened
  shows : session.world.Shows opened ledger
  idle : session.world.cancelled = none
  serves : ∀ task ∈ session.tasks, task.stores.Serve opened
  stale : ∀ task ∈ session.tasks, ∀ app, task.cleanup.release.app = .text app →
    ∀ job ∈ task.cleanup.stale, job.app = .text app

/-- What a deed may do to a session, as far as it works. -/
def scopeOf (session : Session) : Deed → Scope
  | .release blueprint name | .scale blueprint _ name =>
    match session.formation? name with
    | some formation => .ofWholeRelease blueprint formation
    | none => .ofStale []
  | .start number | .elapse number | .cancel number =>
    match session.tasks[number]? with
    | some task => .ofStale task.cleanup.stale
    | none => .ofStale []
  | .define _ _ | .arm _ => .ofStale []

/-- The formations after a deed are those from before, the one that it defines, and those that a
scaling made of them. -/
def Inherits (session : Session) (deed : Deed) (after : Session) : Prop :=
  ∀ entry ∈ after.formations, entry ∈ session.formations ∨ (∃ name, deed = .define name entry.2) ∨
    ∃ found ∈ session.formations, ∃ blueprint,
      ∀ named ∈ entry.2, named.2.StemsFrom blueprint found.2

theorem inherits_of_eq {after : Session} (deed : Deed)
    (h : after.formations = session.formations) : session.Inherits deed after :=
  fun _ hmem => .inl (h ▸ hmem)

namespace Stands

/-- A session stands as its world goes on, if its tasks stay the same. -/
theorem goOn (h : session.Stands opened ledger) {moved : Ledger} {world : World}
    {tasks : List Task} (hshows : world.Shows opened moved) (hidle : world.cancelled = none)
    (htasks : ∀ task ∈ tasks, ∃ earlier ∈ session.tasks, task.SameAs earlier) :
    ({ session with world, tasks } : Session).Stands opened moved where
  isOpen := h.isOpen
  shows := hshows
  idle := hidle
  serves := by
    intro task hmem
    obtain ⟨earlier, hearlier, hsame⟩ := htasks task hmem
    rw [Task.stores, hsame.jobs, hsame.cleanup]
    exact h.serves earlier hearlier
  stale := by
    intro task hmem
    obtain ⟨earlier, hearlier, hsame⟩ := htasks task hmem
    rw [hsame.cleanup]
    exact h.stale earlier hearlier

/-- A session stands with one more task, if that uses the stores that are open and is to retire jobs
of the application that it is about. -/
theorem addTask (h : session.Stands opened ledger) {moved : Ledger} {world : World} {task : Task}
    (hshows : world.Shows opened moved) (hidle : world.cancelled = none)
    (hserve : task.stores.Serve opened)
    (hstale : ∀ app, task.cleanup.release.app = .text app →
      ∀ job ∈ task.cleanup.stale, job.app = .text app) :
    ({ session with world, tasks := session.tasks ++ [task] } : Session).Stands opened moved where
  isOpen := h.isOpen
  shows := hshows
  idle := hidle
  serves := by
    intro other hmem
    rcases List.mem_append.mp hmem with hold | hnew
    · exact h.serves other hold
    · rw [List.mem_singleton.mp hnew]
      exact hserve
  stale := by
    intro other hmem
    rcases List.mem_append.mp hmem with hold | hnew
    · exact h.stale other hold
    · rw [List.mem_singleton.mp hnew]
      exact hstale

/-- **What is done to a task** of a session. -/
theorem onTask (h : session.Stands opened ledger) (number : Nat)
    {work : Task → World → Task × World} (hwork : Task.IsDeed work) :
    let after := (session.perform (Step.onTask number work)).2
    ∃ record moved, after.Stands opened moved ∧ after.formations = session.formations ∧
      session.world.Works opened (match session.tasks[number]? with
        | some task => .ofStale task.cleanup.stale
        | none => .ofStale []) ledger moved record after.world := by
  cases htask : session.tasks[number]? with
  | none =>
    rw [perform_onTask_none _ htask]
    exact ⟨[], ledger, h, rfl, .refl _ h.shows⟩
  | some task =>
    rw [perform_onTask _ htask]
    have hmem := List.mem_of_getElem? htask
    obtain ⟨hidle, hsame, record, moved, hworks⟩ :=
      Task.worked_of_isDeed hwork (h.serves task hmem) h.shows h.idle
    refine ⟨record, moved, h.goOn hworks.shows hidle fun other hother => ?_, rfl, hworks⟩
    rcases List.mem_or_eq_of_mem_set hother with hold | rfl
    · exact ⟨other, hold, rfl, rfl⟩
    · exact ⟨task, hmem, hsame⟩

/-- **What a release does**: it is rolled out, and if that comes to its end, its task is started. -/
theorem release (h : session.Stands opened ledger) (blueprint : Blueprint) (name : Value) :
    let after := session.afterDeed (.release blueprint name)
    ∃ record moved, after.Stands opened moved ∧ after.formations = session.formations ∧
      session.world.Works opened (session.scopeOf (.release blueprint name)) ledger moved record
        after.world := by
  intro after
  have hafter : after = (session.perform (Step.rollOut blueprint name)).2 :=
    afterDeed_release blueprint name session
  rw [hafter, scopeOf]
  cases hformation : session.formation? name with
  | none =>
    -- what is not defined cannot be rolled out
    rw [Step.rollOut, perform_bind, perform_opened h.isOpen]
    dsimp only
    rw [perform_bind, perform_formation, hformation]
    exact ⟨[], ledger, h, rfl, .refl _ h.shows⟩
  | some formation =>
    have hwithin := Scope.within_ofWholeRelease blueprint formation
    obtain ⟨record, placed, hran, hworks⟩ := World.works_of_run
      (.ofWholeRelease blueprint formation) (rollOut opened.policy blueprint formation).attempt
      opened.serve_stores h.shows fun hran => ⟨_, Ledger.Worked.mono hwithin
        (.of_rollOut _ rfl (fun _ _ _ _ => trivial) hran)⟩
    cases hrolled : World.run opened.stores (rollOut opened.policy blueprint formation).attempt
        session.world with
    | mk rolled world₁ =>
      rw [hrolled] at hran hworks
      have hidle := hworks.follows.idle h.idle
      cases rolled with
      | error failure =>
        -- a rollout that fails leaves no task
        rw [perform_rollOut_of_error h.isOpen hformation hrolled]
        exact ⟨record, placed, h.goOn hworks.shows hidle fun task hmem => ⟨task, hmem, rfl, rfl⟩,
          rfl, hworks⟩
      | ok cleanup =>
        -- the rollout came to its end with strokes only, and the task works on from there
        have hstrokes := (Ledger.Worked.mono hwithin
          (.of_rollOut _ rfl (fun _ _ _ _ => trivial) hran)).strokes
        obtain ⟨hlisted, hrelease, hevents, -⟩ := hran.rollOut_ok
        have hserve : (Task.ofCleanup (some opened.jobs) cleanup).stores.Serve opened :=
          ⟨rfl, fun file hfile => absurd hfile.symm (Option.some_ne_none file), hevents⟩
        have hstale : ∀ app, cleanup.release.app = .text app →
            ∀ job ∈ cleanup.stale, job.app = .text app := by
          intro app happ
          rw [hrelease] at happ
          rw [happ] at hlisted
          exact Ledger.app_of_mem_listed hlisted
        cases hstart : (Task.ofCleanup (some opened.jobs) cleanup).start world₁ with
        | mk task world₂ =>
          obtain ⟨hidle', hsame, later, moved, hlater⟩ :=
            Task.worked_of_isDeed (.inl rfl) hserve hworks.shows hidle
          rw [hstart] at hidle' hsame hlater
          rw [perform_rollOut_of_ok h.isOpen hformation hrolled hstart]
          -- what the task is to retire was listed for the application of the release
          have hwithin' : (Scope.ofStale cleanup.stale).Within
              (.ofWholeRelease blueprint formation) := Scope.within_ofStale
            (fun job hmem app happ => hstale app (hrelease ▸ happ) job hmem) trivial
          refine ⟨_, moved, h.addTask hlater.shows hidle' ?_ ?_, rfl,
            hworks.trans hstrokes (hlater.mono hwithin')⟩
          · rw [Task.stores, hsame.jobs, hsame.cleanup]
            exact hserve
          · rw [hsame.cleanup]
            exact hstale

/-- **What a scaling does**: it works within the scope of its release. -/
theorem scale (h : session.Stands opened ledger) (blueprint : Blueprint)
    (quantities : List (Value × Value)) (name : Value) :
    let after := session.afterDeed (.scale blueprint quantities name)
    ∃ record moved, after.Stands opened moved ∧
      session.Inherits (.scale blueprint quantities name) after ∧
      session.world.Works opened (session.scopeOf (.scale blueprint quantities name)) ledger moved
        record after.world := by
  intro after
  have hafter : after = (session.perform (Step.scale blueprint quantities name)).2 := rfl
  rw [hafter, scopeOf]
  cases hformation : session.formation? name with
  | none =>
    rw [Step.scale, Step.scaleBy, perform_bind, perform_formation, hformation]
    exact ⟨[], ledger, h, inherits_of_eq _ rfl, .refl _ h.shows⟩
  | some formation =>
    have hwithin := Scope.within_ofWholeRelease blueprint formation
    obtain ⟨record, moved, hran, hworks⟩ := World.works_of_run
      (.ofWholeRelease blueprint formation) (Scale.scale blueprint quantities formation)
      opened.serve_stores h.shows fun hran => ⟨_, Ledger.Worked.mono hwithin
        (Ledger.Worked.of_scale _ rfl (fun _ _ _ _ => trivial) hran).1⟩
    rw [perform_scale_of_some h.isOpen hformation (Prod.eta _).symm]
    have hgone := h.goOn hworks.shows (hworks.follows.idle h.idle)
      fun task hmem => ⟨task, hmem, rfl, rfl⟩
    refine ⟨record, moved, ⟨hgone.isOpen, hgone.shows, hgone.idle, hgone.serves, hgone.stale⟩,
      fun entry hmem => ?_, hworks⟩
    rcases Value.mem_insert hmem with hold | hnew
    · exact .inl hold
    · -- what the scaling left stems from what it found
      obtain ⟨found, hfound, rfl⟩ := Value.exists_mem_of_find? hformation
      obtain ⟨-, hstems⟩ :=
        Ledger.Worked.of_scale (fun _ => True) rfl (fun _ _ _ _ => trivial) hran
      exact .inr (.inr ⟨found, hfound, blueprint, hnew ▸ hstems⟩)

/-- **What a deed does**, whatever it asks: faults are laid in wait, or it works within its
scope. -/
theorem afterDeed (h : session.Stands opened ledger) (deed : Deed) :
    ∃ record moved, (session.afterDeed deed).Stands opened moved ∧
      session.Inherits deed (session.afterDeed deed) ∧
      ((∃ faults, deed = .arm faults ∧ moved = ledger) ∨
        session.world.Works opened (session.scopeOf deed) ledger moved record
          (session.afterDeed deed).world) := by
  cases deed with
  | define name formation =>
    refine ⟨[], ledger, ⟨h.isOpen, h.shows, h.idle, h.serves, h.stale⟩, fun entry hmem => ?_,
      .inr (.refl _ h.shows)⟩
    rcases Value.mem_insert hmem with hold | hnew
    · exact .inl hold
    · exact .inr (.inl ⟨name, hnew ▸ rfl⟩)
  | release blueprint name =>
    obtain ⟨record, moved, hstands, hsame, hworks⟩ := h.release blueprint name
    exact ⟨record, moved, hstands, inherits_of_eq _ hsame, .inr hworks⟩
  | scale blueprint quantities name =>
    obtain ⟨record, moved, hstands, hinherits, hworks⟩ := h.scale blueprint quantities name
    exact ⟨record, moved, hstands, hinherits, .inr hworks⟩
  | start number =>
    obtain ⟨record, moved, hstands, hsame, hworks⟩ := h.onTask number (.inl rfl)
    exact ⟨record, moved, hstands, inherits_of_eq _ hsame, .inr hworks⟩
  | elapse number =>
    obtain ⟨record, moved, hstands, hsame, hworks⟩ := h.onTask number (.inr (.inl rfl))
    exact ⟨record, moved, hstands, inherits_of_eq _ hsame, .inr hworks⟩
  | cancel number =>
    obtain ⟨record, moved, hstands, hsame, hworks⟩ := h.onTask number (.inr (.inr rfl))
    exact ⟨record, moved, hstands, inherits_of_eq _ hsame, .inr hworks⟩
  | arm faults =>
    exact ⟨[], ledger, ⟨h.isOpen, h.shows.of_same rfl rfl rfl, h.idle, h.serves, h.stale⟩,
      inherits_of_eq _ rfl, .inl ⟨faults, rfl, rfl⟩⟩

/-- **A session stands after every history.** By induction on the history, whatever becomes of its
deeds. -/
theorem follow (h : session.Stands opened ledger) (history : List Deed) :
    ∃ moved, (session.follow history).Stands opened moved := by
  induction history generalizing session ledger with
  | nil => exact ⟨ledger, h⟩
  | cons deed rest ih =>
    obtain ⟨record, moved, hstands, -⟩ := h.afterDeed deed
    exact ih hstands

end Stands

theorem fresh_stands : fresh.Stands freshlyOpened ⟨[], [], []⟩ where
  isOpen := rfl
  shows := (fresh_inOrder "web").shows
  idle := rfl
  serves := fun _ hmem => nomatch hmem
  stale := fun _ hmem => nomatch hmem

end Session

end Rollout
